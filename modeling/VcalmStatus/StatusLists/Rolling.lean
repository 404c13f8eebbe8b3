import VcalmStatus.Effects.Schedule
import VcalmStatus.StatusLists.Choosing
import Mathlib.Algebra.Order.Floor.Semiring
import Mathlib.Data.Finset.Card
import Mathlib.Data.Rat.Floor

/-!
Rolling bounds the fill of a list.

A call counts, and inserts later. Between the two it is pending on the list: it has a reason to
insert and has not done so. Once a list is at the threshold no call gets a new reason, so the
allocations still to come are at most the calls that were pending when the threshold was reached,
and those were all in flight then.
-/

namespace VcalmStatus

open Js Effects Policy

namespace World

variable {env : Environment} {i : Nat} {w w' : World} {o : Operation} {r : o.Answer}

/-- An allocation that went in is the only thing that counts. -/
theorem countAllocations_step (h : w.step env i o = some (r, w')) (listId : String) :
    (w'.db.countAllocations listId = w.db.countAllocations listId ∧
      ∀ a, (⟨o, r⟩ : Seen) = ⟨.insertAllocation a, true⟩ → a.listId ≠ listId) ∨
    ∃ a, (⟨o, r⟩ : Seen) = ⟨.insertAllocation a, true⟩ ∧ a.listId = listId ∧
      w'.db.countAllocations listId = w.db.countAllocations listId + 1 := by
  by_cases ho : ∃ a, o = .insertAllocation a
  · obtain ⟨a, rfl⟩ := ho
    have hresp := (step_eq_some.mp h).2
    simp only [respond] at hresp
    split at hresp
    · cases hresp
      by_cases ha : a.listId = listId
      · exact .inr ⟨a, rfl, ha, by simp [insertAllocation, Database.countAllocations, ha]⟩
      · refine .inl ⟨by simp [insertAllocation, Database.countAllocations, ha], ?_⟩
        rintro _ ⟨⟩
        exact ha
    · cases hresp
      exact .inl ⟨rfl, by simp⟩
  · refine .inl ⟨?_, fun a hseen => absurd ⟨a, congrArg Sigma.fst hseen⟩ ho⟩
    cases effect_of_step h with
    | allocated hadmits => exact absurd ⟨_, rfl⟩ ho
    | committed =>
        cases hu : (w.transaction i).write <;>
          simp [commit, release, apply, hu, Database.countAllocations, Database.update]
    | _ => rfl

end World

/-- A call that names the list it allocates in. -/
def ManagerCall.Targets : ManagerCall → String → Prop
  | .allocateIndex _ _ _ listId, target => listId = target
  | .allocateForCredential _ _ _ (some listId), target => listId = target
  | _, _ => False

/-- The call leaves the choice of the list to the manager. -/
def ManagerCall.Chooses (call : ManagerCall) : Prop :=
  ∃ tenantId credentialId statusPurpose,
    call = .allocateForCredential tenantId credentialId statusPurpose none

/-- The call has begun and has not ended. -/
structure InFlight (calls : Nat → ManagerCall) (τ : List ServiceMoment)
    (q : Pool Operation Operation.Answer JsError ManagerResult World Nat) (i : Nat) : Prop where
  chooses : (calls i).Chooses
  begun : own i τ ≠ []
  running : (q.thread i).outcome? = none

/-- A reason to insert into a list of this length. -/
def Reason {B : Type} (deps : ManagerDeps B) (listId : String) (length : Nat) (l : List Seen) :
    Prop :=
  (∃ used : Nat, (⟨.countAllocations listId, used⟩ : Seen) ∈ l ∧
    (used : ℚ) < deps.threshold length) ∨
  ∃ row, (⟨.insertStatusList row, true⟩ : Seen) ∈ l ∧ row.id = listId

/-- A call that has a reason to insert into the list and has not inserted yet. -/
structure Pending {B : Type} (deps : ManagerDeps B) (listId : String) (length : Nat)
    (calls : Nat → ManagerCall) (τ : List ServiceMoment)
    (q : Pool Operation Operation.Answer JsError ManagerResult World Nat) (i : Nat) : Prop
    extends InFlight calls τ q i where
  reason : Reason deps listId length (own i τ)
  unallocated : Unallocated (own i τ)

section Rolling

variable {B : Type} {deps : ManagerDeps B} {env : Environment} {calls : Nat → ManagerCall}
  {q : Pool Operation Operation.Answer JsError ManagerResult World Nat} {τ : List ServiceMoment}
  {i : Nat} {listId : String} {length full : Nat}

/-- The lists a thread was shown were the lists of the tenant and purpose then. -/
theorem saw_lists (h : Pool.Traced (World.step env) (managerPool deps calls) τ q)
    {tenantId : String} {statusPurpose : StatusPurpose} {lists : List StatusListRecord}
    (hseen : (⟨.findStatusLists tenantId (some statusPurpose) none, lists⟩ : Seen) ∈ own i τ) :
    ∃ m ∈ τ, m.thread = i ∧
      lists = m.state.db.findStatusLists tenantId (some statusPurpose) none := by
  obtain ⟨m, hm, hi, hms⟩ := mem_own.mp hseen
  exact ⟨m, hm, hi, h.answers hm hms rfl⟩

/-- A list that was selected gives the reason to insert into it. -/
theorem reason_of_selected (h : Pool.Traced (World.step env) (managerPool deps calls) τ q)
    (hlength : ∀ row ∈ q.state.db.statusLists, row.id = listId →
      row.characteristics.length = length) {tenantId : String} {statusPurpose : StatusPurpose}
    {list : StatusListRecord} (hid : list.id = listId)
    (hselected : StatusListManager.Selected deps tenantId statusPurpose (own i τ) list) :
    Reason deps listId length (own i τ) := by
  cases hselected with
  | @chosen older newer _ used hseen hcount hunder hnewer =>
      obtain ⟨m, hm, hi, hlists⟩ := saw_lists h hseen
      have hmem : list ∈ m.state.db.findStatusLists tenantId (some statusPurpose) none := by
        rw [← hlists]
        simp
      obtain ⟨row, hrow, hsame⟩ := (h.extends (managerCalls_good deps calls) hm).2.lists list
        (Database.mem_findStatusLists.mp hmem).1
      have hrowlength := hlength row hrow (hsame.binding.id.symm.trans hid)
      rw [← hsame.binding.characteristics] at hrowlength
      exact .inl ⟨used, hid ▸ hcount, hrowlength ▸ hunder⟩
  | minted hseen hfull hinserted htenant hpurpose => exact .inr ⟨list, hinserted, hid⟩

/-- Whoever inserts into a list that no call names is pending on it. -/
theorem pending_of_insert (h : Pool.Traced (World.step env) (managerPool deps calls) τ q)
    (hlength : ∀ row ∈ q.state.db.statusLists, row.id = listId →
      row.characteristics.length = length)
    (hother : ∀ i, ¬(calls i).Targets listId) {a : IndexAllocation} (ha : a.listId = listId)
    (hallowed : (calls i).Allowed deps (own i τ) (.insertAllocation a))
    (hrunning : (q.thread i).outcome? = none) :
    Pending deps listId length calls τ q i := by
  obtain ⟨haims, hrolls⟩ := hallowed
  have haims := haims a rfl
  have hne : ∀ l : List Seen, Reason deps listId length l → l ≠ [] := by
    rintro l (⟨_, hmem, _⟩ | ⟨_, hmem, _⟩) rfl <;> cases hmem
  cases hcall : calls i with
  | createList input =>
      rw [hcall] at haims
      exact haims.elim
  | status call =>
      rw [hcall] at haims
      exact haims.elim
  | allocateIndex tenantId credentialId statusPurpose target =>
      rw [hcall] at haims
      refine absurd ?_ (hother i)
      rw [hcall]
      exact Eq.trans (Eq.symm haims) ha
  | allocateForCredential tenantId credentialId statusPurpose chosen =>
      cases chosen with
      | some target =>
          rw [hcall] at haims
          obtain ⟨list, hseen, hid⟩ := haims
          obtain ⟨m, hm, _, hms⟩ := mem_own.mp hseen
          have hans : some list = m.state.db.getStatusList target := h.answers hm hms rfl
          refine absurd ?_ (hother i)
          rw [hcall]
          exact (Database.mem_of_getStatusList hans.symm).2.symm.trans (hid.symm.trans ha)
      | none =>
          obtain ⟨hfree, list, hid, hselected⟩ := hrolls _ _ _ hcall
          have hreason := reason_of_selected h hlength (hid.trans ha) hselected
          exact ⟨⟨⟨_, _, _, hcall⟩, hne _ hreason, hrunning⟩, hreason, hfree⟩

/-- A list that is full gives nobody a new reason, if nobody goes on with one that is. -/
theorem reason_of_snoc {w w' : World} {o : Operation} {r : o.Answer} {l : List Seen}
    (hstep : w.step env i o = some (r, w')) (hI : (callsPolicy False calls).Inv env w)
    (hpos : 0 < full) (hthreshold : deps.threshold length ≤ full)
    (hfull : full ≤ w.db.countAllocations listId)
    (h : Reason deps listId length (l ++ [⟨o, r⟩])) : Reason deps listId length l := by
  rcases h with ⟨used, hmem, hused⟩ | ⟨row, hmem, hid⟩
  · rcases List.mem_append.mp hmem with hmem | hmem
    · exact .inl ⟨used, hmem, hused⟩
    · cases List.mem_singleton.mp hmem
      have hcount : used = w'.db.countAllocations listId := (World.quiet_step rfl hstep).2
      obtain ⟨⟨tick, rfl⟩, _⟩ := World.quiet_step rfl hstep
      have hcounted : (full : ℚ) ≤ used := by
        rw [hcount]
        exact_mod_cast hfull
      exact absurd hused (not_lt.mpr (hthreshold.trans hcounted))
  · rcases List.mem_append.mp hmem with hmem | hmem
    · exact .inr ⟨row, hmem, hid⟩
    · cases List.mem_singleton.mp hmem
      -- A list that has just gone in had no row before, so nothing was allocated in it.
      have hnone : w.db.getStatusList row.id = none := by
        have hresp := (World.step_eq_some.mp hstep).2
        simp only [World.respond] at hresp
        split at hresp <;> rename_i hrow
        · cases hresp
        · simpa using hrow
      have hzero : w.db.countAllocations listId = 0 := by
        refine List.countP_eq_zero.mpr fun a ha => ?_
        obtain ⟨row', hrow', hid', _⟩ := hI.fits a ha
        have hne := Database.getStatusList_eq_none.mp hnone row' hrow'
        simpa [← hid, ← hid'] using hne
      rw [hzero] at hfull
      exact absurd hfull (Nat.not_le_of_lt hpos)

/-- What one step leaves pending that was not the step of an insert was pending before. -/
theorem Pending.before {o : Operation} {k : o.Answer → Async ManagerResult} {r : o.Answer}
    {w' : World} (hI : (callsPolicy False calls).Inv env q.state)
    (hthread : q.thread i = .call o k) (hstep : q.state.step env i o = some (r, w'))
    (hpos : 0 < full) (hthreshold : deps.threshold length ≤ full)
    (hfull : full ≤ q.state.db.countAllocations listId) {j : Nat}
    (h : Pending deps listId length calls (τ ++ [⟨i, q.state, ⟨o, r⟩⟩])
      ⟨w', Function.update q.thread i (k r)⟩ j) :
    Pending deps listId length calls τ q j := by
  obtain ⟨⟨hchooses, hbegun, hrunning⟩, hreason, hfree⟩ := h
  by_cases hj : i = j
  · subst hj
    rw [own_append, own_self] at hreason hfree
    have hreason := reason_of_snoc hstep hI hpos hthreshold hfull hreason
    refine ⟨⟨hchooses, ?_, by rw [hthread]; rfl⟩, hreason, hfree.of_append⟩
    intro hnil
    rw [hnil] at hreason
    rcases hreason with ⟨_, hmem, _⟩ | ⟨_, hmem, _⟩ <;> cases hmem
  · rw [own_append, own_of_ne hj, List.append_nil] at hreason hfree hbegun
    exact ⟨⟨hchooses, hbegun, by simpa [Function.update_of_ne (Ne.symm hj)] using hrunning⟩,
      hreason, hfree⟩

/-- At most so many calls without a chosen list are in flight, whenever one looks. -/
def AtMostInFlight {B : Type} (deps : ManagerDeps B) (env : Environment)
    (calls : Nat → ManagerCall) (τ : List ServiceMoment) (k : Nat) : Prop :=
  ∀ τ₁ q₁, τ₁ <+: τ → Pool.Traced (World.step env) (managerPool deps calls) τ₁ q₁ →
    ∀ S : Finset Nat, (∀ i ∈ S, InFlight calls τ₁ q₁ i) → S.card ≤ k

/-- The invariant: once the list is full, what is allocated and what is pending stay together under
the bound. By induction on the run; the insert that makes the list full is the one step that uses
the number of calls in flight. -/
theorem pending_bounded {k : Nat}
    (h : Pool.Traced (World.step env) (managerPool deps calls) τ q)
    (hk : AtMostInFlight deps env calls τ k)
    (hlength : ∀ row ∈ q.state.db.statusLists, row.id = listId →
      row.characteristics.length = length)
    (hother : ∀ i, ¬(calls i).Targets listId)
    (hpos : 0 < full) (hthreshold : deps.threshold length ≤ full)
    (hfull : full ≤ q.state.db.countAllocations listId) (S : Finset Nat)
    (hS : ∀ i ∈ S, Pending deps listId length calls τ q i) :
    q.state.db.countAllocations listId + S.card + 1 ≤ full + k := by
  induction h generalizing S with
  | nil => exact absurd hfull (Nat.not_le_of_lt hpos)
  | @snoc τ q i o c r w' h hthread hstep ih =>
      have hgood := run_good (managerCalls_good deps calls) h.run
      have hrun : Pool.Run (World.step env) q ⟨w', Function.update q.thread i (c r)⟩ :=
        .single (.call hthread hstep)
      have hkτ : AtMostInFlight deps env calls τ k := fun τ₁ q₁ hpre =>
        hk τ₁ q₁ (hpre.trans (List.prefix_append _ _))
      have hlengthq : ∀ row ∈ q.state.db.statusLists, row.id = listId →
          row.characteristics.length = length := by
        intro row hrow hid
        obtain ⟨row', hrow', hsame⟩ := (run_extends hgood hrun).lists row hrow
        rw [hsame.binding.characteristics]
        exact hlength row' hrow' (hsame.binding.id.symm.trans hid)
      have ih := ih hkτ hlengthq
      rcases World.countAllocations_step hstep listId with ⟨hcount, _⟩ | ⟨a, hseen, ha, hcount⟩
      · -- No insert into the list: whoever is pending was pending before.
        have hfullq : full ≤ q.state.db.countAllocations listId := by
          rw [← hcount]
          exact hfull
        show w'.db.countAllocations listId + S.card + 1 ≤ _
        rw [hcount]
        exact ih hfullq S fun j hj => (hS j hj).before hgood.inv hthread hstep hpos
          hthreshold hfullq
      · cases hseen
        have hallowed : (calls i).Allowed deps (own i τ) (.insertAllocation a) :=
          (h.snoc hthread hstep).allowed (m := ⟨i, q.state, ⟨.insertAllocation a, true⟩⟩)
            ((calls i).watched deps) List.prefix_rfl
        have hpending := pending_of_insert h hlengthq hother ha hallowed (by rw [hthread]; rfl)
        have hnot : i ∉ S := by
          intro hi
          refine (hS i hi).unallocated a ?_
          rw [own_append, own_self]
          exact List.mem_append_right _ (List.mem_singleton_self _)
        have hothers : ∀ j ∈ S, InFlight calls τ q j ∧ own j τ = own j (τ ++
            [⟨i, q.state, ⟨.insertAllocation a, true⟩⟩]) := by
          intro j hj
          have hne : i ≠ j := fun heq => hnot (heq ▸ hj)
          obtain ⟨hchooses, hbegun, hrunning⟩ := (hS j hj).toInFlight
          rw [own_append, own_of_ne hne, List.append_nil] at hbegun ⊢
          exact ⟨⟨hchooses, hbegun, by simpa [Function.update_of_ne (Ne.symm hne)] using hrunning⟩,
            rfl⟩
        show w'.db.countAllocations listId + S.card + 1 ≤ _
        rw [hcount]
        by_cases hfullq : full ≤ q.state.db.countAllocations listId
        · have hle := ih hfullq (insert i S) fun j hj => by
            rcases Finset.mem_insert.mp hj with rfl | hj
            · exact hpending
            · obtain ⟨hflight, hown⟩ := hothers j hj
              exact ⟨hflight, hown ▸ (hS j hj).reason, hown ▸ (hS j hj).unallocated⟩
          rw [Finset.card_insert_of_notMem hnot] at hle
          omega
        · -- This insert makes the list full; everybody pending is in flight beside it.
          have hle := hkτ τ q List.prefix_rfl h (insert i S) fun j hj => by
            rcases Finset.mem_insert.mp hj with rfl | hj
            · exact hpending.toInFlight
            · exact (hothers j hj).1
          rw [Finset.card_insert_of_notMem hnot] at hle
          have hnow : q.state.db.countAllocations listId + 1 = full := by
            have hge : full ≤ w'.db.countAllocations listId := hfull
            omega
          omega

/-- The indexes of a list are distinct, so there never are more of them than it is long. -/
theorem countAllocations_le {w t : World} (hI : (callsPolicy False calls).Inv env w)
    (hIt : (callsPolicy False calls).Inv env t) (ht : (callsPolicy False calls).Extends w t)
    {list : StatusListRecord} (hlist : list ∈ t.db.statusLists) :
    w.db.countAllocations list.id ≤ list.characteristics.length := by
  let held := w.db.indexAllocations.filter fun a => a.listId = list.id
  have hnodup : (held.map (·.statusListIndex)).Nodup := by
    have hpairs : (held.map fun a => (a.listId, a.statusListIndex)).Nodup :=
      hI.indexes_nodup.sublist (List.filter_sublist.map _)
    refine List.Nodup.map_on (fun a ha b hb hab => ?_) (.of_map _ hpairs)
    have hlistId : a.listId = b.listId := by
      rw [(show a.listId = list.id by simpa using (List.mem_filter.mp ha).2),
        (show b.listId = list.id by simpa using (List.mem_filter.mp hb).2)]
    exact List.inj_on_of_nodup_map hpairs ha hb (by rw [hlistId, hab])
  have hrange : held.map (·.statusListIndex) ⊆ List.range list.characteristics.length := by
    intro index hindex
    obtain ⟨a, ha, rfl⟩ := List.mem_map.mp hindex
    obtain ⟨hmem, hid⟩ := List.mem_filter.mp ha
    obtain ⟨row, hrow, hrowid, _, hlt, _⟩ := hIt.fits a (ht.allocations a hmem)
    rw [hIt.eq_of_id hrow hlist (hrowid.trans (by simpa using hid))] at hlt
    exact List.mem_range.mpr hlt
  have hle := hnodup.length_le_of_subset hrange
  rwa [List.length_map, List.length_range, ← List.countP_eq_length_filter] at hle

/-- Up to the numbers that are doubles, rounding does not lift the threshold over an integer. -/
theorem threshold_le (hfull : full ≤ maxSafeInteger)
    (h : length * deps.rollAtFill.value ≤ full) : deps.threshold length ≤ full :=
  Double.times_le (Nat.lt_of_le_of_lt hfull (by decide)) h

end Rolling

/-! ### Which list a call goes on with -/

/-- Thread `i` counted this many allocations of the list. -/
def Counted (i : Nat) (τ : List ServiceMoment) (listId : String) (used : Nat) : Prop :=
  ∃ m ∈ τ, m.thread = i ∧ m.seen.1 = .countAllocations listId ∧
    m.state.db.countAllocations listId = used

/-- The list was at or above the threshold, as it is computed, when thread `i` counted it. -/
def FullWhenCounted {B : Type} (deps : ManagerDeps B) (i : Nat) (τ : List ServiceMoment)
    (list : StatusListRecord) : Prop :=
  ∃ used, Counted i τ list.id used ∧
    deps.threshold list.characteristics.length ≤ (used : ℚ)

/-- Thread `i` was shown these lists of the tenant and purpose, and they were all there were. -/
def Shown (i : Nat) (τ : List ServiceMoment) (tenantId : String) (statusPurpose : StatusPurpose)
    (lists : List StatusListRecord) : Prop :=
  ∃ m ∈ τ, m.thread = i ∧ m.seen = ⟨.findStatusLists tenantId (some statusPurpose) none, lists⟩ ∧
    m.state.db.findStatusLists tenantId (some statusPurpose) none = lists

/-- The list thread `i` goes on with: the newest of the lists it was shown that it counted under
the threshold, as it is computed, or one it made when it had counted all of them full. One that was
under the threshold as computed was under it. -/
inductive RolledOnto {B : Type} (deps : ManagerDeps B) (i : Nat) (τ : List ServiceMoment)
    (tenantId : String) (statusPurpose : StatusPurpose) (list : StatusListRecord) : Prop
  | chosen {older newer : List StatusListRecord} {used : Nat}
      (hshown : Shown i τ tenantId statusPurpose (older ++ list :: newer))
      (htenant : list.tenantId = tenantId) (hpurpose : list.statusPurpose = statusPurpose)
      (hcount : Counted i τ list.id used)
      (hunder : (used : ℚ) < list.characteristics.length * deps.rollAtFill.value)
      (hcounted : (used : ℚ) < deps.threshold list.characteristics.length)
      (holder : ∀ other ∈ older, other.createdAt ≤ list.createdAt)
      (hnewer : ∀ other ∈ newer, list.createdAt ≤ other.createdAt ∧ FullWhenCounted deps i τ other) :
      RolledOnto deps i τ tenantId statusPurpose list
  | minted {lists : List StatusListRecord} (hshown : Shown i τ tenantId statusPurpose lists)
      (hfull : ∀ other ∈ lists, FullWhenCounted deps i τ other)
      (hminted : ∃ m ∈ τ, m.thread = i ∧ m.seen = ⟨.insertStatusList list, true⟩)
      (htenant : list.tenantId = tenantId) (hpurpose : list.statusPurpose = statusPurpose) :
      RolledOnto deps i τ tenantId statusPurpose list

theorem Database.findStatusLists_sorted (db : Database) (t : String) (p : Option StatusPurpose)
    (n : Option String) :
    (db.findStatusLists t p n).Pairwise fun a b => a.createdAt ≤ b.createdAt := by
  have : Std.Total fun a b : StatusListRecord => a.createdAt ≤ b.createdAt :=
    ⟨fun a b => Nat.le_total a.createdAt b.createdAt⟩
  have : IsTrans StatusListRecord fun a b => a.createdAt ≤ b.createdAt :=
    ⟨fun _ _ _ => Nat.le_trans⟩
  exact List.pairwise_insertionSort _ _

section Selecting

variable {B : Type} {deps : ManagerDeps B} {env : Environment} {calls : Nat → ManagerCall}
  {q : Pool Operation Operation.Answer JsError ManagerResult World Nat} {τ : List ServiceMoment}
  {i : Nat} {tenantId : String} {statusPurpose : StatusPurpose} {list : StatusListRecord}

theorem shown_of_seen (h : Pool.Traced (World.step env) (managerPool deps calls) τ q)
    {lists : List StatusListRecord}
    (hseen : (⟨.findStatusLists tenantId (some statusPurpose) none, lists⟩ : Seen) ∈ own i τ) :
    Shown i τ tenantId statusPurpose lists := by
  obtain ⟨m, hm, hi, hms⟩ := mem_own.mp hseen
  exact ⟨m, hm, hi, hms, Eq.symm (h.answers hm hms rfl)⟩

theorem counted_of_seen (h : Pool.Traced (World.step env) (managerPool deps calls) τ q)
    {listId : String} {used : Nat} (hseen : (⟨.countAllocations listId, used⟩ : Seen) ∈ own i τ) :
    Counted i τ listId used := by
  obtain ⟨m, hm, hi, hms⟩ := mem_own.mp hseen
  exact ⟨m, hm, hi, by rw [hms], Eq.symm (h.answers hm hms rfl)⟩

theorem fullWhenCounted_of_seen (h : Pool.Traced (World.step env) (managerPool deps calls) τ q)
    (hfull : StatusListManager.CountedFull deps (own i τ) list) :
    FullWhenCounted deps i τ list := by
  obtain ⟨used, hseen, hused⟩ := hfull
  exact ⟨used, counted_of_seen h hseen, hused⟩

/-- A list that was counted under the threshold as it is computed was under it. -/
theorem under_of_counted (h : Pool.Traced (World.step env) (managerPool deps calls) τ q)
    {used : Nat} {m : ServiceMoment} (hm : m ∈ τ) (hlist : list ∈ m.state.db.statusLists)
    (hcount : Counted i τ list.id used)
    (hunder : (used : ℚ) < deps.threshold list.characteristics.length) :
    (used : ℚ) < list.characteristics.length * deps.rollAtFill.value := by
  obtain ⟨row, hrow, hsame⟩ := (h.extends (managerCalls_good deps calls) hm).2.lists list hlist
  obtain ⟨m', hm', _, _, rfl⟩ := hcount
  obtain ⟨hI', hextends⟩ := h.extends (managerCalls_good deps calls) hm'
  have hI := (run_good (managerCalls_good deps calls) h.run).inv
  have hle := countAllocations_le hI' hI hextends hrow
  rw [← hsame.binding.id] at hle
  by_contra hover
  exact absurd (threshold_le (hle.trans (hI.wf row hrow).2) (not_lt.mp hover))
    (not_le.mpr hunder)

/-- What a call has seen is what there was. -/
theorem rolledOnto_of_selected (h : Pool.Traced (World.step env) (managerPool deps calls) τ q)
    (hselected : StatusListManager.Selected deps tenantId statusPurpose (own i τ) list) :
    RolledOnto deps i τ tenantId statusPurpose list := by
  cases hselected with
  | @chosen older newer _ used hseen hcount hunder hnewer =>
      have hshown := shown_of_seen h hseen
      obtain ⟨m, hm, _, _, hlists⟩ := hshown
      have hsorted := m.state.db.findStatusLists_sorted tenantId (some statusPurpose) none
      have hmem : list ∈ m.state.db.findStatusLists tenantId (some statusPurpose) none := by
        rw [hlists]
        simp
      obtain ⟨hstored, htenant, hpurpose, _⟩ := Database.mem_findStatusLists.mp hmem
      have hcounted := counted_of_seen h hcount
      rw [hlists] at hsorted
      obtain ⟨_, hlater, holder⟩ := List.pairwise_append.mp hsorted
      refine .chosen (shown_of_seen h hseen) htenant (by simpa using hpurpose)
        hcounted (under_of_counted h hm hstored hcounted hunder) hunder (fun other ho => holder other ho list (by simp))
        fun other ho => ⟨(List.pairwise_cons.mp hlater).1 other ho,
          fullWhenCounted_of_seen h (hnewer other ho)⟩
  | minted hseen hfull hinserted htenant hpurpose =>
      exact .minted (shown_of_seen h hseen)
        (fun other ho => fullWhenCounted_of_seen h (hfull other ho)) (mem_own.mp hinserted)
        htenant hpurpose

end Selecting

/-- **Rolling bounds the fill of a list.** While at most `k` calls that leave the choice to the
manager are in flight and no other call names the list, it never holds more than `k - 1` allocations
over the threshold. The list such a call goes on with is of its tenant and purpose, was under the
threshold when it was counted, and is the newest of those that were under the product of doubles; a
call makes a list only when it counted every list it was shown at or above that product. -/
theorem rolling_bounds_fill {B : Type} (deps : ManagerDeps B)
    (hroll : 0 < deps.rollAtFill.value)
    (env : Environment) (calls : Nat → ManagerCall) (τ : List ServiceMoment)
    (q : Pool Operation Operation.Answer JsError ManagerResult World Nat)
    (hrun : Pool.Traced (World.step env) (managerPool deps calls) τ q) :
    (∀ k, AtMostInFlight deps env calls τ k → ∀ list ∈ q.state.db.statusLists,
      (∀ i, ¬(calls i).Targets list.id) → q.state.db.countAllocations list.id ≤
        ⌈list.characteristics.length * deps.rollAtFill.value⌉₊ + k - 1) ∧
    ∀ i tenantId credentialId statusPurpose,
      calls i = .allocateForCredential tenantId credentialId statusPurpose none →
      (∀ τ₁ m listId index, τ₁ ++ [m] <+: τ → m.thread = i →
        m.seen.1 = .isIndexAllocated listId index →
        ∃ list, list.id = listId ∧ RolledOnto deps i τ₁ tenantId statusPurpose list) ∧
      (∀ τ₁ m a, τ₁ ++ [m] <+: τ → m.thread = i → m.seen.1 = .insertAllocation a →
        ∃ list, list.id = a.listId ∧ RolledOnto deps i τ₁ tenantId statusPurpose list) ∧
      (∀ τ₁ m row, τ₁ ++ [m] <+: τ → m.thread = i → m.seen.1 = .insertStatusList row →
        ∃ lists, Shown i τ₁ tenantId statusPurpose lists ∧
          ∀ other ∈ lists, FullWhenCounted deps i τ₁ other) ∧
      ∀ result, (q.thread i).outcome? = some (.ok result) → ∃ a list, result = .entry a list ∧
        a.listId = list.id ∧ RolledOnto deps i τ tenantId statusPurpose list := by
  refine ⟨fun k hk list hlist hother => ?_, fun i tenantId credentialId statusPurpose hcall => ?_⟩
  · have hgood := run_good (managerCalls_good deps calls) hrun.run
    have hI : (callsPolicy False calls).Inv env q.state := hgood.inv
    have hlength : ∀ row ∈ q.state.db.statusLists, row.id = list.id →
        row.characteristics.length = list.characteristics.length := by
      intro row hrow hid
      rw [hI.eq_of_id hrow hlist hid]
    obtain ⟨hlengthpos, hsafe⟩ := hI.wf list hlist
    have hpos : 0 < ⌈list.characteristics.length * deps.rollAtFill.value⌉₊ :=
      Nat.ceil_pos.mpr (mul_pos (by exact_mod_cast hlengthpos) hroll)
    have hcount := countAllocations_le hI hI (.refl _) hlist
    -- Beyond the safe integers the bound is more than any list can hold.
    by_cases hbound : ⌈list.characteristics.length * deps.rollAtFill.value⌉₊ ≤ maxSafeInteger
    · by_cases hfull : ⌈list.characteristics.length * deps.rollAtFill.value⌉₊ ≤
          q.state.db.countAllocations list.id
      · have hle := pending_bounded hrun hk hlength hother hpos
          (threshold_le hbound (Nat.le_ceil _)) hfull ∅ (by simp)
        rw [Finset.card_empty] at hle
        omega
      · omega
    · omega
  · -- What a moment was allowed is what its thread had seen before it.
    have hallowed : ∀ (τ₁ : List ServiceMoment) (m : ServiceMoment), τ₁ ++ [m] <+: τ →
        m.thread = i → ∃ q₁, Pool.Traced (World.step env) (managerPool deps calls) τ₁ q₁ ∧
          StatusListManager.Rolls deps tenantId statusPurpose (own i τ₁) m.seen.1 := by
      rintro τ₁ m hpre rfl
      obtain ⟨q₁, h₁, _⟩ := hrun.upto ((List.prefix_append _ _).trans hpre)
      exact ⟨q₁, h₁, (hrun.allowed ((calls m.thread).watched deps) hpre).2 _ _ _ hcall⟩
    refine ⟨fun τ₁ m listId index hpre hi hm => ?_, fun τ₁ m a hpre hi hm => ?_,
      fun τ₁ m row hpre hi hm => ?_, fun result hresult => ?_⟩
    · obtain ⟨q₁, h₁, hrolls⟩ := hallowed τ₁ m hpre hi
      rw [hm] at hrolls
      obtain ⟨list, hid, hselected⟩ := hrolls
      exact ⟨list, hid, rolledOnto_of_selected h₁ hselected⟩
    · obtain ⟨q₁, h₁, hrolls⟩ := hallowed τ₁ m hpre hi
      rw [hm] at hrolls
      obtain ⟨_, list, hid, hselected⟩ := hrolls
      exact ⟨list, hid, rolledOnto_of_selected h₁ hselected⟩
    · obtain ⟨q₁, h₁, hrolls⟩ := hallowed τ₁ m hpre hi
      rw [hm] at hrolls
      obtain ⟨_, _, lists, hseen, hfull⟩ := hrolls
      exact ⟨lists, shown_of_seen h₁ hseen, fun other ho =>
        fullWhenCounted_of_seen h₁ (hfull other ho)⟩
    · obtain ⟨a, list, hresult, hid, hselected⟩ :=
        hrun.returned ((calls i).watched deps) hresult _ _ _ hcall
      exact ⟨a, list, hresult, hid, rolledOnto_of_selected hrun hselected⟩

/-- A list, and two requests for an entry that leave the choice of it to the manager. -/
def twoRequests (length : Nat) : Nat → ManagerCall
  | 1 => .allocateForCredential "acme" "urn:uuid:1" .revocation none
  | 2 => .allocateForCredential "acme" "urn:uuid:2" .revocation none
  | _ => .createList
      { tenantId := "acme", issuerInstance := testIssuerInstance, statusPurpose := .revocation
        characteristics := some { length := some length } }

theorem twoRequests_inFlight {length : Nat} {τ : List ServiceMoment}
    {q : Pool Operation Operation.Answer JsError ManagerResult World Nat} {i : Nat}
    (h : InFlight (twoRequests length) τ q i) : i ∈ ({1, 2} : Finset Nat) := by
  obtain ⟨tenantId, credentialId, statusPurpose, hcall⟩ := h.chooses
  unfold twoRequests at hcall
  split at hcall
  · simp
  · simp
  · cases hcall

/-- Two calls that overlap: both count an empty list before either inserts, and the list ends up
with one allocation over the threshold, which is what the bound allows two of them. -/
theorem rolling_bounds_fill_overlapping :
    ∃ τ q, Pool.Traced (World.step (testEnvironment .postgres))
        (managerPool rollingDeps (twoRequests 131072)) τ q ∧
      ∃ list ∈ q.state.db.statusLists,
        ⌈list.characteristics.length * rollingDeps.rollAtFill.value⌉₊ = 1 ∧
        q.state.db.countAllocations list.id = 2 ∧
        q.state.db.countAllocations list.id ≤
          ⌈list.characteristics.length * rollingDeps.rollAtFill.value⌉₊ + 2 - 1 := by
  let run := Pool.scheduled (World.step (testEnvironment .postgres))
    (List.replicate 8 0 ++ (List.replicate 10 [1, 2]).flatten)
    (managerPool rollingDeps (twoRequests 131072))
  have hrun : Pool.Traced (World.step (testEnvironment .postgres))
      (managerPool rollingDeps (twoRequests 131072)) run.1 run.2 := Pool.traced_scheduled _ _
  have hfilled : (run.2.state.db.statusLists.any fun list =>
      decide (list.characteristics.length = 131072) &&
        decide (run.2.state.db.countAllocations list.id = 2)) = true := by decide +kernel
  obtain ⟨list, hlist, hfilled⟩ := List.any_eq_true.mp hfilled
  simp only [Bool.and_eq_true, decide_eq_true_eq] at hfilled
  have hcards : AtMostInFlight rollingDeps (testEnvironment .postgres) (twoRequests 131072)
      run.1 2 := fun τ₁ q₁ _ _ S hS => Finset.card_le_card fun i hi => twoRequests_inFlight (hS i hi)
  refine ⟨run.1, run.2, hrun, list, hlist, ?_, hfilled.2, ?_⟩
  · rw [hfilled.1]
    decide +kernel
  · refine (rolling_bounds_fill rollingDeps (by decide +kernel) _ _ _ _ hrun).1 2 hcards list hlist
      fun i => ?_
    unfold twoRequests
    split <;> exact fun h => h

/-- The lists of the tenant and purpose, where they were asked for. -/
def shownLists? (tenantId : String) (statusPurpose : StatusPurpose) :
    Seen → Option (List StatusListRecord)
  | ⟨.findStatusLists t (some p) none, lists⟩ =>
      if t = tenantId ∧ p = statusPurpose then some lists else none
  | _ => none

theorem eq_of_shownLists? {tenantId : String} {statusPurpose : StatusPurpose} {x : Seen}
    {lists : List StatusListRecord} (h : shownLists? tenantId statusPurpose x = some lists) :
    x = ⟨.findStatusLists tenantId (some statusPurpose) none, lists⟩ := by
  unfold shownLists? at h
  split at h
  · split at h <;> rename_i hsame
    · obtain ⟨rfl, rfl⟩ := hsame
      cases h
      rfl
    · cases h
  · cases h

/-- The number of allocations of the list, where it was asked for. -/
def countOf? (listId : String) : Seen → Option Nat
  | ⟨.countAllocations id, used⟩ => if id = listId then some used else none
  | _ => none

theorem eq_of_countOf? {listId : String} {x : Seen} {used : Nat}
    (h : countOf? listId x = some used) : x = ⟨.countAllocations listId, used⟩ := by
  unfold countOf? at h
  split at h
  · split at h <;> rename_i hsame
    · subst hsame
      cases h
      rfl
    · cases h
  · cases h

/-- A little more than one in 131073. -/
def unevenDeps : ManagerDeps PlainList :=
  { testDeps with rollAtFill := ⟨9007130535788541, -70, by decide⟩ }

/-- The product of such a fraction and 131073 is more than one, but its double is one: a second
call leaves a list that is under the threshold, and makes another. -/
theorem minted_under_threshold :
    ∃ τ q, Pool.Traced (World.step (testEnvironment .postgres))
        (managerPool unevenDeps (twoRequests 131073)) τ q ∧
      ∃ lists list row, ∃ used : Nat, Shown 2 τ "acme" .revocation lists ∧ list ∈ lists ∧
        Counted 2 τ list.id used ∧
        (used : ℚ) < list.characteristics.length * unevenDeps.rollAtFill.value ∧
        ∃ m ∈ τ, m.thread = 2 ∧ m.seen = ⟨.insertStatusList row, true⟩ := by
  let run := Pool.scheduled (World.step (testEnvironment .postgres))
    (List.replicate 8 0 ++ List.replicate 10 1 ++ List.replicate 15 2)
    (managerPool unevenDeps (twoRequests 131073))
  have hrun : Pool.Traced (World.step (testEnvironment .postgres))
      (managerPool unevenDeps (twoRequests 131073)) run.1 run.2 := Pool.traced_scheduled _ _
  have hshown : ((own 2 run.1).any fun x => (shownLists? "acme" .revocation x).any fun lists =>
      lists.any fun list => decide (list.characteristics.length = 131073) &&
        (own 2 run.1).any fun y => countOf? list.id y == some 1) = true := by decide +kernel
  have hminted : (run.1.any fun m => decide (m.thread = 2) && (insertedList? m.seen).isSome) =
      true := by decide +kernel
  obtain ⟨x, hx, hshown⟩ := List.any_eq_true.mp hshown
  obtain ⟨lists, hlists, hshown⟩ := (Option.any_eq_true _ _).mp hshown
  obtain ⟨list, hlist, hshown⟩ := List.any_eq_true.mp hshown
  obtain ⟨hlength, hcounted⟩ := Bool.and_eq_true_iff.mp hshown
  obtain ⟨y, hy, hcount⟩ := List.any_eq_true.mp hcounted
  obtain ⟨m, hm, hminted⟩ := List.any_eq_true.mp hminted
  obtain ⟨hthread, hinserted⟩ := Bool.and_eq_true_iff.mp hminted
  obtain ⟨row, hrow⟩ := Option.isSome_iff_exists.mp hinserted
  rw [eq_of_shownLists? hlists] at hx
  have hcount : countOf? list.id y = some 1 := by simpa using hcount
  rw [eq_of_countOf? hcount] at hy
  refine ⟨run.1, run.2, hrun, lists, list, row, 1, shown_of_seen hrun hx, hlist,
    counted_of_seen hrun hy, ?_, m, hm, by simpa using hthread, insertedList?_eq_some.mp hrow⟩
  rw [of_decide_eq_true hlength]
  decide +kernel

end VcalmStatus
