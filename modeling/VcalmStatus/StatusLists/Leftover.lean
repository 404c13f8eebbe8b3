import VcalmStatus.StatusLists.Choosing
import VcalmStatus.StatusLists.Outcomes

/-!
What a refused allocation leaves behind.

`allocateForCredential` has two parts. The choice of a list may make one; the allocation in it then
writes one row or none. There is no transaction around the two, so a list that was made stays when
the allocation is refused; the credential's other allocation is the only thing that can refuse it
then.
-/

namespace VcalmStatus

open Js Effects Policy

namespace World

variable {env : Environment} {i : Nat} {w w' : World} {o : Operation} {r : o.Answer}

/-- What a step that is no commit does to the tables. -/
theorem tables_step (h : w.step env i o = some (r, w')) (ho : o ≠ .commit) :
    w'.db.statusLists = w.db.statusLists ++ (insertedList? ⟨o, r⟩).toList ∧
      ((∀ a, (⟨o, r⟩ : Seen) ≠ ⟨.insertAllocation a, true⟩) →
        w'.db.indexAllocations = w.db.indexAllocations) := by
  have hresp := (step_eq_some.mp h).2
  cases o with
  | insertStatusList row =>
      simp only [respond] at hresp
      split at hresp
      · cases hresp
        exact ⟨by simp [insertedList?], fun _ => rfl⟩
      · cases hresp
        exact ⟨rfl, fun _ => rfl⟩
  | insertAllocation a =>
      simp only [respond] at hresp
      split at hresp
      · cases hresp
        exact ⟨by simp [insertedList?, insertAllocation], fun hne => absurd rfl (hne a)⟩
      · cases hresp
        exact ⟨by simp [insertedList?], fun _ => rfl⟩
  | commit => exact absurd rfl ho
  | beginTransaction =>
      simp only [respond] at hresp
      split at hresp <;> cases hresp <;> exact ⟨by simp [insertedList?, connect], fun _ => rfl⟩
  | lockStatusList id =>
      simp only [respond] at hresp
      split at hresp <;> cases hresp <;> exact ⟨by simp [insertedList?, lock], fun _ => rfl⟩
  | _ =>
      cases hresp
      exact ⟨by simp [insertedList?, stage, release, advance], fun _ => rfl⟩

end World

/-- The tables at the end of a run without commits, from the ones at its start. -/
theorem tables_of_traced {env : Environment} {α : Type}
    {p q : Pool Operation Operation.Answer JsError α World Nat} {τ : List ServiceMoment}
    (h : Pool.Traced (World.step env) p τ q) (hno : ∀ m ∈ τ, m.seen.1 ≠ .commit) :
    q.state.db.statusLists = p.state.db.statusLists ++ newLists (τ.map (·.seen)) ∧
      (Unallocated (τ.map (·.seen)) →
        q.state.db.indexAllocations = p.state.db.indexAllocations) := by
  induction h with
  | nil => exact ⟨by simp [newLists], fun _ => rfl⟩
  | @snoc τ q i o k r s' h hthread hstep ih =>
      obtain ⟨hlists, hallocations⟩ := ih fun m hm => hno m (List.mem_append_left _ hm)
      obtain ⟨hlist, hallocation⟩ := World.tables_step hstep
        (hno ⟨i, q.state, ⟨o, r⟩⟩ (List.mem_append_right _ (List.mem_singleton_self _)))
      constructor
      · show s'.db.statusLists = _
        rw [hlist, hlists, List.append_assoc]
        cases hx : insertedList? ⟨o, r⟩ <;> simp [newLists, hx]
      · intro hfree
        rw [List.map_append] at hfree
        exact (hallocation fun a hx =>
          hfree a (List.mem_append_right _ (by simp [hx]))).trans
          (hallocations (Unallocated.of_append hfree))

/-- At every moment of it the first lists are there still, and the allocations are the first ones. -/
theorem tables_of_moment {env : Environment} {α : Type}
    {p q : Pool Operation Operation.Answer JsError α World Nat} {τ : List ServiceMoment}
    (h : Pool.Traced (World.step env) p τ q) (hno : ∀ m ∈ τ, m.seen.1 ≠ .commit)
    (hfree : Unallocated (τ.map (·.seen))) {m : ServiceMoment} (hm : m ∈ τ) :
    p.state.db.statusLists ⊆ m.state.db.statusLists ∧
      m.state.db.indexAllocations = p.state.db.indexAllocations := by
  obtain ⟨τ₁, q₁, ⟨τ₂, rfl⟩, h₁, hstate, _⟩ := h.moment hm
  obtain ⟨hlists, hallocations⟩ := tables_of_traced h₁ fun m' hm' => hno m' (by simp [hm'])
  simp only [List.map_append] at hfree
  rw [← hstate]
  exact ⟨hlists ▸ List.subset_append_left _ _, hallocations hfree.of_append.of_append⟩

section Alone

variable {B : Type} {deps : ManagerDeps B} {env : Environment} {calls : Nat → ManagerCall}
  {i : Nat} {w w' : World} {tenantId credentialId listId : String} {statusPurpose : StatusPurpose}

/-- Why an `allocateIndex` call that runs alone is refused, as the tables are. -/
inductive RefusedBy (w : World) (tenantId credentialId : String) (statusPurpose : StatusPurpose)
    (listId : String) : JsError → Prop
  | listNotFound (hnone : ∀ row ∈ w.db.statusLists, row.id = listId → row.tenantId ≠ tenantId)
      (message : String) :
      RefusedBy w tenantId credentialId statusPurpose listId (.statusList .listNotFound message)
  | exhausted {a : IndexAllocation} (ha : a ∈ w.db.indexAllocations) (hlist : a.listId = listId)
      (message : String) :
      RefusedBy w tenantId credentialId statusPurpose listId (.statusList .listExhausted message)
  | alreadyAllocated {a : IndexAllocation} (ha : a ∈ w.db.indexAllocations)
      (hkey : (a.tenantId, a.credentialId, a.statusPurpose) =
        (tenantId, credentialId, statusPurpose)) (message : String) :
      RefusedBy w tenantId credentialId statusPurpose listId
        (.storage .credentialAlreadyAllocated message)

theorem probes_ne_commit {o : Operation} (h : Probes listId o) : o ≠ .commit := by
  rintro rfl
  cases h

/-- A refused `allocateIndex` writes nothing, and its reason stands in the tables. -/
theorem allocateIndex_refused_alone (hI : (callsPolicy False calls).Inv env w)
    (hn : w.NotCommitted i) (hidle : w.Idle i) {e : JsError}
    (hrun : (StatusListManager.allocateIndex tenantId credentialId statusPurpose listId).run
      (World.step env i) w = some (.error e, w')) :
    w'.db.statusLists = w.db.statusLists ∧ w'.db.indexAllocations = w.db.indexAllocations ∧
      RefusedBy w tenantId credentialId statusPurpose listId e := by
  have hkept : Kept (Probing listId) fun l => Unallocated l ∧ newLists l = [] := by
    refine (Unallocated.kept fun _ hx => hx.2).and (newLists_kept ?_ _)
    rintro _ hx _ rfl
    cases hx.1
  obtain ⟨τ, q, hτ, rfl, hown, hG, _, hE⟩ := Pool.Traced.of_watched
    (StatusListManager.allocateIndex_watched hkept (fun l o _ ho => ho)
      ⟨by simp [Unallocated], rfl⟩) hrun
  obtain ⟨seen, hseen, ⟨hfree, hlists⟩, hrefusal⟩ := hE e rfl
  rw [List.nil_append] at hseen
  have hno : ∀ m ∈ τ, m.seen.1 ≠ .commit := fun m hm => by
    obtain ⟨l, hl⟩ := hG m hm
    exact probes_ne_commit hl
  obtain ⟨hlists', hallocations⟩ := tables_of_traced hτ hno
  -- Nothing was written before any of the moments either.
  have hthen : ∀ {m}, m ∈ τ → m.state.db.indexAllocations = w.db.indexAllocations :=
    fun hm => (tables_of_moment hτ hno (hseen ▸ hfree) hm).2
  have hanswer : ∀ {o : Operation} {r : o.Answer}, (⟨o, r⟩ : Seen) ∈ seen → o.quiet = true →
      ∃ m ∈ τ, o.Answers env m.state r := by
    intro o r hmem ho
    rw [← hseen] at hmem
    obtain ⟨m, hm, hms⟩ := List.mem_map.mp hmem
    exact ⟨m, hm, hτ.answers hm hms ho⟩
  refine ⟨?_, hallocations hfree, ?_⟩
  · rw [hlists', hlists, List.append_nil]
  · obtain ⟨_, _, hrefused⟩ := (StatusListManager.allocateIndex_serves hn hidle
      fun row hrow htenant => callsPolicy_fits hrow.wf htenant False.elim).run_sound hI hrun
    cases hrefused with
    | listNotFound hu hnone =>
        refine .listNotFound (fun row hrow hid => ?_) _
        obtain ⟨row', hrow', hsame⟩ := hu.lists row hrow
        rw [hsame.binding.tenantId]
        exact hnone row' hrow' (hsame.binding.id.symm.trans hid)
    | exhausted =>
        cases hrefusal with
        | gaveUp hgave =>
            obtain ⟨_, probes, hlength, rfl, hhits⟩ := hgave.hits _ _ rfl
            obtain ⟨probe, hprobe⟩ := List.exists_mem_of_length_pos
              (show 0 < probes.length by rw [hlength]; decide)
            obtain ⟨index, rest, rfl, htrue⟩ := hhits probe hprobe
            obtain ⟨m, hm, hans⟩ := hanswer (List.mem_cons_of_mem _
              (List.mem_flatten.mpr ⟨_, hprobe, List.mem_cons_of_mem _ htrue⟩)) rfl
            obtain ⟨a, ha, hlist, _⟩ := Database.isIndexAllocated_iff.mp (Eq.symm hans)
            exact .exhausted (hthen hm ▸ ha) hlist _
    | alreadyAllocated ha message =>
        cases hrefusal with
        | gaveUp hgave =>
            obtain ⟨a, ha⟩ := hgave.held message rfl
            obtain ⟨m, hm, hans⟩ := hanswer (List.mem_cons_of_mem _ ha) rfl
            obtain ⟨hmem, ht, hc, hp⟩ := Database.mem_of_getAllocation (Eq.symm hans)
            exact .alreadyAllocated (hthen hm ▸ hmem) (by rw [ht, hc, hp]) message

/-- The list is at or above the threshold. -/
def AtThreshold (deps : ManagerDeps B) (w : World) (list : StatusListRecord) : Prop :=
  deps.threshold list.characteristics.length ≤ (w.db.countAllocations list.id : ℚ)

/-- What the choice of a list by purpose does to the tables: nothing, or it adds one list of the
tenant and purpose when all the others are at the threshold. -/
theorem listForPurpose_alone {r : Except JsError StatusListRecord}
    (hrun : (StatusListManager.listForPurpose deps tenantId statusPurpose).run
      (World.step env i) w = some (r, w')) :
    w'.db.indexAllocations = w.db.indexAllocations ∧
      (w'.db.statusLists = w.db.statusLists ∨ ∃ list, r = .ok list ∧
        w'.db.statusLists = w.db.statusLists ++ [list] ∧ list.tenantId = tenantId ∧
        list.statusPurpose = statusPurpose ∧
        ∀ other ∈ w.db.findStatusLists tenantId (some statusPurpose) none,
          AtThreshold deps w other) := by
  have hwatched : Watched _ _ _ (StatusListManager.listForPurpose deps tenantId statusPurpose) [] :=
    StatusListManager.listForPurpose_watched (by simp [Unallocated])
  obtain ⟨τ, q, hτ, rfl, hown, hG, hR, hE⟩ := Pool.Traced.of_watched hwatched hrun
  have hno : ∀ m ∈ τ, m.seen.1 ≠ .commit := fun m hm hcommit => by
    obtain ⟨l, hl⟩ := hG m hm
    rw [hcommit] at hl
    exact hl
  obtain ⟨hlists, hallocations⟩ := tables_of_traced hτ hno
  have hnil : newLists ([] : List Seen) = [] := rfl
  cases r with
  | error e =>
      obtain ⟨hfree, hnew⟩ := hE e rfl
      exact ⟨hallocations hfree, .inl (by rw [hlists, hnew, hnil, List.append_nil])⟩
  | ok list =>
      obtain ⟨hfree, _, hnew⟩ := hR list rfl
      refine ⟨hallocations hfree, ?_⟩
      rcases hnew with hnew | ⟨hnew, htenant, hpurpose, lists, hseen, hfull⟩
      · exact .inl (by rw [hlists, hnew, hnil, List.append_nil])
      · refine .inr ⟨list, rfl, by rw [hlists, hnew, hnil, List.nil_append], htenant, hpurpose,
          fun other hother => ?_⟩
        obtain ⟨m, hm, hms⟩ := List.mem_map.mp hseen
        have hans : lists = m.state.db.findStatusLists tenantId (some statusPurpose) none :=
          hτ.answers hm hms rfl
        obtain ⟨hmem, hkeys⟩ := Database.mem_findStatusLists.mp hother
        have hother' : other ∈ lists := by
          rw [hans]
          exact Database.mem_findStatusLists.mpr
            ⟨(tables_of_moment hτ hno hfree hm).1 hmem, hkeys⟩
        obtain ⟨used, hcount, hused⟩ := hfull other hother'
        obtain ⟨m', hm', hms'⟩ := List.mem_map.mp hcount
        have hans' : used = m'.state.db.countAllocations other.id := hτ.answers hm' hms' rfl
        rw [hans', Database.countAllocations, (tables_of_moment hτ hno hfree hm').2] at hused
        exact hused

theorem chosenList_alone {r : Except JsError StatusListRecord}
    (hrun : (StatusListManager.chosenList tenantId listId statusPurpose).run
      (World.step env i) w = some (r, w')) :
    w'.db.statusLists = w.db.statusLists ∧ w'.db.indexAllocations = w.db.indexAllocations := by
  have hwatched : Watched (fun _ o => o = .getStatusList listId)
      (fun l _ => Unallocated l ∧ newLists l = []) (fun l _ => Unallocated l ∧ newLists l = [])
      (StatusListManager.chosenList tenantId listId statusPurpose) [] := by
    refine Watched.perform rfl fun list => ?_
    have hquiet : Unallocated [(⟨.getStatusList listId, list⟩ : Seen)] ∧
        newLists [(⟨.getStatusList listId, list⟩ : Seen)] = [] := ⟨by simp [Unallocated], rfl⟩
    cases list.filter fun list => list.tenantId = tenantId with
    | none => exact hquiet
    | some found =>
        dsimp only
        split <;> exact hquiet
  obtain ⟨τ, q, hτ, rfl, _, hG, hR, hE⟩ := Pool.Traced.of_watched hwatched hrun
  obtain ⟨hlists, hallocations⟩ := tables_of_traced hτ fun m hm hcommit => by
    obtain ⟨l, hl⟩ := hG m hm
    rw [hl] at hcommit
    cases hcommit
  have hquiet : Unallocated (τ.map (·.seen)) ∧ newLists (τ.map (·.seen)) = [] := by
    cases r with
    | ok list => exact hR list rfl
    | error e => exact hE e rfl
  exact ⟨by rw [hlists, hquiet.2, List.append_nil], hallocations hquiet.1⟩

/-- What a refused call leaves: the tables as they were, or one more list of the tenant and purpose,
made because all the others were at the threshold, and left because the credential has an index for
the purpose already. -/
def LeavesAtMost (deps : ManagerDeps B) (w w' : World) (tenantId credentialId : String)
    (statusPurpose : StatusPurpose) (listId : Option String) (e : JsError) : Prop :=
  w'.db.indexAllocations = w.db.indexAllocations ∧
    (w'.db.statusLists = w.db.statusLists ∨ listId = none ∧
      (∀ list ∈ w.db.findStatusLists tenantId (some statusPurpose) none, AtThreshold deps w list) ∧
      (∃ a ∈ w.db.indexAllocations, (a.tenantId, a.credentialId, a.statusPurpose) =
        (tenantId, credentialId, statusPurpose)) ∧
      (∃ message, e = .storage .credentialAlreadyAllocated message) ∧
      ∃ list, w'.db.statusLists = w.db.statusLists ++ [list] ∧ list.tenantId = tenantId ∧
        list.statusPurpose = statusPurpose)

/-- The two parts of a call that runs alone: it is refused by the first, or by the second. -/
theorem allocateForCredential_cases {choice : Async StatusListRecord} {e : JsError}
    (hrun : (do
        let list ← choice
        let allocation ← StatusListManager.allocateIndex tenantId credentialId statusPurpose list.id
        pure (allocation, list)).run (World.step env i) w = some (.error e, w')) :
    choice.run (World.step env i) w = some (.error e, w') ∨
      ∃ list w₁, choice.run (World.step env i) w = some (.ok list, w₁) ∧
        (StatusListManager.allocateIndex tenantId credentialId statusPurpose list.id).run
          (World.step env i) w₁ = some (.error e, w') := by
  obtain ⟨_, he, hchoice⟩ | ⟨list, w₁, hchoice, hrest⟩ := Program.run_bind_cases _ hrun
  · cases he
    exact .inl hchoice
  · obtain ⟨_, he, hallocate⟩ | ⟨a, w₂, _, hret⟩ := Program.run_bind_cases _ hrest
    · cases he
      exact .inr ⟨list, w₁, hchoice, hallocate⟩
    · cases hret

theorem allocateForCredential_refused_alone (hI : (callsPolicy False calls).Inv env w)
    (hn : w.NotCommitted i) (hidle : w.Idle i) {choice : Option String} {e : JsError}
    (hrun : (StatusListManager.allocateForCredential deps tenantId credentialId statusPurpose
      choice).run (World.step env i) w = some (.error e, w')) :
    LeavesAtMost deps w w' tenantId credentialId statusPurpose choice e := by
  cases choice with
  | some listId =>
      rcases allocateForCredential_cases hrun with hchoice | ⟨list, w₁, hchoice, hallocate⟩
      · obtain ⟨hlists, hallocations⟩ := chosenList_alone hchoice
        exact ⟨hallocations, .inl hlists⟩
      · obtain ⟨hlists, hallocations⟩ := chosenList_alone hchoice
        have hserves := @StatusListManager.chosenList_serves _ deps env (callsPolicy False calls) i w
          tenantId listId statusPurpose hn
        obtain ⟨hI₁, hw₁, _⟩ := hserves.run_sound hI hchoice
        obtain ⟨hlists', hallocations', _⟩ := allocateIndex_refused_alone hI₁
          (hw₁.notCommitted hn) (hw₁.idle hidle) hallocate
        exact ⟨hallocations'.trans hallocations, .inl (hlists'.trans hlists)⟩
  | none =>
      rcases allocateForCredential_cases hrun with hchoice | ⟨list, w₁, hchoice, hallocate⟩
      · obtain ⟨hallocations, hlists | ⟨list, hok, _⟩⟩ := listForPurpose_alone hchoice
        · exact ⟨hallocations, .inl hlists⟩
        · cases hok
      · obtain ⟨hI₁, _, hn₁, hidle₁⟩ := (StatusListManager.listForPurpose_serves
          (P := callsPolicy False calls) hn hidle
          fun _ row _ hrow => ⟨callsPolicy_wf hrow, trivial⟩).run_sound hI hchoice
        obtain ⟨hlists', hallocations', hrefused⟩ := allocateIndex_refused_alone hI₁ hn₁ hidle₁
          hallocate
        obtain ⟨hallocations, hlists | ⟨_, hok, hlists, htenant, hpurpose, hfull⟩⟩ :=
          listForPurpose_alone hchoice
        · exact ⟨hallocations'.trans hallocations, .inl (hlists'.trans hlists)⟩
        · cases hok
          refine ⟨hallocations'.trans hallocations, .inr ⟨rfl, hfull, ?_⟩⟩
          have hlist : list ∈ w₁.db.statusLists := by
            rw [hlists]
            simp
          -- The list is new, so it is there, and nothing was allocated in it.
          cases hrefused with
          | listNotFound hnone message => exact absurd htenant (hnone list hlist rfl)
          | @exhausted a ha haid message =>
              obtain ⟨row, hrow, hid, _⟩ := hI.fits a (hallocations ▸ ha)
              have hnodup := hI₁.ids_nodup
              rw [hlists, List.map_append] at hnodup
              exact ((List.nodup_append.mp hnodup).2.2 row.id (List.mem_map_of_mem hrow) list.id
                (by simp) (hid.trans haid)).elim
          | alreadyAllocated ha hkey message =>
              exact ⟨⟨_, hallocations ▸ ha, hkey⟩, ⟨message, rfl⟩, list, hlists'.trans hlists,
                htenant, hpurpose⟩

end Alone

/-- **A refused allocation adds no allocation, and at most a list.** In every state manager calls
reach, a call that is handled by itself and refused leaves the allocations and the lists that were
there; when it had to make a list first and the credential turns out to have an index already, that
list stays. -/
theorem refused_allocation_leaves {B : Type} (deps : ManagerDeps B) (env : Environment)
    (calls : Nat → ManagerCall) (τ : List ServiceMoment)
    (q : Pool Operation Operation.Answer JsError ManagerResult World Nat)
    (hrun : Pool.Traced (World.step env) (managerPool deps calls) τ q) (i : Nat)
    (tenantId credentialId : String) (statusPurpose : StatusPurpose) (listId : Option String)
    (hcall : calls i = .allocateForCredential tenantId credentialId statusPurpose listId)
    (hunstarted : own i τ = []) (e : JsError) (w' : World)
    (halone : (q.thread i).run (World.step env i) q.state = some (.error e, w')) :
    LeavesAtMost deps q.state w' tenantId credentialId statusPurpose listId e := by
  have hgood := run_good (managerCalls_good deps calls) hrun.run
  have hquiet := hrun.interference (managerCalls_good deps calls) hunstarted
  have hthread : q.thread i = (calls i).program deps := hrun.thread_of_unstarted hunstarted
  rw [hthread, hcall] at halone
  obtain ⟨_, he, hrefused⟩ | ⟨r, t, _, hret⟩ := Program.run_bind_cases _ halone
  · cases he
    exact allocateForCredential_refused_alone hgood.inv (hquiet.notCommitted (notCommitted_of i))
      (hquiet.idle (idle_of i)) hrefused
  · cases hret

/-- Two requests for an entry for one credential. -/
def sameCredentialTwice : Nat → ManagerCall :=
  fun _ => .allocateForCredential "acme" "urn:uuid:1" .revocation none

theorem sameCredentialTwice_runs :
    ∃ τ q e w', Pool.Traced (World.step (testEnvironment .sqlite))
        (managerPool rollingDeps sameCredentialTwice) τ q ∧ own 1 τ = [] ∧
      (q.thread 1).run (World.step (testEnvironment .sqlite) 1) q.state = some (.error e, w') ∧
      w'.db.statusLists.length = q.state.db.statusLists.length + 1 := by
  have hok : (((sameCredentialTwice 0).program rollingDeps).run
      (World.step (testEnvironment .sqlite) 0) World.initial).any (fun rs =>
        (((sameCredentialTwice 1).program rollingDeps).run
          (World.step (testEnvironment .sqlite) 1) rs.2).any fun rs' => !rs'.1.toBool &&
            rs'.2.db.statusLists.length == rs.2.db.statusLists.length + 1) = true := by
    decide +kernel
  obtain ⟨⟨r, w⟩, hfirst, hok⟩ := (Option.any_eq_true _ _).mp hok
  obtain ⟨⟨r', w'⟩, hsecond, hok⟩ := (Option.any_eq_true _ _).mp hok
  obtain ⟨herror, hlength⟩ := Bool.and_eq_true_iff.mp hok
  cases r' with
  | ok a => cases herror
  | error e =>
      obtain ⟨τ, y, _, hτ, hown⟩ := Pool.Traced.of_program
        (T := (managerPool rollingDeps sameCredentialTwice).thread) rfl hfirst
      have hnone : own 1 τ = [] := by
        refine List.eq_nil_iff_forall_not_mem.mpr fun x hx => ?_
        obtain ⟨m, hm, hthread, _⟩ := mem_own.mp hx
        exact absurd (hown m hm ▸ hthread) (by decide)
      refine ⟨τ, _, e, w', hτ, hnone, ?_, by simpa using hlength⟩
      rw [hτ.thread_of_unstarted hnone]
      exact hsecond

/-- The second request is refused, and a list it made is there. -/
theorem refused_allocation_leaves_list :
    ∃ τ q e w', Pool.Traced (World.step (testEnvironment .sqlite))
        (managerPool rollingDeps sameCredentialTwice) τ q ∧
      (q.thread 1).run (World.step (testEnvironment .sqlite) 1) q.state = some (.error e, w') ∧
      own 1 τ = [] ∧ w'.db.statusLists ≠ q.state.db.statusLists := by
  obtain ⟨τ, q, e, w', hτ, hown, hrun, hlength⟩ := sameCredentialTwice_runs
  refine ⟨τ, q, e, w', hτ, hrun, hown, fun heq => ?_⟩
  rw [heq] at hlength
  omega

theorem refused_allocation_leaves_twice :
    ∃ τ q e w', Pool.Traced (World.step (testEnvironment .sqlite))
        (managerPool rollingDeps sameCredentialTwice) τ q ∧
      (q.thread 1).run (World.step (testEnvironment .sqlite) 1) q.state = some (.error e, w') ∧
      LeavesAtMost rollingDeps q.state w' "acme" "urn:uuid:1" .revocation none e := by
  obtain ⟨τ, q, e, w', hτ, hown, hrun, _⟩ := sameCredentialTwice_runs
  exact ⟨τ, q, e, w', hτ, hrun, refused_allocation_leaves rollingDeps _ _ τ q hτ 1 _ _ _ _ rfl
    hown e w' hrun⟩

end VcalmStatus
