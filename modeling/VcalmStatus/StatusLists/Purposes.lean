import VcalmStatus.StatusLists.Calls
import VcalmStatus.TestFixtures

/-!
Purpose confinement, over sequences of manager calls.

The purpose of an entry is stored twice, on the list and on the allocation. `allocateForCredential`
compares them in both of its branches; a direct `allocateIndex` does not. So the two agree in
every state reached by calls whose direct allocations name the purpose of the list they point at,
and not in every state.
-/

namespace VcalmStatus

open Js Effects Policy

variable {B : Type} (deps : ManagerDeps B) (env : Environment) (calls : Nat → ManagerCall)

/-- The state after the first `n` calls, one after the other from an empty service. -/
inductive Performed : Nat → World → Prop
  | start : Performed 0 World.initial
  | call {n : Nat} {w w' : World} {r : Except JsError ManagerResult} (h : Performed n w)
      (hrun : ((calls n).program deps).run (World.step env n) w = some (r, w')) :
      Performed (n + 1) w'

/-- The same state, computed. -/
def performedState : Nat → Option World
  | 0 => some World.initial
  | n + 1 => (performedState n).bind fun w =>
      (((calls n).program deps).run (World.step env n) w).map (·.2)

/-- The purpose a call names is the purpose of the list it points at, where that is the tenant's;
only a direct `allocateIndex` can fail this. -/
def ManagerCall.NamesPurpose (call : ManagerCall) (w : World) : Prop :=
  ∀ tenantId credentialId statusPurpose listId,
    call = .allocateIndex tenantId credentialId statusPurpose listId →
    ∀ row ∈ w.db.statusLists, row.id = listId → row.tenantId = tenantId →
      row.statusPurpose = statusPurpose

variable {deps env calls}

theorem performed_iff {n : Nat} {w : World} :
    Performed deps env calls n w ↔ performedState deps env calls n = some w := by
  constructor
  · intro h
    induction h with
    | start => rfl
    | call _ hrun ih => rw [performedState, ih, Option.bind_some, hrun, Option.map_some]
  · intro h
    induction n generalizing w with
    | zero =>
        cases h
        exact .start
    | succ n ih =>
        obtain ⟨v, hv, hrest⟩ := Option.bind_eq_some_iff.mp h
        obtain ⟨⟨r, w'⟩, hrun, rfl⟩ := Option.map_eq_some_iff.mp hrest
        exact .call (ih hv) hrun

/-- A direct allocation in a list that is not there fails and changes nothing. -/
theorem allocateIndex_no_list {i : Nat} {w w' : World} {r : Except JsError ManagerResult}
    {tenantId credentialId : String} {statusPurpose : StatusPurpose} {listId : String}
    (hnone : ∀ row ∈ w.db.statusLists, row.id ≠ listId)
    (hrun : ((ManagerCall.allocateIndex tenantId credentialId statusPurpose listId).program
      deps).run (World.step env i) w = some (r, w')) : w' = w := by
  have hread : w.db.getStatusList listId = none := Database.getStatusList_eq_none.mpr hnone
  obtain ⟨⟨found, w₁⟩, hstep, hrest⟩ := Option.bind_eq_some_iff.mp hrun
  cases (World.step_eq_some.mp hstep).2
  rw [hread] at hrest
  cases hrest
  rfl

/-- Between two calls nobody is in a transaction, and the next call is new to the log. -/
structure Between (P : Policy) (env : Environment) (n : Nat) (w : World) : Prop where
  inv : P.Inv env w
  idle : ∀ i, w.Idle i
  owners : ∀ e ∈ w.log, e.owner < n

theorem Between.notCommitted {P : Policy} {n : Nat} {w : World} (h : Between P env n w) :
    w.NotCommitted n :=
  fun _ _ he => Nat.lt_irrefl n (h.owners _ he)

/-- A program that keeps to the discipline and ends idle leads from one such state to the next. -/
theorem Between.next {P : Policy} {α : Type} {p : Async α} {r : Except JsError α} {n : Nat}
    {w w' : World} (h : Between P env n w)
    (hp : P.Serves env n p (fun _ t => t.Idle n) w)
    (hrun : p.run (World.step env n) w = some (r, w')) : Between P env (n + 1) w' := by
  obtain ⟨hI, hidle⟩ := hp.run_sound h.inv hrun
  refine ⟨hI, fun i => ?_, ?_⟩
  · by_cases hi : i = n
    · exact hi ▸ hidle
    · refine hp.run_induct (J := fun t => t.Idle i) ?_ h.inv hrun (h.idle i)
      intro s o r s' hI hG hstep hs
      exact Interference.idle (P := P) (concurrent hI hG hstep hi) hs
  · refine hp.run_induct (J := fun t => ∀ e ∈ t.log, e.owner < n + 1) ?_ h.inv hrun
      fun e he => Nat.lt_succ_of_lt (h.owners e he)
    intro s o r s' _ _ hstep hs e he
    obtain hlog | ⟨e', howner, hlog⟩ := (World.effect_of_step hstep).log
    · exact hs e (hlog ▸ he)
    · rw [hlog] at he
      rcases List.mem_append.mp he with he | he
      · exact hs e he
      · rw [List.mem_singleton.mp he, howner]
        exact Nat.lt_succ_self n

theorem between_initial (P : Policy) (env : Environment) : Between P env 0 World.initial :=
  ⟨inv_of P.accepts_empty, idle_of, nofun⟩

theorem managerCall_idle {n : Nat} {w : World}
    (h : Between (callsPolicy True calls) env n w) (hpoints : (calls n).PointsAtPurpose w) :
    (callsPolicy True calls).Serves env n ((calls n).program deps) (fun _ t => t.Idle n) w := by
  refine (managerCall_serves h.notCommitted (h.idle n) fun _ => hpoints).imp ?_
  rintro (e | r) t _ h
  · exact h
  · exact h.2

/-- One call leads from one such state to the next, whatever it is. -/
theorem between_call {n : Nat} {w w' : World} {r : Except JsError ManagerResult}
    (h : Between (callsPolicy True calls) env n w) (hnames : (calls n).NamesPurpose w)
    (hrun : ((calls n).program deps).run (World.step env n) w = some (r, w')) :
    Between (callsPolicy True calls) env (n + 1) w' := by
  by_cases hpoints : (calls n).PointsAtPurpose w
  · exact h.next (managerCall_idle h hpoints) hrun
  · -- The one call left is a direct allocation in a list that is not there.
    simp only [ManagerCall.PointsAtPurpose, not_forall, not_exists, not_and] at hpoints
    obtain ⟨tenantId, credentialId, statusPurpose, listId, hcall, hnone⟩ := hpoints
    rw [hcall] at hrun
    have hsame : w' = w := by
      refine allocateIndex_no_list (fun row hrow hid => ?_) hrun
      obtain ⟨htenant, hne⟩ := hnone row hrow hid
      exact hne (hnames _ _ _ _ hcall row hrow hid htenant)
    rw [hsame]
    exact ⟨h.inv, h.idle, fun e he => Nat.lt_succ_of_lt (h.owners e he)⟩

theorem between_performed
    (hnames : ∀ n w, Performed deps env calls n w → (calls n).NamesPurpose w) {n : Nat}
    {w : World} (h : Performed deps env calls n w) :
    Between (callsPolicy True calls) env n w := by
  induction h with
  | start => exact between_initial _ env
  | call h hrun ih => exact between_call ih (hnames _ _ h) hrun

/-- **Purpose confinement.** In every sequence of calls whose direct allocations name the purpose
of the list they point at, every state reached has each allocation's purpose equal to its list's,
and no call by credential that names a purpose touches a list of another one. -/
theorem purpose_confinement (deps : ManagerDeps B) (env : Environment) (calls : Nat → ManagerCall)
    (hnames : ∀ n w, Performed deps env calls n w → (calls n).NamesPurpose w) (n : Nat)
    (w : World) (h : Performed deps env calls n w) :
    (∀ a ∈ w.db.indexAllocations, ∃ row ∈ w.db.statusLists, row.id = a.listId ∧
      row.statusPurpose = a.statusPurpose) ∧
    ∀ tenantId credentialId statusPurpose status r w',
      calls n = .status (.setCredentialStatus tenantId credentialId statusPurpose status) →
      ((calls n).program deps).run (World.step env n) w = some (r, w') →
      ∀ row ∈ w.db.statusLists, row.statusPurpose ≠ statusPurpose → row ∈ w'.db.statusLists := by
  have hbetween := between_performed hnames h
  refine ⟨fun a ha => ?_, ?_⟩
  · obtain ⟨row, hrow, hid, _, _, hpurpose⟩ := hbetween.inv.fits a ha
    exact ⟨row, hrow, hid, hpurpose trivial⟩
  · intro tenantId credentialId statusPurpose status r w' hcall hrun row hrow hne
    have hpoints : (calls n).PointsAtPurpose w := by
      rw [hcall]
      exact nofun
    refine (managerCall_idle hbetween hpoints).run_induct
      (J := fun t => row ∈ t.db.statusLists) ?_ hbetween.inv hrun hrow
    intro s o r s' hI _ hstep hmem
    refine frame_effect hI (World.effect_of_step hstep) hmem fun hmay => hne ?_
    exact hmay trivial _ _ _ _ hcall

/-- A list is created for a purpose, a credential is allocated in it directly under `named`, and
its bit for `named` is set. -/
def directAllocation (purpose named : StatusPurpose) : Nat → ManagerCall
  | 0 => .createList
      { tenantId := "acme", issuerInstance := testIssuerInstance, statusPurpose := purpose
        id := some "s" }
  | 1 => .allocateIndex "acme" "urn:uuid:1" named "s"
  | _ => .status (.setCredentialStatus "acme" "urn:uuid:1" named true)

/-- A direct allocation under the purpose of its list is confined to it. -/
theorem purpose_confinement_matching :
    ∃ w, Performed testDeps (testEnvironment .postgres)
        (directAllocation .suspension .suspension) 2 w ∧
      w.db.indexAllocations ≠ [] ∧
      ∀ a ∈ w.db.indexAllocations, ∃ row ∈ w.db.statusLists, row.id = a.listId ∧
        row.statusPurpose = a.statusPurpose := by
  obtain ⟨w, hw, hne⟩ := (Option.any_eq_true (fun w => !w.db.indexAllocations.isEmpty)
    (performedState testDeps (testEnvironment .postgres)
      (directAllocation .suspension .suspension) 2)).mp (by decide +kernel)
  refine ⟨w, performed_iff.mpr hw, by simpa using hne, (purpose_confinement _ _ _ ?_ 2 w
    (performed_iff.mpr hw)).1⟩
  intro n v hv tenantId credentialId statusPurpose listId hcall row hrow _ _
  match n, hcall with
  | 1, rfl =>
      have hall : (performedState testDeps (testEnvironment .postgres)
          (directAllocation .suspension .suspension) 1).all
          (fun w => w.db.statusLists.all fun row => row.statusPurpose = .suspension) = true := by
        decide +kernel
      rw [performed_iff.mp hv] at hall
      simpa using List.all_eq_true.mp hall row hrow

/-- A revocation entry is allocated in a suspension list, and revoking the credential moves a bit
of that list. -/
theorem purpose_not_confined :
    (¬∀ calls n w, Performed testDeps (testEnvironment .postgres) calls n w →
      ∀ a ∈ w.db.indexAllocations, ∃ row ∈ w.db.statusLists, row.id = a.listId ∧
        row.statusPurpose = a.statusPurpose) ∧
    ¬∀ calls n w tenantId credentialId statusPurpose status r w',
      Performed testDeps (testEnvironment .postgres) calls n w →
      calls n = .status (.setCredentialStatus tenantId credentialId statusPurpose status) →
      ((calls n).program testDeps).run (World.step (testEnvironment .postgres) n) w =
        some (r, w') →
      ∀ row ∈ w.db.statusLists, row.statusPurpose ≠ statusPurpose → row ∈ w'.db.statusLists := by
  have hstate : ((performedState testDeps (testEnvironment .postgres)
      (directAllocation .suspension .revocation) 2).any fun w =>
        w.db.indexAllocations.any (fun a => a.statusPurpose = .revocation) &&
        w.db.statusLists.all (fun row => row.statusPurpose = .suspension) &&
        w.db.statusLists.any (fun row => row.encodedList = PlainList.emptyEncodedList)) =
      true := by decide +kernel
  have hnext : ((performedState testDeps (testEnvironment .postgres)
      (directAllocation .suspension .revocation) 3).any fun w =>
        w.db.statusLists.all fun row => row.encodedList ≠ PlainList.emptyEncodedList) =
      true := by decide +kernel
  obtain ⟨w, hw, hcheck⟩ := (Option.any_eq_true _ _).mp hstate
  obtain ⟨w', hw', hmoved⟩ := (Option.any_eq_true _ _).mp hnext
  simp only [Bool.and_eq_true, List.any_eq_true, List.all_eq_true, decide_eq_true_eq] at hcheck
  obtain ⟨⟨⟨a, ha, hrevocation⟩, hsuspension⟩, row, hrow, hempty⟩ := hcheck
  have hperformed := performed_iff.mpr hw
  refine ⟨fun h => ?_, fun h => ?_⟩
  · obtain ⟨row, hrow, _, hsame⟩ := h _ 2 w hperformed a ha
    rw [hsuspension row hrow, hrevocation] at hsame
    cases hsame
  · obtain ⟨v, hv, hrest⟩ := Option.bind_eq_some_iff.mp hw'
    cases hw.symm.trans hv
    obtain ⟨⟨r, w''⟩, hrun, rfl⟩ := Option.map_eq_some_iff.mp hrest
    have hkept := h _ 2 w _ _ _ _ r w'' hperformed rfl hrun row hrow
      (by rw [hsuspension row hrow]; decide)
    exact absurd hempty (by simpa using List.all_eq_true.mp hmoved row hkept)

end VcalmStatus
