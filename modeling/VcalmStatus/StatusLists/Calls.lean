import VcalmStatus.Safety.Allocation
import VcalmStatus.Safety.History
import VcalmStatus.StatusLists.Serial

/-!
The public operations of `StatusListManager` as one type of calls, and what holds of the allocation
table under any interleaving of them.
-/

namespace VcalmStatus

open Js Effects Policy

inductive ManagerCall
  | createList (input : CreateStatusListInput)
  | status (call : StatusCall)
  | allocateIndex (tenantId credentialId : String) (statusPurpose : StatusPurpose)
      (listId : String)
  | allocateForCredential (tenantId credentialId : String) (statusPurpose : StatusPurpose)
      (listId : Option String)

/-- What the calls return. -/
inductive ManagerResult
  | list (record : StatusListRecord)
  | change (change : StatusChange)
  | allocation (a : IndexAllocation)
  | entry (a : IndexAllocation) (list : StatusListRecord)

namespace ManagerCall

def program {B : Type} (deps : ManagerDeps B) : ManagerCall → Async ManagerResult
  | .createList input => do
      let record ← StatusListManager.createList deps input
      pure (.list record)
  | .status call => do
      let change ← call.program deps
      pure (.change change)
  | .allocateIndex tenantId credentialId statusPurpose listId => do
      let a ← StatusListManager.allocateIndex tenantId credentialId statusPurpose listId
      pure (.allocation a)
  | .allocateForCredential tenantId credentialId statusPurpose listId => do
      let r ← StatusListManager.allocateForCredential deps tenantId credentialId statusPurpose
        listId
      pure (.entry r.1 r.2)

/-- The credential and purpose a call allocates an index for. -/
def allocates : ManagerCall → Option (String × String × StatusPurpose)
  | .allocateIndex tenantId credentialId statusPurpose _ =>
      some (tenantId, credentialId, statusPurpose)
  | .allocateForCredential tenantId credentialId statusPurpose _ =>
      some (tenantId, credentialId, statusPurpose)
  | _ => none

end ManagerCall

/-- The allocation a result carries. -/
def ManagerResult.allocation? : ManagerResult → Option IndexAllocation
  | .allocation a => some a
  | .entry a _ => some a
  | _ => none

/-! ### The policy of the calls -/

/-- Lists have a bit and no more than an index can name, and an allocation is in range of a list of
its tenant. Where purposes are `confined`, it also has the purpose of its list, and a call by
credential writes to lists of the purpose it names only. -/
def callsPolicy (confined : Prop) (calls : Nat → ManagerCall) : Policy where
  wf row := 0 < row.characteristics.length ∧ row.characteristics.length ≤ maxSafeInteger
  keeps _ _ := True
  fits row a := row.tenantId = a.tenantId ∧ a.statusListIndex < row.characteristics.length ∧
    (confined → row.statusPurpose = a.statusPurpose)
  mayCreate _ _ := True
  mayUpdate i row := confined → ∀ tenantId credentialId statusPurpose status,
    calls i = .status (.setCredentialStatus tenantId credentialId statusPurpose status) →
    row.statusPurpose = statusPurpose
  mayAllocate _ _ := True
  keeps_refl _ := trivial
  keeps_trans _ _ := trivial
  fits_congr h hf := ⟨h.tenantId ▸ hf.1, h.characteristics ▸ hf.2.1, h.statusPurpose ▸ hf.2.2⟩
  mayUpdate_congr h hm := h.statusPurpose ▸ hm

/-- A direct `allocateIndex` points at a list of the tenant that has the purpose it names. -/
def ManagerCall.PointsAtPurpose (call : ManagerCall) (w : World) : Prop :=
  ∀ tenantId credentialId statusPurpose listId,
    call = .allocateIndex tenantId credentialId statusPurpose listId →
    ∃ row ∈ w.db.statusLists, row.id = listId ∧
      (row.tenantId = tenantId → row.statusPurpose = statusPurpose)

section Calls

variable {B : Type} {deps : ManagerDeps B} {env : Environment} {confined : Prop}
  {calls : Nat → ManagerCall}

theorem callsPolicy_wf {input : CreateStatusListInput} {row : StatusListRecord}
    (h : Created deps env input row) : (callsPolicy confined calls).wf row := by
  obtain ⟨list, hlist, _⟩ := h.materialized
  exact ⟨Nat.lt_of_lt_of_le (by decide) (characteristicsOf_minimum h.characteristics),
    deps.lib.createList_safe hlist⟩

theorem callsPolicy_resigns : (callsPolicy confined calls).Resigns deps env := by
  intro row issuerInstance index status m hwf _ _ updatedAt
  refine ⟨rfl, rfl, ?_, trivial⟩
  change 0 < _ ∧ _ ≤ maxSafeInteger
  rw [← (SameBinding.apply _ row).characteristics]
  exact hwf

theorem callsPolicy_fits {row : StatusListRecord} (hwf : (callsPolicy confined calls).wf row)
    {tenantId credentialId : String} {statusPurpose : StatusPurpose} {listId : String} {i : Nat}
    (htenant : row.tenantId = tenantId) (hpurpose : confined → row.statusPurpose = statusPurpose) :
    0 < row.characteristics.length ∧ ∀ a, AllocationFor tenantId credentialId statusPurpose
      listId row.characteristics.length a → (callsPolicy confined calls).fits row a ∧
        (callsPolicy confined calls).mayAllocate i a :=
  ⟨hwf.1, fun _ ha => ⟨⟨htenant.trans ha.tenantId.symm, ha.inRange,
    fun hc => (hpurpose hc).trans ha.statusPurpose.symm⟩, trivial⟩⟩

/-- What a call leaves behind that made an allocation. -/
def Allocates (i : Nat) (call : ManagerCall) (result : ManagerResult) (t : World) : Prop :=
  ∀ key, call.allocates = some key → ∃ a, result.allocation? = some a ∧
    (a.tenantId, a.credentialId, a.statusPurpose) = key ∧ a ∈ t.db.indexAllocations ∧
    Event.allocated i a ∈ t.log

/-- Every call keeps to the policy; where purposes are confined, a direct `allocateIndex` has to
name the purpose of its list, for nothing in the code compares them. -/
theorem managerCall_serves {i : Nat} {s : World} (hn : s.NotCommitted i) (hidle : s.Idle i)
    (hpoints : confined → (calls i).PointsAtPurpose s) :
    (callsPolicy confined calls).Serves env i ((calls i).program deps)
      (Ends (fun r t => Allocates i (calls i) r t ∧ t.Idle i) (fun _ t => t.Idle i)) s := by
  cases hcall : calls i with
  | createList input =>
      refine (StatusListManager.createList_serves hn hidle
        fun row hrow => ⟨callsPolicy_wf hrow, trivial⟩).map ?_
      rintro (e | record) t h
      · exact h.1.idle hidle
      · exact ⟨nofun, h.2.2.2.2⟩
  | status call =>
      have hstatus : (callsPolicy confined calls).Serves env i (call.program deps)
          (fun _ t => t.Idle i) s := by
        cases call with
        | setStatus listId statusListIndex status =>
            refine (StatusListManager.setStatus_serves hn hidle (fun _ _ _ row _ _ _ => ?_)
              callsPolicy_resigns).imp ?_
            · rw [hcall]
              exact nofun
            · rintro (e | change) t _ h <;> exact h.1
        | setCredentialStatus tenantId credentialId statusPurpose status =>
            refine (StatusListManager.setCredentialStatus_serves hn hidle
              (fun a ha u _ hI hmem row hrow hid hc => ?_) callsPolicy_resigns).imp ?_
            · rw [hcall]
              rintro _ _ _ _ ⟨⟩
              obtain ⟨row', hrow', hid', _, _, hpurpose⟩ := hI.fits a hmem
              rw [hI.eq_of_id hrow hrow' (hid.trans hid'.symm), hpurpose hc, ha.statusPurpose]
            · rintro (e | change) t _ h <;> exact h.1
      refine hstatus.map ?_
      rintro (e | change) t h
      · exact h
      · exact ⟨nofun, h⟩
  | allocateIndex tenantId credentialId statusPurpose listId =>
      refine (StatusListManager.allocateIndex_serves hn hidle
        fun row hrow htenant => callsPolicy_fits hrow.wf htenant fun hc => ?_).map ?_
      · obtain ⟨row₀, hrow₀, hid₀, hpurpose⟩ := hpoints hc _ _ _ _ hcall
        obtain ⟨u, hu, hI, hmem⟩ := hrow.current
        obtain ⟨row₁, hrow₁, hsame⟩ := hu.lists row₀ hrow₀
        have hsame' : row = row₁ :=
          hI.eq_of_id hmem hrow₁ (hrow.id.trans (hid₀.symm.trans hsame.binding.id))
        rw [hsame', ← hsame.binding.statusPurpose]
        exact hpurpose (by rw [hsame.binding.tenantId, ← hsame', htenant])
      rintro (e | a) t h
      · exact h.1.idle hidle
      · obtain ⟨row, _, _, ha, hstored, _, hit⟩ := h
        refine ⟨?_, hit⟩
        rintro key ⟨⟩
        exact ⟨a, rfl, by rw [ha.tenantId, ha.credentialId, ha.statusPurpose], hstored.mem,
          hstored.log⟩
  | allocateForCredential tenantId credentialId statusPurpose listId =>
      refine (StatusListManager.allocateForCredential_serves hn hidle
        (fun _ row _ hrow => ⟨callsPolicy_wf hrow, trivial⟩)
        fun row hwf htenant hpurpose => callsPolicy_fits hwf htenant fun _ => hpurpose).map ?_
      rintro (e | r) t h
      · exact h.2.1
      · obtain ⟨_, ha, hmem, hlog, _, hit⟩ := h
        refine ⟨?_, hit⟩
        rintro key ⟨⟩
        exact ⟨r.1, rfl, by rw [ha.tenantId, ha.credentialId, ha.statusPurpose], hmem, hlog⟩

/-- The pool of these calls on an empty database. -/
abbrev managerPool (deps : ManagerDeps B) (calls : Nat → ManagerCall) :
    Pool Operation Operation.Answer JsError ManagerResult World Nat :=
  ⟨World.initial, fun i => (calls i).program deps⟩

variable (deps) in
theorem managerCalls_good (calls : Nat → ManagerCall) :
    Pool.Good ((callsPolicy False calls).discipline env)
      (fun i => Ends (fun r t => Allocates i (calls i) r t ∧ t.Idle i) (fun _ t => t.Idle i))
      ⟨World.initial, fun i => (calls i).program deps⟩ :=
  good_of (callsPolicy False calls).accepts_empty fun i =>
    managerCall_serves (notCommitted_of i) (idle_of i) False.elim

end Calls

/-- **The allocation table is a partial injection.** In every state that any interleaving of
manager calls reaches: an index of a list is held once, a credential holds one index for a purpose,
every index is in range of an existing list of the allocation's own tenant, no allocation changes
or goes away later, and of the calls for one credential and purpose at most one succeeds. -/
theorem allocations_partial_injection {B : Type} (deps : ManagerDeps B) (env : Environment)
    (calls : Nat → ManagerCall) (q : Pool Operation Operation.Answer JsError ManagerResult World Nat)
    (hrun : Pool.Run (World.step env) ⟨World.initial, fun i => (calls i).program deps⟩ q) :
    (q.state.db.indexAllocations.map fun a => (a.listId, a.statusListIndex)).Nodup ∧
    (q.state.db.indexAllocations.map
      fun a => (a.tenantId, a.credentialId, a.statusPurpose)).Nodup ∧
    (∀ a ∈ q.state.db.indexAllocations, ∃ row ∈ q.state.db.statusLists, row.id = a.listId ∧
      a.statusListIndex < row.characteristics.length ∧ row.tenantId = a.tenantId) ∧
    (∀ q', Pool.Run (World.step env) q q' →
      ∀ a ∈ q.state.db.indexAllocations, a ∈ q'.state.db.indexAllocations) ∧
    ∀ i j key r r', (calls i).allocates = some key → (calls j).allocates = some key →
      (q.thread i).outcome? = some (.ok r) → (q.thread j).outcome? = some (.ok r') → i = j := by
  have hgood := run_good (managerCalls_good deps calls) hrun
  have hrec := run_recorded (managerCalls_good deps calls) hrun
    (recorded_of _ Database.empty)
  have hI : (callsPolicy False calls).Inv env q.state := hgood.inv
  refine ⟨hI.indexes_nodup, hI.credentials_nodup, fun a ha => ?_, fun q' hrun' => ?_, ?_⟩
  · obtain ⟨row, hrow, hid, htenant, hlt, _⟩ := hI.fits a ha
    exact ⟨row, hrow, hid, hlt, htenant⟩
  · exact (run_extends hgood hrun').allocations
  · intro i j key r r' hi hj hr hr'
    obtain ⟨a, _, hkey, hmem, hlog⟩ := (hgood.outcome hr).1 key hi
    obtain ⟨a', _, hkey', hmem', hlog'⟩ := (hgood.outcome hr').1 key hj
    have heq : a = a' :=
      List.inj_on_of_nodup_map hI.credentials_nodup hmem hmem' (hkey.trans hkey'.symm)
    have hnodup : (q.state.log.filterMap Event.allocation?).Nodup := by
      have h := List.Nodup.of_map _ hI.credentials_nodup
      rwa [hrec.history.indexAllocations] at h
    cases eq_of_nodup_filterMap hnodup hlog (heq ▸ hlog') rfl rfl
    rfl

/-- The queries that write an allocation. -/
def Operation.insertsAllocation : Operation → Bool
  | .insertAllocation _ => true
  | _ => false

/-- A list, two requests for an index for one credential, one for another credential, and requests
in a list that does not exist. -/
def racingCalls : Nat → ManagerCall
  | 0 => .createList
      { tenantId := "acme", issuerInstance := testIssuerInstance, statusPurpose := .revocation
        id := some "list-1" }
  | 1 | 2 => .allocateIndex "acme" "urn:uuid:1" .revocation "list-1"
  | 3 => .allocateIndex "acme" "urn:uuid:2" .revocation "list-1"
  | _ => .allocateIndex "acme" "urn:uuid:3" .revocation "list-2"

/-- Three calls have all found an index free and their credential without one before any of them
writes. Of the two for one credential only the first to write returns, and the table holds one
allocation a credential. -/
theorem allocations_partial_injection_racing :
    ∃ q₁ q : Pool Operation Operation.Answer JsError ManagerResult World Nat,
      Pool.Run (World.step (testEnvironment .postgres))
        ⟨World.initial, fun i => (racingCalls i).program testDeps⟩ q₁ ∧
      (q₁.state.db.indexAllocations = [] ∧
        ∀ i ∈ [1, 2, 3], (q₁.thread i).next?.any Operation.insertsAllocation) ∧
      Pool.Run (World.step (testEnvironment .postgres)) q₁ q ∧
      q.state.db.indexAllocations.length = 2 ∧
      (q.state.db.indexAllocations.map fun a => (a.listId, a.statusListIndex)).Nodup ∧
      (q.state.db.indexAllocations.map
        fun a => (a.tenantId, a.credentialId, a.statusPurpose)).Nodup ∧
      (∀ a ∈ q.state.db.indexAllocations, ∃ row ∈ q.state.db.statusLists, row.id = a.listId ∧
        a.statusListIndex < row.characteristics.length ∧ row.tenantId = a.tenantId) ∧
      (∃ r, (q.thread 1).outcome? = some (.ok r)) ∧
      ∀ r, (q.thread 2).outcome? ≠ some (.ok r) := by
  -- The list is made first; after four rounds the three calls are at their inserts.
  obtain ⟨q₁, q, hfirst, hsecond, hnone, hnext, hlength, hreturned⟩ :
      ∃ q₁ q : Pool Operation Operation.Answer JsError ManagerResult World Nat,
        Pool.Run (World.step (testEnvironment .postgres))
          ⟨World.initial, fun i => (racingCalls i).program testDeps⟩ q₁ ∧
        Pool.Run (World.step (testEnvironment .postgres)) q₁ q ∧
        q₁.state.db.indexAllocations.length = 0 ∧
        (∀ i ∈ [1, 2, 3], (q₁.thread i).next?.any Operation.insertsAllocation) ∧
        q.state.db.indexAllocations.length = 2 ∧ (q.thread 1).returned :=
    ⟨_, _, (Pool.traced_scheduled (List.replicate 5 0 ++ (List.replicate 4 [1, 2, 3]).flatten) _).run,
      (Pool.traced_scheduled (List.replicate 5 [1, 2, 3]).flatten _).run, by decide +kernel⟩
  obtain ⟨hindexes, hcredentials, hfits, -, honce⟩ := allocations_partial_injection testDeps
    (testEnvironment .postgres) racingCalls q (hfirst.trans hsecond)
  obtain ⟨r, hr⟩ := Program.outcome?_of_returned hreturned
  refine ⟨q₁, q, hfirst, ⟨List.eq_nil_of_length_eq_zero hnone, hnext⟩, hsecond, hlength, hindexes,
    hcredentials, hfits, ⟨r, hr⟩, fun r' hr' => ?_⟩
  exact absurd (honce 1 2 _ r r' rfl rfl hr hr') (by decide)

end VcalmStatus
