import VcalmStatus.Effects.Schedule
import VcalmStatus.Safety.History
import VcalmStatus.Safety.Update
import VcalmStatus.TestFixtures

/-!
Concurrent status updates are serializable.

Any number of `setStatus` and `setCredentialStatus` calls, interleaved step by step and with any
of them failing, leave the lists as the calls that returned would have left them one after the
other. The order is the order of the commits; what one call does in it is `CallPerforms`, a
relation on the tables alone.
-/

namespace VcalmStatus

open Js Effects Policy

/-- The two public calls that set a bit. -/
inductive StatusCall
  | setStatus (listId : String) (statusListIndex : Number) (status : Bool)
  | setCredentialStatus (tenantId credentialId : String) (statusPurpose : StatusPurpose)
      (status : Bool)

namespace StatusCall

def program {B : Type} (deps : ManagerDeps B) : StatusCall → Async StatusChange
  | .setStatus listId statusListIndex status =>
      StatusListManager.setStatus deps listId statusListIndex status
  | .setCredentialStatus tenantId credentialId statusPurpose status =>
      StatusListManager.setCredentialStatus deps tenantId credentialId statusPurpose status

/-- The list, index and value a call is about, given the allocations. -/
def target (db : Database) : StatusCall → Option (String × Number × Bool)
  | .setStatus listId statusListIndex status => some (listId, statusListIndex, status)
  | .setCredentialStatus tenantId credentialId statusPurpose status =>
      (db.getAllocation tenantId credentialId statusPurpose).map fun a =>
        (a.listId, .int a.statusListIndex, status)

/-- What a call makes of the bit at one place. -/
def write (db : Database) (listId : String) (index : Nat) (held : Bool) (call : StatusCall) :
    Bool :=
  match call.target db with
  | some (id, n, status) => if id = listId ∧ n = .int index then status else held
  | none => held

end StatusCall

/-- The bit the tables hold for an index of a list, where there is one. -/
def BitstringLibrary.bitOf {B : Type} (lib : BitstringLibrary B) (db : Database) (listId : String)
    (index : Nat) : Option Bool :=
  (db.getStatusList listId).bind fun row => (lib.readStatus row.encodedList index).toOption

theorem BitstringLibrary.bitOf_eq_some {B : Type} {lib : BitstringLibrary B} {db : Database}
    {listId : String} {index : Nat} {v : Bool} :
    lib.bitOf db listId index = some v ↔
      ∃ row, db.getStatusList listId = some row ∧ lib.readStatus row.encodedList index = .ok v := by
  have toOption_eq : ∀ x : Except JsError Bool, x.toOption = some v ↔ x = .ok v := by
    intro x
    cases x <;> simp [Except.toOption]
  simp [bitOf, Option.bind_eq_some_iff, toOption_eq]

/-- A call that returned `change`, as one atomic step on the tables: what it addressed, whether the
bit differed, and the row it left. -/
structure CallPerforms {B : Type} (lib : BitstringLibrary B) (db₀ : Database) (call : StatusCall)
    (change : StatusChange) (before after : Database) : Prop where
  addressed : ∃ listId, ∃ index : Nat, ∃ status row,
    call.target db₀ = some (listId, .int index, status) ∧
    change.statusListIndex = .int index ∧ before.getStatusList listId = some row ∧
    index < row.characteristics.length ∧
    (change.changed = true ↔ lib.bitOf before listId index ≠ some status) ∧
    (change.changed = false → after = before ∧ change.record = row) ∧
    (change.changed = true → change.record.version = row.version + 1 ∧
      SameBinding row change.record ∧ ∃ updatedAt,
        after.getStatusList listId = some { change.record with updatedAt := updatedAt }) ∧
    ∀ id ≠ listId, after.getStatusList id = before.getStatusList id
  allocations : after.indexAllocations = before.indexAllocations
  bits : ∀ listId index held, lib.bitOf before listId index = some held →
    lib.bitOf after listId index = some (call.write db₀ listId index held)

/-- Status calls update lists and do nothing else; the allocations are the ones there were. -/
def statusCalls (db₀ : Database) : Policy where
  wf _ := True
  keeps _ _ := True
  fits _ a := a ∈ db₀.indexAllocations
  mayCreate _ _ := False
  mayUpdate _ _ := True
  mayAllocate _ _ := False
  keeps_refl _ := trivial
  keeps_trans _ _ := trivial
  fits_congr _ h := h
  mayUpdate_congr _ h := h

section Serial

variable {B : Type} {deps : ManagerDeps B} {env : Environment} {db₀ : Database}

theorem statusCalls_resigns : (statusCalls db₀).Resigns deps env :=
  fun _ _ _ _ _ _ _ _ _ => ⟨rfl, rfl, trivial, trivial⟩

theorem statusCalls_accepts (h : db₀.Keyed) : (statusCalls db₀).Accepts db₀ where
  keyed := h
  wf _ _ := trivial
  fits a ha := by
    obtain ⟨row, hrow, hid⟩ := h.foreign a ha
    exact ⟨row, hrow, hid, ha⟩

/-- What is known of a call that returned `change`. -/
def Returned (deps : ManagerDeps B) (env : Environment) (db₀ : Database) (i : Nat)
    (call : StatusCall) (change : StatusChange) (t : World) : Prop :=
  ∃ listId statusListIndex status, call.target db₀ = some (listId, statusListIndex, status) ∧
    SetCommitted deps env (statusCalls db₀) i (World.of db₀) listId statusListIndex status change t

variable (deps env) in
theorem statusCall_serves (h : db₀.Keyed) (i : Nat) (call : StatusCall) :
    (statusCalls db₀).Serves env i (call.program deps)
      (Ends (fun change t => t.Idle i ∧ Returned deps env db₀ i call change t)
        (fun _ t => t.Idle i ∧ t.NotCommitted i)) (World.of db₀) := by
  cases call with
  | setStatus listId statusListIndex status =>
      refine (StatusListManager.setStatus_serves (notCommitted_of i) (idle_of i)
        (fun _ _ _ _ _ _ => trivial) statusCalls_resigns).imp ?_
      rintro (e | change) t _ h
      · exact ⟨h.1, h.2.1⟩
      · exact ⟨h.1, listId, statusListIndex, status, rfl, h.2⟩
  | setCredentialStatus tenantId credentialId statusPurpose status =>
      refine (StatusListManager.setCredentialStatus_serves (notCommitted_of i) (idle_of i)
        (fun _ _ _ _ _ _ _ _ _ => trivial) statusCalls_resigns).imp ?_
      rintro (e | change) t _ hend
      · exact ⟨hend.1, hend.2.1⟩
      · obtain ⟨hidle, a, ⟨⟨u, _, hI, hu⟩, rfl, rfl, rfl⟩, hset⟩ := hend
        obtain ⟨_, _, _, ha⟩ := hI.fits a hu
        refine ⟨hidle, a.listId, .int a.statusListIndex, status, ?_, hset⟩
        rw [StatusCall.target, Database.getAllocation_of_nodup h.credentials_nodup ha]
        rfl

/-- One committed call is one atomic step. -/
theorem callPerforms_of_committed {call : StatusCall} {change : StatusChange} {listId : String}
    {statusListIndex : Number} {status : Bool} {row : StatusListRecord}
    {issuerInstance : IssuerInstance} {o : StatusListMutationResult StatusChange}
    {write : Option RowUpdate} {db : Database} {i : Nat}
    (hn : (db.statusLists.map (·.id)).Nodup)
    (htarget : call.target db₀ = some (listId, statusListIndex, status)) (hid : row.id = listId)
    (happ : Applied deps env row issuerInstance statusListIndex status o)
    (hresult : o.result = change) (hwrote : Wrote listId row o.materialization write)
    (hrow : row ∈ db.statusLists) :
    CallPerforms deps.lib db₀ call change db ((Event.committed i row write).apply db) := by
  subst hid
  have hfound := Database.getStatusList_of_mem hn hrow
  cases happ with
  | @unchanged index hindex hread =>
      obtain ⟨rfl, hlt⟩ := StatusListManager.indexWithin_eq_some.mp hindex
      cases hresult
      cases hwrote
      have hbit : deps.lib.bitOf db row.id index = some status :=
        BitstringLibrary.bitOf_eq_some.mpr ⟨row, hfound, hread⟩
      refine ⟨⟨row.id, index, status, row, htarget, rfl, hfound, hlt, by simp [hbit],
        fun _ => ⟨rfl, rfl⟩, fun h => by simp at h, fun _ _ => rfl⟩, rfl, ?_⟩
      intro listId' index' held hheld
      change deps.lib.bitOf db listId' index' = _
      rw [hheld]
      simp only [StatusCall.write, htarget]
      split <;> rename_i hplace
      · obtain ⟨rfl, hindex'⟩ := hplace
        cases hindex'
        rw [← hheld, hbit]
      · rfl
  | @changed index m updatedAt hindex hflip =>
      obtain ⟨rfl, hlt⟩ := StatusListManager.indexWithin_eq_some.mp hindex
      obtain ⟨_, list, list', held, hlist, hheld, hne, hset, hencoded, _⟩ := hflip
      cases hresult
      obtain ⟨updatedAt', rfl⟩ := hwrote
      have hbit : deps.lib.bitOf db row.id index = some held :=
        BitstringLibrary.bitOf_eq_some.mpr
          ⟨row, hfound, (BitstringLibrary.readStatus_eq hlist).trans hheld⟩
      have hafter : (db.update ⟨row.id, m, row.version + 1, updatedAt'⟩).getStatusList row.id =
          some { row with
            encodedList := m.encodedList
            signedCredential := m.signedCredential
            version := row.version + 1
            updatedAt := updatedAt' } := by
        rw [Database.getStatusList_update, hfound, Option.map_some, RowUpdate.apply_of_eq rfl]
      refine ⟨⟨row.id, index, status, row, htarget, rfl, hfound, hlt, by simp [hbit, hne],
        fun h => by simp at h, fun _ => ⟨rfl, ⟨rfl, rfl, rfl, rfl, rfl, rfl⟩, updatedAt', hafter⟩,
        fun id hid => Database.getStatusList_update_of_ne db _ hid⟩, rfl, ?_⟩
      intro listId' index' v hv
      obtain ⟨row', hfound', hread⟩ := BitstringLibrary.bitOf_eq_some.mp hv
      by_cases hid : listId' = row.id
      · subst hid
        cases hfound.symm.trans hfound'
        refine BitstringLibrary.bitOf_eq_some.mpr ⟨_, hafter, ?_⟩
        simp only [hencoded, StatusCall.write, htarget,
          BitstringLibrary.readStatus_encode_setStatus hlist hheld hset hread, true_and,
          Number.int.injEq, Int.natCast_inj, eq_comm (a := index)]
      · refine BitstringLibrary.bitOf_eq_some.mpr
          ⟨row', (Database.getStatusList_update_of_ne db _ hid).trans hfound', ?_⟩
        simp only [StatusCall.write, htarget, Ne.symm hid, false_and, if_false]
        exact hread

/-- A call is in the order of the commits exactly when it returned. -/
theorem mem_committers_iff {p : Pool Operation Operation.Answer JsError StatusChange World Nat}
    {calls : Nat → StatusCall}
    (hp : Pool.Good ((statusCalls db₀).discipline env)
      (fun i => Ends (fun change t => t.Idle i ∧ Returned deps env db₀ i (calls i) change t)
        (fun _ t => t.Idle i ∧ t.NotCommitted i)) p) (i : Nat) :
    i ∈ p.state.log.filterMap Event.committer? ↔
      ∃ change, (p.thread i).outcome? = some (.ok change) := by
  constructor
  · intro hi
    obtain ⟨e, he, hcommitter⟩ := List.mem_filterMap.mp hi
    cases e with
    | created j row => cases hcommitter
    | allocated j a => cases hcommitter
    | committed j row write =>
        cases hcommitter
        cases hend : (p.thread i).outcome? with
        | none => exact absurd he (notCommitted_of_running hp hend row write)
        | some r =>
            cases r with
            | error e => exact absurd he ((hp.outcome hend).2 row write)
            | ok change => exact ⟨change, rfl⟩
  · rintro ⟨change, hend⟩
    obtain ⟨_, _, _, _, _, row, _, _, write, _, _, _, _, _, hlog⟩ := hp.outcome hend
    exact List.mem_filterMap.mpr ⟨_, hlog, rfl⟩

/-- The commits of a log, performed in their order, make the tables that the log made. -/
theorem serially_of_history {log : List Event} {db : Database} {R : Nat → Database → Database → Prop}
    (hn : (db₀.statusLists.map (·.id)).Nodup) (h : History (statusCalls db₀) db₀ log db)
    (hR : ∀ i row write db, Event.committed i row write ∈ log →
      (db.statusLists.map (·.id)).Nodup → row ∈ db.statusLists →
      R i db ((Event.committed i row write).apply db)) :
    Serially R db₀ (log.filterMap Event.committer?) db := by
  induction h with
  | start => exact .nil
  | @snoc log db e h he ih =>
      have ih := ih fun i row write db hmem => hR i row write db (List.mem_append_left _ hmem)
      rw [List.filterMap_append]
      cases e with
      | created i row => exact he.2.2.elim
      | allocated i a => exact he.2.1.elim
      | committed i row write =>
          exact ih.snoc (hR i row write db (List.mem_append_right _ (List.mem_singleton_self _))
            (h.ids_nodup hn) he.1)

end Serial

/-- **No status update is lost or half-applied.** However the calls interleave, the ones that
returned are ordered such that each did in one step what its result says, from the tables the calls
started on to the tables they left; no other call left a trace; and a call waits only for one that
has not finished. -/
theorem setStatus_serializable {B : Type} (deps : ManagerDeps B) (env : Environment)
    (db₀ : Database) (h₀ : db₀.Keyed) (calls : Nat → StatusCall)
    (q : Pool Operation Operation.Answer JsError StatusChange World Nat)
    (hrun : Pool.Run (World.step env) ⟨World.of db₀, fun i => (calls i).program deps⟩ q) :
    ∃ order : List Nat, order.Nodup ∧
      (∀ i, i ∈ order ↔ ∃ change, (q.thread i).outcome? = some (.ok change)) ∧
      Serially (fun i before after => ∃ change, (q.thread i).outcome? = some (.ok change) ∧
        CallPerforms deps.lib db₀ (calls i) change before after) db₀ order q.state.db ∧
      (∀ listId index held, deps.lib.bitOf db₀ listId index = some held →
        deps.lib.bitOf q.state.db listId index = some
          (order.foldl (fun held i => (calls i).write db₀ listId index held) held)) ∧
      ∀ i o, q.state.blocked env i o = true → ∃ j, j ≠ i ∧ (q.thread j).outcome? = none := by
  have hgood := run_good (good_of (statusCalls_accepts h₀) fun i =>
    statusCall_serves deps env h₀ i (calls i)) hrun
  have hrec := run_recorded (good_of (statusCalls_accepts h₀) fun i =>
    statusCall_serves deps env h₀ i (calls i)) hrun (recorded_of _ db₀)
  have hserial : Serially (fun i before after => ∃ change,
      (q.thread i).outcome? = some (.ok change) ∧
        CallPerforms deps.lib db₀ (calls i) change before after) db₀
      (q.state.log.filterMap Event.committer?) q.state.db := by
    refine serially_of_history h₀.ids_nodup hrec.history fun i row write db hmem hn hrow => ?_
    obtain ⟨change, hend⟩ := (mem_committers_iff hgood i).mp
      (List.mem_filterMap.mpr ⟨_, hmem, rfl⟩)
    obtain ⟨_, listId, n, status, htarget, row', issuerInstance, o, write', hcurrent, _, happ,
      hresult, hwrote, hlog⟩ := hgood.outcome hend
    cases hrec.committed_unique hmem hlog
    exact ⟨change, hend, callPerforms_of_committed hn htarget hcurrent.id happ hresult hwrote hrow⟩
  refine ⟨q.state.log.filterMap Event.committer?, hrec.once, mem_committers_iff hgood, hserial,
    fun listId index held hheld => ?_, fun i o hblocked => ?_⟩
  · exact hserial.induct (J := fun db v => deps.lib.bitOf db listId index = some v)
      (fun ⟨_, _, hperforms⟩ hv => hperforms.bits listId index _ hv) hheld
  · obtain ⟨j, hne, hbusy⟩ := World.exists_of_blocked hblocked
    refine ⟨j, hne, ?_⟩
    cases hend : (q.thread j).outcome? with
    | none => rfl
    | some r =>
        cases r with
        | ok change => exact absurd (hgood.outcome hend).1 hbusy
        | error e => exact absurd (hgood.outcome hend).1 hbusy

/-- Two calls that set a bit each, and calls for an index out of range. -/
def overlappingCalls : Nat → StatusCall
  | 0 => .setStatus "list-1" (.int 7) true
  | 1 => .setStatus "list-1" (.int 9) true
  | _ => .setStatus "list-1" (.int 131072) true

/-- Three calls that have all read the list wait for its row in turn: the two that return are in the
order, the one that fails is not, and the list holds both bits. -/
theorem setStatus_serializable_overlapping :
    ∃ q₁ q : Pool Operation Operation.Answer JsError StatusChange World Nat,
      Pool.Run (World.step (testEnvironment .postgres))
        ⟨World.of testDatabase, fun i => (overlappingCalls i).program testDeps⟩ q₁ ∧
      q₁.state.holder "list-1" = some 0 ∧
      (∀ i ∈ [1, 2], (q₁.thread i).next?.any (q₁.state.blocked (testEnvironment .postgres) i)) ∧
      Pool.Run (World.step (testEnvironment .postgres)) q₁ q ∧
      (∃ e, (q.thread 2).outcome? = some (.error e)) ∧
      ∃ order : List Nat, 0 ∈ order ∧ 1 ∈ order ∧ 2 ∉ order ∧
        ∀ index ∈ [7, 9], plainLibrary.bitOf q.state.db "list-1" index = some
          (order.foldl (fun held i =>
            (overlappingCalls i).write testDatabase "list-1" index held) false) := by
  -- Five rounds lead to the row, which the first call locks; fifteen more to the end of all three.
  obtain ⟨q₁, q, hfirst, hsecond, hholder, hwaiting, hreturned, hthrew⟩ :
      ∃ q₁ q : Pool Operation Operation.Answer JsError StatusChange World Nat,
        Pool.Run (World.step (testEnvironment .postgres))
          ⟨World.of testDatabase, fun i => (overlappingCalls i).program testDeps⟩ q₁ ∧
        Pool.Run (World.step (testEnvironment .postgres)) q₁ q ∧
        q₁.state.holder "list-1" = some 0 ∧
        (∀ i ∈ [1, 2], (q₁.thread i).next?.any (q₁.state.blocked (testEnvironment .postgres) i)) ∧
        (∀ i ∈ [0, 1], (q.thread i).returned) ∧ (q.thread 2).threw :=
    ⟨_, _, (Pool.traced_scheduled (List.replicate 5 [0, 1, 2]).flatten _).run,
      (Pool.traced_scheduled (List.replicate 15 [0, 1, 2]).flatten _).run, by decide +kernel⟩
  have hfresh : ∀ index ∈ [7, 9], plainLibrary.bitOf testDatabase "list-1" index = some false := by
    decide +kernel
  obtain ⟨order, -, hmem, -, hbits, -⟩ := setStatus_serializable testDeps
    (testEnvironment .postgres) testDatabase testDatabase_keyed overlappingCalls _
    (hfirst.trans hsecond)
  obtain ⟨e, he⟩ := Program.outcome?_of_threw hthrew
  refine ⟨q₁, q, hfirst, hholder, hwaiting, hsecond, ⟨e, he⟩, order,
    (hmem 0).mpr (Program.outcome?_of_returned (hreturned 0 (by simp))),
    (hmem 1).mpr (Program.outcome?_of_returned (hreturned 1 (by simp))), fun hin => ?_,
    fun index hindex => hbits "list-1" index false (hfresh index hindex)⟩
  obtain ⟨change, hchange⟩ := (hmem 2).mp hin
  rw [he] at hchange
  cases hchange

end VcalmStatus
