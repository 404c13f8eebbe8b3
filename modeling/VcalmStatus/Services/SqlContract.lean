import VcalmStatus.Safety.Alone
import VcalmStatus.Services.StorageContract

/-!
`SqlStorage` keeps the contract, on both dialects.

A call that runs while no transaction is open reads the tables, or writes them in the one statement
or the one transaction it consists of, and leaves no transaction open behind it. So calls that come
one after the other move the tables exactly as the contract says.
-/

namespace VcalmStatus

open Js Effects

namespace World

/-- Nobody has a transaction open. -/
def Quiet (w : World) : Prop := ∀ i, w.Idle i

variable {env : Environment} {i : Nat} {w w' : World} {α : Type}

theorem quiet_initial : initial.Quiet := fun _ => ⟨rfl, nofun, nofun⟩

theorem Quiet.onlyBy (h : w.Quiet) (i : Nat) : w.OnlyBy i := fun j _ => h j

/-- What is no part of a transaction is of no matter for it. -/
theorem Quiet.of_eq (h : w.Quiet) (htransaction : w'.transaction = w.transaction)
    (hconnection : w'.connection = w.connection) (hholder : w'.holder = w.holder) : w'.Quiet := by
  intro j
  obtain ⟨ht, hc, hh⟩ := h j
  exact ⟨by rw [htransaction, ht], by rw [hconnection]; exact hc, by rw [hholder]; exact hh⟩

/-- With its last transaction over, everything is quiet. -/
theorem OnlyBy.release (env : Environment) (h : w.OnlyBy i) : (w.release i).Quiet := by
  intro j
  by_cases hj : j = i
  · subst hj
    refine ⟨Function.update_self .., ?_, fun id => ?_⟩
    · simp only [World.release]
      split <;> simp_all
    · simp only [World.release]
      split <;> simp_all
  · have hreleased : w.Effect env i .rollback (w.release i) := .released
    exact h.effect hreleased j hj

theorem OnlyBy.commit (env : Environment) (h : w.OnlyBy i) : (w.commit i).Quiet := by
  have happly : (w.apply i).OnlyBy i := fun j hj => by
    obtain ⟨ht, hc, hh⟩ := h j hj
    exact ⟨ht, hc, hh⟩
  exact happly.release env

theorem OnlyBy.respond (env : Environment) (h : w.OnlyBy i) (o : Operation) : (w.respond env i o).2.OnlyBy i :=
  h.effect (effect_of_step (h.step_eq o))

theorem OnlyBy.lock {id : String} {row : StatusListRecord} (env : Environment) (h : w.OnlyBy i)
    (hrow : w.db.getStatusList id = some row) : (w.lock i row).OnlyBy i := by
  have hrespond := h.respond env (.lockStatusList id)
  simp only [World.respond, hrow] at hrespond
  exact hrespond

/-- The world in which the body of a transaction starts. -/
def begun (env : Environment) (i : Nat) (w : World) : World :=
  (w.respond env i .beginTransaction).2

theorem begun_db : (w.begun env i).db = w.db := by
  simp only [begun, respond]
  cases env.dialect <;> rfl

theorem run_transaction_ok {body : Async α} {a : α} (h : w.OnlyBy i)
    (hbody : body.run (World.step env i) (w.begun env i) = some (.ok a, w'))
    (h' : w'.OnlyBy i) :
    (VcalmStatus.transaction body).run (World.step env i) w = some (.ok a, w'.commit i) := by
  have hcommit : (do
      let result ← body
      await .commit
      pure result : Async α).run (World.step env i) (w.begun env i) =
        some (.ok a, w'.commit i) := by
    rw [Program.run_bind, hbody]
    exact h'.run_await .commit fun _ => pure a
  rw [VcalmStatus.transaction, h.run_await, Program.run_tryCatch]
  exact congrArg (Option.bind · _) hcommit

theorem run_transaction_error {body : Async α} {e : JsError} (h : w.OnlyBy i)
    (hbody : body.run (World.step env i) (w.begun env i) = some (.error e, w'))
    (h' : w'.OnlyBy i) :
    (VcalmStatus.transaction body).run (World.step env i) w = some (.error e, w'.release i) := by
  have hskip : (do
      let result ← body
      await .commit
      pure result : Async α).run (World.step env i) (w.begun env i) = some (.error e, w') := by
    rw [Program.run_bind, hbody]
    rfl
  rw [VcalmStatus.transaction, h.run_await, Program.run_tryCatch]
  refine (congrArg (Option.bind · _) hskip).trans ?_
  exact h'.run_await .rollback fun _ => throw e

end World

/-- The same surroundings with the clock standing still. -/
def Environment.at (env : Environment) (now : Date) : Environment :=
  { env with newDate := fun _ => now }

namespace SqlStorage

/-- The result of a call that does not throw. -/
def fulfilled {α : Type} : Except JsError α × World → Option (α × World)
  | (.ok a, w) => some (a, w)
  | (.error _, _) => none

/-- A call of the interface, run while no other one is under way. -/
def step {T : Type} (env : Environment) (i : Nat) (now : Date) :
    Answers (StorageCall.Answer (T := T)) World
  | w, .createStatusList record =>
      (createStatusList record).run (World.step (env.at now) i) w
  | w, .getStatusList id => ((getStatusList id).run (World.step (env.at now) i) w).bind fulfilled
  | w, .findStatusLists tenantId statusPurpose issuerInstanceId =>
      ((findStatusLists tenantId statusPurpose issuerInstanceId).run
        (World.step (env.at now) i) w).bind fulfilled
  | w, .updateStatusList id mutate =>
      (updateStatusList id fun current => Program.ofExcept (mutate current)).run
        (World.step (env.at now) i) w
  | w, .allocateIndex allocation => (allocateIndex allocation).run (World.step (env.at now) i) w
  | w, .getAllocation tenantId credentialId statusPurpose =>
      ((getAllocation tenantId credentialId statusPurpose).run
        (World.step (env.at now) i) w).bind fulfilled
  | w, .isIndexAllocated listId statusListIndex =>
      ((isIndexAllocated listId statusListIndex).run (World.step (env.at now) i) w).bind fulfilled
  | w, .countAllocations listId =>
      ((countAllocations listId).run (World.step (env.at now) i) w).bind fulfilled

/-- The order in which a failed insert is asked for its reason. -/
def refusalOrder : List Refusal := [.credentialAllocated, .indexTaken, .unknownList]

/-- The tables of a database that nobody has a transaction open on. -/
def Holds (db : Database) (w : World) : Prop := w.db = db ∧ w.Quiet

variable {T : Type} {env : Environment} {i : Nat} {w : World} {now : Date}

/-- A run that ends quietly with these tables. -/
def Comes {α : Type} (p : Async α) (env : Environment) (i : Nat) (w : World) (r : Except JsError α)
    (db : Database) : Prop :=
  ∃ w', p.run (World.step env i) w = some (r, w') ∧ Holds db w'

theorem Comes.ret (h : w.Quiet) {α : Type} (a : α) : Comes (pure a) env i w (.ok a) w.db :=
  ⟨w, rfl, rfl, h⟩

theorem Comes.throw (h : w.Quiet) {α : Type} (e : JsError) :
    Comes (throw e : Async α) env i w (.error e) w.db := ⟨w, rfl, rfl, h⟩

theorem Comes.rethrow {α : Type} {p : Async JsError} {e : JsError} {db : Database}
    (h : Comes p env i w (.ok e) db) : Comes (p >>= fun e => (.fail e : Async α)) env i w
      (.error e) db := by
  obtain ⟨w', hrun, hw'⟩ := h
  exact ⟨w', by rw [Program.run_bind, hrun]; rfl, hw'⟩

theorem Comes.await (h : w.Quiet) {α : Type} {o : Operation} {k : o.Answer → Async α}
    {r : Except JsError α} {db : Database}
    (hk : Comes (k (w.respond env i o).1) env i (w.respond env i o).2 r db) :
    Comes (VcalmStatus.await o >>= k) env i w r db := by
  obtain ⟨w', hrun, hw'⟩ := hk
  exact ⟨w', ((h.onlyBy i).run_await o k).trans hrun, hw'⟩

theorem quiet_advance (h : w.Quiet) : w.advance.Quiet := h.of_eq rfl rfl rfl

theorem quiet_insertStatusList (h : w.Quiet) (row : StatusListRecord) :
    (w.insertStatusList i row).Quiet := h.of_eq rfl rfl rfl

theorem quiet_insertAllocation (h : w.Quiet) (row : IndexAllocation) :
    (w.insertAllocation i row).Quiet := h.of_eq rfl rfl rfl

theorem comes_createStatusList (h : w.Quiet) (record : NewStatusListRecord) :
    Comes (createStatusList record) (env.at now) i w
      (StorageContract.answer (T := T) refusalOrder now w.db (.createStatusList record)).1
      (StorageContract.answer (T := T) refusalOrder now w.db (.createStatusList record)).2 := by
  have hadvance : w.advance.Quiet := quiet_advance h
  rw [createStatusList]
  apply Comes.await h
  apply Comes.await hadvance
  dsimp only [World.respond, Environment.at, World.advance, StorageContract.answer]
  cases hrow : (w.db.getStatusList record.id).isSome with
  | true =>
      apply Comes.await hadvance
      dsimp only [World.respond, World.advance]
      simp only [hrow, if_true]
      exact Comes.throw hadvance _
  | false => exact Comes.ret (quiet_insertStatusList hadvance _) _

/-- What the locked read answers, and the world with the lock. -/
theorem run_lockStatusList {α : Type} (hw : w.OnlyBy i) {id : String}
    (k : Option StatusListRecord → Async α) :
    (await (.lockStatusList id) >>= k).run (World.step env i) w =
      (k (w.db.getStatusList id)).run (World.step env i)
        ((w.db.getStatusList id).elim w fun row => w.lock i row) := by
  rw [hw.run_await]
  simp only [World.respond]
  cases w.db.getStatusList id <;> rfl

/-- A body that ends in a value, and then its commit. -/
theorem comes_transaction_ok {body : Async T} {a : T} {w' : World} (h : w.Quiet)
    (hbody : body.run (World.step env i) (w.begun env i) = some (.ok a, w')) (h' : w'.OnlyBy i) :
    Comes (VcalmStatus.transaction body) env i w (.ok a) (w'.commit i).db :=
  ⟨_, World.run_transaction_ok (h.onlyBy i) hbody h', rfl, h'.commit env⟩

theorem comes_transaction_error {body : Async T} {e : JsError} {w' : World} (h : w.Quiet)
    (hbody : body.run (World.step env i) (w.begun env i) = some (.error e, w'))
    (h' : w'.OnlyBy i) :
    Comes (VcalmStatus.transaction body) env i w (.error e) w'.db :=
  ⟨_, World.run_transaction_error (h.onlyBy i) hbody h', rfl, h'.release env⟩

theorem comes_updateStatusList (h : w.Quiet) (id : String)
    (mutate : StatusListRecord → Except JsError (StatusListMutationResult T)) :
    Comes (updateStatusList id fun current => Program.ofExcept (mutate current)) (env.at now) i w
      (StorageContract.answer refusalOrder now w.db (.updateStatusList id mutate)).1
      (StorageContract.answer refusalOrder now w.db (.updateStatusList id mutate)).2 := by
  have hbegun : (w.begun (env.at now) i).OnlyBy i := (h.onlyBy i).respond (env.at now) .beginTransaction
  have hdb : (w.begun (env.at now) i).db = w.db := World.begun_db
  rw [updateStatusList, StorageContract.answer]
  cases hrow : w.db.getStatusList id with
  | none =>
      rw [← hdb]
      apply comes_transaction_error h _ hbegun
      rw [run_lockStatusList hbegun, hdb, hrow]
      rfl
  | some current =>
      have hlocked : ((w.begun (env.at now) i).lock i current).OnlyBy i :=
        hbegun.lock (env.at now) (hdb.symm ▸ hrow)
      dsimp only
      cases hm : mutate current with
      | error e =>
          show Comes _ _ _ _ _ w.db
          rw [← hdb]
          apply comes_transaction_error h _ hlocked
          rw [run_lockStatusList hbegun, hdb, hrow]
          dsimp only [Option.elim_some]
          rw [hm]
          rfl
      | ok outcome =>
          dsimp only
          cases hw : outcome.materialization with
          | none =>
              have hcommit : (((w.begun (env.at now) i).lock i current).commit i).db = w.db := by
                rw [World.commit_db_of_none (by simp [World.lock])]
                exact hdb
              dsimp only
              rw [← hcommit]
              apply comes_transaction_ok h _ hlocked
              rw [run_lockStatusList hbegun, hdb, hrow]
              dsimp only [Option.elim_some]
              rw [hm, Program.ofExcept_ok, Program.ret_bind, hw]
              rfl
          | some materialization =>
              have hid : current.id = id := (Database.mem_of_getStatusList hrow).2
              let u := StorageContract.nextVersion current materialization now
              have hadvance : ((w.begun (env.at now) i).lock i current).advance.OnlyBy i :=
                hlocked.respond (env.at now) .newDate
              have hstaged : (((w.begun (env.at now) i).lock i current).advance.stage i u).OnlyBy i :=
                hadvance.respond (env.at now)
                  (.updateStatusListRow u.id u.materialization u.version u.updatedAt)
              have hcommit : ((((w.begun (env.at now) i).lock i current).advance.stage i u).commit
                  i).db = w.db.update u := by
                rw [World.commit_db_of_some (u := u) (by simp [World.stage])]
                exact congrArg (Database.update · u) hdb
              dsimp only
              rw [← hcommit]
              apply comes_transaction_ok h _ hstaged
              rw [run_lockStatusList hbegun, hdb, hrow]
              dsimp only [Option.elim_some]
              rw [hm, Program.ofExcept_ok, Program.ret_bind, hw]
              dsimp only
              rw [hlocked.run_await, ← hid]
              exact hadvance.run_await
                (.updateStatusListRow u.id u.materialization u.version u.updatedAt)
                fun _ => pure outcome.result

theorem complete_refusalOrder : Refusal.Complete refusalOrder := by
  intro r
  cases r <;> decide

/-- What is read back after a refused insert: the first reason that applies. -/
theorem comes_classifyAllocationFailure (h : w.Quiet) (allocation : NewIndexAllocation)
    (cause : JsError) :
    Comes (classifyAllocationFailure allocation cause) env i w
      (.ok (((refusalOrder.find? (Refusal.applies w.db allocation)).map
        (Refusal.error allocation)).getD cause)) w.db := by
  rw [classifyAllocationFailure]
  apply Comes.await h
  simp only [World.respond, refusalOrder, List.find?_cons, Refusal.applies]
  by_cases hcredential : (w.db.getAllocation allocation.tenantId allocation.credentialId
    allocation.statusPurpose).isSome = true
  · simp only [hcredential, if_true]
    exact Comes.ret h _
  · simp only [hcredential]
    apply Comes.await h
    simp only [World.respond]
    by_cases hindex : w.db.isIndexAllocated allocation.listId allocation.statusListIndex = true
    · simp only [hindex, if_true]
      exact Comes.ret h _
    · simp only [hindex]
      apply Comes.await h
      simp only [World.respond]
      by_cases hlist : (w.db.getStatusList allocation.listId).isNone = true
      · simp only [hlist, if_true]
        exact Comes.ret h _
      · simp only [hlist]
        exact Comes.ret h _

theorem comes_allocateIndex (h : w.Quiet) (allocation : NewIndexAllocation) :
    Comes (allocateIndex allocation) (env.at now) i w
      (StorageContract.answer (T := T) refusalOrder now w.db (.allocateIndex allocation)).1
      (StorageContract.answer (T := T) refusalOrder now w.db (.allocateIndex allocation)).2 := by
  have hadvance : w.advance.Quiet := quiet_advance h
  have hadmits := StorageContract.admits_eq complete_refusalOrder w.db allocation now
  rw [allocateIndex]
  apply Comes.await h
  apply Comes.await hadvance
  dsimp only [World.respond, Environment.at, World.advance, StorageContract.answer]
  rw [show w.db.admits { allocation with allocatedAt := now } =
    (refusalOrder.find? (Refusal.applies w.db allocation)).isNone from hadmits]
  cases hrefusal : refusalOrder.find? (Refusal.applies w.db allocation) with
  | none => exact Comes.ret (quiet_insertAllocation hadvance _) _
  | some refusal =>
      have hread : Comes _ (env.at now) i _ _ _ :=
        comes_classifyAllocationFailure hadvance allocation driverError
      rw [show w.advance.db = w.db from rfl, hrefusal] at hread
      exact hread.rethrow

theorem Comes.fulfilled {α : Type} {p : Async α} {a : α} {db : Database}
    (h : Comes p env i w (.ok a) db) : ∃ w', ((p.run (World.step env i) w).bind
      SqlStorage.fulfilled) = some (a, w') ∧ Holds db w' := by
  obtain ⟨w', hrun, hw'⟩ := h
  exact ⟨w', by rw [hrun]; rfl, hw'⟩

/-- `SqlStorage` answers every call as the contract does. -/
theorem follows (env : Environment) (i : Nat) (now : Date) :
    Follows Holds (fun _ (_ : StorageCall T) => True) (StorageContract.step refusalOrder now)
      (step env i now) := by
  rintro db w call r db' ⟨rfl, h⟩ - hstep
  have heq : StorageContract.answer refusalOrder now w.db call = (r, db') := Option.some.inj hstep
  obtain ⟨rfl, rfl⟩ := Prod.ext_iff.mp heq.symm
  cases call with
  | createStatusList record => exact comes_createStatusList h record
  | getStatusList id => exact (Comes.await h (Comes.ret h _)).fulfilled
  | findStatusLists t p n => exact (Comes.await h (Comes.ret h _)).fulfilled
  | updateStatusList id mutate => exact comes_updateStatusList h id mutate
  | allocateIndex allocation => exact comes_allocateIndex h allocation
  | getAllocation t c p => exact (Comes.await h (Comes.ret h _)).fulfilled
  | isIndexAllocated listId n => exact (Comes.await h (Comes.ret h _)).fulfilled
  | countAllocations listId => exact (Comes.await h (Comes.ret h _)).fulfilled

end SqlStorage

end VcalmStatus
