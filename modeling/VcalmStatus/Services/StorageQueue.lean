import VcalmStatus.Effects.WriteQueue
import VcalmStatus.Services.MemoryContract

/-!
`MemoryStorage` under concurrent callers.

Every call but `updateStatusList` is over before another one can act. An update waits for its turn
in the write queue of its list, reads the list, hands it to `mutate`, which may call the signing
service and whatever else takes time, and writes what comes back. Meanwhile anything may happen:
other calls of every kind, other updates of the same list queueing up. A step is one of these
moments, in any order the queue allows.
-/

namespace VcalmStatus

open Js Effects

/-- `mutate` of an update: new bits and their credential, or nothing to write. -/
abbrev Mutate (T : Type) := StatusListRecord → Async (StatusListMutationResult T)

/-- It never calls the storage it runs inside of: an update that waited for one of its own list
would wait for itself. -/
def Outside {α : Type} : Async α → Prop
  | .ret _ => True
  | .fail _ => True
  | .call o k => o.usesDatabase = false ∧ ∀ r, Outside (k r)

/-- What is left of a program after some operations outside the database, whatever they
answered. -/
inductive Becomes {α : Type} (p : Async α) : Async α → Prop
  | start : Becomes p p
  | call {o : Operation} {k : o.Answer → Async α} (h : Becomes p (.call o k))
      (ho : o.usesDatabase = false) (r : o.Answer) : Becomes p (k r)

/-- How far an update has come. -/
inductive Work (T : Type)
  | queued (mutate : Mutate T)
  | mutating (mutate : Mutate T) (current : StatusListRecord)
      (rest : Async (StatusListMutationResult T))
  | done (result : Except JsError T)

/-- What took effect, in the order in which it did. An update is named by its number; no step reads
the list of these. -/
inductive StorageEvent (T : Type)
  | called (now : Date) (call : StorageCall T) (answer : call.Answer)
  | updated (update : Nat) (id : String) (mutate : Mutate T) (now : Date)
      (current : StatusListRecord) (outcome : StatusListMutationResult T)
  | threw (update : Nat) (id : String) (mutate : Mutate T) (current : StatusListRecord)
      (error : JsError)
  | missed (update : Nat) (id : String)

structure MemoryProcess (T : Type) where
  storage : MemoryStorage
  queue : WriteQueue String
  work : Nat → Option (Work T)
  log : List (StorageEvent T)

namespace MemoryProcess

variable {T : Type}

def initial : MemoryProcess T := ⟨.empty, .empty, fun _ => none, []⟩

/-- The error of an update of a list that is not there. -/
def unknownList (id : String) : JsError :=
  .storage .listNotFound s!"Status list \"{id}\" not found"

def set (s : MemoryProcess T) (n : Nat) (work : Work T) : Nat → Option (Work T) :=
  Function.update s.work n (some work)

/-- The storage after an outcome was written, or left alone when there is nothing to write. -/
def written (s : MemoryProcess T) (now : Date) (id : String) (current : StatusListRecord)
    (outcome : StatusListMutationResult T) : MemoryStorage :=
  match outcome.materialization with
  | some materialization => s.storage.materialize now id current materialization
  | none => s.storage

end MemoryProcess

/-- The one call that is more than a moment. -/
def StorageCall.isUpdate {T : Type} : StorageCall T → Bool
  | .updateStatusList _ _ => true
  | _ => false

namespace MemoryProcess

variable {T : Type}

/-- The next moment of an update that was called before. -/
inductive Move (s : MemoryProcess T) (n : Nat) : MemoryProcess T → Prop
  | read {c : QueuedCall String} {mutate : Mutate T} {current : StatusListRecord}
      (hqueued : s.queue.calls[n]? = some c) (hphase : c.phase = .waiting)
      (hclear : s.queue.Clear c.previous) (hwork : s.work n = some (.queued mutate))
      (hfound : s.storage.lists.get? c.key = some current) : Move s n
        { s with
          queue := s.queue.enter n .running
          work := s.set n (.mutating mutate current (mutate current)) }
  | miss {c : QueuedCall String} {mutate : Mutate T} (hqueued : s.queue.calls[n]? = some c)
      (hphase : c.phase = .waiting) (hclear : s.queue.Clear c.previous)
      (hwork : s.work n = some (.queued mutate))
      (hmissing : s.storage.lists.get? c.key = none) : Move s n
        { s with
          queue := (s.queue.enter n .running).enter n .settled
          work := s.set n (.done (.error (unknownList c.key)))
          log := s.log ++ [.missed n c.key] }
  | mutate {mutate : Mutate T} {current : StatusListRecord} {o : Operation}
      {k : o.Answer → Async (StatusListMutationResult T)}
      (hwork : s.work n = some (.mutating mutate current (.call o k)))
      (ho : o.usesDatabase = false) (r : o.Answer) : Move s n
        { s with work := s.set n (.mutating mutate current (k r)) }
  | write (now : Date) {c : QueuedCall String} {mutate : Mutate T} {current : StatusListRecord}
      {outcome : StatusListMutationResult T} (hqueued : s.queue.calls[n]? = some c)
      (hphase : c.phase = .running)
      (hwork : s.work n = some (.mutating mutate current (.ret outcome))) : Move s n
        { storage := s.written now c.key current outcome
          queue := s.queue.enter n .settled
          work := s.set n (.done (.ok outcome.result))
          log := s.log ++ [.updated n c.key mutate now current outcome] }
  | throw {c : QueuedCall String} {mutate : Mutate T} {current : StatusListRecord} {e : JsError}
      (hqueued : s.queue.calls[n]? = some c) (hphase : c.phase = .running)
      (hwork : s.work n = some (.mutating mutate current (.fail e))) : Move s n
        { s with
          queue := s.queue.enter n .settled
          work := s.set n (.done (.error e))
          log := s.log ++ [.threw n c.key mutate current e] }
  | leave {c : QueuedCall String} (hqueued : s.queue.calls[n]? = some c)
      (hphase : c.phase = .settled) : Move s n { s with queue := s.queue.leave n c.key }

inductive Step (s : MemoryProcess T) : MemoryProcess T → Prop
  | call (now : Date) {call : StorageCall T} (hmoment : call.isUpdate = false)
      (hcall : call.NulFree) : Step s
        { s with
          storage := (s.storage.answer now call).2
          log := s.log ++ [.called now call (s.storage.answer now call).1] }
  | update (id : String) {mutate : Mutate T} (houtside : ∀ current, Outside (mutate current)) :
      Step s
        { s with
          queue := s.queue.enqueue id
          work := s.set s.queue.calls.length (.queued mutate) }
  | move {n : Nat} {s' : MemoryProcess T} (h : s.Move n s') : Step s s'

/-- The states any number of concurrent callers can bring about. -/
def Reachable (s : MemoryProcess T) : Prop := Relation.ReflTransGen Step initial s

end MemoryProcess

/-! ### One call after the other -/

/-- What the contract makes of an event. An update is the contract's, handing out the record that
is stored at that moment, with what its own `mutate` made of that record. -/
def StorageEvent.Applies {T : Type} (db : Database) :
    StorageEvent T → Database → Prop
  | .called now call answer, db' => call.isUpdate = false ∧
      StorageContract.answer MemoryStorage.refusalOrder now db call = (answer, db')
  | .updated _ id mutate now current outcome, db' =>
      db.getStatusList id = some current ∧ Becomes (mutate current) (.ret outcome) ∧
        StorageContract.answer MemoryStorage.refusalOrder now db
          (.updateStatusList id fun _ => .ok outcome) = (.ok outcome.result, db')
  | .threw _ id mutate current e, db' =>
      db.getStatusList id = some current ∧ Becomes (mutate current) (.fail e) ∧ db' = db
  | .missed _ id, db' => db.getStatusList id = none ∧ db' = db

/-- The tables after these events, one after the other. -/
inductive Serial {T : Type} : List (StorageEvent T) → Database → Prop
  | start : Serial [] Database.empty
  | snoc {log : List (StorageEvent T)} {db db' : Database} {e : StorageEvent T}
      (h : Serial log db) (he : e.Applies db db') : Serial (log ++ [e]) db'

/-- The update an event is the effect of, and what it comes to for its caller. -/
def StorageEvent.ended? {T : Type} : StorageEvent T → Option (Nat × Except JsError T)
  | .called _ _ _ => none
  | .updated n _ _ _ _ outcome => some (n, .ok outcome.result)
  | .threw n _ _ _ e => some (n, .error e)
  | .missed n id => some (n, .error (MemoryProcess.unknownList id))

/-- The update of this list whose effect an event is. -/
def StorageEvent.updateOf? {T : Type} (list : String) : StorageEvent T → Option Nat
  | .called _ _ _ => none
  | .updated n id _ _ _ _ => if id = list then some n else none
  | .threw n id _ _ _ => if id = list then some n else none
  | .missed n id => if id = list then some n else none

/-- The event wrote the list. -/
def StorageEvent.writes {T : Type} (list : String) : StorageEvent T → Bool
  | .updated _ id _ _ _ outcome => id = list && outcome.materialization.isSome
  | _ => false

end VcalmStatus
