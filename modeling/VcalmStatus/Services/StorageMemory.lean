import VcalmStatus.Js.Map
import VcalmStatus.Services.StorageContract

/-!
`MemoryStorage`: the storage of tests and throwaway runs, three maps in one process.

A record is a value here, so the copies the source makes on the way in and out are the record. Each
function reads the clock at most once; `now` is what it reads. The queue that serializes updates of
one list is in `StorageQueue`; `applyUpdate` is what happens at its head.
-/

namespace VcalmStatus

open Js Effects

/-- U+0000. -/
abbrev nul : Char := '\x00'

def allocationKey (tenantId credentialId : String) (statusPurpose : StatusPurpose) : String :=
  s!"{tenantId}\x00{credentialId}\x00{statusPurpose.text}"

structure MemoryStorage where
  lists : JsMap String StatusListRecord
  allocations : JsMap String IndexAllocation
  usedIndexes : JsMap String (JsSet Nat)

namespace MemoryStorage

def empty : MemoryStorage := ⟨.empty, .empty, .empty⟩

def createStatusList (now : Date) (m : MemoryStorage) (record : NewStatusListRecord) :
    Except JsError StatusListRecord × MemoryStorage :=
  if m.lists.has record.id then
    (.error (.storage .duplicateList s!"Status list \"{record.id}\" already exists"), m)
  else
    let stored : StatusListRecord :=
      { record with version := 1, createdAt := now, updatedAt := now }
    (.ok stored, { m with lists := m.lists.set stored.id stored })

def getStatusList (m : MemoryStorage) (id : String) : Option StatusListRecord := m.lists.get? id

def findStatusLists (m : MemoryStorage) (tenantId : String) (statusPurpose : Option StatusPurpose)
    (issuerInstanceId : Option String) : List StatusListRecord :=
  (m.lists.values.filter fun list =>
    list.tenantId = tenantId ∧ statusPurpose.all (list.statusPurpose = ·) ∧
      issuerInstanceId.all (list.issuerInstanceId = ·)).insertionSort
    fun a b => a.createdAt ≤ b.createdAt

/-- The entry an update writes: the list as it was read, with the new bits, credential and
version. -/
def materialize (now : Date) (m : MemoryStorage) (id : String) (current : StatusListRecord)
    (materialization : StatusListMaterialization) : MemoryStorage :=
  { m with
    lists := m.lists.set id
      { current with
        encodedList := materialization.encodedList
        signedCredential := materialization.signedCredential
        version := current.version + 1
        updatedAt := now } }

def applyUpdate {T : Type} (now : Date) (m : MemoryStorage) (id : String)
    (mutate : StatusListRecord → Except JsError (StatusListMutationResult T)) :
    Except JsError T × MemoryStorage :=
  match m.lists.get? id with
  | none => (.error (.storage .listNotFound s!"Status list \"{id}\" not found"), m)
  | some current =>
      match mutate current with
      | .error e => (.error e, m)
      | .ok outcome =>
          (.ok outcome.result,
            match outcome.materialization with
            | some materialization => m.materialize now id current materialization
            | none => m)

def allocateIndex (now : Date) (m : MemoryStorage) (allocation : NewIndexAllocation) :
    Except JsError IndexAllocation × MemoryStorage :=
  match m.lists.get? allocation.listId with
  | none =>
      (.error (.storage .listNotFound s!"Status list \"{allocation.listId}\" not found"), m)
  | some _ =>
      let key :=
        allocationKey allocation.tenantId allocation.credentialId allocation.statusPurpose
      if m.allocations.has key then
        (.error (.storage .credentialAlreadyAllocated
          s!"Credential \"{allocation.credentialId}\" already has a {allocation.statusPurpose.text} index"),
          m)
      else
        let used := (m.usedIndexes.get? allocation.listId).getD .empty
        if used.has allocation.statusListIndex then
          (.error (.storage .indexTaken
            s!"Index {allocation.statusListIndex} of list \"{allocation.listId}\" is already allocated"),
            m)
        else
          let stored : IndexAllocation := { allocation with allocatedAt := now }
          (.ok stored,
            { m with
              allocations := m.allocations.set key stored
              usedIndexes :=
                m.usedIndexes.set allocation.listId (used.add allocation.statusListIndex) })

def getAllocation (m : MemoryStorage) (tenantId credentialId : String)
    (statusPurpose : StatusPurpose) : Option IndexAllocation :=
  m.allocations.get? (allocationKey tenantId credentialId statusPurpose)

def isIndexAllocated (m : MemoryStorage) (listId : String) (statusListIndex : Nat) : Bool :=
  ((m.usedIndexes.get? listId).map (·.has statusListIndex)).getD false

def countAllocations (m : MemoryStorage) (listId : String) : Nat :=
  ((m.usedIndexes.get? listId).map JsSet.size).getD 0

/-- A call that nobody else's update is in the way of. -/
def answer {T : Type} (now : Date) :
    MemoryStorage → (call : StorageCall T) → call.Answer × MemoryStorage
  | m, .createStatusList record => m.createStatusList now record
  | m, .getStatusList id => (m.getStatusList id, m)
  | m, .findStatusLists tenantId statusPurpose issuerInstanceId =>
      (m.findStatusLists tenantId statusPurpose issuerInstanceId, m)
  | m, .updateStatusList id mutate => m.applyUpdate now id mutate
  | m, .allocateIndex allocation => m.allocateIndex now allocation
  | m, .getAllocation tenantId credentialId statusPurpose =>
      (m.getAllocation tenantId credentialId statusPurpose, m)
  | m, .isIndexAllocated listId statusListIndex => (m.isIndexAllocated listId statusListIndex, m)
  | m, .countAllocations listId => (m.countAllocations listId, m)

def step {T : Type} (now : Date) :
    Answers (StorageCall.Answer (T := T)) MemoryStorage :=
  fun m call => some (m.answer now call)

end MemoryStorage

end VcalmStatus
