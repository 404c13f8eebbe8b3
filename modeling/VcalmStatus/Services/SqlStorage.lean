import VcalmStatus.Services.World

/-!
`SqlStorage`: the one SQL implementation of the storage contract, as programs over the operations
of the database.
-/

namespace VcalmStatus

open Js Effects

/-- A new state of a list, written with its result; `none` leaves the list untouched. -/
structure StatusListMutationResult (T : Type) where
  materialization : Option StatusListMaterialization
  result : T

/-- The error of a constraint violation as the driver reports it. -/
def driverError : JsError := .other "DatabaseError"

/-- `transaction().execute`: commits what the body staged, or rolls back and rethrows. -/
def transaction {T : Type} (body : Async T) : Async T := do
  await .beginTransaction
  tryCatch
    (do
      let result ← body
      await .commit
      pure result)
    (fun error => do
      await .rollback
      throw error)

namespace SqlStorage

def getStatusList (id : String) : Async (Option StatusListRecord) :=
  await (.getStatusList id)

def findStatusLists (tenantId : String) (statusPurpose : Option StatusPurpose := none)
    (issuerInstanceId : Option String := none) : Async (List StatusListRecord) :=
  await (.findStatusLists tenantId statusPurpose issuerInstanceId)

def createStatusList (record : NewStatusListRecord) : Async StatusListRecord := do
  let now ← await .newDate
  let stored : StatusListRecord :=
    { record with version := 1, createdAt := now, updatedAt := now }
  let inserted ← await (.insertStatusList stored)
  if inserted then
    pure stored
  else
    let existing ← getStatusList record.id
    if existing.isSome then
      throw (.storage .duplicateList s!"Status list \"{record.id}\" already exists")
    else
      throw driverError

/-- Reads the row under its lock, mutates and re-signs, and writes the outcome with the bumped
version, all in one transaction. -/
def updateStatusList {T : Type} (id : String)
    (mutate : StatusListRecord → Async (StatusListMutationResult T)) : Async T :=
  transaction do
    let row ← await (.lockStatusList id)
    match row with
    | none => throw (.storage .listNotFound s!"Status list \"{id}\" not found")
    | some current =>
        let outcome ← mutate current
        match outcome.materialization with
        | some materialization =>
            let updatedAt ← await .newDate
            await
              (.updateStatusListRow id materialization (current.version + 1) updatedAt)
            pure outcome.result
        | none => pure outcome.result

def getAllocation (tenantId credentialId : String) (statusPurpose : StatusPurpose) :
    Async (Option IndexAllocation) :=
  await (.getAllocation tenantId credentialId statusPurpose)

def isIndexAllocated (listId : String) (statusListIndex : Nat) : Async Bool :=
  await (.isIndexAllocated listId statusListIndex)

def countAllocations (listId : String) : Async Nat :=
  await (.countAllocations listId)

/-- Which constraint a failed insert violated, read back after the fact. -/
def classifyAllocationFailure (allocation : NewIndexAllocation) (cause : JsError) :
    Async JsError := do
  let existing ←
    getAllocation allocation.tenantId allocation.credentialId allocation.statusPurpose
  if existing.isSome then
    pure (.storage .credentialAlreadyAllocated
      s!"Credential \"{allocation.credentialId}\" already has a {allocation.statusPurpose.text} index")
  else
    let taken ← isIndexAllocated allocation.listId allocation.statusListIndex
    if taken then
      pure (.storage .indexTaken
        s!"Index {allocation.statusListIndex} of list \"{allocation.listId}\" is already allocated")
    else
      let list ← getStatusList allocation.listId
      if list.isNone then
        pure (.storage .listNotFound s!"Status list \"{allocation.listId}\" not found")
      else
        pure cause

def allocateIndex (allocation : NewIndexAllocation) : Async IndexAllocation := do
  let allocatedAt ← await .newDate
  let stored : IndexAllocation := { allocation with allocatedAt := allocatedAt }
  let inserted ← await (.insertAllocation stored)
  if inserted then
    pure stored
  else
    let error ← classifyAllocationFailure allocation driverError
    throw error

end SqlStorage

end VcalmStatus
