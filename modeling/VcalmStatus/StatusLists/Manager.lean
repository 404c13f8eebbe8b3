import VcalmStatus.Js.Double
import VcalmStatus.Services.SqlStorage
import VcalmStatus.StatusLists.Credential

/-!
`StatusListManager`: every state change is sign-on-update. The bits and the credential that
publishes them are produced together and written in one transaction.
-/

namespace VcalmStatus

open Js Effects

/-- `rollAtFill` is the fraction full at which allocation rolls onto a new list, a half where
nothing is configured. -/
structure ManagerDeps (B : Type) where
  lib : BitstringLibrary B
  publicBaseUrl : String
  rollAtFill : Double := .power (-1)

/-- The number of allocations a list of this length is used up to. -/
def ManagerDeps.threshold {B : Type} (deps : ManagerDeps B) (length : Nat) : ℚ :=
  deps.rollAtFill.times length

structure RequestedCharacteristics where
  length : Option Nat := none
  statusSize : Option Nat := none
  statusMessage : Option (List StatusMessage) := none
  ttl : Option Nat := none
  deriving DecidableEq, Repr

structure CreateStatusListInput where
  tenantId : String
  issuerInstance : IssuerInstance
  statusPurpose : StatusPurpose
  id : Option String := none
  url : Option String := none
  characteristics : Option RequestedCharacteristics := none

/-- `changed` is false when the bit already held that value. -/
structure StatusChange where
  changed : Bool
  record : StatusListRecord
  statusListIndex : Number

/-- Random probes before giving up, `ALLOCATION_ATTEMPTS`. -/
def allocationAttempts : Nat := 64

/-- The URL the list was created under: `list.signedCredential.id ?? statusListUrl(…)`. -/
def canonicalUrlOf (publicBaseUrl : String) (list : StatusListRecord) : String :=
  (credentialId? list.signedCredential).getD (statusListUrl publicBaseUrl list.id)

/-- The characteristics a new list gets, or the refusal of the ones requested. -/
def characteristicsOf (requested : RequestedCharacteristics) :
    Except JsError StatusListCharacteristics :=
  let length := requested.length.getD minimumListLength
  if length < minimumListLength then
    .error (.statusList .listTooShort
      s!"A status list must hold at least {minimumListLength} entries (BSL §3.2 herd privacy); {length} was requested")
  else if requested.statusSize.any (· ≠ 1) || requested.statusMessage.isSome then
    .error (.statusList .unsupportedCharacteristics
      "Only single-bit status entries are supported; statusSize must be 1 and statusMessage must be absent")
  else
    .ok { length := length, statusSize := 1, ttl := requested.ttl }

namespace StatusListManager

variable {B : Type} (deps : ManagerDeps B)

def issuerDid (issuerInstance : IssuerInstance) : Async String := do
  let did ← await (.issuerDid issuerInstance)
  Program.ofExcept did

def sign (issuerInstance : IssuerInstance) (unsigned : UnsignedCredential) :
    Async VerifiableCredential := do
  let signed ← await (.sign issuerInstance unsigned)
  Program.ofExcept signed

/-- Encodes a list and signs the credential that publishes it. -/
def materialize (url : String) (issuerInstance : IssuerInstance) (statusPurpose : StatusPurpose)
    (list : B) (ttl : Option Nat) : Async StatusListMaterialization := do
  let issuer ← issuerDid issuerInstance
  let validFrom ← await .now
  let material := buildStatusListCredential deps.lib
    { url, issuer, statusPurpose, list, ttl, validFrom }
  let signedCredential ← sign issuerInstance material.unsigned
  pure { encodedList := material.encodedList, signedCredential }

/-- Creates an all-zero list, signs it, and stores both. -/
def createList (input : CreateStatusListInput) : Async StatusListRecord := do
  let characteristics ← Program.ofExcept (characteristicsOf (input.characteristics.getD {}))
  let id ← match input.id with
    | some id => pure id
    | none => await .generateId
  let url := input.url.getD (statusListUrl deps.publicBaseUrl id)
  let list ← Program.ofExcept (deps.lib.createList characteristics.length)
  let materialization ←
    materialize deps url input.issuerInstance input.statusPurpose list characteristics.ttl
  SqlStorage.createStatusList
    { id
      tenantId := input.tenantId
      issuerInstanceId := input.issuerInstance.id
      statusPurpose := input.statusPurpose
      characteristics
      encodedList := materialization.encodedList
      signedCredential := materialization.signedCredential }

/-- What is left of a creation once the list has its characteristics and its id. -/
def createNamed (input : CreateStatusListInput) (characteristics : StatusListCharacteristics)
    (id : String) : Async StatusListRecord := do
  let list ← Program.ofExcept (deps.lib.createList characteristics.length)
  let materialization ← materialize deps
    (input.url.getD (statusListUrl deps.publicBaseUrl id)) input.issuerInstance
    input.statusPurpose list characteristics.ttl
  SqlStorage.createStatusList
    { id
      tenantId := input.tenantId
      issuerInstanceId := input.issuerInstance.id
      statusPurpose := input.statusPurpose
      characteristics
      encodedList := materialization.encodedList
      signedCredential := materialization.signedCredential }

theorem createList_eq (input : CreateStatusListInput) :
    createList deps input =
      (do
        let characteristics ← Program.ofExcept (characteristicsOf (input.characteristics.getD {}))
        match input.id with
        | some id => createNamed deps input characteristics id
        | none => do
            let id ← await .generateId
            createNamed deps input characteristics id) := by
  unfold createList
  cases input.id <;> rfl

/-- The issuer instance a list is bound to, looked up in the registry. -/
def instanceFor (list : StatusListRecord) : Async IssuerInstance := do
  let tenant ← await (.getTenant list.tenantId)
  match tenant.bind (resolveIssuerInstance · (some list.issuerInstanceId)) with
  | some found => pure found
  | none => throw (.statusList .issuerInstanceUnavailable
      s!"Issuer instance \"{list.issuerInstanceId}\" of tenant \"{list.tenantId}\" is not in the registry, so list \"{list.id}\" cannot be re-signed")

def defaultInstanceFor (tenantId : String) : Async IssuerInstance := do
  let tenant ← await (.getTenant tenantId)
  match tenant.bind (resolveIssuerInstance ·) with
  | some found => pure found
  | none => throw (.statusList .issuerInstanceUnavailable
      s!"Tenant \"{tenantId}\" has no default issuer instance, so no status list can be created for it")

/-- The index as a position of the list, when it is an integer in range. -/
def indexWithin (length : Nat) : Number → Option Nat
  | .int (.ofNat n) => if n < length then some n else none
  | _ => none

/-- Runs inside the write transaction: decode, set the bit, re-encode, re-sign. -/
def applyStatus (current : StatusListRecord) (issuerInstance : IssuerInstance)
    (statusListIndex : Number) (status : Bool) :
    Async (StatusListMutationResult StatusChange) := do
  match indexWithin current.characteristics.length statusListIndex with
  | none => throw (.statusList .indexOutOfRange
      s!"Index {statusListIndex.toText} is outside list \"{current.id}\" (0…{current.characteristics.length - 1})")
  | some index =>
      let list ← Program.ofExcept (deps.lib.decodeList current.encodedList)
      let held ← Program.ofExcept (deps.lib.getStatus list index)
      if held = status then
        pure { materialization := none, result := ⟨false, current, statusListIndex⟩ }
      else
        let list ← Program.ofExcept (deps.lib.setStatus list index status)
        let materialization ← materialize deps (canonicalUrlOf deps.publicBaseUrl current)
          issuerInstance current.statusPurpose list current.characteristics.ttl
        let updatedAt ← await .now
        pure
          { materialization := some materialization
            result :=
              { changed := true
                record :=
                  { current with
                    encodedList := materialization.encodedList
                    signedCredential := materialization.signedCredential
                    version := current.version + 1
                    updatedAt }
                statusListIndex } }

/-- Sets one bit by index. Whose list it is is not asked here. -/
def setStatus (listId : String) (statusListIndex : Number) (status : Bool) :
    Async StatusChange := do
  let list ← SqlStorage.getStatusList listId
  match list with
  | none => throw (.statusList .listNotFound s!"Status list \"{listId}\" not found")
  | some list =>
      let issuerInstance ← instanceFor list
      SqlStorage.updateStatusList listId fun current =>
        applyStatus deps current issuerInstance statusListIndex status

/-- The service resolves list and index from its own records. -/
def setCredentialStatus (tenantId credentialId : String) (statusPurpose : StatusPurpose)
    (status : Bool) : Async StatusChange := do
  let allocation ← SqlStorage.getAllocation tenantId credentialId statusPurpose
  match allocation with
  | none => throw (.statusList .credentialNotAllocated
      s!"Credential \"{credentialId}\" has no {statusPurpose.text} entry")
  | some allocation =>
      setStatus deps allocation.listId (.int allocation.statusListIndex) status

/-- The probes of `allocateIndex`: pick, check, insert, and try again on a lost race. -/
def probe (allocationAt : Nat → NewIndexAllocation) (listId : String) (length : Nat) :
    Nat → Async IndexAllocation
  | 0 => throw (.statusList .listExhausted
      s!"Status list \"{listId}\" has no free index left to allocate")
  | attempts + 1 => do
      let statusListIndex ← await (.randomIndex length)
      let taken ← SqlStorage.isIndexAllocated listId statusListIndex
      if taken then
        probe allocationAt listId length attempts
      else
        let outcome ← tryCatch
          (do
            let allocation ← SqlStorage.allocateIndex (allocationAt statusListIndex)
            pure (some allocation))
          (fun error => match error with
            | .storage .indexTaken _ => pure none
            | error => throw error)
        match outcome with
        | some allocation => pure allocation
        | none => probe allocationAt listId length attempts

/-- Binds a credential to a free index of a list of its tenant, chosen at random. -/
def allocateIndex (tenantId credentialId : String) (statusPurpose : StatusPurpose)
    (listId : String) : Async IndexAllocation := do
  let list ← SqlStorage.getStatusList listId
  match list.filter fun list => list.tenantId = tenantId with
  | none => throw (.statusList .listNotFound s!"Status list \"{listId}\" not found")
  | some list =>
      probe (fun statusListIndex =>
          { tenantId, credentialId, statusPurpose, listId, statusListIndex })
        listId list.characteristics.length allocationAttempts

/-- The list the caller has chosen, when it is the tenant's and serves the purpose. -/
def chosenList (tenantId listId : String) (statusPurpose : StatusPurpose) :
    Async StatusListRecord := do
  let list ← SqlStorage.getStatusList listId
  match list.filter fun list => list.tenantId = tenantId with
  | none => throw (.statusList .listNotFound s!"Status list \"{listId}\" not found")
  | some list =>
      if list.statusPurpose ≠ statusPurpose then
        throw (.statusList .listPurposeMismatch
          s!"Status list \"{listId}\" is a {list.statusPurpose.text} list, not {statusPurpose.text}")
      else
        pure list

/-- The first candidate that is still under the roll threshold. -/
def firstUnderThreshold : List StatusListRecord → Async (Option StatusListRecord)
  | [] => pure none
  | candidate :: rest => do
      let used ← SqlStorage.countAllocations candidate.id
      if (used : ℚ) < deps.threshold candidate.characteristics.length then
        pure (some candidate)
      else
        firstUnderThreshold rest

/-- The newest list still under the roll threshold, or a new one. -/
def listForPurpose (tenantId : String) (statusPurpose : StatusPurpose) :
    Async StatusListRecord := do
  let lists ← SqlStorage.findStatusLists tenantId (some statusPurpose)
  let candidate ← firstUnderThreshold deps lists.reverse
  match candidate with
  | some candidate => pure candidate
  | none =>
      let issuerInstance ← defaultInstanceFor tenantId
      createList deps { tenantId, issuerInstance, statusPurpose }

/-- Allocates an entry for a credential, in the list chosen or in one picked by purpose. -/
def allocateForCredential (tenantId credentialId : String) (statusPurpose : StatusPurpose)
    (listId : Option String) : Async (IndexAllocation × StatusListRecord) := do
  let list ← match listId with
    | none => listForPurpose deps tenantId statusPurpose
    | some listId => chosenList tenantId listId statusPurpose
  let allocation ← allocateIndex tenantId credentialId statusPurpose list.id
  pure (allocation, list)

end StatusListManager

end VcalmStatus
