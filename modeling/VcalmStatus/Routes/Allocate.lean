import VcalmStatus.Routes.StatusLists

/-!
`POST /credentials/status/allocate`, a documented non-VCALM extension: a credential in, the same
credential with a status entry out.
-/

namespace VcalmStatus

open Js Effects

structure AllocateRequest where
  credential : JsonObject
  statusPurpose : StatusPurpose
  statusListId : Option String

/-- The wrapped form is told by its `credential` key; anything else is a bare credential. -/
def parseAllocateBody (body : Json) : Except JsError AllocateRequest :=
  match body with
  | .obj (kv :: rest) =>
      if JsonObject.has (kv :: rest) "credential" then do
        let wrapped ← (wrappedSchema body).orThrow
        pure
          { credential := wrapped.credential
            statusPurpose := (wrapped.options.bind (·.statusPurpose)).getD .revocation
            statusListId := wrapped.options.bind (·.statusListId) }
      else do
        let credential ← (credentialSchema [] (some body)).orThrow
        pure { credential, statusPurpose := .revocation, statusListId := none }
  | _ => .error (problem 400 ("Post a credential, or " ++ "\x7bcredential, options\x7d."))

def BitstringStatusListEntry.toJson (entry : BitstringStatusListEntry) : Json :=
  .obj
    [("id", .str entry.id), ("type", .str entry.type),
      ("statusPurpose", .str entry.statusPurpose.text),
      ("statusListIndex", .str entry.statusListIndex),
      ("statusListCredential", .str entry.statusListCredential)]

/-- Existing entries are kept and the new one appended. -/
def withStatusEntry (credential : JsonObject) (entry : Json) : JsonObject :=
  match credential.get? "credentialStatus" with
  | none => credential.set "credentialStatus" entry
  | some (.arr existing) => credential.set "credentialStatus" (.arr (existing ++ [entry]))
  | some existing => credential.set "credentialStatus" (.arr [existing, entry])

variable {B : Type} (deps : AppDeps B)

/-- The request, and the id of the credential it is for. -/
def allocateInput (request : Request) : Except JsError (AllocateRequest × String) := do
  let json ← request.json deps.platform
  let allocate ← parseAllocateBody json
  match (textOf allocate.credential "id").filter (· ≠ "") with
  | none => throw (problem 400
      "The credential needs an `id`; it is what a later status update names.")
  | some credentialId => pure (allocate, credentialId)

/-- Credential in, credential out: the caller signs what comes back. -/
def allocateResponse (credential : JsonObject) (a : IndexAllocation) (list : StatusListRecord) :
    Except JsError Response :=
  let entry := bitstringStatusListEntry (canonicalUrlOf deps.publicBaseUrl list)
    (.int a.statusListIndex) a.statusPurpose
  deps.platform.json (.obj (withStatusEntry credential entry.toJson))

def allocateHandler (request : Request) (tenant : TenantRecord) : Async Response := do
  let input ← Program.ofExcept (allocateInput deps request)
  let r ← StatusListManager.allocateForCredential deps.manager tenant.tenantId input.2
    input.1.statusPurpose input.1.statusListId
  Program.ofExcept (allocateResponse deps input.1.credential r.1 r.2)

end VcalmStatus
