import VcalmStatus.Routes.StatusLists

/-!
`POST /credentials/status`: set or clear one credential's status bit. The normal call names a
credential and a purpose; the explicit selector names a list and an index and is checked here,
because `setStatus` does not ask whose list it is.
-/

namespace VcalmStatus

open Js Effects

/-- `ENTRY_TYPES`. -/
def entryTypes : List String := ["BitstringStatusList", "BitstringStatusListEntry"]

def parseIndex (raw : String) : Except JsError Number :=
  if !isDigits raw then
    .error (problem 400
      s!"\"{raw}\" is not a status list index; BSL requires a base-10 integer string")
  else if ofDigits raw ≤ maxSafeInteger then .ok (.int (ofDigits raw))
  else .error (problem 400 s!"Status list index \"{raw}\" is out of range")

variable {B : Type} (deps : AppDeps B)

/-- The id a list has to have to be addressed by a URL. -/
def listIdFromUrl (platform : Platform) (url : String) : Except JsError String :=
  match platform.parseUrl url with
  | none => .error (problem 400 s!"\"{url}\" is not a status list URL")
  | some parsed =>
      match parsed.segments with
      | ["status-lists", segment] =>
          match decodeURIComponent segment with
          | some id => .ok id
          | none => .error (.other "URIError")
      | _ => .error (problem 400 s!"\"{url}\" is not a status list URL")

/-- Resolves a URL back to a stored list, which has to agree that this is its URL. -/
def listFromUrl (url : String) : Async StatusListRecord := do
  let id ← Program.ofExcept (listIdFromUrl deps.platform url)
  let record ← SqlStorage.getStatusList id
  match record.filter fun record => canonicalUrlOf deps.publicBaseUrl record = url with
  | none => throw (problem 404 s!"No status list at \"{url}\"")
  | some record => pure record

def setByExplicitSelector (tenantId : String) (body : UpdateCredentialStatusBody) :
    Async StatusChange :=
  match body.credentialStatus.statusListIndex, body.credentialStatus.statusListCredential with
  | some statusListIndex, some statusListCredential => do
      let list ← listFromUrl deps statusListCredential
      if list.tenantId ≠ tenantId then
        throw (problem 404 s!"No status list at \"{statusListCredential}\"")
      else if list.statusPurpose ≠ body.credentialStatus.statusPurpose then
        throw (problem 400
          s!"Status list \"{list.id}\" is a {list.statusPurpose.text} list, not {body.credentialStatus.statusPurpose.text}")
      else
        let statusListIndex ← Program.ofExcept (parseIndex statusListIndex)
        StatusListManager.setStatus deps.manager list.id statusListIndex body.status
  | _, _ => throw (problem 400
      "An explicit selector needs both statusListIndex and statusListCredential")

/-- The body of an update, once its entry type is known to be one of the two. -/
def updateBody (request : Request) : Except JsError UpdateCredentialStatusBody := do
  let json ← request.json deps.platform
  let body ← (updateCredentialStatusSchema json).orThrow
  if body.credentialStatus.type ∈ entryTypes then .ok body
  else
    .error (problem 400
      ("credentialStatus.type must be one of: " ++ ", ".intercalate entryTypes))

/-- The change a body asks for, by selector or by credential. -/
def changeStatus (tenantId : String) (body : UpdateCredentialStatusBody) : Async StatusChange :=
  if body.credentialStatus.statusListIndex.isSome ||
      body.credentialStatus.statusListCredential.isSome then
    setByExplicitSelector deps tenantId body
  else
    StatusListManager.setCredentialStatus deps.manager tenantId body.credentialId
      body.credentialStatus.statusPurpose body.status

def updateResponse (body : UpdateCredentialStatusBody) (change : StatusChange) : Response :=
  { status := 200
    body := some (.obj
      [("credentialId", .str body.credentialId),
        ("credentialStatus", .obj
          [("type", .str "BitstringStatusListEntry"),
            ("statusPurpose", .str change.record.statusPurpose.text),
            ("statusListIndex", .str change.statusListIndex.toText),
            ("statusListCredential", .str (canonicalUrlOf deps.publicBaseUrl change.record))]),
        ("status", .bool body.status)]) }

def updateCredentialStatusHandler (request : Request) (tenant : TenantRecord) :
    Async Response := do
  let body ← Program.ofExcept (updateBody deps request)
  let change ← changeStatus deps tenant.tenantId body
  pure (updateResponse deps body change)

end VcalmStatus
