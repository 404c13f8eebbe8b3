import VcalmStatus.Auth
import VcalmStatus.Domains
import VcalmStatus.Schemas
import VcalmStatus.StatusLists.Manager
import Mathlib.Data.List.Infix

/-!
`POST /status-lists` and the public `GET /status-lists/{id}`. Creation resolves who signs and where
the list will live and hands the rest to the manager; retrieval reads bytes that were signed when
they were written.
-/

namespace VcalmStatus

open Js Effects

structure AppDeps (B : Type) where
  manager : ManagerDeps B
  platform : Platform
  accessJwtSecret : Option String := none

variable {B : Type} (deps : AppDeps B)

/-- `config.publicBaseUrl`. -/
abbrev AppDeps.publicBaseUrl : String := deps.manager.publicBaseUrl

/-- `c.header(name, value)`, which throws on a value no header can have. -/
def withHeader (headers : List (String × String)) (name value : String) :
    Except JsError (List (String × String)) :=
  if isHeaderValue value then .ok (headers ++ [(name, value)]) else .error (.other "TypeError")

/-- The list id in a client-supplied URL, `none` when its path is not that of a list. -/
def slugFromListUrl (platform : Platform) (url : String) : Except JsError (Option String) :=
  match platform.parseUrl url with
  | none => .error (.other "TypeError")
  | some parsed =>
      match parsed.segments with
      | ["status-lists", segment] =>
          match decodeURIComponent segment with
          | some id => .ok (some id)
          | none => .error (.other "URIError")
      | _ => .ok none

def issuerInstanceFor (tenant : TenantRecord) (wanted : Option String) :
    Except JsError IssuerInstance :=
  match resolveIssuerInstance tenant wanted, wanted with
  | some found, _ => .ok found
  | none, some wanted =>
      .error (problem 400 s!"Tenant \"{tenant.tenantId}\" has no issuer instance \"{wanted}\"")
  | none, none =>
      .error (problem 500 s!"Tenant \"{tenant.tenantId}\" has no issuer instance to sign with")

/-- The id and URL of a list the client names itself. -/
def namedList (tenant : TenantRecord) (url : String) : Except JsError (String × String) :=
  if !isAuthorizedListUrl deps.platform tenant url deps.publicBaseUrl then
    .error (problem 400
      s!"\"{url}\" is not under a base URL authorized for tenant \"{tenant.tenantId}\"")
  else do
    match ← slugFromListUrl deps.platform url with
    | none => .error (problem 400
        (s!"\"{url}\" is not a status list URL; the path must be /status-lists/" ++ "\x7bid\x7d"))
    | some id => .ok (id, url)

def createBody (request : Request) : Except JsError CreateStatusListBody := do
  let json ← request.json deps.platform
  (createStatusListSchema deps.platform json).orThrow

/-- Everything a creation is asked for, or why the request is refused. -/
def createInput (tenant : TenantRecord) (request : Request) :
    Except JsError CreateStatusListInput := do
  let body ← createBody deps request
  let issuerInstance ← issuerInstanceFor tenant (body.options.bind (·.issuerInstance))
  let named ← nameOf body.id
  pure
    { tenantId := tenant.tenantId
      issuerInstance
      statusPurpose := body.statusPurpose
      id := named.map (·.1)
      url := named.map (·.2)
      characteristics := body.options.map fun options =>
        { length := options.length, statusSize := options.statusSize
          statusMessage := options.statusMessage, ttl := options.ttl } }
where
  nameOf : Option String → Except JsError (Option (String × String))
    | none => .ok none
    | some url => (namedList deps tenant url).map some

def createdResponse (canonicalUrl : String) (headers : List (String × String))
    (record : StatusListRecord) : Response :=
  { status := 201
    headers := headers
    body := some (.obj
      [("verifiableCredential", .obj record.signedCredential), ("id", .str canonicalUrl)]) }

def createStatusListHandler (request : Request) (tenant : TenantRecord) : Async Response := do
  let input ← Program.ofExcept (createInput deps tenant request)
  let record ← StatusListManager.createList deps.manager input
  let headers ← Program.ofExcept
    (withHeader [] "Location" (canonicalUrlOf deps.publicBaseUrl record))
  pure (createdResponse (canonicalUrlOf deps.publicBaseUrl record) headers record)

/-! ### Retrieval -/

/-- BSL §2.2: align HTTP caching with `ttl`, and stay revalidatable without one. -/
def cacheControlFor (record : StatusListRecord) : String :=
  match record.characteristics.ttl with
  | none => "no-cache"
  | some ttl => s!"public, max-age={ttl / 1000}"

/-- Strong, because a given version is byte-identical wherever it is served. -/
def etagFor (record : StatusListRecord) : String := "\"" ++ toString record.version ++ "\""

def contentTypeFor (platform : Platform) (accept : Option String) : String :=
  match accept with
  | none => "application/json"
  | some accept =>
      if "application/vc".toList <:+: (platform.toLowerCase accept).toList then "application/vc"
      else "application/json"

def getStatusListHandler (request : Request) (id : String) : Async Response := do
  let record ← SqlStorage.getStatusList id
  match record with
  | none => throw (problem 404 "No such status list")
  | some record =>
      let tenant ← await (.getTenant record.tenantId)
      -- A tenant that has left the registry keeps the service's own domain.
      let tenant := tenant.getD { tenantId := record.tenantId, tokens := [], issuerInstances := [] }
      if !isAuthorizedHost deps.platform tenant (effectiveHost deps.platform request)
          deps.publicBaseUrl then
        throw (problem 404 "No such status list")
      else
        let etag := etagFor record
        let headers := [("ETag", etag), ("Cache-Control", cacheControlFor record)]
        if request.header "If-None-Match" = some etag then
          pure { status := 304, headers := headers, body := none }
        else
          pure
            { status := 200
              headers := headers ++
                [("Content-Type", contentTypeFor deps.platform (request.header "Accept"))]
              body := some (.obj record.signedCredential) }

end VcalmStatus
