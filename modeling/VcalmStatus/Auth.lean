import VcalmStatus.ProblemDetails
import VcalmStatus.Services.World

/-!
Request authentication for the write operations: a bearer token is an access token that names its
tenant, or a static tenant token. Everything downstream reads ownership from the tenant found here.
-/

namespace VcalmStatus

open Js Effects

/-- What the `WWW-Authenticate` challenge and the problem detail both say. -/
def challenge : String := "Bearer realm=\"vcalm-status-service\""

def unauthorized (detail : String) : JsError :=
  problem 401 detail [("wwwAuthenticate", .str challenge)]

variable (platform : Platform)

/-- `Authorization: Bearer <token>`, or nothing. -/
def bearerToken (authorization : Option String) : Option String := do
  let authorization ← authorization.filter (· ≠ "")
  let parts := split authorization ' '
  if platform.toLowerCase (parts.headD "") ≠ "bearer" then none
  else
    let token := trim (" ".intercalate parts.tail)
    if token = "" then none else some token

/-- The tenant id a verified access token names. -/
def tenantIdFromAccessToken (receivedAt : Date) (token : String) (secret : Option String) :
    Option String := do
  let secret ← secret.filter (· ≠ "")
  let payload ← platform.verify receivedAt token secret
  let claims ← payload.object?
  let sub ← (claims.get? "sub").bind Json.string?
  if sub = "" then none else some (platform.toLowerCase sub)

def resolveTenant (accessJwtSecret : Option String) (receivedAt : Date) (token : String) :
    Async (Option TenantRecord) :=
  match tenantIdFromAccessToken platform receivedAt token accessJwtSecret with
  | some tenantId => await (.getTenant tenantId)
  | none => await (.getTenantByToken token)

/-- `createTenantAuth`: the tenant the request acts for. -/
def tenantAuth (accessJwtSecret : Option String) (request : Request) : Async TenantRecord :=
  match bearerToken platform (request.header "Authorization") with
  | none => throw (unauthorized "Authenticate with `Authorization: Bearer <token>`.")
  | some token => do
      let tenant ← resolveTenant platform accessJwtSecret request.receivedAt token
      match tenant with
      | none => throw (unauthorized "The bearer token is not valid for any tenant.")
      | some tenant => pure tenant

/-! ### Whom a request acts for -/

/-- The tenant a registry finds for a request. -/
def callerOf (accessJwtSecret : Option String) (tenants : TenantRegistry) (request : Request) :
    Option TenantRecord := do
  let token ← bearerToken platform (request.header "Authorization")
  match tenantIdFromAccessToken platform request.receivedAt token accessJwtSecret with
  | some tenantId => tenants.getTenant tenantId
  | none => tenants.getTenantByToken token

variable {platform} {accessJwtSecret : Option String} {request : Request}

/-- Whoever a request acts for is registered under that id. -/
theorem getTenant_of_callerOf {tenants : TenantRegistry} {tenant : TenantRecord}
    (h : callerOf platform accessJwtSecret tenants request = some tenant) :
    tenants.getTenant tenant.tenantId = some tenant := by
  obtain ⟨token, _, h⟩ := Option.bind_eq_some_iff.mp h
  cases hid : tenantIdFromAccessToken platform request.receivedAt token accessJwtSecret with
  | none =>
      rw [hid] at h
      exact tenants.getTenant_of_token h
  | some id =>
      rw [hid] at h
      rw [tenants.tenantId_of_getTenant h]
      exact h

end VcalmStatus
