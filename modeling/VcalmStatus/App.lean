import VcalmStatus.Routes.Allocate
import VcalmStatus.Routes.CredentialsStatus

/-!
Every route this service answers, in one place. Writes are tenant-authenticated; the retrieve is
public. Whatever a handler throws becomes a problem document.
-/

namespace VcalmStatus

open Js Effects

def serviceName : String := "vcalm-status-service"

/-- `/status-lists/:id`: the prefix and one non-empty segment, which is percent-decoded. -/
def statusListParam (path : String) : Option String :=
  match split path '/' with
  | ["", "status-lists", segment] =>
      if segment = "" then none else some ((decodeURIComponent segment).getD segment)
  | _ => none

variable {B : Type} (deps : AppDeps B)

/-- A handler behind the tenant middleware. -/
def authenticated (request : Request) (handler : Request → TenantRecord → Async Response) :
    Async Response := do
  let tenant ← tenantAuth deps.platform deps.accessJwtSecret request
  handler request tenant

/-- `routes`, as the router tells them apart. -/
def dispatch (request : Request) : Async Response :=
  match request.method, request.path with
  | "GET", "/" => pure
      { status := 200
        body := some (.obj [("message", .str (serviceName ++ " status: ok."))]) }
  | "GET", "/healthz" => pure
      { status := 200
        body := some (.obj
          [("message", .str (serviceName ++ " status: ok.")), ("healthy", .bool true)]) }
  | "GET", path =>
      match statusListParam path with
      | some id => getStatusListHandler deps request id
      | none => pure (notFoundHandler request)
  | "POST", "/status-lists" => authenticated deps request (createStatusListHandler deps)
  | "POST", "/credentials/status/allocate" => authenticated deps request (allocateHandler deps)
  | "POST", "/credentials/status" =>
      authenticated deps request (updateCredentialStatusHandler deps)
  | _, _ => pure (notFoundHandler request)

/-- The app: a response to every request. -/
def handle (request : Request) : Async Response :=
  tryCatch (dispatch deps request) fun error => pure (errorHandler deps.platform error)

end VcalmStatus
