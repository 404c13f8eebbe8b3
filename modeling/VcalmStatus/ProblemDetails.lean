import VcalmStatus.Platform

/-!
RFC 9457 problem details: the one place where a thrown value becomes an HTTP status. The domain
errors carry a code and no status; everything the mapping does not know becomes a bare 500.
-/

namespace VcalmStatus

open Js

def problemContentType : String := "application/problem+json"

namespace ProblemType

def blank : String := "about:blank"

def validation : String := "urn:skybridge:vcalm-status-service:problem:validation"

end ProblemType

structure ProblemDetails where
  type : String
  title : String
  status : Nat
  detail : Option String := none
  extensions : JsonObject := []

def titleForStatus (status : Nat) : String :=
  match status with
  | 400 => "Bad Request"
  | 401 => "Unauthorized"
  | 403 => "Forbidden"
  | 404 => "Not Found"
  | 405 => "Method Not Allowed"
  | 409 => "Conflict"
  | 415 => "Unsupported Media Type"
  | 422 => "Unprocessable Content"
  | 500 => "Internal Server Error"
  | 503 => "Service Unavailable"
  | _ => if status ≥ 500 then "Server Error" else "Request Error"

/-- `problem(status, detail, { extensions })`. -/
def problem (status : Nat) (detail : String) (extensions : JsonObject := []) : JsError :=
  .problem
    { status, type := ProblemType.blank, title := titleForStatus status, detail := some detail
      extensions }

def ProblemDetailsError.toProblemDetails (e : ProblemDetailsError) : ProblemDetails :=
  { type := e.type, title := e.title, status := e.status, detail := e.detail
    extensions := e.extensions }

/-! ### Codes and their statuses -/

def StatusListErrorCode.text : StatusListErrorCode → String
  | .listTooShort => "list-too-short"
  | .unsupportedCharacteristics => "unsupported-characteristics"
  | .listNotFound => "list-not-found"
  | .listPurposeMismatch => "list-purpose-mismatch"
  | .issuerInstanceUnavailable => "issuer-instance-unavailable"
  | .indexOutOfRange => "index-out-of-range"
  | .credentialNotAllocated => "credential-not-allocated"
  | .listExhausted => "list-exhausted"

/-- `STATUS_LIST_STATUS`. -/
def StatusListErrorCode.status : StatusListErrorCode → Nat
  | .listTooShort => 400
  | .unsupportedCharacteristics => 400
  | .listNotFound => 404
  | .listPurposeMismatch => 400
  | .issuerInstanceUnavailable => 500
  | .indexOutOfRange => 400
  | .credentialNotAllocated => 404
  | .listExhausted => 409

def StorageErrorCode.text : StorageErrorCode → String
  | .listNotFound => "list-not-found"
  | .duplicateList => "duplicate-list"
  | .indexTaken => "index-taken"
  | .credentialAlreadyAllocated => "credential-already-allocated"

/-- `STORAGE_STATUS`. -/
def StorageErrorCode.status : StorageErrorCode → Nat
  | .listNotFound => 404
  | .duplicateList => 409
  | .indexTaken => 409
  | .credentialAlreadyAllocated => 409

def SigningServiceErrorCode.text : SigningServiceErrorCode → String
  | .signingUnavailable => "signing-unavailable"
  | .signingRejected => "signing-rejected"
  | .signingMisconfigured => "signing-misconfigured"

/-- `SIGNING_SERVICE_STATUS`. -/
def SigningServiceErrorCode.status : SigningServiceErrorCode → Nat
  | .signingUnavailable => 503
  | .signingRejected => 502
  | .signingMisconfigured => 500

def SigningErrorCode.text : SigningErrorCode → String
  | .unsupportedCryptosuite => "unsupported-cryptosuite"
  | .issuerMismatch => "issuer-mismatch"
  | .invalidKeyMaterial => "invalid-key-material"
  | .missingContext => "missing-context"
  | .invalidCredential => "invalid-credential"

def withCode (status : Nat) (code detail : String) : ProblemDetails :=
  { type := ProblemType.blank, title := titleForStatus status, status, detail := some detail
    extensions := [("code", .str code)] }

/-- `${issue.path.join('.') || '(body)'}: ${issue.message}`. -/
def issueText (platform : Platform) (issue : ZodIssue) : String :=
  let path := ".".intercalate issue.path
  (if path = "" then "(body)" else path) ++ ": " ++ platform.zodMessage issue.code

/-- Maps a thrown value to a problem document. -/
def toProblemDetails (platform : Platform) : JsError → ProblemDetails
  | .problem e => e.toProblemDetails
  | .statusList code message => withCode code.status code.text message
  | .storage code message => withCode code.status code.text message
  | .signingService code message => withCode code.status code.text message
  | .signing code _ => withCode 500 code.text "The status list could not be signed"
  | .zod issues =>
      { type := ProblemType.validation
        title := titleForStatus 400
        status := 400
        detail := some ("; ".intercalate (issues.map (issueText platform)))
        extensions := [("errors", .arr (issues.map fun issue => .obj
          [("path", .arr (issue.path.map .str)),
            ("message", .str (platform.zodMessage issue.code))]))] }
  | .http status message =>
      { type := ProblemType.blank, title := titleForStatus status, status
        detail := if message = "" then none else some message }
  | .other _ => { type := ProblemType.blank, title := titleForStatus 500, status := 500 }

def ProblemDetails.toJson (details : ProblemDetails) : Json :=
  .obj (JsonObject.spread
    ([("type", .str details.type), ("title", .str details.title),
        ("status", .num (.int details.status))] ++
      (details.detail.map fun detail => ("detail", Json.str detail)).toList)
    details.extensions)

def sendProblemDetails (details : ProblemDetails) : Response :=
  { status := details.status
    headers := [("Content-Type", problemContentType)]
    body := some details.toJson }

/-- The `onError` handler. -/
def errorHandler (platform : Platform) (error : JsError) : Response :=
  sendProblemDetails (toProblemDetails platform error)

def notFoundHandler (request : Request) : Response :=
  sendProblemDetails
    { type := ProblemType.blank, title := titleForStatus 404, status := 404
      detail := some s!"No route for {request.method} {request.path}" }

end VcalmStatus
