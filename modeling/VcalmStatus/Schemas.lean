import VcalmStatus.Platform

/-!
The request schemas. A schema reads every property of its object and reports every issue it finds,
in the order of its shape, before it complains of properties it does not know.
-/

namespace VcalmStatus

open Js

/-- A parsed value, or the issues found. -/
abbrev Parsed (α : Type) := Except (List ZodIssue) α

namespace Parsed

variable {α β : Type}

def ok (a : α) : Parsed α := Except.ok a

/-- Both sides are looked at, and the issues of both are kept. -/
def and (f : Parsed (α → β)) (x : Parsed α) : Parsed β :=
  match f, x with
  | .ok f, .ok a => .ok (f a)
  | .ok _, .error issues => .error issues
  | .error issues, .ok _ => .error issues
  | .error issues, .error more => .error (issues ++ more)

/-- `schema.parse`, which throws. -/
def orThrow : Parsed α → Except JsError α
  | .ok a => .ok a
  | .error issues => .error (.zod issues)

end Parsed

/-- `getParsedType`. -/
def parsedType : Json → String
  | .null => "null"
  | .bool _ => "boolean"
  | .num _ => "number"
  | .str _ => "string"
  | .arr _ => "array"
  | .obj _ => "object"

namespace Zod

variable {α : Type}

/-- A value of one JSON type; `undefined` is reported as missing. -/
def ofType (expected : String) (read : Json → Option α) (path : List String) :
    Option Json → Parsed α
  | none => .error [⟨path, .required⟩]
  | some json =>
      match read json with
      | some a => .ok a
      | none => .error [⟨path, .invalidType expected (parsedType json)⟩]

def string : List String → Option Json → Parsed String := ofType "string" Json.string?

def boolean : List String → Option Json → Parsed Bool :=
  ofType "boolean" fun
    | .bool b => some b
    | _ => none

def object : List String → Option Json → Parsed JsonObject := ofType "object" Json.object?

def array : List String → Option Json → Parsed (List Json) :=
  ofType "array" fun
    | .arr xs => some xs
    | _ => none

/-- `z.string().min(n)`. -/
def stringMin (n : Nat) (path : List String) (json : Option Json) : Parsed String := do
  let s ← string path json
  if s.length < n then .error [⟨path, .stringTooShort n⟩] else .ok s

/-- `z.string().url()`. -/
def url (platform : Platform) (path : List String) (json : Option Json) : Parsed String := do
  let s ← string path json
  if (platform.parseUrl s).isNone then .error [⟨path, .invalidUrl⟩] else .ok s

/-- `z.number().int().positive()`. -/
def positiveInt (path : List String) (json : Option Json) : Parsed Nat := do
  let n ← ofType "number" Json.number? path json
  match n with
  | .int i => if i ≤ 0 then .error [⟨path, .numberNotPositive⟩] else .ok i.toNat
  | .nonInteger negative _ => .error (⟨path, .invalidType "integer" "float"⟩ ::
      if negative then [⟨path, .numberNotPositive⟩] else [])

/-- `z.enum(['revocation', 'suspension'])`. -/
def statusPurpose (path : List String) (json : Option Json) : Parsed StatusPurpose := do
  let s ← ofType "'revocation' | 'suspension'" Json.string? path json
  if s = StatusPurpose.revocation.text then .ok .revocation
  else if s = StatusPurpose.suspension.text then .ok .suspension
  else .error [⟨path, .invalidEnumValue ["revocation", "suspension"] s⟩]

/-- `schema.optional()`. -/
def optional (schema : List String → Option Json → Parsed α) (path : List String) :
    Option Json → Parsed (Option α)
  | none => .ok none
  | some json => (schema path (some json)).map some

/-- `.strict()`: what the shape does not name is refused, after everything it names. -/
def strict (shape : List String) (path : List String) (o : JsonObject) (fields : Parsed α) :
    Parsed α :=
  let extra := (o.map (·.1)).filter (· ∉ shape)
  if extra = [] then fields
  else
    (Parsed.ok fun a _ => a).and fields
      |>.and (.error [⟨path, .unrecognizedKeys extra⟩] : Parsed Unit)

end Zod

/-! ### `POST /status-lists` -/

structure CreateOptions where
  length : Option Nat
  statusSize : Option Nat
  statusMessage : Option (List StatusMessage)
  ttl : Option Nat
  issuerInstance : Option String
  deriving DecidableEq, Repr

def statusMessageSchema (path : List String) (json : Option Json) : Parsed StatusMessage := do
  let o ← Zod.object path json
  (Parsed.ok StatusMessage.mk).and (Zod.string (path ++ ["status"]) (o.get? "status"))
    |>.and (Zod.string (path ++ ["message"]) (o.get? "message"))

/-- The elements of `z.array(schema)`, the index of each in its path. -/
def statusMessagesSchema (path : List String) (json : Option Json) :
    Parsed (List StatusMessage) := do
  let xs ← Zod.array path json
  (xs.zipIdx.map fun x => statusMessageSchema (path ++ [toString x.2]) (some x.1)).foldr
    (fun x rest => (Parsed.ok List.cons).and x |>.and rest) (.ok [])

def optionsSchema (path : List String) (json : Option Json) : Parsed CreateOptions := do
  let o ← Zod.object path json
  let at_ (key : String) := path ++ [key]
  Zod.strict ["length", "statusSize", "statusMessage", "ttl", "issuerInstance"] path o <|
    ((Parsed.ok CreateOptions.mk).and
        (Zod.optional Zod.positiveInt (at_ "length") (o.get? "length"))
      |>.and (Zod.optional Zod.positiveInt (at_ "statusSize") (o.get? "statusSize"))
      |>.and (Zod.optional statusMessagesSchema (at_ "statusMessage") (o.get? "statusMessage"))
      |>.and (Zod.optional Zod.positiveInt (at_ "ttl") (o.get? "ttl"))
      |>.and (Zod.optional (Zod.stringMin 1) (at_ "issuerInstance") (o.get? "issuerInstance")))

structure CreateStatusListBody where
  statusPurpose : StatusPurpose
  id : Option String
  options : Option CreateOptions
  deriving DecidableEq, Repr

def createStatusListSchema (platform : Platform) (json : Json) : Parsed CreateStatusListBody := do
  let o ← Zod.object [] (some json)
  Zod.strict ["statusPurpose", "id", "options"] [] o <|
    ((Parsed.ok CreateStatusListBody.mk).and
        (Zod.statusPurpose ["statusPurpose"] (o.get? "statusPurpose"))
      |>.and (Zod.optional (Zod.url platform) ["id"] (o.get? "id"))
      |>.and (Zod.optional optionsSchema ["options"] (o.get? "options")))

/-! ### `POST /credentials/status` -/

structure CredentialStatusSelector where
  id : Option String
  type : String
  statusPurpose : StatusPurpose
  statusListIndex : Option String
  statusListCredential : Option String
  deriving DecidableEq, Repr

def credentialStatusSchema (path : List String) (json : Option Json) :
    Parsed CredentialStatusSelector := do
  let o ← Zod.object path json
  let at_ (key : String) := path ++ [key]
  Zod.strict ["id", "type", "statusPurpose", "statusListIndex", "statusListCredential"] path o <|
    ((Parsed.ok CredentialStatusSelector.mk).and
        (Zod.optional Zod.string (at_ "id") (o.get? "id"))
      |>.and (Zod.string (at_ "type") (o.get? "type"))
      |>.and (Zod.statusPurpose (at_ "statusPurpose") (o.get? "statusPurpose"))
      |>.and (Zod.optional Zod.string (at_ "statusListIndex") (o.get? "statusListIndex"))
      |>.and (Zod.optional Zod.string (at_ "statusListCredential") (o.get? "statusListCredential")))

structure UpdateCredentialStatusBody where
  credentialId : String
  credentialStatus : CredentialStatusSelector
  status : Bool
  indexAllocator : Option String
  deriving DecidableEq, Repr

def updateCredentialStatusSchema (json : Json) : Parsed UpdateCredentialStatusBody := do
  let o ← Zod.object [] (some json)
  Zod.strict ["credentialId", "credentialStatus", "status", "indexAllocator"] [] o <|
    ((Parsed.ok UpdateCredentialStatusBody.mk).and
        (Zod.stringMin 1 ["credentialId"] (o.get? "credentialId"))
      |>.and (credentialStatusSchema ["credentialStatus"] (o.get? "credentialStatus"))
      |>.and (Zod.boolean ["status"] (o.get? "status"))
      |>.and (Zod.optional Zod.string ["indexAllocator"] (o.get? "indexAllocator")))

/-! ### `POST /credentials/status/allocate` -/

/-- `z.object({ id: z.string().optional() }).passthrough()`: the property it knows comes first, and
`__proto__` is left behind. -/
def credentialSchema (path : List String) (json : Option Json) : Parsed JsonObject := do
  let o ← Zod.object path json
  let id ← Zod.optional Zod.string (path ++ ["id"]) (o.get? "id")
  .ok ((id.map fun id => ("id", Json.str id)).toList ++
    o.filter fun kv => kv.1 ≠ "id" ∧ kv.1 ≠ "__proto__")

structure AllocateOptions where
  statusPurpose : Option StatusPurpose
  statusListId : Option String
  deriving DecidableEq, Repr

def allocateOptionsSchema (path : List String) (json : Option Json) : Parsed AllocateOptions := do
  let o ← Zod.object path json
  Zod.strict ["statusPurpose", "statusListId"] path o <|
    ((Parsed.ok AllocateOptions.mk).and
        (Zod.optional Zod.statusPurpose (path ++ ["statusPurpose"]) (o.get? "statusPurpose"))
      |>.and (Zod.optional (Zod.stringMin 1) (path ++ ["statusListId"]) (o.get? "statusListId")))

structure WrappedCredential where
  credential : JsonObject
  options : Option AllocateOptions

def wrappedSchema (json : Json) : Parsed WrappedCredential := do
  let o ← Zod.object [] (some json)
  Zod.strict ["credential", "options"] [] o <|
    ((Parsed.ok WrappedCredential.mk).and
        (credentialSchema ["credential"] (o.get? "credential"))
      |>.and (Zod.optional allocateOptionsSchema ["options"] (o.get? "options")))

end VcalmStatus
