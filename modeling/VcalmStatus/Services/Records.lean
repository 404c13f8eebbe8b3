import VcalmStatus.Js.Json

/-!
The records of the service: status lists, index allocations, issuer instances, and the errors its
modules throw. Field names are the ones of the source.
-/

namespace VcalmStatus

open Js

/-- Milliseconds since the epoch. -/
abbrev Date := Nat

abbrev UnsignedCredential := JsonObject

abbrev VerifiableCredential := JsonObject

/-! ### Issuer instances -/

inductive Cryptosuite
  | eddsaRdfc2022
  | ecdsaRdfc2019
  | ed25519Signature2020
  deriving DecidableEq, Repr

def Cryptosuite.text : Cryptosuite → String
  | .eddsaRdfc2022 => "eddsa-rdfc-2022"
  | .ecdsaRdfc2019 => "ecdsa-rdfc-2019"
  | .ed25519Signature2020 => "Ed25519Signature2020"

theorem Cryptosuite.text_injective : Function.Injective Cryptosuite.text := by
  intro a b h
  cases a <;> cases b <;> first | rfl | exact absurd h (by decide)

inductive KeyFamily
  | ed25519
  | p256
  deriving DecidableEq, Repr

def Cryptosuite.keyFamily : Cryptosuite → KeyFamily
  | .eddsaRdfc2022 => .ed25519
  | .ecdsaRdfc2019 => .p256
  | .ed25519Signature2020 => .ed25519

inductive DidMethod
  | key
  | web
  deriving DecidableEq, Repr

def DidMethod.text : DidMethod → String
  | .key => "key"
  | .web => "web"

theorem DidMethod.text_injective : Function.Injective DidMethod.text := by
  intro a b h
  cases a <;> cases b <;> first | rfl | exact absurd h (by decide)

inductive KeyMaterial
  | ed25519Seed (seed : String)
  | multikey (publicKeyMultibase secretKeyMultibase : String)
  deriving DecidableEq, Repr

/-- Which key signs, under which DID, with which cryptosuite. -/
structure IssuerInstance where
  id : String
  cryptosuite : Cryptosuite
  didMethod : DidMethod
  didUrl : Option String := none
  keyMaterial : Option KeyMaterial := none
  signingServiceTenant : Option String := none
  signingServiceToken : Option String := none
  issuerDid : Option String := none
  deriving DecidableEq, Repr

/-! ### Status lists and allocations -/

inductive StatusPurpose
  | revocation
  | suspension
  deriving DecidableEq, Repr

def StatusPurpose.text : StatusPurpose → String
  | .revocation => "revocation"
  | .suspension => "suspension"

/-- `MINIMUM_LIST_LENGTH`, the herd-privacy floor. -/
def minimumListLength : Nat := 131072

structure StatusMessage where
  status : String
  message : String
  deriving DecidableEq, Repr

/-- List characteristics, fixed at create time. `ttl` is in milliseconds. -/
structure StatusListCharacteristics where
  length : Nat
  statusSize : Nat
  statusMessage : Option (List StatusMessage) := none
  ttl : Option Nat := none
  deriving DecidableEq, Repr

/-- `Omit<StatusListRecord, 'version' | 'createdAt' | 'updatedAt'>`. -/
structure NewStatusListRecord where
  id : String
  tenantId : String
  issuerInstanceId : String
  statusPurpose : StatusPurpose
  characteristics : StatusListCharacteristics
  encodedList : String
  signedCredential : VerifiableCredential

structure StatusListRecord extends NewStatusListRecord where
  version : Nat
  createdAt : Date
  updatedAt : Date

/-- The new bits and the credential that publishes them. -/
structure StatusListMaterialization where
  encodedList : String
  signedCredential : VerifiableCredential

/-- `Omit<IndexAllocation, 'allocatedAt'>`. -/
structure NewIndexAllocation where
  credentialId : String
  tenantId : String
  listId : String
  statusPurpose : StatusPurpose
  statusListIndex : Nat
  deriving DecidableEq, Repr

structure IndexAllocation extends NewIndexAllocation where
  allocatedAt : Date
  deriving DecidableEq, Repr

/-! ### Errors -/

inductive StatusListErrorCode
  | listTooShort
  | unsupportedCharacteristics
  | listNotFound
  | listPurposeMismatch
  | issuerInstanceUnavailable
  | indexOutOfRange
  | credentialNotAllocated
  | listExhausted
  deriving DecidableEq, Repr

inductive StorageErrorCode
  | listNotFound
  | duplicateList
  | indexTaken
  | credentialAlreadyAllocated
  deriving DecidableEq, Repr

inductive SigningServiceErrorCode
  | signingUnavailable
  | signingRejected
  | signingMisconfigured
  deriving DecidableEq, Repr

inductive SigningErrorCode
  | unsupportedCryptosuite
  | issuerMismatch
  | invalidKeyMaterial
  | missingContext
  | invalidCredential
  deriving DecidableEq, Repr

/-- What a schema refused; the texts for these are the validator's own. -/
inductive ZodIssueCode
  | required
  | invalidType (expected received : String)
  | invalidEnumValue (options : List String) (received : String)
  | invalidUrl
  | stringTooShort (minimum : Nat)
  | numberNotPositive
  | numberTooSmall (minimum : Nat)
  | numberTooBig (maximum : Nat)
  | unrecognizedKeys (keys : List String)
  deriving DecidableEq, Repr

structure ZodIssue where
  path : List String
  code : ZodIssueCode
  deriving DecidableEq, Repr

/-- A refusal a route words itself. -/
structure ProblemDetailsError where
  status : Nat
  type : String
  title : String
  detail : Option String
  extensions : JsonObject

/-- Everything the service throws. `other` is a thrown value of no class the service knows, by
the name of its own class: `SyntaxError`, `URIError`, `RangeError`, `TypeError`, or the driver's. -/
inductive JsError
  | statusList (code : StatusListErrorCode) (message : String)
  | storage (code : StorageErrorCode) (message : String)
  | signingService (code : SigningServiceErrorCode) (message : String)
  | signing (code : SigningErrorCode) (message : String)
  | problem (e : ProblemDetailsError)
  | zod (issues : List ZodIssue)
  | http (status : Nat) (message : String)
  | other (name : String)

/-- What a signing service throws: errors of signing, or of classes the service does not know. -/
def JsError.fromSigner : JsError → Bool
  | .signing _ _ | .signingService _ _ | .other _ => true
  | _ => false

end VcalmStatus
