import VcalmStatus.Js.Date
import VcalmStatus.Js.Text
import VcalmStatus.StatusLists.Bitstring

/-!
The credential that publishes a list, the URL it is published under, and the entry an issued
credential carries.
-/

namespace VcalmStatus

open Js

/-- The canonical URL of a list this service names itself. -/
def statusListUrl (publicBaseUrl id : String) : String :=
  publicBaseUrl ++ "/status-lists/" ++ encodeURIComponent id

theorem statusListUrl_injective (publicBaseUrl : String) :
    Function.Injective (statusListUrl publicBaseUrl) := by
  intro id id' h
  simp only [statusListUrl, String.append_right_inj] at h
  exact encodeURIComponent_injective h

/-- A property of a document that is a string. -/
def textOf (o : JsonObject) (key : String) : Option String := (o.get? key).bind Json.string?

/-- `credential.id`. -/
def credentialId? (credential : JsonObject) : Option String := textOf credential "id"

/-- `credential.credentialSubject`, empty when there is none. -/
def subjectOf (credential : JsonObject) : JsonObject :=
  ((credential.get? "credentialSubject").bind Json.object?).getD []

/-- The encoded list a credential publishes. -/
def publishedList? (credential : JsonObject) : Option String :=
  textOf (subjectOf credential) "encodedList"

/-- `credential.issuer` is either a DID string or an object carrying one. -/
def credentialIssuerId (credential : JsonObject) : Option String :=
  match credential.get? "issuer" with
  | some (.str did) => some did
  | some (.obj issuer) => textOf issuer "id"
  | _ => none

structure StatusListCredentialInput (B : Type) where
  url : String
  issuer : String
  statusPurpose : StatusPurpose
  list : B
  ttl : Option Nat
  validFrom : Date

/-- An unsigned list credential and the encoding that produced it. -/
structure StatusListMaterial where
  encodedList : String
  unsigned : UnsignedCredential

/-- The subject of a list credential, with `ttl` when the list opted into one. -/
def withTtl (subject : JsonObject) : Option Nat → JsonObject
  | none => subject
  | some ttl => subject.set "ttl" (.num (.int ttl))

def buildStatusListCredential {B : Type} (lib : BitstringLibrary B)
    (input : StatusListCredentialInput B) : StatusListMaterial :=
  let base := lib.createCredential input.url input.list input.statusPurpose
  { encodedList := (textOf base.credentialSubject "encodedList").getD ""
    unsigned :=
      [("@context", base.context), ("id", .str base.id), ("type", base.type),
        ("issuer", .str input.issuer), ("validFrom", .str (toISOSeconds input.validFrom)),
        ("credentialSubject", .obj (withTtl base.credentialSubject input.ttl))] }

/-- The `credentialStatus` object an issued credential carries. -/
structure BitstringStatusListEntry where
  id : String
  type : String
  statusPurpose : StatusPurpose
  statusListIndex : String
  statusListCredential : String
  deriving DecidableEq, Repr

def bitstringStatusListEntry (statusListCredential : String) (statusListIndex : Number)
    (statusPurpose : StatusPurpose) : BitstringStatusListEntry where
  id := statusListCredential ++ "#" ++ statusListIndex.toText
  type := "BitstringStatusListEntry"
  statusPurpose := statusPurpose
  statusListIndex := statusListIndex.toText
  statusListCredential := statusListCredential

/-! ### What a credential is read for

Only its own property of a credential decides what is read, so a signature that leaves the property
alone leaves the reading alone. -/

theorem credentialId?_congr {c u : JsonObject} (h : c.get? "id" = u.get? "id") :
    credentialId? c = credentialId? u := by
  rw [credentialId?, textOf, h]
  rfl

theorem credentialIssuerId_congr {c u : JsonObject} (h : c.get? "issuer" = u.get? "issuer") :
    credentialIssuerId c = credentialIssuerId u := by
  rw [credentialIssuerId, h]
  rfl

theorem subjectOf_congr {c u : JsonObject}
    (h : c.get? "credentialSubject" = u.get? "credentialSubject") : subjectOf c = subjectOf u := by
  rw [subjectOf, h]
  rfl

theorem publishedList?_congr {c u : JsonObject}
    (h : c.get? "credentialSubject" = u.get? "credentialSubject") :
    publishedList? c = publishedList? u := by
  rw [publishedList?, subjectOf_congr h]
  rfl

/-! ### What a built credential says -/

section Build

variable {B : Type} {lib : BitstringLibrary B} {input : StatusListCredentialInput B}

@[simp] theorem build_encodedList :
    (buildStatusListCredential lib input).encodedList = lib.encode input.list := by
  simp [buildStatusListCredential, textOf, lib.createCredential_encodedList]

@[simp] theorem build_id :
    credentialId? (buildStatusListCredential lib input).unsigned = some input.url := by
  simp [buildStatusListCredential, credentialId?, textOf, JsonObject.get?_cons,
    lib.createCredential_id]

@[simp] theorem build_issuer :
    credentialIssuerId (buildStatusListCredential lib input).unsigned = some input.issuer := by
  simp [buildStatusListCredential, credentialIssuerId, JsonObject.get?_cons]

theorem build_subject :
    subjectOf (buildStatusListCredential lib input).unsigned =
      withTtl (lib.createCredential input.url input.list input.statusPurpose).credentialSubject
        input.ttl := by
  simp [buildStatusListCredential, subjectOf, JsonObject.get?_cons]

theorem get?_withTtl_of_ne (subject : JsonObject) (ttl : Option Nat) {key : String}
    (h : "ttl" ≠ key) : (withTtl subject ttl).get? key = subject.get? key := by
  cases ttl with
  | none => rfl
  | some t => exact JsonObject.get?_set_of_ne _ _ h

theorem build_publishedList :
    publishedList? (buildStatusListCredential lib input).unsigned =
      some (lib.encode input.list) := by
  rw [publishedList?, build_subject, textOf, get?_withTtl_of_ne _ _ (by decide),
    lib.createCredential_encodedList]
  rfl

theorem build_statusPurpose :
    (subjectOf (buildStatusListCredential lib input).unsigned).get? "statusPurpose" =
      some (.str input.statusPurpose.text) := by
  rw [build_subject, get?_withTtl_of_ne _ _ (by decide), lib.createCredential_statusPurpose]

theorem build_ttl :
    (subjectOf (buildStatusListCredential lib input).unsigned).get? "ttl" =
      input.ttl.map fun t => .num (.int t) := by
  rw [build_subject]
  cases input.ttl with
  | none => exact lib.createCredential_ttl _ _ _
  | some t => exact JsonObject.get?_set_self _ _ _

end Build

end VcalmStatus
