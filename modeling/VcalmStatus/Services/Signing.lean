import VcalmStatus.Services.World
import VcalmStatus.StatusLists.Credential

/-!
The three signing services: in-process, over HTTP, and the test-only fake. What they are built on
(key derivation, `issue()` of the credential library, `fetch`, the digest of the fake proof) is a
parameter.
-/

namespace VcalmStatus

open Js Effects

/-! ### `vc-signer` -/

/-- `getCryptosuite(…).requiredContexts`. -/
def Cryptosuite.requiredContexts : Cryptosuite → List String
  | .eddsaRdfc2022 => ["https://w3id.org/security/data-integrity/v2"]
  | .ecdsaRdfc2019 => ["https://w3id.org/security/data-integrity/v2"]
  | .ed25519Signature2020 => ["https://w3id.org/security/suites/ed25519-2020/v1"]

/-- Base contexts VCDM requires as the first entry of `@context`. -/
def vcdmBaseContexts : List String :=
  ["https://www.w3.org/2018/credentials/v1", "https://www.w3.org/ns/credentials/v2"]

def assertIssuerMatches (credential : UnsignedCredential) (did : String) : Except JsError Unit :=
  let issuer := credentialIssuerId credential
  let named := issuer.getD "(none)"
  if issuer ≠ some did then
    .error (.signing .issuerMismatch
      s!"Credential issuer \"{named}\" does not match signer DID \"{did}\"")
  else .ok ()

def contextEntries (credential : UnsignedCredential) : List Json :=
  match credential.get? "@context" with
  | none => []
  | some .null => []
  | some (.arr entries) => entries
  | some context => [context]

/-- Rejects a credential that does not lead with a VCDM base context. -/
def assertCredentialContext (credential : UnsignedCredential) : Except JsError Unit :=
  match contextEntries credential with
  | .str first :: _ => if first ∈ vcdmBaseContexts then .ok () else refusal
  | _ => refusal
where
  refusal : Except JsError Unit := .error (.signing .missingContext
    ("Credential \"@context\" must begin with one of: " ++ ", ".intercalate vcdmBaseContexts))

/-- `merged.includes(context)` for a text. -/
def includesText (entries : List Json) (context : String) : Bool :=
  entries.any fun entry => entry.string? = some context

/-- A copy of the credential with the suite's contexts appended. -/
def withRequiredContexts (credential : UnsignedCredential) (requiredContexts : List String) :
    UnsignedCredential :=
  credential.set "@context" (.arr (requiredContexts.foldl
    (fun merged context => if includesText merged context then merged else merged ++ [.str context])
    (contextEntries credential)))

structure SignerConfig where
  keyMaterial : KeyMaterial
  didMethod : DidMethod
  cryptosuite : Cryptosuite
  didUrl : Option String
  deriving DecidableEq, Repr

/-- The libraries underneath the signer: the DID of a key, and `issue()`, which attaches a proof to
the credential it is given and does nothing else to it. -/
structure SigningLibrary where
  deriveDid : SignerConfig → Except JsError String
  issue : SignerConfig → UnsignedCredential → Except JsError VerifiableCredential
  issue_proof : ∀ {config credential signed}, issue config credential = .ok signed →
    ∃ proof, signed.get? "proof" = some proof ∧ proof ≠ .null
  issue_other : ∀ {config credential signed key}, issue config credential = .ok signed →
    key ≠ "proof" → signed.get? key = credential.get? key
  deriveDid_error : ∀ {config e}, deriveDid config = .error e → e.fromSigner = true
  issue_error : ∀ {config credential e}, issue config credential = .error e →
    e.fromSigner = true

/-- What `createSigner` returns, as far as a service looks at it. -/
structure Signer where
  did : String
  config : SignerConfig

def createSigner (lib : SigningLibrary) (config : SignerConfig) : Except JsError Signer := do
  let did ← lib.deriveDid config
  .ok { did, config }

def Signer.signCredential (lib : SigningLibrary) (signer : Signer)
    (unsigned : UnsignedCredential) : Except JsError VerifiableCredential := do
  assertIssuerMatches unsigned signer.did
  assertCredentialContext unsigned
  lib.issue signer.config
    (withRequiredContexts unsigned signer.config.cryptosuite.requiredContexts)

/-! ### `LocalSigningService` -/

namespace LocalSigningService

variable (lib : SigningLibrary)

/-- A signer is made of everything its cache is keyed by, so a cached one is the one that would be
made again. An empty `didUrl` counts as none. -/
def signerFor (issuerInstance : IssuerInstance) : Except JsError Signer :=
  match issuerInstance.keyMaterial with
  | none => .error (.signing .invalidKeyMaterial
      s!"Issuer instance \"{issuerInstance.id}\" has no key material to sign with")
  | some keyMaterial => createSigner lib
      { keyMaterial
        didMethod := issuerInstance.didMethod
        cryptosuite := issuerInstance.cryptosuite
        didUrl := issuerInstance.didUrl.filter (· ≠ "") }

def issuerDid (issuerInstance : IssuerInstance) : Except JsError String :=
  (signerFor lib issuerInstance).map (·.did)

def sign (issuerInstance : IssuerInstance) (unsigned : UnsignedCredential) :
    Except JsError VerifiableCredential := do
  let signer ← signerFor lib issuerInstance
  signer.signCredential lib unsigned

end LocalSigningService

/-! ### `HttpSigningService` -/

/-- An HTTP response; its body may fail to be read, or to be JSON, with an error of some class. -/
structure HttpResponse where
  status : Nat
  text : Except String String
  json : Except String Json

/-- One `fetch`: the URL, the `Authorization` header and the body that are sent, and the response
unless there was none in time. -/
abbrev Fetch := String → String → Json → Option HttpResponse

/-- `detail.slice(0, n)`, counted in UTF-16 code units. -/
def sliceText : Nat → List Char → List Char
  | _, [] => []
  | n, c :: cs =>
      let units := if c.toNat < 0x10000 then 1 else 2
      if units ≤ n then c :: sliceText (n - units) cs else []

/-- The signed credential in a response body, bare or in its envelope. -/
def credentialFromResponse (body : Json) : Except JsError VerifiableCredential :=
  let candidate :=
    match body with
    | .obj envelope => (JsonObject.get? envelope "verifiableCredential").getD body
    | _ => body
  match candidate with
  | .obj credential =>
      if JsonObject.has credential "proof" then .ok credential else refusal
  | _ => refusal
where
  refusal : Except JsError VerifiableCredential := .error (.signingService .signingRejected
    "The signing service returned no signed credential")

/-- The object an answer holds, in its envelope or bare. -/
inductive AnswersWith : Json → JsonObject → Prop
  | enveloped {envelope credential : JsonObject}
      (h : envelope.get? "verifiableCredential" = some (.obj credential)) :
      AnswersWith (.obj envelope) credential
  | bare {credential : JsonObject} (h : credential.get? "verifiableCredential" = none) :
      AnswersWith (.obj credential) credential

/-- Whatever object has a `proof` is taken for a signed credential. -/
theorem credentialFromResponse_eq_ok {body : Json} {credential : VerifiableCredential} :
    credentialFromResponse body = .ok credential ↔
      AnswersWith body credential ∧ JsonObject.has credential "proof" = true := by
  constructor
  · intro h
    unfold credentialFromResponse at h
    dsimp only at h
    split at h
    · rename_i found hcandidate
      split at h <;> rename_i hproof
      · cases h
        refine ⟨?_, hproof⟩
        split at hcandidate
        · rename_i envelope
          cases hget : JsonObject.get? envelope "verifiableCredential" with
          | none =>
              rw [hget] at hcandidate
              cases hcandidate
              exact .bare hget
          | some candidate =>
              rw [hget] at hcandidate
              cases hcandidate
              exact .enveloped hget
        · rename_i hobject
          exact absurd hcandidate (hobject _)
      · cases h
    · cases h
  · rintro ⟨hget | hget, hproof⟩
    · simp only [credentialFromResponse, hget, Option.getD_some, hproof, if_true]
    · simp only [credentialFromResponse, hget, Option.getD_none, hproof, if_true]

namespace HttpSigningService

variable (url : String) (fetch : Fetch)

/-- `options.url.replace(/\/+$/, '')`, done once by the constructor. -/
def origin (url : String) : String :=
  String.ofList (url.toList.reverse.dropWhile (· = '/')).reverse

/-- The DID recorded on the instance; an empty one counts as none. -/
def issuerDid (issuerInstance : IssuerInstance) : Except JsError String :=
  match issuerInstance.issuerDid.filter (· ≠ "") with
  | some did => .ok did
  | none => .error (.signingService .signingMisconfigured
      s!"Issuer instance \"{issuerInstance.id}\" has no issuerDid recorded, which SIGNING_MODE=http requires")

def sign (issuerInstance : IssuerInstance) (unsigned : UnsignedCredential) :
    Except JsError VerifiableCredential :=
  match issuerInstance.signingServiceToken.filter (· ≠ "") with
  | none => .error (.signingService .signingMisconfigured
      s!"Issuer instance \"{issuerInstance.id}\" has no signing-service token, which SIGNING_MODE=http requires")
  | some token =>
      match fetch (url ++ "/credentials/issue") ("Bearer " ++ token)
          (.obj [("credential", .obj unsigned)]) with
      | none => .error (.signingService .signingUnavailable
          s!"The signing service at {url} did not answer")
      | some response =>
          if 200 ≤ response.status ∧ response.status < 300 then do
            let body ← response.json.mapError JsError.other
            credentialFromResponse body
          else
            let detail := response.text.toOption.getD ""
            .error (.signingService
              (if response.status ≥ 500 then .signingUnavailable else .signingRejected)
              (s!"The signing service refused to sign for instance \"{issuerInstance.id}\" ({response.status})" ++
                if detail = "" then "" else ": " ++ String.ofList (sliceText 200 detail.toList)))

end HttpSigningService

/-! ### `FakeSigningService` -/

namespace FakeSigningService

variable (digest : UnsignedCredential → String)

def issuerDid (issuerInstance : IssuerInstance) : Except JsError String :=
  .ok (issuerInstance.issuerDid.getD s!"did:example:{issuerInstance.id}")

def sign (issuerInstance : IssuerInstance) (unsigned : UnsignedCredential) :
    Except JsError VerifiableCredential := do
  let did ← issuerDid issuerInstance
  let issuer := credentialIssuerId unsigned
  let named := issuer.getD "(none)"
  if issuer ≠ some did then
    .error (.signing .issuerMismatch
      s!"Credential issuer \"{named}\" does not match instance DID \"{did}\"")
  else
    .ok (unsigned.set "proof" (.obj
      [("type", .str "FakeProof"), ("cryptosuite", .str issuerInstance.cryptosuite.text),
        ("proofPurpose", .str "assertionMethod"), ("verificationMethod", .str (did ++ "#fake")),
        ("proofValue", .str ("z" ++ digest unsigned))]))

end FakeSigningService

/-! ### As services -/

theorem LocalSigningService.signerFor_error {lib : SigningLibrary} {issuerInstance : IssuerInstance}
    {e : JsError} (h : signerFor lib issuerInstance = .error e) : e.fromSigner = true := by
  unfold signerFor at h
  split at h
  · cases h
    rfl
  · obtain h | ⟨_, _, h⟩ := bind_eq_error.mp h
    · exact lib.deriveDid_error h
    · cases h

theorem Signer.signCredential_error {lib : SigningLibrary} {signer : Signer}
    {unsigned : UnsignedCredential} {e : JsError}
    (h : signer.signCredential lib unsigned = .error e) : e.fromSigner = true := by
  obtain h | ⟨_, _, h⟩ := bind_eq_error.mp h
  · simp only [assertIssuerMatches] at h
    split at h
    · cases h
      rfl
    · cases h
  · obtain h | ⟨_, _, h⟩ := bind_eq_error.mp h
    · unfold assertCredentialContext at h
      split at h
      · split at h
        · cases h
        · cases h
          rfl
      · cases h
        rfl
    · exact lib.issue_error h

def LocalSigningService.toService (lib : SigningLibrary) : SigningService where
  issuerDid _ := LocalSigningService.issuerDid lib
  sign _ := LocalSigningService.sign lib
  issuerDid_error := by
    intro _ issuerInstance e h
    unfold LocalSigningService.issuerDid at h
    cases hsigner : LocalSigningService.signerFor lib issuerInstance with
    | ok signer =>
        rw [hsigner] at h
        cases h
    | error e' =>
        rw [hsigner] at h
        cases h
        exact LocalSigningService.signerFor_error hsigner
  sign_error := by
    intro _ issuerInstance unsigned e h
    obtain h | ⟨_, _, h⟩ := bind_eq_error.mp h
    · exact LocalSigningService.signerFor_error h
    · exact Signer.signCredential_error h

theorem HttpSigningService.issuerDid_error {issuerInstance : IssuerInstance} {e : JsError}
    (h : issuerDid issuerInstance = .error e) : e.fromSigner = true := by
  unfold issuerDid at h
  split at h
  · cases h
  · cases h
    rfl

/-- Everything but a signed credential is refused as such. -/
theorem credentialFromResponse_rejected {body : Json} {e : JsError}
    (h : credentialFromResponse body = .error e) :
    ∃ message, e = .signingService .signingRejected message := by
  unfold credentialFromResponse at h
  dsimp only at h
  split at h
  · split at h
    · cases h
    · cases h
      exact ⟨_, rfl⟩
  · cases h
    exact ⟨_, rfl⟩

theorem HttpSigningService.sign_error {url : String} {fetch : Fetch}
    {issuerInstance : IssuerInstance} {unsigned : UnsignedCredential} {e : JsError}
    (h : sign url fetch issuerInstance unsigned = .error e) : e.fromSigner = true := by
  unfold sign at h
  split at h
  · cases h
    rfl
  · split at h
    · cases h
      rfl
    · split at h
      · rename_i response _ _
        obtain h | ⟨_, _, h⟩ := bind_eq_error.mp h
        · cases hjson : response.json with
          | ok body =>
              rw [hjson] at h
              cases h
          | error name =>
              rw [hjson] at h
              cases h
              rfl
        · obtain ⟨message, rfl⟩ := credentialFromResponse_rejected h
          rfl
      · cases h
        rfl

/-- The remote may answer differently every time. -/
def HttpSigningService.toService (url : String) (fetch : Nat → Fetch) : SigningService where
  issuerDid _ := HttpSigningService.issuerDid
  sign tick := HttpSigningService.sign (HttpSigningService.origin url) (fetch tick)
  issuerDid_error := HttpSigningService.issuerDid_error
  sign_error := HttpSigningService.sign_error

def FakeSigningService.toService (digest : UnsignedCredential → String) : SigningService where
  issuerDid _ := FakeSigningService.issuerDid
  sign _ := FakeSigningService.sign digest
  issuerDid_error h := nomatch h
  sign_error := by
    intro _ issuerInstance unsigned e h
    obtain h | ⟨_, _, h⟩ := bind_eq_error.mp h
    · cases h
    · dsimp only at h
      split at h
      · cases h
        rfl
      · cases h

end VcalmStatus
