import VcalmStatus.Js.Utf16
import VcalmStatus.Services.TenantsEnv

/-!
Key material of the signer: which cryptosuite takes which, how a seed becomes the bytes of a key, and
what is refused before any cryptography. The key libraries are parameters.
-/

namespace VcalmStatus

open Js

/-! ### Cryptosuites -/

def KeyFamily.text : KeyFamily → String
  | .ed25519 => "ed25519"
  | .p256 => "p256"

/-- `keyMaterial.kind`. -/
def KeyMaterial.kind : KeyMaterial → String
  | .ed25519Seed _ => "ed25519-seed"
  | .multikey _ _ => "multikey"

def isSupportedCryptosuite (value : String) : Bool :=
  supportedCryptosuites.any fun suite => suite.text = value

/-- Looks up a suite's metadata. -/
def getCryptosuite (value : String) : Except JsError Cryptosuite :=
  match supportedCryptosuites.find? fun suite => suite.text = value with
  | some suite => .ok suite
  | none =>
      let supported := ", ".intercalate (supportedCryptosuites.map Cryptosuite.text)
      .error (.signing .unsupportedCryptosuite
        s!"Unsupported cryptosuite \"{value}\". Supported: {supported}.")

/-- Ed25519 seeds serve both Ed25519 suites; P-256 suites need multikey material. -/
def keyMaterialMatchesCryptosuite (keyMaterial : KeyMaterial) (cryptosuite : String) :
    Except JsError Bool := do
  let descriptor ← getCryptosuite cryptosuite
  match descriptor.keyFamily with
  | .ed25519 => .ok (keyMaterial.kind = "ed25519-seed")
  | .p256 => .ok (keyMaterial.kind = "multikey")

def assertKeyMaterialMatchesCryptosuite (keyMaterial : KeyMaterial) (cryptosuite : String) :
    Except JsError Unit := do
  let isMatch ← keyMaterialMatchesCryptosuite keyMaterial cryptosuite
  if isMatch then .ok ()
  else do
    let descriptor ← getCryptosuite cryptosuite
    .error (.signing .invalidKeyMaterial
      s!"Cryptosuite \"{cryptosuite}\" requires {descriptor.keyFamily.text} key material, got \"{keyMaterial.kind}\".")

/-- The family a kind of material is of. -/
def KeyMaterial.family : KeyMaterial → KeyFamily
  | .ed25519Seed _ => .ed25519
  | .multikey _ _ => .p256

theorem getCryptosuite_text (suite : Cryptosuite) : getCryptosuite suite.text = .ok suite := by
  cases suite <;> rfl

theorem isSupportedCryptosuite_text (suite : Cryptosuite) :
    isSupportedCryptosuite suite.text = true := by
  cases suite <;> decide

theorem keyMaterialMatchesCryptosuite_text (keyMaterial : KeyMaterial) (suite : Cryptosuite) :
    keyMaterialMatchesCryptosuite keyMaterial suite.text =
      .ok (keyMaterial.family = suite.keyFamily) := by
  cases keyMaterial <;> cases suite <;> rfl

/-- Material is refused for a suite exactly where it is of another family. -/
theorem assertKeyMaterialMatchesCryptosuite_eq_ok_iff {keyMaterial : KeyMaterial}
    {suite : Cryptosuite} :
    assertKeyMaterialMatchesCryptosuite keyMaterial suite.text = .ok () ↔
      keyMaterial.family = suite.keyFamily := by
  rw [assertKeyMaterialMatchesCryptosuite, keyMaterialMatchesCryptosuite_text,
    getCryptosuite_text]
  by_cases h : keyMaterial.family = suite.keyFamily
  · exact iff_of_true (by rw [decide_eq_true h]; rfl) h
  · refine iff_of_false (fun hok => ?_) h
    rw [decide_eq_false h] at hok
    cases hok

theorem assertKeyMaterialMatchesCryptosuite_of_ne {keyMaterial : KeyMaterial}
    {suite : Cryptosuite} (h : keyMaterial.family ≠ suite.keyFamily) :
    ∃ message, assertKeyMaterialMatchesCryptosuite keyMaterial suite.text =
      .error (.signing .invalidKeyMaterial message) := by
  rw [assertKeyMaterialMatchesCryptosuite, keyMaterialMatchesCryptosuite_text,
    getCryptosuite_text, decide_eq_false h]
  exact ⟨_, rfl⟩

/-! ### Seeds -/

/-- `SEED_BYTES`. -/
def seedBytes : Nat := 32

/-- The key libraries. A multibase seed that decodes is one of 32 bytes. -/
structure KeyLibrary (K : Type) where
  decodeSecretKeySeed : CodeUnits → Option (List UInt8)
  decodeSecretKeySeed_length : ∀ {seed bytes}, decodeSecretKeySeed seed = some bytes →
    bytes.length = 32
  generate : List UInt8 → Except JsError K
  fromMultikey : (publicKeyMultibase secretKeyMultibase : String) → Option K

/-- `seed.startsWith('z')`. -/
def isMultibase (seed : CodeUnits) : Bool := seed.head? = some 0x7A

variable {K : Type} (lib : KeyLibrary K)

/-- A multibase seed is decoded; of any other text with enough code units the first bytes are
taken. -/
def decodeSeed (seed : CodeUnits) : Except JsError (List UInt8) :=
  if isMultibase seed then
    match lib.decodeSecretKeySeed seed with
    | some bytes => .ok bytes
    | none => .error (.signing .invalidKeyMaterial
        "Seed is not a decodable multibase secret key seed")
  else if seedBytes ≤ seed.length then .ok (seed.encode.take seedBytes)
  else
    .error (.signing .invalidKeyMaterial
      s!"Seed must be multibase-encoded or at least {seedBytes} characters long")

theorem decodeSeed_of_text {seed : CodeUnits} (h : isMultibase seed = false) :
    decodeSeed lib seed =
      if seedBytes ≤ seed.length then .ok (seed.encode.take seedBytes)
      else
        .error (.signing .invalidKeyMaterial
          s!"Seed must be multibase-encoded or at least {seedBytes} characters long") := by
  rw [decodeSeed, h]
  rfl

/-- Code units that are enough are enough bytes. -/
theorem length_take_encode {seed : CodeUnits} (h : seedBytes ≤ seed.length) :
    (seed.encode.take seedBytes).length = 32 := by
  have hencode := seed.length_le_length_encode
  rw [List.length_take]
  exact min_eq_left (h.trans hencode)

theorem length_decodeSeed {seed : CodeUnits} {bytes : List UInt8}
    (h : decodeSeed lib seed = .ok bytes) : bytes.length = 32 := by
  unfold decodeSeed at h
  split at h
  · split at h <;> rename_i hdecode
    · cases h
      exact lib.decodeSecretKeySeed_length hdecode
    · cases h
  · split at h <;> rename_i hlength
    · cases h
      exact length_take_encode hlength
    · cases h

theorem decodeSeed_error {seed : CodeUnits} {e : JsError} (h : decodeSeed lib seed = .error e) :
    ∃ message, e = .signing .invalidKeyMaterial message := by
  unfold decodeSeed at h
  split at h
  · split at h
    · cases h
    · cases h
      exact ⟨_, rfl⟩
  · split at h
    · cases h
    · cases h
      exact ⟨_, rfl⟩

/-- A seed becomes 32 bytes or is refused as key material. One that is not multibase becomes the
first bytes of its UTF-8 exactly where it has at least 32 code units. -/
theorem decodeSeed_spec (seed : CodeUnits) :
    (∀ bytes, decodeSeed lib seed = .ok bytes → bytes.length = 32) ∧
      (isMultibase seed = false →
        ((∃ bytes, decodeSeed lib seed = .ok bytes) ↔ 32 ≤ seed.length) ∧
          ∀ bytes, decodeSeed lib seed = .ok bytes → bytes = seed.encode.take 32) ∧
      ((¬∃ bytes, decodeSeed lib seed = .ok bytes) →
        ∃ message, decodeSeed lib seed = .error (.signing .invalidKeyMaterial message)) := by
  refine ⟨fun _ h => length_decodeSeed lib h, fun htext => ?_, fun hnone => ?_⟩
  · rw [decodeSeed_of_text lib htext]
    split <;> rename_i hlength
    · refine ⟨iff_of_true ⟨_, rfl⟩ hlength, ?_⟩
      rintro bytes h
      exact (Except.ok.inj h).symm
    · exact ⟨iff_of_false nofun hlength, nofun⟩
  · cases h : decodeSeed lib seed with
    | ok bytes => exact absurd ⟨bytes, h⟩ hnone
    | error e =>
        obtain ⟨message, rfl⟩ := decodeSeed_error lib h
        exact ⟨message, rfl⟩

/-- The seed of a text that has no lone surrogate is the beginning of its UTF-8. -/
theorem decodeSeed_ofText {seed : String} (hmultibase : isMultibase (.ofText seed) = false)
    (hlength : seedBytes ≤ (CodeUnits.ofText seed).length) :
    decodeSeed lib (.ofText seed) =
      .ok ((seed.toList.flatMap String.utf8EncodeChar).take seedBytes) := by
  rw [decodeSeed_of_text lib hmultibase, if_pos hlength, CodeUnits.encode_ofText]

/-! ### Key pairs -/

/-- Material a suite cannot use is refused before any library is called. -/
def loadKeyPair (keyMaterial : KeyMaterial) (cryptosuite : String) : Except JsError K := do
  assertKeyMaterialMatchesCryptosuite keyMaterial cryptosuite
  match keyMaterial with
  | .ed25519Seed seed => do
      let bytes ← decodeSeed lib (.ofText seed)
      lib.generate bytes
  | .multikey publicKey secretKey =>
      match lib.fromMultikey publicKey secretKey with
      | some keyPair => .ok keyPair
      | none => .error (.signing .invalidKeyMaterial
          "Multikey material is not a usable P-256 key pair")

end VcalmStatus
