import VcalmStatus.Services.Accepted
import VcalmStatus.Services.KeyMaterial

/-!
The boot and the signer look at the same instances. What the registry accepts has a cryptosuite the
signer supports, a URL for `did:web` and one complete form of key material. Whether the material is
of the suite's family, and long enough, is left to the signing mode that uses it.
-/

namespace VcalmStatus

open Js Effects

namespace TenantsEnv

variable {K : Type} {locale : Locale} {env : ProcessEnv} {issuerInstance : IssuerInstance}
  {keyMaterial : KeyMaterial}

/-- What the local signer checks of an instance before any cryptography. -/
structure PassesChecks (lib : KeyLibrary K) (issuerInstance : IssuerInstance)
    (keyMaterial : KeyMaterial) : Prop where
  supported : isSupportedCryptosuite issuerInstance.cryptosuite.text = true
  family : assertKeyMaterialMatchesCryptosuite keyMaterial issuerInstance.cryptosuite.text = .ok ()
  seed : ∀ seed, keyMaterial = .ed25519Seed seed → isMultibase (.ofText seed) = false →
    ∃ bytes, decodeSeed lib (.ofText seed) = .ok bytes
  didUrl : issuerInstance.didMethod = .web → ∃ url, issuerInstance.didUrl = some url ∧ url ≠ ""

/-- The material is of the family the suite takes, and a seed that is not multibase is long
enough. -/
def Usable (cryptosuite : Cryptosuite) (keyMaterial : KeyMaterial) : Prop :=
  keyMaterial.family = cryptosuite.keyFamily ∧
    ∀ seed, keyMaterial = .ed25519Seed seed → isMultibase (.ofText seed) = false →
      32 ≤ (CodeUnits.ofText seed).length

/-- Neither the seed nor one of the halves is missing. -/
def Complete : KeyMaterial → Prop
  | .ed25519Seed seed => seed ≠ ""
  | .multikey publicKey secretKey => publicKey ≠ "" ∧ secretKey ≠ ""

theorem ReadFrom.complete {suffix : String} {n : Nat}
    (h : ReadFrom (instanceField env suffix n) issuerInstance)
    (hkey : issuerInstance.keyMaterial = some keyMaterial) : Complete keyMaterial := by
  have hform := h.keyMaterial
  rw [hkey] at hform
  generalize hseed : instanceField env suffix n .seed = seed at hform
  generalize hpublic : instanceField env suffix n .publicKey = publicKey at hform
  generalize hsecret : instanceField env suffix n .secretKey = secretKey at hform
  cases hform with
  | seed seed => exact (instanceField_spec hseed).2
  | multikey publicKey secretKey =>
      exact ⟨(instanceField_spec hpublic).2, (instanceField_spec hsecret).2⟩

/-- A `did:web` instance that is read has a URL. -/
theorem ReadFrom.exists_didUrl {suffix : String} {n : Nat}
    (h : ReadFrom (instanceField env suffix n) issuerInstance)
    (hweb : issuerInstance.didMethod = .web) :
    ∃ url, issuerInstance.didUrl = some url ∧ url ≠ "" := by
  obtain ⟨url, hurl⟩ := Option.ne_none_iff_exists'.mp (h.didUrl_web hweb)
  exact ⟨url, hurl, (instanceField_spec (h.didUrl.symm.trans hurl)).2⟩

theorem passesChecks_iff (lib : KeyLibrary K)
    (hurl : issuerInstance.didMethod = .web → ∃ url, issuerInstance.didUrl = some url ∧ url ≠ "") :
    PassesChecks lib issuerInstance keyMaterial ↔
      Usable issuerInstance.cryptosuite keyMaterial := by
  have hlength : ∀ seed, isMultibase (.ofText seed) = false →
      ((∃ bytes, decodeSeed lib (.ofText seed) = .ok bytes) ↔
        32 ≤ (CodeUnits.ofText seed).length) := by
    intro seed htext
    rw [decodeSeed_of_text lib htext]
    split <;> rename_i h
    · exact iff_of_true ⟨_, rfl⟩ h
    · exact iff_of_false nofun h
  constructor
  · rintro ⟨-, hfamily, hseed, -⟩
    exact ⟨assertKeyMaterialMatchesCryptosuite_eq_ok_iff.mp hfamily,
      fun seed hkey htext => (hlength seed htext).mp (hseed seed hkey htext)⟩
  · rintro ⟨hfamily, hseed⟩
    exact ⟨isSupportedCryptosuite_text _, assertKeyMaterialMatchesCryptosuite_eq_ok_iff.mpr hfamily,
      fun seed hkey htext => (hlength seed htext).mpr (hseed seed hkey htext), hurl⟩

/-- Material the suite cannot use is refused by the signer, as key material. -/
theorem loadKeyPair_of_not_usable (lib : KeyLibrary K) {cryptosuite : Cryptosuite}
    (h : ¬Usable cryptosuite keyMaterial) :
    ∃ message, loadKeyPair lib keyMaterial cryptosuite.text =
      .error (.signing .invalidKeyMaterial message) := by
  unfold loadKeyPair
  by_cases hfamily : keyMaterial.family = cryptosuite.keyFamily
  · rw [assertKeyMaterialMatchesCryptosuite_eq_ok_iff.mpr hfamily]
    have hshort : ∃ seed, keyMaterial = .ed25519Seed seed ∧ isMultibase (.ofText seed) = false ∧
        ¬seedBytes ≤ (CodeUnits.ofText seed).length := by
      by_contra hnone
      refine h ⟨hfamily, fun seed hkey htext => ?_⟩
      by_contra hlength
      exact hnone ⟨seed, hkey, htext, hlength⟩
    obtain ⟨seed, rfl, htext, hlength⟩ := hshort
    show ∃ message, (decodeSeed lib (.ofText seed) >>= lib.generate) =
      .error (.signing .invalidKeyMaterial message)
    rw [decodeSeed_of_text lib htext, if_neg hlength]
    exact ⟨_, rfl⟩
  · obtain ⟨message, hrefused⟩ := assertKeyMaterialMatchesCryptosuite_of_ne hfamily
    rw [hrefused]
    exact ⟨message, rfl⟩

/-! ### Accepted instances -/

/-- A tenant with one instance and a seed for it. -/
def seededEnv (cryptosuite seed : String) : ProcessEnv where
  entries := [("TENANT_TOKEN_ACME", "acme-token"), ("TENANT_ISSUER_1_ID_ACME", "default"),
    ("TENANT_ISSUER_1_CRYPTOSUITE_ACME", cryptosuite), ("TENANT_ISSUER_1_SEED_ACME", seed)]
  nodup := by
    change ["TENANT_TOKEN_ACME", "TENANT_ISSUER_1_ID_ACME", "TENANT_ISSUER_1_CRYPTOSUITE_ACME",
      "TENANT_ISSUER_1_SEED_ACME"].Nodup
    decide

def seededInstance (cryptosuite : Cryptosuite) (seed : String) : IssuerInstance where
  id := "default"
  cryptosuite := cryptosuite
  didMethod := .key
  keyMaterial := some (.ed25519Seed seed)
  signingServiceTenant := some "acme"

/-- A seed for a P-256 suite and a seed of nine characters both boot, and neither can sign. -/
theorem accepted_unsignable :
    parseTenantsFromEnv asciiLocale (seededEnv "ecdsa-rdfc-2019" "too short") =
        .ok [⟨"acme", ["acme-token"], [seededInstance .ecdsaRdfc2019 "too short"], none, none⟩] ∧
      parseTenantsFromEnv asciiLocale (seededEnv "eddsa-rdfc-2022" "too short") =
        .ok [⟨"acme", ["acme-token"], [seededInstance .eddsaRdfc2022 "too short"], none, none⟩] ∧
      ∀ (lib : KeyLibrary Unit) (cryptosuite : Cryptosuite),
        ¬PassesChecks lib (seededInstance cryptosuite "too short") (.ed25519Seed "too short") := by
  refine ⟨by decide +kernel, by decide +kernel, fun lib cryptosuite hpasses => ?_⟩
  obtain ⟨-, hseed⟩ := (passesChecks_iff lib hpasses.didUrl).mp hpasses
  have hlength := hseed "too short" rfl (by decide)
  exact absurd hlength (by decide)

/-- Every instance the registry accepts with key material has a suite the signer supports, a URL
where it is `did:web`, and key material with no half missing. It passes all the checks that come
before cryptography exactly where the material is usable with the suite, and is refused as key
material elsewhere. -/
theorem accepted_passes_checks_iff {locale : Locale} {env : ProcessEnv}
    {records : List TenantRecord} {record : TenantRecord} {issuerInstance : IssuerInstance}
    {keyMaterial : KeyMaterial} (h : parseTenantsFromEnv locale env = .ok records)
    (hrecord : record ∈ records) (hinstance : issuerInstance ∈ record.issuerInstances)
    (hkey : issuerInstance.keyMaterial = some keyMaterial) {K : Type} (lib : KeyLibrary K) :
    isSupportedCryptosuite issuerInstance.cryptosuite.text = true ∧
      (issuerInstance.didMethod = .web →
        ∃ url, issuerInstance.didUrl = some url ∧ url ≠ "") ∧
      Complete keyMaterial ∧
      (PassesChecks lib issuerInstance keyMaterial ↔
        Usable issuerInstance.cryptosuite keyMaterial) ∧
      (¬Usable issuerInstance.cryptosuite keyMaterial →
        ∃ message, loadKeyPair lib keyMaterial issuerInstance.cryptosuite.text =
          .error (.signing .invalidKeyMaterial message)) := by
  obtain ⟨entry, -, hparse⟩ := exists_entry_of_mem h hrecord
  obtain ⟨-, -, -, hinstances, -⟩ := parseTenant_eq_ok_iff.mp hparse
  obtain ⟨n, hread⟩ := exists_readFrom hinstances hinstance
  exact ⟨isSupportedCryptosuite_text _, hread.exists_didUrl, hread.complete hkey,
    passesChecks_iff lib hread.exists_didUrl, loadKeyPair_of_not_usable lib⟩

/-- Libraries that know no multibase. -/
def plainKeyLibrary : KeyLibrary Unit where
  decodeSecretKeySeed _ := none
  decodeSecretKeySeed_length h := nomatch h
  generate _ := .ok ()
  fromMultikey _ _ := none

theorem accepted_passes_checks_long :
    PassesChecks plainKeyLibrary
      (seededInstance .eddsaRdfc2022 "a seed of more than thirty-two characters")
      (.ed25519Seed "a seed of more than thirty-two characters") := by
  set seed := "a seed of more than thirty-two characters" with hseed
  have hparse : parseTenantsFromEnv asciiLocale (seededEnv "eddsa-rdfc-2022" seed) =
      .ok [⟨"acme", ["acme-token"], [seededInstance .eddsaRdfc2022 seed], none, none⟩] := by
    decide +kernel
  obtain ⟨-, -, -, hpasses, -⟩ := accepted_passes_checks_iff hparse List.mem_cons_self
    List.mem_cons_self rfl plainKeyLibrary
  refine hpasses.mpr ⟨rfl, ?_⟩
  rintro _ ⟨⟩ -
  decide

end TenantsEnv

end VcalmStatus
