import VcalmStatus.Cli.ProvisionTenant
import VcalmStatus.Services.TenantVariables

/-!
What the lines of a provisioned tenant's block assign, once they are read back: its own variables,
each once.
-/

namespace VcalmStatus

open Js Effects TenantsEnv EnvFile

namespace Provisioning

/-! ### A provisioned tenant -/

theorem mapError_eq_ok {ε ε' α : Type} {f : ε → ε'} {x : Except ε α} {a : α} :
    x.mapError f = .ok a ↔ x = .ok a := by
  cases x with
  | ok b => simp [Except.mapError]
  | error e => simp [Except.mapError]

/-- What a provisioned tenant is made of. -/
structure Provisioned (values : CliValues) (tenant : ProvisionedTenant) : Prop where
  tenantName : isTenantName tenant.tenantId = true
  profile : tenant.profile ∈ profiles
  instanceId : tenant.instanceId = values.instanceId
  token : isKeyText tenant.token = true
  seed : ∀ seed, tenant.keyMaterial = .ed25519Seed seed → isKeyText seed = true
  multikey : ∀ publicKey secretKey, tenant.keyMaterial = .multikey publicKey secretKey →
    isKeyText publicKey = true ∧ isKeyText secretKey = true
  domains : tenant.authorizedDomains = domainsFrom values.domains
  did : isOneLine tenant.did = true

theorem isTenantName_of_normalizeTenantId {locale : Locale} {raw tenantId : String}
    (h : normalizeTenantId locale raw = .ok tenantId) : isTenantName tenantId = true := by
  unfold normalizeTenantId at h
  dsimp only at h
  split at h <;> rename_i hname
  · cases h
    exact hname
  · cases h

theorem mem_profiles_of_getProfile {id : String} {profile : IssuerProfile}
    (h : getProfile id = .ok profile) : profile ∈ profiles := by
  unfold getProfile at h
  split at h <;> rename_i hfind
  · cases h
    exact List.mem_of_find?_eq_some hfind
  · cases h

/-- Fresh key material is text of key characters. -/
theorem isKeyText_generateKeyMaterial {source : KeySource} {cryptosuite : Cryptosuite}
    {keyMaterial : KeyMaterial} (h : generateKeyMaterial source cryptosuite = .ok keyMaterial) :
    (∀ seed, keyMaterial = .ed25519Seed seed → isKeyText seed = true) ∧
      ∀ publicKey secretKey, keyMaterial = .multikey publicKey secretKey →
        isKeyText publicKey = true ∧ isKeyText secretKey = true := by
  unfold generateKeyMaterial at h
  split at h
  · cases h
    refine ⟨?_, nofun⟩
    intro seed hseed
    cases hseed
    exact source.isKeyText_seed
  · split at h <;> rename_i hpublic hsecret
    · cases h
      refine ⟨nofun, ?_⟩
      intro publicKey secretKey hkeys
      cases hkeys
      obtain ⟨hpublic, hne⟩ := Option.filter_eq_some_iff.mp hpublic
      obtain ⟨hsecret, hne'⟩ := Option.filter_eq_some_iff.mp hsecret
      exact ⟨source.isKeyText_export _ (.inl rfl) _ hpublic (by simpa using hne),
        source.isKeyText_export _ (.inr rfl) _ hsecret (by simpa using hne')⟩
    · cases h

theorem provisioned_of_runTenant {locale : Locale} {source : KeySource} {values : CliValues}
    {tenant : ProvisionedTenant} (h : runTenant locale source values = .ok tenant) :
    Provisioned values tenant := by
  unfold runTenant at h
  split at h
  · cases h
  obtain ⟨_, -, h⟩ := bind_eq_ok.mp h
  obtain ⟨tenantId, hname, h⟩ := bind_eq_ok.mp h
  obtain ⟨profile, hprofile, h⟩ := bind_eq_ok.mp h
  rw [mapError_eq_ok] at hname hprofile h
  obtain ⟨keyMaterial, hkeys, h⟩ := bind_eq_ok.mp h
  obtain ⟨⟨did, verificationMethod⟩, hsigner, h⟩ := bind_eq_ok.mp h
  cases h
  obtain ⟨hseed, hmultikey⟩ := isKeyText_generateKeyMaterial hkeys
  exact
    { tenantName := isTenantName_of_normalizeTenantId hname
      profile := mem_profiles_of_getProfile hprofile
      instanceId := rfl
      token := source.isKeyText_token
      seed := hseed
      multikey := hmultikey
      domains := rfl
      did := source.isOneLine_did hsigner }

/-! ### Texts that survive a line -/

theorem keyChar_plain {c : Char} (h : isKeyChar c = true) :
    isWhitespace c = false ∧ isLineTerminator c = false ∧ c ≠ ',' := by
  have hlt : c.toNat < 128 := by
    simp only [isKeyChar, Bool.or_eq_true, decide_eq_true_eq] at h
    obtain (halnum | rfl) | rfl := h
    · exact toNat_lt_of_isNameChar (by simp [isNameChar, halnum])
    · decide
    · decide
  have hall : ∀ n : Fin 128, isKeyChar (Char.ofNat n) = true →
      isWhitespace (Char.ofNat n) = false ∧ isLineTerminator (Char.ofNat n) = false ∧
        Char.ofNat n ≠ ',' := by decide
  have hc := hall ⟨c.toNat, hlt⟩
  rw [Char.ofNat_toNat] at hc
  exact hc h

/-- Key text has one line, with no white space or comma in it. -/
theorem keyText_plain {s : String} (h : isKeyText s = true) :
    s ≠ "" ∧ isOneLine s = true ∧ trim s = s ∧ ',' ∉ s.toList := by
  simp only [isKeyText, Bool.and_eq_true, decide_eq_true_eq, List.all_eq_true] at h
  obtain ⟨hne, hchars⟩ := h
  refine ⟨hne, ?_, ?_, ?_⟩
  · exact isOneLine_iff.mpr fun c hc => (keyChar_plain (hchars c hc)).2.1
  · refine trim_of_isTrimmed ⟨?_, ?_⟩
    · intro c hc
      exact (keyChar_plain (hchars c (List.mem_of_mem_head? hc))).1
    · intro c hc
      exact (keyChar_plain (hchars c (List.mem_of_mem_getLast? hc))).1
  · intro hmem
    exact (keyChar_plain (hchars _ hmem)).2.2 rfl

/-- A token that has no comma is the list of itself. -/
theorem list_keyText {s : String} (h : isKeyText s = true) : list (some s) = [s] := by
  obtain ⟨hne, -, htrim, hcomma⟩ := keyText_plain h
  simp [list, split_of_not_mem hcomma, htrim, hne]

/-- What a domain list is read as: pieces that are trimmed, not empty, and without a comma. -/
theorem mem_list {value : Option String} {entry : String} (h : entry ∈ list value) :
    entry ≠ "" ∧ trim entry = entry ∧ ',' ∉ entry.toList ∧
      ∃ text, value = some text ∧ ∀ c ∈ entry.toList, c ∈ text.toList := by
  cases value with
  | none => simp [list] at h
  | some text =>
      obtain ⟨hmem, hne⟩ := List.mem_filter.mp h
      obtain ⟨piece, hpiece, rfl⟩ := List.mem_map.mp hmem
      refine ⟨by simpa using hne, trim_trim piece, ?_, text, rfl, ?_⟩
      · exact fun hcomma => not_mem_of_mem_split hpiece (mem_of_mem_trim hcomma)
      · exact fun c hc => mem_of_mem_split hpiece (mem_of_mem_trim hc)

theorem domainsFrom_eq_list (domains : Option String) : domainsFrom domains = list domains := by
  cases domains <;> rfl

theorem toList_join (domains : List String) :
    (",".intercalate domains).toList = [','].intercalate (domains.map String.toList) := by
  simp

/-- Domains that are put together with commas are taken apart again. -/
theorem list_join {domains : List String}
    (h : ∀ domain ∈ domains, domain ≠ "" ∧ trim domain = domain ∧ ',' ∉ domain.toList)
    (hne : domains ≠ []) : list (some (",".intercalate domains)) = domains := by
  have hsplit : split (",".intercalate domains) ',' = domains :=
    (split_eq_iff hne).mpr ⟨toList_join domains, fun domain hd => (h domain hd).2.2⟩
  have htrim : domains.map trim = domains := by
    calc domains.map trim = domains.map id :=
          List.map_congr_left fun domain hd => (h domain hd).2.1
      _ = domains := List.map_id domains
  have hfilter : domains.filter (· ≠ "") = domains :=
    List.filter_eq_self.mpr fun domain hd => by simpa using (h domain hd).1
  rw [list, hsplit, htrim, hfilter]

theorem head?_intercalate {α : Type} {sep : List α} {pieces : List (List α)} {a : α}
    (hne : ∀ piece ∈ pieces, piece ≠ []) (h : a ∈ (sep.intercalate pieces).head?) :
    ∃ piece ∈ pieces, a ∈ piece.head? := by
  cases pieces with
  | nil => simp at h
  | cons piece pieces =>
      refine ⟨piece, List.mem_cons_self, ?_⟩
      obtain ⟨b, rest, rfl⟩ := List.exists_cons_of_ne_nil (hne piece List.mem_cons_self)
      cases pieces with
      | nil => simpa using h
      | cons piece' pieces => simpa [List.intercalate_cons_cons] using h

theorem getLast?_intercalate {α : Type} {sep : List α} {pieces : List (List α)} {a : α}
    (hne : ∀ piece ∈ pieces, piece ≠ []) (h : a ∈ (sep.intercalate pieces).getLast?) :
    ∃ piece ∈ pieces, a ∈ piece.getLast? := by
  induction pieces with
  | nil => simp at h
  | cons piece pieces ih =>
      cases pieces with
      | nil => exact ⟨piece, List.mem_cons_self, by simpa using h⟩
      | cons piece' pieces =>
          have hrest : sep.intercalate (piece' :: pieces) ≠ [] := by
            obtain ⟨b, rest, hb⟩ := List.exists_cons_of_ne_nil (hne piece' (by simp))
            exact List.ne_nil_of_mem
              (mem_intercalate_of_mem List.mem_cons_self (hb ▸ List.mem_cons_self))
          rw [List.intercalate_cons_cons, List.getLast?_append_of_ne_nil _ hrest] at h
          obtain ⟨found, hfound, hlast⟩ :=
            ih (fun p hp => hne p (List.mem_cons_of_mem _ hp)) h
          exact ⟨found, List.mem_cons_of_mem _ hfound, hlast⟩

theorem trim_join {domains : List String}
    (h : ∀ domain ∈ domains, domain ≠ "" ∧ trim domain = domain ∧ ',' ∉ domain.toList) :
    trim (",".intercalate domains) = ",".intercalate domains := by
  have hne : ∀ piece ∈ domains.map String.toList, piece ≠ [] := by
    intro piece hpiece
    obtain ⟨domain, hd, rfl⟩ := List.mem_map.mp hpiece
    exact fun hnil => (h domain hd).1 (String.toList_eq_nil_iff.mp hnil)
  refine trim_of_isTrimmed ⟨?_, ?_⟩
  · intro c hc
    rw [toList_join] at hc
    obtain ⟨piece, hpiece, hc⟩ := head?_intercalate hne hc
    obtain ⟨domain, hd, rfl⟩ := List.mem_map.mp hpiece
    exact (trim_eq_self_iff.mp (h domain hd).2.1).1 c hc
  · intro c hc
    rw [toList_join] at hc
    obtain ⟨piece, hpiece, hc⟩ := getLast?_intercalate hne hc
    obtain ⟨domain, hd, rfl⟩ := List.mem_map.mp hpiece
    exact (trim_eq_self_iff.mp (h domain hd).2.1).2 c hc

theorem isOneLine_join {domains : List String} (h : ∀ domain ∈ domains, isOneLine domain = true) :
    isOneLine (",".intercalate domains) = true := by
  refine isOneLine_iff.mpr fun c hc => ?_
  rw [toList_join] at hc
  obtain hcomma | ⟨piece, hpiece, hc⟩ := mem_of_mem_intercalate hc
  · obtain rfl := List.mem_singleton.mp hcomma
    decide
  · obtain ⟨domain, hd, rfl⟩ := List.mem_map.mp hpiece
    exact isOneLine_iff.mp (h domain hd) c hc

end Provisioning

end VcalmStatus
