import VcalmStatus.Cli.Reading

/-!
A provisioned block is what the registry reads back, as long as its values survive an unquoted line:
an instance id that is blank, has white space at an end or breaks the line does not, and neither
does a domain that breaks it.
-/

namespace VcalmStatus

open Js Effects TenantsEnv EnvFile

namespace Provisioning

section

variable {locale : Locale} {values : CliValues} {tenant : ProvisionedTenant}

theorem parseEnvFile_block (h : Provisioned values tenant) (hfits : Fits tenant) :
    parseEnvFile (renderEnvBlock locale tenant) = withBlock locale ProcessEnv.empty tenant := by
  rw [parseEnvFile, assignments_renderEnvBlock h hfits]
  rfl

/-- The settings of a block alone are read as its tenant alone. -/
theorem parseTenantsFromEnv_withBlock_empty (h : Provisioned values tenant) :
    parseTenantsFromEnv locale (withBlock locale ProcessEnv.empty tenant) =
      .ok [blockRecord tenant] := by
  have hown : (tokenEntries (withBlock locale ProcessEnv.empty tenant)).filter
      (defines locale tenant.tenantId) = _ :=
    (ownEntries_eq_iff h.tenantName (get?_withBlock_token _ tenant)).mpr
      ((definedOnce_withBlock_iff h.tenantName _).mpr nofun)
  have hothers : (tokenEntries (withBlock locale ProcessEnv.empty tenant)).filter
      (fun entry => !defines locale tenant.tenantId entry) = [] :=
    tokenEntries_withBlock_others h.tenantName ProcessEnv.empty
  have hentries : tokenEntries (withBlock locale ProcessEnv.empty tenant) =
      [(TenantVariable.token.name (locale.toUpperCase tenant.tenantId), tenant.token)] := by
    rw [← hown, eq_comm, List.filter_eq_self]
    intro entry hentry
    have hnil := List.filter_eq_nil_iff.mp hothers entry hentry
    simpa using hnil
  rw [parseTenantsFromEnv_eq_ok_iff, hentries]
  refine ⟨[blockRecord tenant], mapM_eq_ok_iff.mpr (.cons ?_ .nil), rfl⟩
  exact (parseTenant_withBlock h _).mpr (clear_empty _ tenant)

theorem parseTenantsFromEnv_block (h : Provisioned values tenant) (hfits : Fits tenant) :
    parseTenantsFromEnv locale (parseEnvFile (renderEnvBlock locale tenant)) =
      .ok [blockRecord tenant] := by
  rw [parseEnvFile_block h hfits, parseTenantsFromEnv_withBlock_empty h]

/-- The registry reads the block back as the tenant it was written for. -/
structure ReadBack (locale : Locale) (tenant : ProvisionedTenant) : Prop where
  parsed : ∃ record issuerInstance,
    parseTenantsFromEnv locale (parseEnvFile (renderEnvBlock locale tenant)) = .ok [record] ∧
      record.tenantId = tenant.tenantId ∧
      record.tokens = [tenant.token] ∧
      record.defaultInstanceId = some tenant.instanceId ∧
      record.authorizedDomains =
        (if tenant.authorizedDomains = [] then none else some tenant.authorizedDomains) ∧
      record.issuerInstances = [issuerInstance] ∧
      issuerInstance.id = tenant.instanceId ∧
      issuerInstance.cryptosuite = tenant.profile.cryptosuite ∧
      issuerInstance.didMethod = tenant.profile.didMethod ∧
      issuerInstance.keyMaterial = some tenant.keyMaterial ∧
      resolveIssuerInstance record = some issuerInstance

theorem readBack_of_fits (h : Provisioned values tenant) (hfits : Fits tenant)
    (htrim : trim tenant.instanceId = tenant.instanceId) (hne : tenant.instanceId ≠ "") :
    ReadBack locale tenant := by
  refine ⟨blockRecord tenant, blockInstance tenant, parseTenantsFromEnv_block h hfits, rfl, rfl,
    ?_, rfl, ?_, htrim, rfl, rfl, rfl, ?_⟩
  · rw [← htrim]
    simp [blockRecord]
  · simp [blockRecord, htrim, hne]
  · simp [resolveIssuerInstance, blockRecord, blockInstance, htrim, hne]

/-- What was read back was written on one line each. -/
theorem fits_of_readBack (h : ReadBack locale tenant) :
    Fits tenant ∧ trim tenant.instanceId = tenant.instanceId ∧ tenant.instanceId ≠ "" := by
  obtain ⟨record, issuerInstance, hparse, -, -, -, hdomains, hinstances, hid, -⟩ := h.parsed
  set env := parseEnvFile (renderEnvBlock locale tenant)
  obtain ⟨entry, -, hrecord⟩ := exists_entry_of_mem hparse List.mem_cons_self
  obtain ⟨-, -, -, hread, -, -, hlist⟩ := parseTenant_eq_ok_iff.mp hrecord
  rw [hinstances, parseIssuerInstances_eq_singleton_iff, readInstance_eq_some_iff, hid] at hread
  obtain ⟨⟨hreadId, -⟩, -⟩ := hread
  -- The id is the trimmed text of a variable, and it is not blank.
  obtain ⟨hmap, hne⟩ := Option.filter_eq_some_iff.mp hreadId
  obtain ⟨text, hget, htext⟩ := Option.map_eq_some_iff.mp hmap
  obtain ⟨-, hone, htrim⟩ := get?_parseEnvFile hget
  rw [htrim] at htext
  subst htext
  refine ⟨⟨hone, ?_⟩, htrim, by simpa using hne⟩
  intro domain hd
  have hmem : domain ∈ domainsOf env (locale.toUpperCase record.tenantId) := by
    rw [hdomains, if_neg (List.ne_nil_of_mem hd)] at hlist
    split at hlist
    · cases hlist
    · rwa [← Option.some.inj hlist]
  obtain ⟨-, -, -, value, hvalue, hchars⟩ := mem_list hmem
  obtain ⟨-, hone', -⟩ := get?_parseEnvFile hvalue
  exact isOneLine_iff.mpr fun c hc => isOneLine_iff.mp hone' c (hchars c hc)

end

/-! ### Provisioning -/

/-- Keys that are made up. -/
def sampleSource : KeySource where
  randomToken := "c2VjcmV0"
  secretKeySeed := "z1AdwZm6Tv"
  ecdsaExport := (some "zDnaeUKTWU", some "z42twTcNeS")
  createSigner _ _ _ := .ok ("did:key:z6MkwXG2Wj", "did:key:z6MkwXG2Wj#z6MkwXG2Wj")
  isKeyText_token := by decide
  isKeyText_seed := by decide
  isKeyText_export := by
    rintro half (rfl | rfl) text htext -
    · cases htext
      decide
    · cases htext
      decide
  isOneLine_did h := by
    cases h
    decide

/-- `--instance ""` gives a block that makes no instance. -/
theorem provisioned_unnamed_instance :
    ∃ tenant, runTenant asciiLocale sampleSource { tenant := some "acme", instanceId := "" } =
        .ok tenant ∧ ¬ReadBack asciiLocale tenant :=
  ⟨_, rfl, fun h => (fits_of_readBack h).2.2 rfl⟩

/-- The block a tenant is provisioned with is read back as that tenant exactly where its instance
id is not empty and has no white space at its ends, and neither it nor a domain has a line break. -/
theorem provisioned_read_back_iff {locale : Locale} {source : KeySource} {values : CliValues}
    {tenant : ProvisionedTenant} (h : runTenant locale source values = .ok tenant) :
    ReadBack locale tenant ↔
      values.instanceId ≠ "" ∧ trim values.instanceId = values.instanceId ∧
        isOneLine values.instanceId = true ∧
        ∀ domain ∈ domainsFrom values.domains, isOneLine domain = true := by
  have hprovisioned := provisioned_of_runTenant h
  rw [← hprovisioned.instanceId, ← hprovisioned.domains]
  constructor
  · intro hread
    obtain ⟨⟨hone, hdomains⟩, htrim, hne⟩ := fits_of_readBack hread
    exact ⟨hne, htrim, hone, hdomains⟩
  · rintro ⟨hne, htrim, hone, hdomains⟩
    exact readBack_of_fits hprovisioned ⟨hone, hdomains⟩ htrim hne

theorem provisioned_read_back_domains :
    ∃ tenant, runTenant asciiLocale sampleSource
        { tenant := some " ACME ", domains := some "status.acme.test, lists.acme.test" } =
        .ok tenant ∧ ReadBack asciiLocale tenant := by
  have hrun : runTenant asciiLocale sampleSource
      { tenant := some " ACME ", domains := some "status.acme.test, lists.acme.test" } =
      .ok _ := rfl
  exact ⟨_, hrun, (provisioned_read_back_iff hrun).mpr (by decide)⟩

end Provisioning

end VcalmStatus
