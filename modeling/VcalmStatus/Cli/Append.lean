import VcalmStatus.Cli.ReadBack
import VcalmStatus.Cli.Replacing

/-!
A block that is appended to an env file. What the file is read as after it is what it was read as
before, with the block's settings over it: the tenant is replaced where the older lines leave
nothing over of it, and no other tenant is touched.
-/

namespace VcalmStatus

open Js Effects TenantsEnv EnvFile

namespace Provisioning

section

variable {locale : Locale} {values : CliValues} {tenant : ProvisionedTenant}

/-! ### The file after an append -/

theorem assignments_newFile (block : String) :
    assignments (newFileHeader ++ "\n" ++ block) = assignments block := by
  rw [assignments_append]
  rfl

/-- Whatever stands between the file and the block, the block is read after the file. -/
theorem assignments_separated (contents block : String) {separator : String}
    (h : separator = "\n" ∨ separator = "\n\n") :
    assignments (contents ++ separator ++ block) = assignments contents ++ assignments block := by
  rcases h with rfl | rfl
  · exact assignments_append contents block
  · have htext : contents ++ "\n\n" ++ block = contents ++ "\n" ++ ("" ++ "\n" ++ block) := by
      simp [← String.toList_inj]
    rw [htext, assignments_append, assignments_append, assignments_empty, List.nil_append]

/-- What an append goes over: the file as it is read, or nothing where it cannot be read. -/
def readBefore (file : EnvFileState) : ProcessEnv :=
  match file.readFile with
  | some before => parseEnvFile before
  | none => ProcessEnv.empty

/-- What an append that is not refused leaves in the file is read as the block after what was read
before. -/
theorem appendEnvBlock_ok {path block : String} {options : AppendOptions} {file : EnvFileState}
    {written : EnvFileWrite} {contents : Option String}
    (h : appendEnvBlock locale path block options file = ⟨.ok written, contents⟩) :
    ∃ after, contents = some after ∧
      parseEnvFile after = (readBefore file).assign (assignments block) := by
  unfold appendEnvBlock at h
  unfold readBefore
  split at h <;> rename_i hread
  · cases h
    refine ⟨_, rfl, ?_⟩
    rw [parseEnvFile, assignments_newFile, hread]
  · split at h
    · cases h
    · cases h
      refine ⟨_, rfl, ?_⟩
      rw [parseEnvFile, assignments_separated, ProcessEnv.assign_append, hread]
      · rfl
      · split
        · exact .inl rfl
        · exact .inr rfl

/-! ### A block that fits its lines -/

/-- The suffix of another tenant of a file is another suffix. -/
theorem suffix_ne (h : isTenantName tenant.tenantId = true) {key : String} (hkey : IsName key)
    (hother : tenantIdFromTokenKey locale key ≠ tenant.tenantId) :
    locale.toUpperCase (tenantIdFromTokenKey locale key) ≠ locale.toUpperCase tenant.tenantId := by
  intro hsame
  have hrest : ∀ c ∈ (String.ofList (key.toList.drop "TENANT_TOKEN_".length)).toList,
      isNameChar c = true := by
    intro c hc
    rw [String.toList_ofList] at hc
    exact hkey.chars c (List.mem_of_mem_drop hc)
  refine hother ?_
  calc tenantIdFromTokenKey locale key
      = locale.toLowerCase (locale.toUpperCase (tenantIdFromTokenKey locale key)) :=
        (toLowerCase_toUpperCase_toLowerCase locale hrest).symm
    _ = tenant.tenantId := by rw [hsame, toLowerCase_suffix locale h]

theorem tokenLists_withBlock (h : isTenantName tenant.tenantId = true) {other : String}
    (hother : other ≠ tenant.tenantId) (env : ProcessEnv) :
    tokenLists locale (withBlock locale env tenant) other = tokenLists locale env other := by
  have hothers : ∀ entries : List (String × String), entries.filter (defines locale other) =
      (entries.filter fun entry => !defines locale tenant.tenantId entry).filter
        (defines locale other) := by
    intro entries
    rw [List.filter_filter]
    refine List.filter_congr fun entry _ => ?_
    by_cases hentry : tenantIdFromTokenKey locale entry.1 = other <;>
      simp [defines, hentry, hother]
  rw [tokenLists, tokenLists, hothers, tokenEntries_withBlock_others h, ← hothers]

/-- The settings of a block keep every other tenant. -/
theorem kept_withBlock (h : isTenantName tenant.tenantId = true) {env : ProcessEnv}
    (hnames : ∀ entry ∈ env.entries, IsName entry.1) {other : String}
    (hother : other ≠ tenant.tenantId) : Kept locale other env (withBlock locale env tenant) where
  tokens := .of_eq (tokenLists_withBlock h hother env).symm
  alike := by
    intro hne
    obtain ⟨tokens, htokens⟩ := List.exists_mem_of_ne_nil _ hne
    obtain ⟨entry, hentry, -⟩ := List.mem_map.mp htokens
    obtain ⟨hmem, hdefines⟩ := List.mem_filter.mp hentry
    obtain rfl : tenantIdFromTokenKey locale entry.1 = other := by simpa [defines] using hdefines
    have hname := hnames entry (List.mem_filter.mp hmem).1
    refine readAlike_of_get? fun v _ => (get?_assign_named_of_not_mem ?_ env).symm
    exact fun hsame => absurd hsame (suffix_ne h hname hother)

/-- The tenant's variables say what the settings alone say where nothing shows of what they had. -/
theorem readAlike_withBlock_iff (h : Provisioned values tenant) (env : ProcessEnv) :
    ReadAlike locale tenant.tenantId (withBlock locale ProcessEnv.empty tenant)
        (withBlock locale env tenant) ↔
      Clear env (locale.toUpperCase tenant.tenantId) tenant := by
  have halone : parseTenant locale (withBlock locale ProcessEnv.empty tenant)
      (TenantVariable.token.name (locale.toUpperCase tenant.tenantId)) tenant.token = _ :=
    (parseTenant_withBlock h _).mpr (clear_empty _ tenant)
  rw [← parseTenant_withBlock h env, parseTenant_alike_iff halone]
  constructor
  · intro halike
    exact ⟨tenantIdFromTokenKey_name h.tenantName, list_keyText h.token, halike⟩
  · rintro ⟨-, -, halike⟩
    exact halike

/-- Settings over an environment replace their tenant where no other name defines it and nothing of
it is left over, -/
theorem readsAsReplaced_withBlock_iff (h : Provisioned values tenant) {env : ProcessEnv}
    (hnames : ∀ entry ∈ env.entries, IsName entry.1) :
    ReadsAsReplaced locale tenant.tenantId env (withBlock locale ProcessEnv.empty tenant)
        (withBlock locale env tenant) ↔
      DefinedOnce locale env tenant.tenantId ∧
        Clear env (locale.toUpperCase tenant.tenantId) tenant := by
  rw [← definedOnce_withBlock_iff h.tenantName, ← readAlike_withBlock_iff h]
  constructor
  · intro hreplaced
    exact ⟨hreplaced.definedOnce, hreplaced.own⟩
  · rintro ⟨honce, hown⟩
    exact
      { accepted := exists_parseTenantsFromEnv_iff.mp ⟨_, parseTenantsFromEnv_withBlock_empty h⟩
        definedOnce := honce
        own := hown
        others := fun other hother => kept_withBlock h.tenantName hnames hother }

/-- and in the place of an environment they do where this has no other tenant. -/
theorem readsAsReplaced_alone_iff (h : Provisioned values tenant) {env : ProcessEnv}
    {old : List TenantRecord} (hold : parseTenantsFromEnv locale env = .ok old) :
    ReadsAsReplaced locale tenant.tenantId env (withBlock locale ProcessEnv.empty tenant)
        (withBlock locale ProcessEnv.empty tenant) ↔
      ∀ record ∈ old, record.tenantId = tenant.tenantId := by
  have halone : parseTenantsFromEnv locale (withBlock locale ProcessEnv.empty tenant) = _ :=
    parseTenantsFromEnv_withBlock_empty h
  have hkept : ∀ other, other ≠ tenant.tenantId →
      (Kept locale other env (withBlock locale ProcessEnv.empty tenant) ↔
        old.filter (isOwn other) = []) := by
    intro other hother
    have hnone : [blockRecord tenant].filter (isOwn other) = [] := by
      simpa [isOwn, blockRecord] using hother.symm
    rw [← own_perm_iff hold halone, hnone, List.perm_nil]
  constructor
  · intro hreplaced record hrecord
    by_contra hother
    have hnil := (hkept record.tenantId hother).mp (hreplaced.others _ hother)
    exact List.filter_eq_nil_iff.mp hnil record hrecord (by simp [isOwn])
  · intro hall
    refine
      { accepted := exists_parseTenantsFromEnv_iff.mp ⟨_, halone⟩
        definedOnce := (definedOnce_withBlock_iff h.tenantName _).mpr
          fun entry hentry => absurd hentry List.not_mem_nil
        own := (readAlike_withBlock_iff h _).mpr (clear_empty _ tenant)
        others := fun other hother => (hkept other hother).mpr ?_ }
    refine List.filter_eq_nil_iff.mpr fun record hrecord hown => hother ?_
    exact (by simpa [isOwn] using hown : record.tenantId = other).symm.trans (hall record hrecord)

end

/-! ### Appending to a file -/

/-- What an append should come to: the file is read as the old tenants with what the block by itself
is read as in its tenant's place. -/
def AppendReplaces (locale : Locale) (tenant : ProvisionedTenant) (old : List TenantRecord)
    (contents : Option String) : Prop :=
  ∃ after new alone own, contents = some after ∧
    parseTenantsFromEnv locale (parseEnvFile after) = .ok new ∧
    parseTenantsFromEnv locale (parseEnvFile (renderEnvBlock locale tenant)) = .ok alone ∧
    alone.filter (isOwn tenant.tenantId) = [own] ∧
    Replaces tenant.tenantId own old new

/-- The lines of the block say of its tenant after the file what they say by themselves, and leave
what the file says of the others. -/
def LinesReplace (locale : Locale) (file : EnvFileState) (before : String)
    (tenant : ProvisionedTenant) : Prop :=
  ReadsAsReplaced locale tenant.tenantId (parseEnvFile before)
    (parseEnvFile (renderEnvBlock locale tenant))
    ((readBefore file).assign (assignments (renderEnvBlock locale tenant)))

/-- The block's token is the only one that defines the tenant, and nothing of the tenant is left
over from the lines before it. A file that cannot be read is written anew, and no other tenant was in
it. -/
def ReplacesWhole (locale : Locale) (file : EnvFileState) (old : List TenantRecord)
    (tenant : ProvisionedTenant) : Prop :=
  match file.readFile with
  | some before =>
      DefinedOnce locale (parseEnvFile before) tenant.tenantId ∧
        Clear (parseEnvFile before) (locale.toUpperCase tenant.tenantId) tenant
  | none => ∀ record ∈ old, record.tenantId = tenant.tenantId

section

variable {locale : Locale} {values : CliValues} {tenant : ProvisionedTenant}
  {file : EnvFileState} {before : String} {old : List TenantRecord}

theorem appendReplaces_iff (h : Provisioned values tenant)
    (hold : parseTenantsFromEnv locale (parseEnvFile before) = .ok old)
    {path : String} {force : Option Bool} {written : EnvFileWrite} {contents : Option String}
    (happend : appendEnvBlock locale path (renderEnvBlock locale tenant)
      { tenantId := tenant.tenantId, force } file = ⟨.ok written, contents⟩) :
    AppendReplaces locale tenant old contents ↔ LinesReplace locale file before tenant := by
  obtain ⟨after, rfl, hafter⟩ := appendEnvBlock_ok happend
  have halone : parseEnvFile (renderEnvBlock locale tenant) =
      ProcessEnv.empty.assign (assignments (renderEnvBlock locale tenant)) := rfl
  rw [LinesReplace, halone, ← replaces_iff h.tenantName (token_mem_assignments locale h) hold,
    ← hafter, ← halone]
  constructor
  · rintro ⟨_, new, alone, own, hcontents, hnew⟩
    cases hcontents
    exact ⟨new, alone, own, hnew⟩
  · rintro ⟨new, alone, own, hnew⟩
    exact ⟨after, new, alone, own, rfl, hnew⟩

/-- Of a block that fits its lines one can say which lines of the file would show. -/
theorem linesReplace_iff (h : Provisioned values tenant) (hfits : Fits tenant)
    (hbefore : file.contents = some before)
    (hold : parseTenantsFromEnv locale (parseEnvFile before) = .ok old) :
    LinesReplace locale file before tenant ↔ ReplacesWhole locale file old tenant := by
  rw [LinesReplace, ReplacesWhole, readBefore, parseEnvFile_block h hfits,
    assignments_renderEnvBlock h hfits]
  split <;> rename_i hread
  · obtain rfl := Option.some.inj (hbefore.symm.trans (file.readFile_contents _ hread))
    refine readsAsReplaced_withBlock_iff h ?_
    rintro ⟨key, value⟩ hentry
    exact (get?_parseEnvFile (ProcessEnv.mem_entries_iff.mp hentry)).1
  · exact readsAsReplaced_alone_iff h hold

end

/-! ### Provisioning a tenant again -/

/-- A file that can be read. -/
def readableFile (contents : String) : EnvFileState where
  contents := some contents
  readFile := some contents
  readFile_contents := by
    intro text htext
    exact htext

/-- The tenant acme, as the made-up keys make it. -/
def acmeTenant (profile : IssuerProfile) (keyMaterial : KeyMaterial)
    (authorizedDomains : List String) : ProvisionedTenant where
  tenantId := "acme"
  profile := profile
  instanceId := "default"
  token := sampleSource.randomToken
  keyMaterial := keyMaterial
  authorizedDomains := authorizedDomains
  did := "did:key:z6MkwXG2Wj"
  verificationMethod := "did:key:z6MkwXG2Wj#z6MkwXG2Wj"

/-- With `--force` the append is not refused. -/
theorem appendEnvBlock_forced (locale : Locale) (path block contents tenantId : String) :
    ∃ written after, appendEnvBlock locale path block { tenantId, force := some true }
      (readableFile contents) = ⟨.ok written, after⟩ := by
  unfold appendEnvBlock
  simp [readableFile]

theorem definedOnce_block {locale : Locale} {values : CliValues} {tenant : ProvisionedTenant}
    (h : Provisioned values tenant) (hfits : Fits tenant) :
    DefinedOnce locale (parseEnvFile (renderEnvBlock locale tenant)) tenant.tenantId := by
  intro entry hentry _
  rw [parseEnvFile_block h hfits] at hentry
  obtain ⟨hmem, htoken⟩ := List.mem_filter.mp hentry
  rcases ProcessEnv.mem_entries_assign hmem with hnone | hnew
  · simp [ProcessEnv.empty] at hnone
  · exact (mem_named_token h.tenantName hnew htoken).1

/-- `pnpm provision-tenant --tenant acme --profile did-key-ecdsa-2019-v1`. -/
def p256Values : CliValues := { tenant := some "acme", profile := "did-key-ecdsa-2019-v1" }

def p256Tenant : ProvisionedTenant :=
  acmeTenant
    { id := "did-key-ecdsa-2019-v1"
      didMethod := .key
      cryptosuite := .ecdsaRdfc2019
      summary := "did:key + ecdsa-rdfc-2019 — P-256, for an ecosystem that wants it" }
    (.multikey "zDnaeUKTWU" "z42twTcNeS") []

def defaultProfile : IssuerProfile where
  id := "did-key-eddsa-2022-v1"
  didMethod := .key
  cryptosuite := .eddsaRdfc2022
  summary := "did:key + eddsa-rdfc-2022 — the default, and the exercised path"

def seedTenant (authorizedDomains : List String) : ProvisionedTenant :=
  acmeTenant defaultProfile (.ed25519Seed "z1AdwZm6Tv") authorizedDomains

theorem runTenant_p256 : runTenant asciiLocale sampleSource p256Values = .ok p256Tenant := rfl

theorem runTenant_seed (domains : String) :
    runTenant asciiLocale sampleSource { tenant := some "acme", domains := some domains } =
      .ok (seedTenant (domainsFrom (some domains))) := rfl

/-- A tenant that had a P-256 key is not replaced by `--force` with the default profile: the halves
of the old key are read beside the new seed. -/
theorem forced_append_keeps_old_key :
    ∃ values tenant written contents,
      runTenant asciiLocale sampleSource values = .ok tenant ∧
        appendEnvBlock asciiLocale ".env" (renderEnvBlock asciiLocale tenant)
          { tenantId := tenant.tenantId, force := some true }
          (readableFile (renderEnvBlock asciiLocale p256Tenant)) = ⟨.ok written, contents⟩ ∧
        parseTenantsFromEnv asciiLocale
          (parseEnvFile (renderEnvBlock asciiLocale p256Tenant)) = .ok [blockRecord p256Tenant] ∧
        ¬AppendReplaces asciiLocale tenant [blockRecord p256Tenant] contents := by
  have hold := provisioned_of_runTenant runTenant_p256
  have holdFits : Fits p256Tenant := ⟨by decide, nofun⟩
  have hnew := provisioned_of_runTenant (runTenant_seed "")
  have hnewFits : Fits (seedTenant (domainsFrom (some ""))) := ⟨by decide, by decide⟩
  have hparsed : parseTenantsFromEnv asciiLocale _ = _ := parseTenantsFromEnv_block hold holdFits
  obtain ⟨written, contents, happend⟩ := appendEnvBlock_forced asciiLocale ".env"
    (renderEnvBlock asciiLocale (seedTenant (domainsFrom (some ""))))
    (renderEnvBlock asciiLocale p256Tenant) "acme"
  refine ⟨_, _, written, contents, runTenant_seed "", happend, hparsed, ?_⟩
  rw [appendReplaces_iff hnew hparsed happend, linesReplace_iff hnew hnewFits rfl hparsed]
  rintro ⟨-, hclear⟩
  have hkey := (hclear.instances (by decide)).keys .publicKey (by decide)
  rw [parseEnvFile_block hold holdFits] at hkey
  have hset : instanceField (withBlock asciiLocale ProcessEnv.empty p256Tenant) _ 1 .publicKey = _ :=
    instanceField_of_setting
      (by decide : (.issuer 1 .publicKey, "zDnaeUKTWU") ∈ settings p256Tenant) ProcessEnv.empty
  exact absurd (hkey.symm.trans hset) (by decide)

/-- Appending a provisioned tenant's block to a file that is read as `old` puts what the block by
itself is read as in the place of its tenant and leaves every other tenant as it was exactly where the
lines of the block say of the tenant after the file what they say alone, and nothing else of the
others. Of an instance id and domains on one line each this is that no differently cased name defines
the tenant and none of its older lines shows. -/
theorem append_replaces_tenant_iff {locale : Locale} {source : KeySource} {values : CliValues}
    {tenant : ProvisionedTenant} (h : runTenant locale source values = .ok tenant)
    {file : EnvFileState} {before : String} (hbefore : file.contents = some before)
    {old : List TenantRecord} (hold : parseTenantsFromEnv locale (parseEnvFile before) = .ok old)
    {path : String} {force : Option Bool} {written : EnvFileWrite} {contents : Option String}
    (happend : appendEnvBlock locale path (renderEnvBlock locale tenant)
      { tenantId := tenant.tenantId, force } file = ⟨.ok written, contents⟩) :
    (AppendReplaces locale tenant old contents ↔ LinesReplace locale file before tenant) ∧
      (isOneLine values.instanceId = true →
        (∀ domain ∈ domainsFrom values.domains, isOneLine domain = true) →
        (LinesReplace locale file before tenant ↔ ReplacesWhole locale file old tenant)) := by
  have hprovisioned := provisioned_of_runTenant h
  refine ⟨appendReplaces_iff hprovisioned hold happend, fun hinstance hdomains => ?_⟩
  have hfits : Fits tenant := by
    refine ⟨?_, ?_⟩
    · rw [hprovisioned.instanceId]
      exact hinstance
    · rw [hprovisioned.domains]
      exact hdomains
  exact linesReplace_iff hprovisioned hfits hbefore hold

/-- The domains of a tenant with a seed are replaced by `--force`. -/
theorem forced_append_replaces_domains :
    ∃ written contents,
      appendEnvBlock asciiLocale ".env" (renderEnvBlock asciiLocale (seedTenant ["new.test"]))
          { tenantId := "acme", force := some true }
          (readableFile (renderEnvBlock asciiLocale (seedTenant ["old.test"]))) =
          ⟨.ok written, contents⟩ ∧
        AppendReplaces asciiLocale (seedTenant ["new.test"])
          [blockRecord (seedTenant ["old.test"])] contents := by
  have hrun : runTenant asciiLocale sampleSource
      { tenant := some "acme", domains := some "old.test" } = .ok (seedTenant ["old.test"]) := rfl
  have hrun' : runTenant asciiLocale sampleSource
      { tenant := some "acme", domains := some "new.test" } = .ok (seedTenant ["new.test"]) := rfl
  have hold := provisioned_of_runTenant hrun
  have holdFits : Fits (seedTenant ["old.test"]) := ⟨by decide, by decide⟩
  have hparsed : parseTenantsFromEnv asciiLocale _ = _ := parseTenantsFromEnv_block hold holdFits
  obtain ⟨written, contents, happend⟩ := appendEnvBlock_forced asciiLocale ".env"
    (renderEnvBlock asciiLocale (seedTenant ["new.test"]))
    (renderEnvBlock asciiLocale (seedTenant ["old.test"])) "acme"
  obtain ⟨hreplaces, hlines⟩ := append_replaces_tenant_iff hrun' rfl hparsed happend
  refine ⟨written, contents, happend, hreplaces.mpr ((hlines (by decide) (by decide)).mpr ?_)⟩
  have hunset : ∀ n field, .issuer n field ∉ (settings (seedTenant ["old.test"])).map Prod.fst →
      instanceField (parseEnvFile (renderEnvBlock asciiLocale (seedTenant ["old.test"])))
        (asciiLocale.toUpperCase "acme") n field = none := by
    intro n field hno
    rw [parseEnvFile_block hold holdFits]
    exact instanceField_of_no_setting hno ProcessEnv.empty
  refine ⟨definedOnce_block hold holdFits, ⟨nofun, fun _ => ?_⟩⟩
  exact
    { keys := by
        intro field hfield
        refine hunset 1 field ?_
        revert field
        decide
      didUrl := hunset 1 _ (by decide)
      signingToken := hunset 1 _ (by decide)
      issuerDid := hunset 1 _ (by decide)
      signingTenant := by
        show (instanceField _ (asciiLocale.toUpperCase "acme") 1 .signingTenant).getD "acme" = _
        rw [hunset 1 .signingTenant (by decide)]
        rfl
      second := hunset 2 _ (by decide) }

end Provisioning

end VcalmStatus
