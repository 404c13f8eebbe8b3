import VcalmStatus.Cli.Settings
import VcalmStatus.Services.InstanceRun

/-!
What is read of a tenant from an environment to which its block was assigned: the record of the
block where what the environment had before leaves nothing over.
-/

namespace VcalmStatus

open Js Effects TenantsEnv EnvFile

namespace Provisioning

/-! ### Looking up what was assigned -/

theorem get?_assign_named_of_mem {settings : List (TenantVariable × String)}
    (hnodup : (settings.map Prod.fst).Nodup) {v : TenantVariable} {value : String}
    (h : (v, value) ∈ settings) (env : ProcessEnv) (suffix : String) :
    (env.assign (named suffix settings)).get? (v.name suffix) = some value := by
  have hkeys : ((named suffix settings).map Prod.fst).Nodup := by
    have hmap : (named suffix settings).map Prod.fst =
        (settings.map Prod.fst).map fun w => w.name suffix := by
      simp [named]
    rw [hmap]
    exact hnodup.map fun a b hab => (TenantVariable.name_inj hab).1
  exact ProcessEnv.get?_assign_of_mem hkeys
    (List.mem_map_of_mem h : (v.name suffix, value) ∈ named suffix settings) env

/-- A variable that is not set, or of another suffix, is left as it is. -/
theorem get?_assign_named_of_not_mem {settings : List (TenantVariable × String)}
    {v : TenantVariable} {suffix other : String}
    (h : other = suffix → v ∉ settings.map Prod.fst) (env : ProcessEnv) :
    (env.assign (named suffix settings)).get? (v.name other) = env.get? (v.name other) := by
  refine ProcessEnv.get?_assign_of_not_mem ?_ env
  intro hmem
  obtain ⟨⟨name, value⟩, hw, hname⟩ := List.mem_map.mp hmem
  obtain ⟨⟨w, value'⟩, hw', heq⟩ := List.mem_map.mp hw
  cases heq
  obtain ⟨rfl, rfl⟩ := TenantVariable.name_inj hname
  exact h rfl (List.mem_map_of_mem hw')

section

variable {locale : Locale} {values : CliValues} {tenant : ProvisionedTenant}

/-- The environment after a tenant's block. -/
def withBlock (locale : Locale) (env : ProcessEnv) (tenant : ProvisionedTenant) : ProcessEnv :=
  env.assign (named (locale.toUpperCase tenant.tenantId) (settings tenant))

theorem instanceField_of_setting {n : Nat} {field : InstanceField} {value : String}
    (h : (.issuer n field, value) ∈ settings tenant) (env : ProcessEnv) :
    instanceField (withBlock locale env tenant) (locale.toUpperCase tenant.tenantId) n field =
      (some (trim value)).filter (· ≠ "") := by
  rw [instanceField_eq, withBlock, get?_assign_named_of_mem (settings_nodup tenant) h]
  rfl

theorem instanceField_of_no_setting {n : Nat} {field : InstanceField}
    (h : .issuer n field ∉ (settings tenant).map Prod.fst) (env : ProcessEnv) :
    instanceField (withBlock locale env tenant) (locale.toUpperCase tenant.tenantId) n field =
      instanceField env (locale.toUpperCase tenant.tenantId) n field := by
  rw [instanceField_eq, instanceField_eq, withBlock,
    get?_assign_named_of_not_mem (fun _ => h)]

theorem defaultOf_withBlock (env : ProcessEnv) :
    defaultOf (withBlock locale env tenant) (locale.toUpperCase tenant.tenantId) =
      some (trim tenant.instanceId) := by
  have hmem : (.defaultInstance, trim tenant.instanceId) ∈ settings tenant := by
    simp [settings]
  rw [defaultOf, withBlock, get?_assign_named_of_mem (settings_nodup tenant) hmem]
  simp

theorem domainsOf_withBlock (h : Provisioned values tenant) (env : ProcessEnv) :
    domainsOf (withBlock locale env tenant) (locale.toUpperCase tenant.tenantId) =
      if tenant.authorizedDomains = [] then domainsOf env (locale.toUpperCase tenant.tenantId)
      else tenant.authorizedDomains := by
  split <;> rename_i hdomains
  · have hno : .domains ∉ (settings tenant).map Prod.fst := by
      cases hkeys : tenant.keyMaterial <;> simp [settings, hdomains, hkeys, keySettings]
    rw [domainsOf, withBlock, get?_assign_named_of_not_mem (fun _ => hno)]
    rfl
  · have hmem : (.domains, ",".intercalate tenant.authorizedDomains) ∈ settings tenant := by
      simp [settings, hdomains]
    rw [domainsOf, withBlock, get?_assign_named_of_mem (settings_nodup tenant) hmem]
    refine list_join ?_ hdomains
    intro domain hd
    rw [h.domains, domainsFrom_eq_list] at hd
    obtain ⟨hne, htrim, hcomma, -⟩ := mem_list hd
    exact ⟨hne, htrim, hcomma⟩

/-! ### The record of a block -/

/-- The instance a block sets. -/
def blockInstance (tenant : ProvisionedTenant) : IssuerInstance where
  id := trim tenant.instanceId
  cryptosuite := tenant.profile.cryptosuite
  didMethod := tenant.profile.didMethod
  keyMaterial := some tenant.keyMaterial
  signingServiceTenant := some tenant.tenantId

/-- The tenant a block sets. An instance id of white space makes no instance. -/
def blockRecord (tenant : ProvisionedTenant) : TenantRecord where
  tenantId := tenant.tenantId
  tokens := [tenant.token]
  issuerInstances := if trim tenant.instanceId = "" then [] else [blockInstance tenant]
  defaultInstanceId := some (trim tenant.instanceId)
  authorizedDomains :=
    if tenant.authorizedDomains = [] then none else some tenant.authorizedDomains

/-- The fields of the other kind of key material. -/
def otherKeyFields : KeyMaterial → List InstanceField
  | .ed25519Seed _ => [.publicKey, .secretKey]
  | .multikey _ _ => [.seed]

/-- What an environment has of a tenant's instances does not show after the block. -/
structure InstancesClear (env : ProcessEnv) (suffix : String) (tenant : ProvisionedTenant) :
    Prop where
  keys : ∀ field ∈ otherKeyFields tenant.keyMaterial, instanceField env suffix 1 field = none
  didUrl : instanceField env suffix 1 .didUrl = none
  signingToken : instanceField env suffix 1 .signingToken = none
  issuerDid : instanceField env suffix 1 .issuerDid = none
  signingTenant :
    (instanceField env suffix 1 .signingTenant).getD tenant.tenantId = tenant.tenantId
  second : instanceField env suffix 2 .id = none

/-- Nothing an environment has of a tenant shows after the block. -/
structure Clear (env : ProcessEnv) (suffix : String) (tenant : ProvisionedTenant) : Prop where
  domains : tenant.authorizedDomains = [] → domainsOf env suffix = []
  instances : trim tenant.instanceId ≠ "" → InstancesClear env suffix tenant

theorem clear_empty (suffix : String) (tenant : ProvisionedTenant) :
    Clear ProcessEnv.empty suffix tenant where
  domains _ := rfl
  instances _ :=
    { keys := fun _ _ => rfl
      didUrl := rfl
      signingToken := rfl
      issuerDid := rfl
      signingTenant := rfl
      second := rfl }

/-! ### The first instance -/

theorem instanceField_of_keyText {n : Nat} {field : InstanceField} {value : String}
    (h : (.issuer n field, value) ∈ settings tenant) (hvalue : isKeyText value = true)
    (env : ProcessEnv) :
    instanceField (withBlock locale env tenant) (locale.toUpperCase tenant.tenantId) n field =
      some value := by
  obtain ⟨hne, -, htrim, -⟩ := keyText_plain hvalue
  rw [instanceField_of_setting h, htrim]
  simp [hne]

/-- The key material of the block is what is read exactly where there is none of the other kind. -/
theorem parseKeyMaterial_withBlock (h : Provisioned values tenant) (env : ProcessEnv)
    {read : InstanceField → Option String} (location : String)
    (hread : read =
      instanceField (withBlock locale env tenant) (locale.toUpperCase tenant.tenantId) 1) :
    parseKeyMaterial (read .seed) (read .publicKey) (read .secretKey) location =
      .ok (some tenant.keyMaterial) ↔
    ∀ field ∈ otherKeyFields tenant.keyMaterial,
      instanceField env (locale.toUpperCase tenant.tenantId) 1 field = none := by
  subst hread
  rw [parseKeyMaterial_eq_ok_iff (filter_instanceField _ _ _ _) (filter_instanceField _ _ _ _)
    (filter_instanceField _ _ _ _)]
  cases hkeys : tenant.keyMaterial with
  | ed25519Seed seed =>
      have hseed : (.issuer 1 .seed, seed) ∈ settings tenant := by
        simp [settings, hkeys, keySettings]
      have hpublic : .issuer 1 .publicKey ∉ (settings tenant).map Prod.fst := by
        simp [settings, hkeys, keySettings]
      have hsecret : .issuer 1 .secretKey ∉ (settings tenant).map Prod.fst := by
        simp [settings, hkeys, keySettings]
      rw [instanceField_of_keyText hseed (h.seed seed hkeys), instanceField_of_no_setting hpublic,
        instanceField_of_no_setting hsecret, oneKeyForm_seed_iff]
      simp [otherKeyFields]
  | multikey publicKey secretKey =>
      obtain ⟨hpublicText, hsecretText⟩ := h.multikey publicKey secretKey hkeys
      have hpublic : (.issuer 1 .publicKey, publicKey) ∈ settings tenant := by
        simp [settings, hkeys, keySettings]
      have hsecret : (.issuer 1 .secretKey, secretKey) ∈ settings tenant := by
        simp [settings, hkeys, keySettings]
      have hseed : .issuer 1 .seed ∉ (settings tenant).map Prod.fst := by
        simp [settings, hkeys, keySettings]
      rw [instanceField_of_keyText hpublic hpublicText,
        instanceField_of_keyText hsecret hsecretText, instanceField_of_no_setting hseed, oneKeyForm_multikey_iff]
      simp [otherKeyFields]

theorem didMethod_of_provisioned (h : Provisioned values tenant) :
    tenant.profile.didMethod = .key := by
  have hall : ∀ profile ∈ profiles, profile.didMethod = .key := by decide
  exact hall _ h.profile

/-- The id, the method and the suite of the first instance are the block's, whatever there was. -/
theorem firstFields_withBlock (h : Provisioned values tenant) (hid : trim tenant.instanceId ≠ "")
    (env : ProcessEnv) {read : InstanceField → Option String} (location : String)
    (hread : read =
      instanceField (withBlock locale env tenant) (locale.toUpperCase tenant.tenantId) 1) :
    read .id = some (trim tenant.instanceId) ∧
      parseDidMethod (read .didMethod) location = .ok tenant.profile.didMethod ∧
      parseCryptosuite (read .cryptosuite) location = .ok tenant.profile.cryptosuite := by
  subst hread
  refine ⟨?_, ?_, ?_⟩
  · rw [instanceField_of_setting
      (by simp [settings] : (.issuer 1 .id, trim tenant.instanceId) ∈ settings tenant), trim_trim]
    simp [hid]
  · rw [instanceField_of_setting (by simp [settings] :
      (.issuer 1 .didMethod, tenant.profile.didMethod.text) ∈ settings tenant),
      didMethod_of_provisioned h]
    rfl
  · rw [instanceField_of_setting (by simp [settings] :
      (.issuer 1 .cryptosuite, tenant.profile.cryptosuite.text) ∈ settings tenant)]
    cases tenant.profile.cryptosuite <;> rfl

/-- Fields that no block sets are left as they are, and so is the second instance. -/
theorem otherFields_withBlock (env : ProcessEnv) (n : Nat) (field : InstanceField)
    (h : n = 2 ∨ field ∈ [InstanceField.didUrl, .signingTenant, .signingToken, .issuerDid]) :
    instanceField (withBlock locale env tenant) (locale.toUpperCase tenant.tenantId) n field =
      instanceField env (locale.toUpperCase tenant.tenantId) n field := by
  refine instanceField_of_no_setting ?_ env
  rcases h with rfl | h
  · cases hkeys : tenant.keyMaterial <;> simp [settings, hkeys, keySettings]
  · rcases (by simpa using h : _ ∨ _ ∨ _ ∨ _) with rfl | rfl | rfl | rfl <;>
      cases hkeys : tenant.keyMaterial <;> simp [settings, hkeys, keySettings]

/-- The first instance read after the block is the block's exactly where nothing is left over of
another. -/
theorem readInstance_withBlock (h : Provisioned values tenant)
    (hid : trim tenant.instanceId ≠ "") (env : ProcessEnv) :
    readInstance tenant.tenantId (locale.toUpperCase tenant.tenantId) 1
        (instanceField (withBlock locale env tenant) (locale.toUpperCase tenant.tenantId) 1) [] =
        .ok (some (blockInstance tenant)) ∧
      instanceField (withBlock locale env tenant) (locale.toUpperCase tenant.tenantId) 2 .id =
        none ↔
    InstancesClear env (locale.toUpperCase tenant.tenantId) tenant := by
  set suffix := locale.toUpperCase tenant.tenantId with hsuffix
  set read := instanceField (withBlock locale env tenant) suffix 1 with hread
  obtain ⟨hreadId, hmethod, hsuite⟩ := firstFields_withBlock h hid env
    s!"TENANT_ISSUER_{1}_*_{suffix}" hread
  have hkeyMaterial : (blockInstance tenant).keyMaterial = some tenant.keyMaterial := rfl
  have hother : ∀ field ∈ [InstanceField.didUrl, .signingTenant, .signingToken, .issuerDid],
      read field = instanceField env suffix 1 field :=
    fun field hfield => otherFields_withBlock env 1 field (.inr hfield)
  rw [readInstance_eq_some_iff, hkeyMaterial, parseKeyMaterial_withBlock h env _ hread,
    otherFields_withBlock env 2 .id (.inl rfl), hother .didUrl (by simp),
    hother .signingTenant (by simp), hother .signingToken (by simp), hother .issuerDid (by simp)]
  constructor
  · rintro ⟨⟨-, -, -, hkeys, -, -, hurl, htenant, htoken, hdid⟩, hgap⟩
    exact
      { keys := hkeys
        didUrl := hurl.symm
        signingToken := htoken.symm
        issuerDid := hdid.symm
        signingTenant := (Option.some.inj htenant).symm
        second := hgap }
  · intro hclear
    refine ⟨⟨hreadId, hmethod, ?_, hclear.keys, by simp, hsuite, hclear.didUrl.symm, ?_,
      hclear.signingToken.symm, hclear.issuerDid.symm⟩, hclear.second⟩
    · rintro ⟨hweb, -⟩
      change tenant.profile.didMethod = .web at hweb
      rw [didMethod_of_provisioned h] at hweb
      cases hweb
    · rw [hclear.signingTenant]
      rfl

/-! ### The tenant -/

theorem tenantIdFromTokenKey_name {tenantId : String} (h : isTenantName tenantId = true) :
    tenantIdFromTokenKey locale (TenantVariable.token.name (locale.toUpperCase tenantId)) =
      tenantId := by
  have hsuffix : ((TenantVariable.token.name (locale.toUpperCase tenantId)).toList.drop
      "TENANT_TOKEN_".length) = (locale.toUpperCase tenantId).toList := by
    rw [TenantVariable.toList_name]
    exact List.drop_left' (by decide)
  rw [tenantIdFromTokenKey, hsuffix, String.ofList_toList, toLowerCase_suffix locale h]

theorem parseIssuerInstances_withBlock (h : Provisioned values tenant) (env : ProcessEnv) :
    parseIssuerInstances locale (withBlock locale env tenant) tenant.tenantId =
        .ok (blockRecord tenant).issuerInstances ↔
      (trim tenant.instanceId ≠ "" →
        InstancesClear env (locale.toUpperCase tenant.tenantId) tenant) := by
  change _ = Except.ok (if trim tenant.instanceId = "" then [] else [blockInstance tenant]) ↔ _
  by_cases hid : trim tenant.instanceId = ""
  · rw [if_pos hid]
    refine iff_of_true (parseIssuerInstances_eq_nil ?_) fun hne => absurd hid hne
    rw [instanceField_of_setting
      (by simp [settings] : (.issuer 1 .id, trim tenant.instanceId) ∈ settings tenant),
      trim_trim, hid]
    rfl
  · rw [if_neg hid, parseIssuerInstances_eq_singleton_iff, readInstance_withBlock h hid]
    exact ⟨fun hclear _ => hclear, fun hclear => hclear hid⟩

/-- The tenant read after the block is the block's exactly where nothing is left over of another. -/
theorem parseTenant_withBlock (h : Provisioned values tenant) (env : ProcessEnv) :
    parseTenant locale (withBlock locale env tenant)
        (TenantVariable.token.name (locale.toUpperCase tenant.tenantId)) tenant.token =
        .ok (blockRecord tenant) ↔
      Clear env (locale.toUpperCase tenant.tenantId) tenant := by
  have hid : (blockRecord tenant).tenantId = tenant.tenantId := rfl
  have hdomains : (blockRecord tenant).authorizedDomains =
      if tenant.authorizedDomains = [] then none else some tenant.authorizedDomains := rfl
  have hknown : unknownDefault (blockRecord tenant).defaultInstanceId
      (blockRecord tenant).issuerInstances = none := by
    by_cases hblank : trim tenant.instanceId = ""
    · simp [unknownDefault, blockRecord, hblank]
    · simp [unknownDefault, blockRecord, blockInstance, hblank]
  rw [parseTenant_eq_ok_iff, hid, tenantIdFromTokenKey_name h.tenantName,
    parseIssuerInstances_withBlock h, defaultOf_withBlock, domainsOf_withBlock h, hdomains,
    list_keyText h.token]
  constructor
  · rintro ⟨-, -, -, hinstances, -, -, hdom⟩
    refine ⟨?_, hinstances⟩
    intro hnone
    by_contra hleft
    simp [hnone, hleft] at hdom
  · rintro ⟨hdom, hinstances⟩
    refine ⟨rfl, rfl, List.cons_ne_nil _ _, hinstances, rfl, hknown, ?_⟩
    by_cases hnone : tenant.authorizedDomains = []
    · simp [hnone, hdom hnone]
    · simp [hnone]

/-! ### The variables that define tenants -/

/-- The entry defines the tenant. -/
def defines (locale : Locale) (tenantId : String) (entry : String × String) : Bool :=
  tenantIdFromTokenKey locale entry.1 = tenantId

/-- No name but the one the block uses defines the tenant. -/
def DefinedOnce (locale : Locale) (env : ProcessEnv) (tenantId : String) : Prop :=
  ∀ entry ∈ tokenEntries env, defines locale tenantId entry = true →
    entry.1 = TenantVariable.token.name (locale.toUpperCase tenantId)

/-- What is assigned by a block defines its tenant or none. -/
theorem mem_named_token (h : isTenantName tenant.tenantId = true) {entry : String × String}
    (hmem : entry ∈ named (locale.toUpperCase tenant.tenantId) (settings tenant))
    (htoken : isTokenKey entry.1 = true) :
    entry.1 = TenantVariable.token.name (locale.toUpperCase tenant.tenantId) ∧
      defines locale tenant.tenantId entry = true := by
  obtain ⟨⟨v, value⟩, -, rfl⟩ := List.mem_map.mp hmem
  obtain rfl := isTokenKey_name.mp htoken
  exact ⟨rfl, by simpa [defines] using tenantIdFromTokenKey_name h⟩

/-- The block defines no other tenant and takes none away. -/
theorem tokenEntries_withBlock_others (h : isTenantName tenant.tenantId = true)
    (env : ProcessEnv) :
    (tokenEntries (withBlock locale env tenant)).filter
        (fun entry => !defines locale tenant.tenantId entry) =
      (tokenEntries env).filter fun entry => !defines locale tenant.tenantId entry := by
  rw [tokenEntries, tokenEntries, List.filter_filter, List.filter_filter]
  refine ProcessEnv.filter_entries_assign ?_ env
  intro key hkey value
  obtain ⟨⟨key, value'⟩, hmem, rfl⟩ := List.mem_map.mp hkey
  cases htoken : isTokenKey key with
  | false => simp
  | true =>
      have hdefines := (mem_named_token h hmem htoken).2
      have hsame : defines locale tenant.tenantId (key, value) = true := hdefines
      simp [hsame]

theorem eq_singleton_of_nodup {α : Type} {l : List α} {a : α} (hnodup : l.Nodup) (ha : a ∈ l)
    (hall : ∀ b ∈ l, b = a) : l = [a] := by
  cases l with
  | nil => simp at ha
  | cons b l =>
      obtain rfl := hall b List.mem_cons_self
      have hnil : l = [] := List.eq_nil_iff_forall_not_mem.mpr fun c hc =>
        (List.nodup_cons.mp hnodup).1 (hall c (List.mem_cons_of_mem _ hc) ▸ hc)
      rw [hnil]

theorem ownEntry_mem {tenantId token : String} {env : ProcessEnv}
    (h : isTenantName tenantId = true)
    (htoken : env.get? (TenantVariable.token.name (locale.toUpperCase tenantId)) = some token) :
    (TenantVariable.token.name (locale.toUpperCase tenantId), token) ∈
      (tokenEntries env).filter (defines locale tenantId) := by
  have hdefines : defines locale tenantId
      (TenantVariable.token.name (locale.toUpperCase tenantId), token) = true := by
    simpa [defines] using tenantIdFromTokenKey_name h
  exact List.mem_filter.mpr ⟨List.mem_filter.mpr
    ⟨ProcessEnv.mem_entries_iff.mpr htoken, isTokenKey_name.mpr rfl⟩, hdefines⟩

/-- A token that is set under the tenant's own name is all that defines it where no other name
does. -/
theorem ownEntries_eq_iff {tenantId token : String} {env : ProcessEnv}
    (h : isTenantName tenantId = true)
    (htoken : env.get? (TenantVariable.token.name (locale.toUpperCase tenantId)) = some token) :
    (tokenEntries env).filter (defines locale tenantId) =
        [(TenantVariable.token.name (locale.toUpperCase tenantId), token)] ↔
      DefinedOnce locale env tenantId := by
  constructor
  · intro hown entry hentry hdefines
    have hmem := List.mem_filter.mpr ⟨hentry, hdefines⟩
    rw [hown, List.mem_singleton] at hmem
    rw [hmem]
  · intro honce
    refine eq_singleton_of_nodup ?_ (ownEntry_mem h htoken) ?_
    · exact ((List.Nodup.of_map _ env.nodup).filter _).filter _
    · rintro ⟨key, value⟩ hmem
      obtain ⟨hentry, hdefines⟩ := List.mem_filter.mp hmem
      obtain rfl : key = _ := honce _ hentry hdefines
      have hvalue := ProcessEnv.mem_entries_iff.mp (List.mem_filter.mp hentry).1
      rw [Option.some.inj (hvalue.symm.trans htoken)]

theorem get?_withBlock_token (env : ProcessEnv) (tenant : ProvisionedTenant) :
    (withBlock locale env tenant).get?
      (TenantVariable.token.name (locale.toUpperCase tenant.tenantId)) = some tenant.token :=
  get?_assign_named_of_mem (settings_nodup tenant) (by simp [settings]) env _

/-- The block's token is all that defines the tenant where no other name did. -/
theorem definedOnce_withBlock_iff (h : isTenantName tenant.tenantId = true) (env : ProcessEnv) :
    DefinedOnce locale (withBlock locale env tenant) tenant.tenantId ↔
      DefinedOnce locale env tenant.tenantId := by
  constructor
  · rintro honce ⟨key, value⟩ hentry hdefines
    obtain ⟨hmem, htoken⟩ := List.mem_filter.mp hentry
    by_cases hset : key ∈
        (named (locale.toUpperCase tenant.tenantId) (settings tenant)).map Prod.fst
    · obtain ⟨setting, hsetting, hkey⟩ := List.mem_map.mp hset
      exact hkey.symm.trans (mem_named_token h hsetting (hkey ▸ htoken)).1
    · have hget : (withBlock locale env tenant).get? key = some value := by
        rw [withBlock, ProcessEnv.get?_assign_of_not_mem hset]
        exact ProcessEnv.mem_entries_iff.mp hmem
      exact honce _ (List.mem_filter.mpr ⟨ProcessEnv.mem_entries_iff.mpr hget, htoken⟩) hdefines
  · intro honce entry hentry hdefines
    obtain ⟨hmem, htoken⟩ := List.mem_filter.mp hentry
    rcases ProcessEnv.mem_entries_assign hmem with hold | hnew
    · exact honce _ (List.mem_filter.mpr ⟨hold, htoken⟩) hdefines
    · exact (mem_named_token h hnew htoken).1

end

end Provisioning

end VcalmStatus
