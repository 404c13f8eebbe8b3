import VcalmStatus.Services.Accepted

/-!
Environments that say the same of a tenant. A variable that is unset says what its default says, and
the instances past the first number without an id say nothing. Where two environments say the same,
and only there, one record is read from both.
-/

namespace VcalmStatus

open Js Effects

namespace TenantsEnv

variable {locale : Locale} {env env' : ProcessEnv} {tenantId suffix key value : String} {n : Nat}

/-! ### What the fields of an instance say -/

/-- What a field says, the default where it has one included. -/
def said (tenantId : String) (read : InstanceField → Option String) : InstanceField → Option String
  | .cryptosuite => some ((read .cryptosuite).getD "eddsa-rdfc-2022")
  | .didMethod => some ((read .didMethod).getD "key")
  | .signingTenant => some ((read .signingTenant).getD tenantId)
  | field => read field

/-- What the seed and the halves of a pair say where this is the key material. -/
def keyFields : Option KeyMaterial → Option String × Option String × Option String
  | none => (none, none, none)
  | some (.ed25519Seed seed) => (some seed, none, none)
  | some (.multikey publicKey secretKey) => (none, some publicKey, some secretKey)

/-- What the fields say of which this is the instance. -/
def fieldsOf (found : IssuerInstance) : InstanceField → Option String
  | .id => some found.id
  | .cryptosuite => some found.cryptosuite.text
  | .didMethod => some found.didMethod.text
  | .didUrl => found.didUrl
  | .seed => (keyFields found.keyMaterial).1
  | .publicKey => (keyFields found.keyMaterial).2.1
  | .secretKey => (keyFields found.keyMaterial).2.2
  | .signingTenant => found.signingServiceTenant
  | .signingToken => found.signingServiceToken
  | .issuerDid => found.issuerDid

theorem OneKeyForm.keyFields_eq {seed publicKey secretKey : Option String}
    {keyMaterial : Option KeyMaterial} (h : OneKeyForm seed publicKey secretKey keyMaterial) :
    keyFields keyMaterial = (seed, publicKey, secretKey) := by
  cases h <;> rfl

/-- An instance that is read shows what the fields say. -/
theorem said_of_readInstance {instances : List IssuerInstance} {found : IssuerInstance}
    (h : readInstance tenantId suffix n (instanceField env suffix n) instances = .ok (some found)) :
    said tenantId (instanceField env suffix n) = fieldsOf found := by
  obtain ⟨-, -, -, -, -, -, -, htenant, htoken, hdid⟩ := readInstance_eq_some_iff.mp h
  obtain ⟨hid, hmethod, hurl, -, hkeys, hsuite⟩ := (readFrom_of_readInstance h).1
  have hkeyFields := hkeys.keyFields_eq
  funext field
  cases field with
  | id => exact hid
  | cryptosuite => exact congrArg some hsuite.symm
  | didMethod => exact congrArg some hmethod.symm
  | didUrl => exact hurl.symm
  | seed => exact (congrArg Prod.fst hkeyFields).symm
  | publicKey => exact (congrArg (·.2.1) hkeyFields).symm
  | secretKey => exact (congrArg (·.2.2) hkeyFields).symm
  | signingTenant => exact htenant.symm
  | signingToken => exact htoken.symm
  | issuerDid => exact hdid.symm

/-- A turn depends on what the fields say. -/
theorem readInstance_congr {read read' : InstanceField → Option String}
    {instances : List IssuerInstance} (h : said tenantId read = said tenantId read') :
    readInstance tenantId suffix n read instances =
      readInstance tenantId suffix n read' instances := by
  have hid : read .id = read' .id := congrFun h .id
  have hurl : read .didUrl = read' .didUrl := congrFun h .didUrl
  have hseed : read .seed = read' .seed := congrFun h .seed
  have hpublic : read .publicKey = read' .publicKey := congrFun h .publicKey
  have hsecret : read .secretKey = read' .secretKey := congrFun h .secretKey
  have htoken : read .signingToken = read' .signingToken := congrFun h .signingToken
  have hdid : read .issuerDid = read' .issuerDid := congrFun h .issuerDid
  have htenant : (read .signingTenant).getD tenantId = (read' .signingTenant).getD tenantId :=
    Option.some.inj (congrFun h .signingTenant)
  -- A default is trimmed already.
  have hdefault : ∀ {text : String} (raw : Option String), trim text = text →
      (raw.map trim).getD text = trim (raw.getD text) := by
    intro text raw htrim
    cases raw <;> simp [htrim]
  have hmethod : ∀ location, parseDidMethod (read .didMethod) location =
      parseDidMethod (read' .didMethod) location := by
    intro location
    have hsame : (read .didMethod).getD "key" = (read' .didMethod).getD "key" :=
      Option.some.inj (congrFun h .didMethod)
    simp only [parseDidMethod, hdefault _ (by decide : trim "key" = "key"), hsame]
  have hsuite : ∀ location, parseCryptosuite (read .cryptosuite) location =
      parseCryptosuite (read' .cryptosuite) location := by
    intro location
    have hsame : (read .cryptosuite).getD "eddsa-rdfc-2022" =
        (read' .cryptosuite).getD "eddsa-rdfc-2022" :=
      Option.some.inj (congrFun h .cryptosuite)
    simp only [parseCryptosuite,
      hdefault _ (by decide : trim "eddsa-rdfc-2022" = "eddsa-rdfc-2022"), hsame]
  unfold readInstance
  simp only [hid, hurl, hseed, hpublic, hsecret, htoken, hdid, htenant, hmethod, hsuite]

/-! ### What the variables of a tenant say -/

/-- The environments say the same of the tenant's instances, up to the first without an id. -/
def InstancesAlike (tenantId suffix : String) (env env' : ProcessEnv) : Prop :=
  ∀ n, 1 ≤ n → Numbered env suffix n →
    instanceField env suffix n .id = none ∧ instanceField env' suffix n .id = none ∨
      said tenantId (instanceField env suffix n) = said tenantId (instanceField env' suffix n)

theorem parseIssuerInstances_alike_iff {instances : List IssuerInstance}
    (h : parseIssuerInstances locale env tenantId = .ok instances) :
    parseIssuerInstances locale env' tenantId = .ok instances ↔
      InstancesAlike tenantId (locale.toUpperCase tenantId) env env' := by
  obtain ⟨hgap, heach⟩ := parseIssuerInstances_eq_ok_iff.mp h
  rw [parseIssuerInstances_eq_ok_iff]
  constructor
  · rintro ⟨hgap', heach'⟩ n hn hnumbered
    by_cases hlt : n - 1 < instances.length
    · right
      have hfound := List.getElem?_eq_getElem hlt
      have hread := heach hfound
      have hread' := heach' hfound
      rw [Nat.add_sub_cancel' hn] at hread hread'
      exact (said_of_readInstance hread).trans (said_of_readInstance hread').symm
    · left
      -- There is no number past the gap whose predecessors all have an id.
      obtain rfl : n = 1 + instances.length := by
        by_contra hne
        have hsome := hnumbered (1 + instances.length) (by omega) (by omega)
        rw [hgap] at hsome
        cases hsome
      exact ⟨hgap, hgap'⟩
  · intro halike
    have hid : ∀ {i : Nat} {found : IssuerInstance}, instances[i]? = some found →
        instanceField env (locale.toUpperCase tenantId) (1 + i) .id = some found.id :=
      fun hi => (readInstance_eq_some_iff.mp (heach hi)).1
    have hnumbered : ∀ i, i ≤ instances.length →
        Numbered env (locale.toUpperCase tenantId) (1 + i) := by
      intro i hi m hm hmi
      have hfound := hid (List.getElem?_eq_getElem (by omega : m - 1 < instances.length))
      rw [Nat.add_sub_cancel' hm] at hfound
      rw [hfound]
      rfl
    refine ⟨?_, fun {i found} hi => ?_⟩
    · obtain ⟨-, hnone⟩ | hsaid := halike _ (by omega) (hnumbered _ le_rfl)
      · exact hnone
      · exact (congrFun hsaid .id).symm.trans hgap
    · obtain ⟨hlt, -⟩ := List.getElem?_eq_some_iff.mp hi
      obtain ⟨hnone, -⟩ | hsaid := halike _ (by omega) (hnumbered i hlt.le)
      · rw [hid hi] at hnone
        cases hnone
      · rw [← readInstance_congr hsaid]
        exact heach hi

/-- The environments say the same of the tenant. -/
structure ReadAlike (locale : Locale) (tenantId : String) (env env' : ProcessEnv) : Prop where
  domains : domainsOf env (locale.toUpperCase tenantId) =
    domainsOf env' (locale.toUpperCase tenantId)
  defaultInstance : defaultOf env (locale.toUpperCase tenantId) =
    defaultOf env' (locale.toUpperCase tenantId)
  instances : InstancesAlike tenantId (locale.toUpperCase tenantId) env env'

theorem readAlike_of_get? (h : ∀ v : TenantVariable, v ≠ .token →
    env.get? (v.name (locale.toUpperCase tenantId)) =
      env'.get? (v.name (locale.toUpperCase tenantId))) : ReadAlike locale tenantId env env' where
  domains := by rw [domainsOf, domainsOf, h .domains (by simp)]
  defaultInstance := by rw [defaultOf, defaultOf, h .defaultInstance (by simp)]
  instances n _ _ := by
    have hfields : instanceField env (locale.toUpperCase tenantId) n =
        instanceField env' (locale.toUpperCase tenantId) n := by
      funext field
      rw [instanceField_eq, instanceField_eq, h (.issuer n field) (by simp)]
    exact .inr (congrArg _ hfields)

/-- A token variable gives the record that another one gave in another environment where it is the
same tenant's, holds the same tokens, and the environments say the same of the tenant. -/
theorem parseTenant_alike_iff {record : TenantRecord} {key' value' : String}
    (h : parseTenant locale env key value = .ok record) :
    parseTenant locale env' key' value' = .ok record ↔
      tenantIdFromTokenKey locale key' = record.tenantId ∧ list (some value') = record.tokens ∧
        ReadAlike locale record.tenantId env env' := by
  obtain ⟨-, -, hne, hinstances, hdefault, hknown, hdomains⟩ := parseTenant_eq_ok_iff.mp h
  rw [parseTenant_eq_ok_iff, parseIssuerInstances_alike_iff hinstances]
  constructor
  · rintro ⟨hid, htokens, -, halike, hdefault', -, hdomains'⟩
    refine ⟨hid.symm, htokens.symm, ?_, hdefault.symm.trans hdefault', halike⟩
    have hsame := hdomains.symm.trans hdomains'
    split at hsame <;> split at hsame <;> rename_i hnil hnil'
    · exact hnil.trans hnil'.symm
    · cases hsame
    · cases hsame
    · exact Option.some.inj hsame
  · rintro ⟨hid, htokens, halike⟩
    exact ⟨hid.symm, htokens.symm, hne, halike.instances, hdefault.trans halike.defaultInstance,
      hknown, halike.domains ▸ hdomains⟩

end TenantsEnv

end VcalmStatus
