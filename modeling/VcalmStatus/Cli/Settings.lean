import VcalmStatus.Cli.Block

/-!
The variables a block sets, as the reader of the file gets them, and what is read of a tenant from
an environment to which they were assigned.
-/

namespace VcalmStatus

open Js Effects TenantsEnv EnvFile

namespace Provisioning

/-- What the key material lines set. -/
def keySettings : KeyMaterial → List (TenantVariable × String)
  | .ed25519Seed seed => [(.issuer 1 .seed, seed)]
  | .multikey publicKey secretKey =>
      [(.issuer 1 .publicKey, publicKey), (.issuer 1 .secretKey, secretKey)]

/-- What the block of a tenant sets. -/
def settings (tenant : ProvisionedTenant) : List (TenantVariable × String) :=
  [(.token, tenant.token)] ++
    (if tenant.authorizedDomains = [] then []
      else [(.domains, ",".intercalate tenant.authorizedDomains)]) ++
    [(.defaultInstance, trim tenant.instanceId),
      (.issuer 1 .id, trim tenant.instanceId),
      (.issuer 1 .cryptosuite, tenant.profile.cryptosuite.text),
      (.issuer 1 .didMethod, tenant.profile.didMethod.text)] ++
    keySettings tenant.keyMaterial

/-- Settings of the tenant with this suffix. -/
def named (suffix : String) (settings : List (TenantVariable × String)) : List (String × String) :=
  settings.map fun setting => (setting.1.name suffix, setting.2)

theorem settings_nodup (tenant : ProvisionedTenant) : ((settings tenant).map Prod.fst).Nodup := by
  unfold settings
  cases tenant.keyMaterial <;> by_cases h : tenant.authorizedDomains = [] <;>
    simp [h, keySettings]

/-! ### Reading the block -/

/-- The block's values fit their lines. -/
def Fits (tenant : ProvisionedTenant) : Prop :=
  isOneLine tenant.instanceId = true ∧ ∀ domain ∈ tenant.authorizedDomains, isOneLine domain = true

theorem toNameChars (locale : Locale) {tenantId : String} (h : isTenantName tenantId = true) :
    (∀ c ∈ tenantId.toList, isLowerNameChar c = true) ∧
      ∀ c ∈ (locale.toUpperCase tenantId).toList, isNameChar c = true := by
  have hlower : ∀ c ∈ tenantId.toList, isLowerNameChar c = true := by
    unfold isTenantName at h
    split at h
    · cases h
    · rename_i c cs hlist
      rw [Bool.and_eq_true, List.all_eq_true] at h
      intro d hd
      rw [hlist, List.mem_cons] at hd
      rcases hd with rfl | hd
      · simp [isLowerNameChar, h.1]
      · exact h.2 d hd
  exact ⟨hlower, isNameChar_toUpperCase locale fun c hc =>
    isNameChar_of_isLowerNameChar (hlower c hc)⟩

/-- The suffix in lower case is the tenant's id again. -/
theorem toLowerCase_suffix (locale : Locale) {tenantId : String}
    (h : isTenantName tenantId = true) :
    locale.toLowerCase (locale.toUpperCase tenantId) = tenantId := by
  obtain ⟨hlower, -⟩ := toNameChars locale h
  have hcase := toLowerCase_toUpperCase_toLowerCase locale fun c hc =>
    isNameChar_of_isLowerNameChar (hlower c hc)
  rwa [toLowerCase_lowerName locale hlower] at hcase

theorem isName_append {head suffix : String} (hhead : IsName head)
    (hsuffix : ∀ c ∈ suffix.toList, isNameChar c = true) : IsName (head ++ suffix) := by
  obtain ⟨c, cs, hlist, hc, hcs⟩ := hhead
  refine ⟨c, cs ++ suffix.toList, by simp [hlist], hc, ?_⟩
  intro d hd
  rcases List.mem_append.mp hd with hd | hd
  · exact hcs d hd
  · exact hsuffix d hd

/-- A line that sets a variable to a value. -/
def Sets (suffix line : String) (setting : TenantVariable × String) : Prop :=
  isOneLine line = true ∧ parseLine line = some (setting.1.name suffix, setting.2)

theorem sets_line {head suffix value : String} {v : TenantVariable}
    (hname : v.name suffix = head ++ suffix) (hhead : IsName head)
    (hsuffix : ∀ c ∈ suffix.toList, isNameChar c = true) (hvalue : isOneLine value = true) :
    Sets suffix (head ++ suffix ++ "=" ++ value) (v, trim value) := by
  have hkey := isName_append hhead hsuffix
  refine ⟨?_, ?_⟩
  · have hone : isOneLine (head ++ suffix) = true :=
      isOneLine_iff.mpr fun c hc => (nameChar_plain (hkey.chars c hc)).2.1
    rw [isOneLine_append, isOneLine_append, hone, hvalue]
    decide
  · rw [hname]
    exact parseLine_assignment hkey hvalue

theorem sets_trimmed {head suffix value : String} {v : TenantVariable}
    (hname : v.name suffix = head ++ suffix) (hhead : IsName head)
    (hsuffix : ∀ c ∈ suffix.toList, isNameChar c = true) (hvalue : isOneLine value = true)
    (htrim : trim value = value) : Sets suffix (head ++ suffix ++ "=" ++ value) (v, value) := by
  have hsets := sets_line hname hhead hsuffix hvalue
  rwa [htrim] at hsets

/-- Lines that set one variable each are read as these settings. -/
theorem assignments_of_sets {suffix : String} {lines : List String}
    {settings : List (TenantVariable × String)} (h : List.Forall₂ (Sets suffix) lines settings) :
    lines.filterMap parseLine = named suffix settings ∧ ∀ line ∈ lines, isOneLine line = true := by
  induction h with
  | nil => exact ⟨rfl, nofun⟩
  | cons hline _ ih =>
      refine ⟨?_, ?_⟩
      · rw [List.filterMap_cons, hline.2, ih.1]
        rfl
      · intro line hmem
        rcases List.mem_cons.mp hmem with rfl | hmem
        · exact hline.1
        · exact ih.2 line hmem

/-- The name of a field of the first instance. -/
theorem name_issuer_one {field : InstanceField} {head : String}
    (h : "TENANT_ISSUER_" ++ toString 1 ++ "_" ++ field.text ++ "_" = head) (suffix : String) :
    (TenantVariable.issuer 1 field).name suffix = head ++ suffix := by
  rw [← h]
  rfl

section

variable {locale : Locale} {values : CliValues} {tenant : ProvisionedTenant}

theorem sets_keyMaterialLines (h : Provisioned values tenant) {suffix : String}
    (hsuffix : ∀ c ∈ suffix.toList, isNameChar c = true) :
    List.Forall₂ (Sets suffix) (keyMaterialLines tenant suffix)
      (keySettings tenant.keyMaterial) := by
  unfold keyMaterialLines
  cases hkeys : tenant.keyMaterial with
  | ed25519Seed seed =>
      obtain ⟨-, hone, htrim, -⟩ := keyText_plain (h.seed seed hkeys)
      exact .cons (sets_trimmed (name_issuer_one (by decide +kernel) suffix)
        (by decide +kernel) hsuffix hone htrim) .nil
  | multikey publicKey secretKey =>
      obtain ⟨hpublic, hsecret⟩ := h.multikey publicKey secretKey hkeys
      obtain ⟨-, hone, htrim, -⟩ := keyText_plain hpublic
      obtain ⟨-, hone', htrim', -⟩ := keyText_plain hsecret
      exact .cons (sets_trimmed (name_issuer_one (by decide +kernel) suffix)
          (by decide +kernel) hsuffix hone htrim)
        (.cons (sets_trimmed (name_issuer_one (by decide +kernel) suffix)
          (by decide +kernel) hsuffix hone' htrim') .nil)

theorem sets_token (locale : Locale) (h : Provisioned values tenant) :
    Sets (locale.toUpperCase tenant.tenantId)
      s!"TENANT_TOKEN_{locale.toUpperCase tenant.tenantId}={tenant.token}"
      (.token, tenant.token) := by
  obtain ⟨-, hone, htrim, -⟩ := keyText_plain h.token
  exact sets_trimmed rfl (by decide +kernel) (toNameChars locale h.tenantName).2 hone htrim

/-- The lines after the comment are the settings. -/
theorem sets_envBlockLines (locale : Locale) (h : Provisioned values tenant) (hfits : Fits tenant) :
    ∃ lines, envBlockLines locale tenant =
        s!"# Tenant \"{tenant.tenantId}\" — profile {tenant.profile.id} — {tenant.did}" :: lines ∧
      List.Forall₂ (Sets (locale.toUpperCase tenant.tenantId)) lines (settings tenant) := by
  refine ⟨_, rfl, ?_⟩
  have hsuffix := (toNameChars locale h.tenantName).2
  set suffix := locale.toUpperCase tenant.tenantId
  have hsuite : isOneLine tenant.profile.cryptosuite.text = true ∧
      trim tenant.profile.cryptosuite.text = tenant.profile.cryptosuite.text := by
    cases tenant.profile.cryptosuite <;> decide
  have hmethod : isOneLine tenant.profile.didMethod.text = true ∧
      trim tenant.profile.didMethod.text = tenant.profile.didMethod.text := by
    cases tenant.profile.didMethod <;> decide
  let domains := ",".intercalate tenant.authorizedDomains
  have hdomains : List.Forall₂ (Sets suffix)
      (if tenant.authorizedDomains = [] then [] else [s!"TENANT_DOMAINS_{suffix}={domains}"])
      (if tenant.authorizedDomains = [] then []
        else [(.domains, ",".intercalate tenant.authorizedDomains)]) := by
    split
    · exact .nil
    · refine .cons (sets_trimmed rfl (by decide +kernel) hsuffix
        (isOneLine_join hfits.2) (trim_join fun domain hd => ?_)) .nil
      rw [h.domains, domainsFrom_eq_list] at hd
      obtain ⟨hne, htrim, hcomma, -⟩ := mem_list hd
      exact ⟨hne, htrim, hcomma⟩
  have hlast := sets_keyMaterialLines h hsuffix
  have hfour : List.Forall₂ (Sets suffix)
      [s!"TENANT_DEFAULT_INSTANCE_{suffix}={tenant.instanceId}",
        s!"TENANT_ISSUER_1_ID_{suffix}={tenant.instanceId}",
        s!"TENANT_ISSUER_1_CRYPTOSUITE_{suffix}={tenant.profile.cryptosuite.text}",
        s!"TENANT_ISSUER_1_DID_METHOD_{suffix}={tenant.profile.didMethod.text}"]
      [(.defaultInstance, trim tenant.instanceId), (.issuer 1 .id, trim tenant.instanceId),
        (.issuer 1 .cryptosuite, tenant.profile.cryptosuite.text),
        (.issuer 1 .didMethod, tenant.profile.didMethod.text)] := by
    refine .cons ?_ (.cons ?_ (.cons ?_ (.cons ?_ .nil)))
    · exact sets_line rfl (by decide +kernel) hsuffix hfits.1
    · exact sets_line (name_issuer_one (by decide +kernel) suffix) (by decide +kernel)
        hsuffix hfits.1
    · exact sets_trimmed (name_issuer_one (by decide +kernel) suffix) (by decide +kernel)
        hsuffix hsuite.1 hsuite.2
    · exact sets_trimmed (name_issuer_one (by decide +kernel) suffix) (by decide +kernel)
        hsuffix hmethod.1 hmethod.2
  exact .cons (sets_token locale h) (List.rel_append (List.rel_append hdomains hfour) hlast)

/-- Whatever its other lines hold, a block sets its tenant's token. -/
theorem token_mem_assignments (locale : Locale) (h : Provisioned values tenant) :
    TenantVariable.token.name (locale.toUpperCase tenant.tenantId) ∈
      (assignments (renderEnvBlock locale tenant)).map Prod.fst := by
  obtain ⟨hone, hread⟩ := sets_token locale h
  have hline : assignments s!"TENANT_TOKEN_{locale.toUpperCase tenant.tenantId}={tenant.token}" =
      [(TenantVariable.token.name (locale.toUpperCase tenant.tenantId), tenant.token)] := by
    have hnewline : ∀ line ∈ [s!"TENANT_TOKEN_{locale.toUpperCase tenant.tenantId}={tenant.token}"],
        '\n' ∉ line.toList := fun line hmem => List.mem_singleton.mp hmem ▸ newline_not_mem hone
    have hsingle := assignments_join hnewline
    rw [List.filterMap_cons, hread] at hsingle
    simpa using hsingle
  have hend : renderEnvBlock locale tenant =
      "\n".intercalate (envBlockLines locale tenant) ++ "\n" ++ "" := by
    rw [String.append_empty]
    rfl
  rw [hend, assignments_append, assignments_intercalate]
  refine List.mem_map_of_mem (f := Prod.fst)
    (a := (TenantVariable.token.name (locale.toUpperCase tenant.tenantId), tenant.token)) ?_
  refine List.mem_append_left _ (List.mem_flatMap.mpr
    ⟨s!"TENANT_TOKEN_{locale.toUpperCase tenant.tenantId}={tenant.token}", ?_, ?_⟩)
  · simp [envBlockLines]
  · rw [hline]
    exact List.mem_singleton_self _

/-- What a block assigns is the tenant's settings, each under its name. -/
theorem assignments_renderEnvBlock (h : Provisioned values tenant) (hfits : Fits tenant) :
    assignments (renderEnvBlock locale tenant) =
      named (locale.toUpperCase tenant.tenantId) (settings tenant) := by
  obtain ⟨lines, hlines, hsets⟩ := sets_envBlockLines locale h hfits
  obtain ⟨hread, hone⟩ := assignments_of_sets hsets
  have hcomment : isOneLine
      s!"# Tenant \"{tenant.tenantId}\" — profile {tenant.profile.id} — {tenant.did}" = true := by
    have htenantId : isOneLine tenant.tenantId = true :=
      isOneLine_iff.mpr fun c hc => (nameChar_plain (isNameChar_of_isLowerNameChar
        ((toNameChars locale h.tenantName).1 c hc))).2.1
    have hprofile : ∀ profile ∈ profiles, isOneLine profile.id = true := by decide
    simp only [toString, isOneLine_append, htenantId, hprofile _ h.profile, h.did]
    decide
  have hall : ∀ line ∈ envBlockLines locale tenant, '\n' ∉ line.toList := by
    intro line hline
    rw [hlines, List.mem_cons] at hline
    rcases hline with rfl | hline
    · exact newline_not_mem hcomment
    · exact newline_not_mem (hone line hline)
  have hend : renderEnvBlock locale tenant =
      "\n".intercalate (envBlockLines locale tenant) ++ "\n" ++ "" := by
    rw [String.append_empty]
    rfl
  rw [hend, assignments_append, assignments_join hall, assignments_empty, List.append_nil, hlines,
    List.filterMap_cons, parseLine_comment (by simp [toString]), hread]

end

end Provisioning

end VcalmStatus
