import VcalmStatus.Cli.Append

/-!
Tenants of one environment keep apart. A variable of the convention shows whose it is, for every two
names that can be provisioned and whatever these have in common with each other or with the names of
the fields, so what the others' variables hold has no part in what a tenant is read as.
-/

namespace VcalmStatus

open Js Effects TenantsEnv

namespace Provisioning

variable {locale : Locale} {env env' : ProcessEnv} {tenantId key : String}

/-- The variable is one the convention makes for the tenant, or defines the tenant in another
spelling. -/
def BelongsTo (locale : Locale) (tenantId key : String) : Prop :=
  (∃ v : TenantVariable, key = v.name (locale.toUpperCase tenantId)) ∨
    isTokenKey key = true ∧ tenantIdFromTokenKey locale key = tenantId

theorem toUpperCase_inj {other : String} (h : isTenantName tenantId = true)
    (hother : isTenantName other = true)
    (hsame : locale.toUpperCase tenantId = locale.toUpperCase other) : tenantId = other := by
  rw [← toLowerCase_suffix locale h, hsame, toLowerCase_suffix locale hother]

/-- A name of the convention that defines a tenant defines the one it was made for. -/
theorem tenantId_of_name {v : TenantVariable} (h : isTenantName tenantId = true)
    (htoken : isTokenKey (v.name (locale.toUpperCase tenantId)) = true) :
    tenantIdFromTokenKey locale (v.name (locale.toUpperCase tenantId)) = tenantId := by
  obtain rfl := isTokenKey_name.mp htoken
  exact tenantIdFromTokenKey_name h

/-- A variable belongs to one tenant. -/
theorem BelongsTo.unique {other : String} (h : isTenantName tenantId = true)
    (hother : isTenantName other = true) (hkey : BelongsTo locale tenantId key)
    (hkey' : BelongsTo locale other key) : tenantId = other := by
  obtain ⟨v, rfl⟩ | ⟨htoken, hid⟩ := hkey
  · obtain ⟨w, hname⟩ | ⟨htoken, hid'⟩ := hkey'
    · exact toUpperCase_inj h hother (TenantVariable.name_inj hname).2
    · rw [← hid', tenantId_of_name h htoken]
  · obtain ⟨w, rfl⟩ | ⟨-, hid'⟩ := hkey'
    · rw [← hid, tenantId_of_name hother htoken]
    · rw [← hid, hid']

/-- The environments hold the same in the variables of the tenant. -/
def AgreeOn (locale : Locale) (tenantId : String) (env env' : ProcessEnv) : Prop :=
  ∀ key, BelongsTo locale tenantId key → env.get? key = env'.get? key

/-- The entries that define the tenant are the same, in whatever order. -/
theorem AgreeOn.ownEntries_perm (h : AgreeOn locale tenantId env env') :
    ((tokenEntries env).filter (defines locale tenantId)).Perm
      ((tokenEntries env').filter (defines locale tenantId)) := by
  have hnodup : ∀ e : ProcessEnv,
      ((tokenEntries e).filter (defines locale tenantId)).Nodup :=
    fun e => ((List.Nodup.of_map _ e.nodup).filter _).filter _
  refine (List.perm_ext_iff_of_nodup (hnodup env) (hnodup env')).mpr ?_
  rintro ⟨key, value⟩
  simp only [tokenEntries, List.mem_filter, ProcessEnv.mem_entries_iff]
  refine and_congr_left fun hdefines => and_congr_left fun htoken => ?_
  have hown : BelongsTo locale tenantId key := .inr ⟨htoken, by simpa [defines] using hdefines⟩
  rw [h key hown]

/-- A tenant is read from its own variables. -/
theorem AgreeOn.parseTenant_eq (h : AgreeOn locale tenantId env env') {entry : String × String}
    (hentry : defines locale tenantId entry = true) :
    parseTenant locale env entry.1 entry.2 = parseTenant locale env' entry.1 entry.2 := by
  have hid : tenantIdFromTokenKey locale entry.1 = tenantId := by simpa [defines] using hentry
  refine parseTenant_congr fun v _ => ?_
  rw [hid]
  exact h _ (.inl ⟨v, rfl⟩)

theorem AgreeOn.records_perm (h : AgreeOn locale tenantId env env')
    {records records' : List TenantRecord}
    (hparse : parseTenantsFromEnv locale env = .ok records)
    (hparse' : parseTenantsFromEnv locale env' = .ok records') :
    (records.filter (isOwn tenantId)).Perm (records'.filter (isOwn tenantId)) := by
  obtain ⟨tenants, htenants, rfl⟩ := parseTenantsFromEnv_eq_ok_iff.mp hparse
  obtain ⟨tenants', htenants', rfl⟩ := parseTenantsFromEnv_eq_ok_iff.mp hparse'
  have hown := mapM_own htenants tenantId
  have hown' := mapM_own htenants' tenantId
  have hsame : ∀ entry ∈ (tokenEntries env).filter (defines locale tenantId),
      parseTenant locale env entry.1 entry.2 = parseTenant locale env' entry.1 entry.2 :=
    fun entry hentry => h.parseTenant_eq (List.mem_filter.mp hentry).2
  rw [mapM_congr hsame] at hown
  have hperm := mapM_perm hown hown' h.ownEntries_perm
  exact ((List.perm_insertionSort _ _).filter _).trans
    (hperm.trans ((List.perm_insertionSort _ _).filter _).symm)

/-- No variable belongs to two tenants that can be provisioned, and what a tenant is read as depends
on its own variables alone. -/
theorem tenants_apart (locale : Locale) :
    (∀ tenantId other, isTenantName tenantId = true → isTenantName other = true →
      tenantId ≠ other → ∀ key, ¬(BelongsTo locale tenantId key ∧ BelongsTo locale other key)) ∧
      ∀ env env' records records' tenantId, parseTenantsFromEnv locale env = .ok records →
        parseTenantsFromEnv locale env' = .ok records' → AgreeOn locale tenantId env env' →
        (records.filter fun record => record.tenantId = tenantId).Perm
          (records'.filter fun record => record.tenantId = tenantId) :=
  ⟨fun _ _ h hother hne _ hkey => hne (hkey.1.unique h hother hkey.2),
    fun _ _ _ _ _ hparse hparse' hagree => hagree.records_perm hparse hparse'⟩

/-- `acme` beside a tenant whose name ends in a field's name and `acme`. -/
def acmeEnv : ProcessEnv := ProcessEnv.empty.set "TENANT_TOKEN_ACME" "acme-token"

theorem tenants_apart_url_acme :
    (∀ key, ¬(BelongsTo asciiLocale "acme" key ∧ BelongsTo asciiLocale "url_acme" key)) ∧
      [(⟨"acme", ["acme-token"], [], none, none⟩ : TenantRecord)].Perm
        ([⟨"acme", ["acme-token"], [], none, none⟩, ⟨"url_acme", ["other"], [], none, none⟩].filter
          fun record => record.tenantId = "acme") := by
  have happart := (tenants_apart asciiLocale).1 "acme" "url_acme" (by decide) (by decide)
    (by decide)
  refine ⟨happart, ?_⟩
  refine (tenants_apart asciiLocale).2 acmeEnv (acmeEnv.set "TENANT_TOKEN_URL_ACME" "other")
    [⟨"acme", ["acme-token"], [], none, none⟩] _ "acme" (by decide +kernel) (by decide +kernel) ?_
  intro key hkey
  refine (ProcessEnv.get?_set_of_ne acmeEnv "other" fun hname => happart key ⟨hkey, ?_⟩).symm
  exact .inr ⟨by rw [hname]; decide, by rw [hname]; decide +kernel⟩

end Provisioning

end VcalmStatus
