import VcalmStatus.Services.Accepted

/-!
A variable that is declared and left blank. Domains and the fields of instances then read as if the
variable were not there. A blank default does not: it is stored as the empty id, which the resolver
takes for the name of an instance.
-/

namespace VcalmStatus

open Js Effects

namespace TenantsEnv

variable {locale : Locale} {env : ProcessEnv} {suffix : String}

/-- The environment has the variable, and nothing but white space in it. -/
def Blank (env : ProcessEnv) (key : String) : Prop :=
  ∃ text, env.get? key = some text ∧ trim text = ""

theorem list_blank {text : String} (h : trim text = "") : list (some text) = [] := by
  have hcomma : ',' ∉ text.toList := by
    intro hmem
    have hspace := trim_eq_empty_iff.mp h _ hmem
    exact absurd hspace (by decide)
  simp [list, split_of_not_mem hcomma, h]

variable {v : TenantVariable}

theorem instanceField_unset (hblank : Blank env (v.name suffix)) (suffix' : String) (n : Nat) :
    instanceField (env.unset (v.name suffix)) suffix' n = instanceField env suffix' n := by
  funext field
  rw [instanceField_eq, instanceField_eq]
  by_cases hname : (TenantVariable.issuer n field).name suffix' = v.name suffix
  · obtain ⟨text, hget, htrim⟩ := hblank
    rw [hname, ProcessEnv.get?_unset_self, hget, Option.map_some, htrim]
    rfl
  · rw [ProcessEnv.get?_unset_of_ne env hname]

theorem domainsOf_unset (hblank : Blank env (v.name suffix)) (suffix' : String) :
    domainsOf (env.unset (v.name suffix)) suffix' = domainsOf env suffix' := by
  rw [domainsOf, domainsOf]
  by_cases hname : TenantVariable.domains.name suffix' = v.name suffix
  · obtain ⟨text, hget, htrim⟩ := hblank
    rw [hname, ProcessEnv.get?_unset_self, hget, list_blank htrim]
    rfl
  · rw [ProcessEnv.get?_unset_of_ne env hname]

/-- The instances do not show that a blank variable is there. -/
theorem parseIssuerInstances_unset (hblank : Blank env (v.name suffix)) (tenantId : String) :
    parseIssuerInstances locale (env.unset (v.name suffix)) tenantId =
      parseIssuerInstances locale env tenantId :=
  parseIssuerInstances_congr fun n => instanceField_unset hblank _ n

/-- What was not read from the variable is read as before. -/
theorem defaultOf_unset_of_ne {suffix' : String}
    (h : ¬(v = .defaultInstance ∧ suffix' = suffix)) :
    defaultOf (env.unset (v.name suffix)) suffix' = defaultOf env suffix' := by
  have hname : TenantVariable.defaultInstance.name suffix' ≠ v.name suffix := by
    intro hname
    obtain ⟨hv, hsuffix⟩ := TenantVariable.name_inj hname
    exact h ⟨hv.symm, hsuffix⟩
  rw [defaultOf, defaultOf, ProcessEnv.get?_unset_of_ne env hname]

theorem tokenEntries_unset (hv : v ≠ .token) :
    tokenEntries (env.unset (v.name suffix)) = tokenEntries env := by
  refine ProcessEnv.filter_unset (fun _ => ?_) env
  rw [Bool.eq_false_iff]
  exact fun htoken => hv (isTokenKey_name.mp htoken)

theorem defaultOf_of_blank
    (hblank : Blank env (TenantVariable.defaultInstance.name suffix)) :
    defaultOf env suffix = some "" := by
  obtain ⟨text, hget, htrim⟩ := hblank
  rw [defaultOf, hget, Option.map_some, htrim]

theorem defaultOf_unset :
    defaultOf (env.unset (TenantVariable.defaultInstance.name suffix)) suffix = none := by
  rw [defaultOf, ProcessEnv.get?_unset_self]
  rfl

/-! ### What a blank default leaves in a record -/

/-- The record with an empty id for its default, where the variable is the default of its tenant. -/
def withEmptyDefault (locale : Locale) (v : TenantVariable) (suffix : String)
    (record : TenantRecord) : TenantRecord :=
  if v = .defaultInstance ∧ locale.toUpperCase record.tenantId = suffix then
    { record with defaultInstanceId := some "" }
  else record

theorem withEmptyDefault_of_not {record : TenantRecord}
    (h : ¬(v = .defaultInstance ∧ locale.toUpperCase record.tenantId = suffix)) :
    withEmptyDefault locale v suffix record = record := if_neg h

theorem withEmptyDefault_eq_self_iff {record : TenantRecord}
    (hdefault : v = .defaultInstance → locale.toUpperCase record.tenantId = suffix →
      record.defaultInstanceId = none) :
    withEmptyDefault locale v suffix record = record ↔
      (v = .defaultInstance → locale.toUpperCase record.tenantId ≠ suffix) := by
  by_cases hown : v = .defaultInstance ∧ locale.toUpperCase record.tenantId = suffix
  · refine iff_of_false (fun h => ?_) fun h => h hown.1 hown.2
    rw [withEmptyDefault, if_pos hown] at h
    have hsome := congrArg TenantRecord.defaultInstanceId h
    rw [hdefault hown.1 hown.2] at hsome
    cases hsome
  · exact iff_of_true (withEmptyDefault_of_not hown) fun hv hsuffix => hown ⟨hv, hsuffix⟩

theorem tenantId_withEmptyDefault (record : TenantRecord) :
    (withEmptyDefault locale v suffix record).tenantId = record.tenantId := by
  unfold withEmptyDefault
  split <;> rfl

/-- Without the variable a tenant is read as with it, but for the default. -/
theorem parseTenant_unset {key value : String} (hblank : Blank env (v.name suffix)) :
    parseTenant locale env key value =
      (parseTenant locale (env.unset (v.name suffix)) key value).map
        (withEmptyDefault locale v suffix) := by
  set tenantId := tenantIdFromTokenKey locale key with htenantId
  set suffix' := locale.toUpperCase tenantId with hsuffix'
  have hinstances : parseIssuerInstances locale (env.unset (v.name suffix)) tenantId =
      parseIssuerInstances locale env tenantId := parseIssuerInstances_unset hblank tenantId
  have hdomains := domainsOf_unset hblank suffix'
  have hdefaultOf : ∀ e : ProcessEnv,
      (e.get? ("TENANT_DEFAULT_INSTANCE_" ++ suffix')).map trim = defaultOf e suffix' :=
    fun _ => rfl
  have hdomainsOf : ∀ e : ProcessEnv,
      list (e.get? ("TENANT_DOMAINS_" ++ suffix')) = domainsOf e suffix' := fun _ => rfl
  unfold parseTenant
  simp only [← htenantId, ← hsuffix', hdefaultOf, hdomainsOf, hinstances, hdomains]
  split
  · rfl
  · cases parseIssuerInstances locale env tenantId with
    | error e => rfl
    | ok issuerInstances =>
        simp only [bind, Except.bind]
        by_cases hown : v = .defaultInstance ∧ suffix' = suffix
        · obtain ⟨rfl, rfl⟩ := hown
          have hempty : unknownDefault (some "") issuerInstances = none :=
            unknownDefault_eq_none_iff.mpr (by simp)
          have hnone : unknownDefault none issuerInstances = none := rfl
          rw [defaultOf_of_blank hblank, defaultOf_unset, hempty, hnone]
          simp [Except.map, withEmptyDefault, ← hsuffix']
        · rw [defaultOf_unset_of_ne hown]
          cases unknownDefault (defaultOf env suffix') issuerInstances with
          | some id => rfl
          | none => exact congrArg Except.ok (withEmptyDefault_of_not hown).symm

/-- What is parsed with a blank variable is what is parsed without it, but for the default. -/
theorem parseTenantsFromEnv_unset (hv : v ≠ .token) (hblank : Blank env (v.name suffix)) :
    parseTenantsFromEnv locale env =
      (parseTenantsFromEnv locale (env.unset (v.name suffix))).map
        (List.map (withEmptyDefault locale v suffix)) := by
  have hmap : ∀ entry ∈ tokenEntries env, parseTenant locale env entry.1 entry.2 =
      (parseTenant locale (env.unset (v.name suffix)) entry.1 entry.2).map
        (withEmptyDefault locale v suffix) := fun _ _ => parseTenant_unset hblank
  rw [parseTenantsFromEnv_eq, parseTenantsFromEnv_eq, tokenEntries_unset hv, mapM_map hmap]
  cases (tokenEntries env).mapM fun entry =>
      parseTenant locale (env.unset (v.name suffix)) entry.1 entry.2 with
  | error e => rfl
  | ok tenants =>
      refine congrArg Except.ok ?_
      refine (List.map_insertionSort _ _ _ _ fun a _ b _ => ?_).symm
      rw [inOrder, inOrder, tenantId_withEmptyDefault, tenantId_withEmptyDefault]

/-- Declaring the variable changes nothing, unless it is the default of a tenant that is read. -/
theorem parse_eq_unset_iff (hv : v ≠ .token) (hblank : Blank env (v.name suffix)) :
    parseTenantsFromEnv locale env = parseTenantsFromEnv locale (env.unset (v.name suffix)) ↔
      (v = .defaultInstance → Accepted locale env → ∀ entry ∈ tokenEntries env,
        locale.toUpperCase (tenantIdFromTokenKey locale entry.1) ≠ suffix) := by
  have hparse : parseTenantsFromEnv locale env =
      (parseTenantsFromEnv locale (env.unset (v.name suffix))).map
        (List.map (withEmptyDefault locale v suffix)) := parseTenantsFromEnv_unset hv hblank
  rw [← exists_parseTenantsFromEnv_iff, hparse]
  cases hunset : parseTenantsFromEnv locale (env.unset (v.name suffix)) with
  | error e => exact iff_of_true rfl fun _ hok => nomatch hok
  | ok records =>
      have hdefault : ∀ record ∈ records, v = .defaultInstance →
          locale.toUpperCase record.tenantId = suffix → record.defaultInstanceId = none := by
        rintro record hmem rfl rfl
        obtain ⟨entry, -, hrecord⟩ := exists_entry_of_mem hunset hmem
        rw [(parseTenant_eq_ok_iff.mp hrecord).2.2.2.2.1, defaultOf_unset]
      have hsame : records.map (withEmptyDefault locale v suffix) = records ↔
          ∀ record ∈ records, v = .defaultInstance →
            locale.toUpperCase record.tenantId ≠ suffix := by
        calc records.map (withEmptyDefault locale v suffix) = records
            ↔ records.map (withEmptyDefault locale v suffix) = records.map id := by
              rw [List.map_id]
          _ ↔ ∀ record ∈ records, withEmptyDefault locale v suffix record = id record :=
              List.map_inj_left
          _ ↔ _ := forall₂_congr fun record hmem =>
              withEmptyDefault_eq_self_iff (hdefault record hmem)
      change Except.ok (records.map _) = Except.ok records ↔ _
      rw [Except.ok.injEq, hsame]
      constructor
      · intro h hdef _ entry hentry
        have htokens : tokenEntries (env.unset (v.name suffix)) = tokenEntries env :=
          tokenEntries_unset hv
        rw [← htokens] at hentry
        obtain ⟨record, hmem, hrecord⟩ := exists_record_of_mem hunset hentry
        rw [← tenantId_of_parseTenant hrecord]
        exact h record hmem hdef
      · intro h record hmem hdef
        obtain ⟨entry, hentry, hrecord⟩ := exists_entry_of_mem hunset hmem
        rw [tokenEntries_unset hv] at hentry
        rw [tenantId_of_parseTenant hrecord]
        exact h hdef ⟨_, rfl⟩ entry hentry

/-! ### What the resolver makes of it -/

/-- No default is set, or a blank one. -/
def NoDefault (env : ProcessEnv) (suffix : String) : Prop :=
  ∀ text, env.get? (TenantVariable.defaultInstance.name suffix) = some text → trim text = ""

/-- Without a default, an instance that is the only one is what a list binds to. -/
def ResolvesAlone (locale : Locale) (env : ProcessEnv) (record : TenantRecord) : Prop :=
  ∀ only, record.issuerInstances = [only] → NoDefault env (locale.toUpperCase record.tenantId) →
    resolveIssuerInstance record = some only

/-- With a default, a list binds to the instance so named. -/
def ResolvesDefault (locale : Locale) (env : ProcessEnv) (record : TenantRecord) : Prop :=
  ∀ text, env.get? (TenantVariable.defaultInstance.name (locale.toUpperCase record.tenantId)) =
    some text → trim text ≠ "" →
      ∃ found ∈ record.issuerInstances, found.id = trim text ∧
        resolveIssuerInstance record = some found

section

variable {records : List TenantRecord} {record : TenantRecord}

theorem resolvesDefault (h : parseTenantsFromEnv locale env = .ok records)
    (hmem : record ∈ records) : ResolvesDefault locale env record := by
  intro text hget hne
  obtain ⟨entry, -, hrecord⟩ := exists_entry_of_mem h hmem
  obtain ⟨-, -, -, -, hdefault, hknown, -⟩ := parseTenant_eq_ok_iff.mp hrecord
  have hset : record.defaultInstanceId = some (trim text) := by
    rw [hdefault, defaultOf, hget, Option.map_some]
  obtain ⟨found, hfound, hid⟩ := unknownDefault_eq_none_iff.mp hknown _ hset hne
  have hresolve : resolveIssuerInstance record =
      record.issuerInstances.find? fun candidate => candidate.id = trim text := by
    rw [resolveIssuerInstance, hset]
    rfl
  cases hfind : record.issuerInstances.find? fun candidate => candidate.id = trim text with
  | none => exact absurd hid (by simpa using List.find?_eq_none.mp hfind found hfound)
  | some first =>
      exact ⟨first, List.mem_of_find?_eq_some hfind, by simpa using List.find?_some hfind,
        hresolve.trans hfind⟩

theorem resolvesAlone_iff (h : parseTenantsFromEnv locale env = .ok records)
    (hmem : record ∈ records) :
    ResolvesAlone locale env record ↔
      ¬(Blank env (TenantVariable.defaultInstance.name (locale.toUpperCase record.tenantId)) ∧
        IsGreatest (numbered env (locale.toUpperCase record.tenantId)) 1) := by
  obtain ⟨entry, -, hrecord⟩ := exists_entry_of_mem h hmem
  obtain ⟨-, -, -, hinstances, hdefault, -, -⟩ := parseTenant_eq_ok_iff.mp hrecord
  have hlength := length_isGreatest hinstances
  constructor
  · rintro halone ⟨hblank, hone⟩
    obtain ⟨only, honly⟩ := List.length_eq_one_iff.mp (hlength.unique hone)
    have hempty : record.defaultInstanceId = some "" := by
      rw [hdefault, defaultOf_of_blank hblank]
    have hnodefault : NoDefault env (locale.toUpperCase record.tenantId) := by
      intro text hget
      obtain ⟨text', hget', htrim⟩ := hblank
      rwa [Option.some.inj (hget.symm.trans hget')]
    -- The empty id is looked for among ids that are not empty.
    have hresolve := halone only honly hnodefault
    rw [resolveIssuerInstance, hempty, honly] at hresolve
    have hid : only.id = "" := by simpa using List.find?_some hresolve
    obtain ⟨n, -, -, hn⟩ := (exists_id_iff hinstances).mp ⟨only, by simp [honly], hid⟩
    exact (instanceField_spec hn).2 rfl
  · intro hnot only honly hnodefault
    have hone : IsGreatest (numbered env (locale.toUpperCase record.tenantId)) 1 := by
      rw [honly] at hlength
      exact hlength
    have hnone : record.defaultInstanceId = none := by
      rw [hdefault, defaultOf, Option.map_eq_none_iff, Option.eq_none_iff_forall_ne_some]
      intro text hget
      exact hnot ⟨⟨text, hget, hnodefault text hget⟩, hone⟩
    rw [resolveIssuerInstance, hnone, honly]
    rfl

end

/-- A tenant with one instance, and what it declares besides. -/
def declaring (key text : String) (h : key ∉ ["TENANT_TOKEN_ACME", "TENANT_ISSUER_1_ID_ACME"]) :
    ProcessEnv where
  entries := [("TENANT_TOKEN_ACME", "acme-token"), ("TENANT_ISSUER_1_ID_ACME", "default"),
    (key, text)]
  nodup := by
    simp only [List.mem_cons, List.not_mem_nil, or_false, not_or] at h
    simp [h.1, h.2, eq_comm]

/-- A default that is declared and left empty takes the tenant's only instance away from it. -/
theorem empty_default_unresolved :
    parseTenantsFromEnv asciiLocale (declaring "TENANT_DEFAULT_INSTANCE_ACME" "" (by decide)) ≠
        parseTenantsFromEnv asciiLocale
          ((declaring "TENANT_DEFAULT_INSTANCE_ACME" "" (by decide)).unset
            "TENANT_DEFAULT_INSTANCE_ACME") ∧
      ∃ record only, parseTenantsFromEnv asciiLocale
          (declaring "TENANT_DEFAULT_INSTANCE_ACME" "" (by decide)) = .ok [record] ∧
        record.issuerInstances = [only] ∧ resolveIssuerInstance record = none := by
  refine ⟨by decide +kernel, ?_⟩
  refine ⟨⟨"acme", ["acme-token"], [⟨"default", .eddsaRdfc2022, .key, none, none, some "acme", none,
    none⟩], some "", none⟩, _, ?_, rfl, by decide⟩
  decide +kernel

/-- A variable that is blank is read as one that is not there exactly where it is not the default of
a tenant that is read. An only instance is found without a default exactly where none is declared
blank, and a default that is set is always found. -/
theorem blank_reads_as_unset_iff (locale : Locale) (env : ProcessEnv) :
    (∀ (v : TenantVariable) (suffix : String), v ≠ .token → Blank env (v.name suffix) →
      (parseTenantsFromEnv locale env = parseTenantsFromEnv locale (env.unset (v.name suffix)) ↔
        (v = .defaultInstance → Accepted locale env → ∀ entry ∈ tokenEntries env,
          locale.toUpperCase (tenantIdFromTokenKey locale entry.1) ≠ suffix))) ∧
      ∀ records record, parseTenantsFromEnv locale env = .ok records → record ∈ records →
        (ResolvesAlone locale env record ↔
          ¬(Blank env (TenantVariable.defaultInstance.name (locale.toUpperCase record.tenantId)) ∧
            IsGreatest (numbered env (locale.toUpperCase record.tenantId)) 1)) ∧
        ResolvesDefault locale env record :=
  ⟨fun _ _ hv hblank => parse_eq_unset_iff hv hblank,
    fun _ _ h hmem => ⟨resolvesAlone_iff h hmem, resolvesDefault h hmem⟩⟩

theorem blank_domains_read_as_unset :
    parseTenantsFromEnv asciiLocale (declaring "TENANT_DOMAINS_ACME" " " (by decide)) =
      parseTenantsFromEnv asciiLocale
        ((declaring "TENANT_DOMAINS_ACME" " " (by decide)).unset "TENANT_DOMAINS_ACME") :=
  ((blank_reads_as_unset_iff asciiLocale _).1 .domains "ACME" nofun
    ⟨" ", by decide, by decide⟩).mpr nofun

end TenantsEnv

end VcalmStatus
