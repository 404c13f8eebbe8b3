import VcalmStatus.Services.InstanceRun

/-!
Which environments the registry accepts. Every token variable has to give a tenant, and it gives one
where it holds a token, no instance of the tenant's run is at fault, and a default that is set names
an instance of the run.
-/

namespace VcalmStatus

open Js Effects

namespace TenantsEnv

variable {locale : Locale} {env : ProcessEnv} {tenantId suffix key value : String}

/-! ### The instances of a tenant -/

/-- The outcome belongs to the longest run of numbers with ids. -/
theorem exists_runOutcome (locale : Locale) (env : ProcessEnv) (tenantId : String) :
    ∃ k, IsGreatest (numbered env (locale.toUpperCase tenantId)) k ∧
      RunOutcome env (locale.toUpperCase tenantId) k (parseIssuerInstances locale env tenantId) := by
  obtain ⟨k, hk⟩ := exists_isGreatest_numbered env (locale.toUpperCase tenantId)
  exact ⟨k, hk, runOutcome_of_loop hk (parseIssuerInstances_eq_iff.mp rfl)⟩

theorem numbered_of_le {k n : Nat} (hk : k ∈ numbered env suffix) (h : n ≤ k) :
    n ∈ numbered env suffix := fun m hm hmn => hk m hm (hmn.trans h)

theorem exists_parseIssuerInstances_iff :
    (∃ instances, parseIssuerInstances locale env tenantId = .ok instances) ↔
      ∀ n ∈ numbered env (locale.toUpperCase tenantId), 1 ≤ n →
        ¬Fault env (locale.toUpperCase tenantId) n := by
  obtain ⟨k, hk, houtcome⟩ := exists_runOutcome locale env tenantId
  cases hr : parseIssuerInstances locale env tenantId with
  | ok instances =>
      rw [hr] at houtcome
      exact iff_of_true ⟨instances, rfl⟩ fun n hn hn1 => houtcome.2 n hn1 (hk.2 hn)
  | error e =>
      rw [hr] at houtcome
      obtain ⟨n, hn1, hnk, hfault⟩ := houtcome
      refine iff_of_false nofun fun h => ?_
      exact h n (numbered_of_le hk.1 hnk) hn1 hfault

theorem length_isGreatest {instances : List IssuerInstance}
    (h : parseIssuerInstances locale env tenantId = .ok instances) :
    IsGreatest (numbered env (locale.toUpperCase tenantId)) instances.length := by
  obtain ⟨k, hk, houtcome⟩ := exists_runOutcome locale env tenantId
  rw [h] at houtcome
  obtain rfl : k = instances.length := by simpa using houtcome.1.number
  exact hk

/-- The ids of the instances are those of the run. -/
theorem exists_id_iff {instances : List IssuerInstance} {id : String}
    (h : parseIssuerInstances locale env tenantId = .ok instances) :
    (∃ found ∈ instances, found.id = id) ↔
      ∃ n ∈ numbered env (locale.toUpperCase tenantId), 1 ≤ n ∧
        instanceField env (locale.toUpperCase tenantId) n .id = some id := by
  obtain ⟨k, hk, houtcome⟩ := exists_runOutcome locale env tenantId
  rw [h] at houtcome
  obtain ⟨hs, -⟩ := houtcome
  have hlength : k = instances.length := by simpa using hs.number
  constructor
  · rintro ⟨found, hmem, rfl⟩
    obtain ⟨i, hi⟩ := List.mem_iff_getElem?.mp hmem
    obtain ⟨hlt, -⟩ := List.getElem?_eq_some_iff.mp hi
    exact ⟨i + 1, numbered_of_le hk.1 (by omega), by omega, (hs.each hi).id⟩
  · rintro ⟨n, hn, hn1, hid⟩
    obtain ⟨found, hget, hread⟩ := hs.exists_get hn1 (Nat.lt_succ_of_le (hk.2 hn))
    rw [hread.id, Option.some.injEq] at hid
    exact ⟨found, List.mem_of_getElem? hget, hid⟩

/-- Every instance is read from a number of the run. -/
theorem exists_readFrom {instances : List IssuerInstance} {found : IssuerInstance}
    (h : parseIssuerInstances locale env tenantId = .ok instances) (hmem : found ∈ instances) :
    ∃ n, ReadFrom (instanceField env (locale.toUpperCase tenantId) n) found := by
  obtain ⟨k, -, houtcome⟩ := exists_runOutcome locale env tenantId
  rw [h] at houtcome
  obtain ⟨i, hi⟩ := List.mem_iff_getElem?.mp hmem
  exact ⟨i + 1, houtcome.1.each hi⟩

/-! ### Tenants -/

/-- What the variables of a tenant have to say for its token variable to give a record. -/
structure TenantAccepted (locale : Locale) (env : ProcessEnv) (key value : String) : Prop where
  tokens : list (some value) ≠ []
  noFault : ∀ n ∈ numbered env (locale.toUpperCase (tenantIdFromTokenKey locale key)), 1 ≤ n →
    ¬Fault env (locale.toUpperCase (tenantIdFromTokenKey locale key)) n
  known : ∀ id, defaultOf env (locale.toUpperCase (tenantIdFromTokenKey locale key)) = some id →
    id ≠ "" → ∃ n ∈ numbered env (locale.toUpperCase (tenantIdFromTokenKey locale key)), 1 ≤ n ∧
      instanceField env (locale.toUpperCase (tenantIdFromTokenKey locale key)) n .id = some id

theorem unknownDefault_eq_none_iff {defaultInstanceId : Option String}
    {instances : List IssuerInstance} :
    unknownDefault defaultInstanceId instances = none ↔
      ∀ id, defaultInstanceId = some id → id ≠ "" → ∃ found ∈ instances, found.id = id := by
  unfold unknownDefault
  cases defaultInstanceId with
  | none => simp
  | some id => by_cases hid : id = "" <;> simp [hid]

theorem exists_parseTenant_iff :
    (∃ record, parseTenant locale env key value = .ok record) ↔
      TenantAccepted locale env key value := by
  constructor
  · rintro ⟨record, h⟩
    obtain ⟨hid, htokens, hne, hinstances, hdefault, hknown, -⟩ := parseTenant_eq_ok_iff.mp h
    rw [hid] at hinstances hdefault
    rw [hdefault, unknownDefault_eq_none_iff] at hknown
    exact ⟨htokens ▸ hne, exists_parseIssuerInstances_iff.mp ⟨_, hinstances⟩,
      fun id hset hne => (exists_id_iff hinstances).mp (hknown id hset hne)⟩
  · rintro ⟨htokens, hfault, hknown⟩
    obtain ⟨instances, hinstances⟩ := exists_parseIssuerInstances_iff.mpr hfault
    set suffix := locale.toUpperCase (tenantIdFromTokenKey locale key)
    let record : TenantRecord :=
      { tenantId := tenantIdFromTokenKey locale key
        tokens := list (some value)
        issuerInstances := instances
        defaultInstanceId := defaultOf env suffix
        authorizedDomains :=
          if domainsOf env suffix = [] then none else some (domainsOf env suffix) }
    have hdefault : unknownDefault record.defaultInstanceId instances = none :=
      unknownDefault_eq_none_iff.mpr fun id hset hne =>
        (exists_id_iff hinstances).mpr (hknown id hset hne)
    exact ⟨record, parseTenant_eq_ok_iff.mpr
      ⟨rfl, rfl, htokens, hinstances, rfl, hdefault, rfl⟩⟩

/-- Every token variable gives a tenant. -/
def Accepted (locale : Locale) (env : ProcessEnv) : Prop :=
  ∀ entry ∈ tokenEntries env, TenantAccepted locale env entry.1 entry.2

theorem exists_parseTenantsFromEnv_iff :
    (∃ records, parseTenantsFromEnv locale env = .ok records) ↔ Accepted locale env := by
  simp only [Accepted, ← exists_parseTenant_iff]
  constructor
  · rintro ⟨records, h⟩ entry hentry
    obtain ⟨tenants, htenants, -⟩ := parseTenantsFromEnv_eq_ok_iff.mp h
    exact exists_of_mapM_eq_ok htenants hentry
  · intro h
    obtain ⟨tenants, htenants⟩ := exists_mapM_eq_ok h
    exact ⟨_, parseTenantsFromEnv_eq_ok_iff.mpr ⟨tenants, htenants, rfl⟩⟩

end TenantsEnv

end VcalmStatus
