import VcalmStatus.Cli.Reading
import VcalmStatus.Services.ReadAlike

/-!
Assignments after those of an environment. The tenants that are read are those from before with one
tenant's record in the place of its old ones exactly where the assignments by themselves say the same
of that tenant, and the environment says of the others what it said before them.
-/

namespace VcalmStatus

open Js Effects TenantsEnv EnvFile

namespace Provisioning

variable {locale : Locale} {env env' : ProcessEnv} {tenantId other token : String}
  {records records' : List TenantRecord}

/-! ### The records of one tenant -/

/-- The record belongs to the tenant. -/
def isOwn (tenantId : String) (record : TenantRecord) : Bool := record.tenantId = tenantId

theorem defines_eq_isOwn {entry : String × String} {record : TenantRecord}
    (h : parseTenant locale env entry.1 entry.2 = .ok record) :
    defines locale tenantId entry = isOwn tenantId record := by
  rw [defines, isOwn, tenantId_of_parseTenant h]

/-- What the entries of a tenant give are the tenant's records. -/
theorem mapM_own (h : (tokenEntries env).mapM (fun e => parseTenant locale env e.1 e.2) = .ok records)
    (tenantId : String) :
    ((tokenEntries env).filter (defines locale tenantId)).mapM
      (fun e => parseTenant locale env e.1 e.2) = .ok (records.filter (isOwn tenantId)) :=
  mapM_filter h fun hrecord => defines_eq_isOwn hrecord

/-- The tokens of each variable that defines the tenant. -/
def tokenLists (locale : Locale) (env : ProcessEnv) (tenantId : String) : List (List String) :=
  ((tokenEntries env).filter (defines locale tenantId)).map fun entry => list (some entry.2)

theorem tokenLists_perm (h : parseTenantsFromEnv locale env = .ok records) (tenantId : String) :
    (tokenLists locale env tenantId).Perm ((records.filter (isOwn tenantId)).map (·.tokens)) := by
  obtain ⟨tenants, htenants, rfl⟩ := parseTenantsFromEnv_eq_ok_iff.mp h
  have hmap : tokenLists locale env tenantId =
      (tenants.filter (isOwn tenantId)).map (·.tokens) := by
    have hall := mapM_eq_ok_iff.mp (mapM_own htenants tenantId)
    have hlists : List.Forall₂ Eq (tokenLists locale env tenantId)
        ((tenants.filter (isOwn tenantId)).map (·.tokens)) := by
      rw [tokenLists, List.forall₂_map_left_iff, List.forall₂_map_right_iff]
      exact hall.imp fun entry record hrecord => (parseTenant_eq_ok_iff.mp hrecord).2.1.symm
    rwa [List.forall₂_eq_eq_eq] at hlists
  rw [hmap]
  exact ((List.perm_insertionSort _ tenants).symm.filter _).map _

/-- Two records of a tenant differ in their tokens at most. -/
theorem record_eq_of_alike {key value key' value' : String} {record record' : TenantRecord}
    (h : parseTenant locale env key value = .ok record)
    (h' : parseTenant locale env' key' value' = .ok record')
    (hid : record'.tenantId = record.tenantId)
    (halike : ReadAlike locale record.tenantId env env') :
    record' = { record with tokens := record'.tokens } := by
  obtain ⟨hkey', htokens', hne', -⟩ := parseTenant_eq_ok_iff.mp h'
  obtain ⟨hkey, -, -, hrest⟩ := parseTenant_eq_ok_iff.mp h
  have hread : parseTenant locale env key value' =
      .ok { record with tokens := record'.tokens } :=
    parseTenant_eq_ok_iff.mpr ⟨hkey, htokens', hne', hrest⟩
  have hread' := (parseTenant_alike_iff hread).mpr ⟨hkey'.symm.trans hid, htokens'.symm, halike⟩
  exact Except.ok.inj (h'.symm.trans hread')

/-- A record of the tenant comes from a variable. -/
theorem exists_parseTenant_of_own {record : TenantRecord}
    (h : parseTenantsFromEnv locale env = .ok records)
    (hrecord : record ∈ records.filter (isOwn tenantId)) :
    record.tenantId = tenantId ∧
      ∃ key value, parseTenant locale env key value = .ok record := by
  obtain ⟨hmem, hown⟩ := List.mem_filter.mp hrecord
  obtain ⟨entry, -, hparse⟩ := exists_entry_of_mem h hmem
  exact ⟨by simpa [isOwn] using hown, _, _, hparse⟩

/-- Where an environment says the same of the tenant of a record, its records of the tenant are that
record with tokens of their own. -/
theorem own_eq_map {key value : String} {record : TenantRecord}
    (hparse : parseTenant locale env key value = .ok record)
    (h : parseTenantsFromEnv locale env' = .ok records)
    (halike : ReadAlike locale record.tenantId env env') :
    records.filter (isOwn record.tenantId) =
      ((records.filter (isOwn record.tenantId)).map (·.tokens)).map
        fun tokens => { record with tokens } := by
  rw [List.map_map]
  refine (List.map_id _).symm.trans (List.map_congr_left fun found hfound => ?_)
  obtain ⟨hid, key', value', hparse'⟩ := exists_parseTenant_of_own h hfound
  exact record_eq_of_alike hparse hparse' hid halike

/-- What is read of a tenant is the same in both environments. -/
structure Kept (locale : Locale) (tenantId : String) (env env' : ProcessEnv) : Prop where
  tokens : (tokenLists locale env tenantId).Perm (tokenLists locale env' tenantId)
  alike : tokenLists locale env tenantId ≠ [] → ReadAlike locale tenantId env env'

theorem own_perm_iff (h : parseTenantsFromEnv locale env = .ok records)
    (h' : parseTenantsFromEnv locale env' = .ok records') :
    (records.filter (isOwn tenantId)).Perm (records'.filter (isOwn tenantId)) ↔
      Kept locale tenantId env env' := by
  have hlists := tokenLists_perm h tenantId
  have hlists' := tokenLists_perm h' tenantId
  constructor
  · intro hperm
    refine ⟨hlists.trans ((hperm.map _).trans hlists'.symm), fun hne => ?_⟩
    obtain ⟨record, hrecord⟩ : ∃ record, record ∈ records.filter (isOwn tenantId) := by
      refine List.exists_mem_of_ne_nil _ fun hnil => hne ?_
      rw [hnil] at hlists
      exact hlists.eq_nil
    obtain ⟨rfl, key, value, hparse⟩ := exists_parseTenant_of_own h hrecord
    obtain ⟨-, key', value', hparse'⟩ :=
      exists_parseTenant_of_own h' (hperm.mem_iff.mp hrecord)
    exact ((parseTenant_alike_iff hparse).mp hparse').2.2
  · rintro ⟨htokens, halike⟩
    have hmaps := hlists.symm.trans (htokens.trans hlists')
    by_cases hnil : records.filter (isOwn tenantId) = []
    · rw [hnil] at hmaps ⊢
      rw [List.map_eq_nil_iff.mp hmaps.symm.eq_nil]
    · obtain ⟨record, hrecord⟩ := List.exists_mem_of_ne_nil _ hnil
      obtain ⟨rfl, key, value, hparse⟩ := exists_parseTenant_of_own h hrecord
      have hsame : ReadAlike locale record.tenantId env env' := by
        refine halike fun hempty => hnil ?_
        rw [hempty] at hlists
        exact List.map_eq_nil_iff.mp hlists.symm.eq_nil
      have hself : ReadAlike locale record.tenantId env env :=
        ((parseTenant_alike_iff hparse).mp hparse).2.2
      rw [own_eq_map hparse h hself, own_eq_map hparse h' hsame]
      exact hmaps.map _

/-! ### One tenant in the place of its old records -/

/-- The new records are the tenant's own, `own`, and for every other tenant what it was. -/
structure Replaces (tenantId : String) (own : TenantRecord) (old new : List TenantRecord) :
    Prop where
  own : new.filter (isOwn tenantId) = [own]
  others : (new.filter fun record => !isOwn tenantId record).Perm
    (old.filter fun record => !isOwn tenantId record)

theorem others_perm_iff {old new : List TenantRecord} :
    (new.filter fun record => !isOwn tenantId record).Perm
        (old.filter fun record => !isOwn tenantId record) ↔
      ∀ other, other ≠ tenantId → (old.filter (isOwn other)).Perm (new.filter (isOwn other)) := by
  constructor
  · intro hperm other hne
    have hothers : ∀ records : List TenantRecord,
        (records.filter fun record => !isOwn tenantId record).filter (isOwn other) =
          records.filter (isOwn other) := by
      intro records
      rw [List.filter_filter]
      refine List.filter_congr fun record _ => ?_
      by_cases hown : record.tenantId = other <;> simp [isOwn, hown, hne]
    have hfiltered := hperm.symm.filter (isOwn other)
    rwa [hothers, hothers] at hfiltered
  · intro hall
    refine List.perm_iff_count.mpr fun record => ?_
    by_cases hown : record.tenantId = tenantId
    · have hzero : ∀ records : List TenantRecord,
          (records.filter fun record => !isOwn tenantId record).count record = 0 := by
        intro records
        refine List.count_eq_zero.mpr fun hmem => ?_
        simpa [isOwn, hown] using (List.mem_filter.mp hmem).2
      rw [hzero, hzero]
    · rw [List.count_filter (by simp [isOwn, hown]), List.count_filter (by simp [isOwn, hown])]
      have hcount := (hall record.tenantId hown).count_eq record
      rw [List.count_filter (by simp [isOwn]), List.count_filter (by simp [isOwn])] at hcount
      exact hcount.symm

/-- A record is all that is read of the tenant where it is what the tenant's own name gives, and no
other name defines the tenant. -/
theorem own_eq_singleton_iff (h : isTenantName tenantId = true)
    (htoken : env.get? (TenantVariable.token.name (locale.toUpperCase tenantId)) = some token)
    (hparse : parseTenantsFromEnv locale env = .ok records) {record : TenantRecord} :
    records.filter (isOwn tenantId) = [record] ↔
      DefinedOnce locale env tenantId ∧
        parseTenant locale env (TenantVariable.token.name (locale.toUpperCase tenantId)) token =
          .ok record := by
  obtain ⟨tenants, htenants, rfl⟩ := parseTenantsFromEnv_eq_ok_iff.mp hparse
  have hperm := (List.perm_insertionSort (fun a b => inOrder locale a b) tenants).filter
    (isOwn tenantId)
  have hown := mapM_eq_ok_iff.mp (mapM_own htenants tenantId)
  constructor
  · intro hsingle
    rw [hsingle] at hperm
    rw [(List.singleton_perm.mp hperm).symm] at hown
    cases hentries : (tokenEntries env).filter (defines locale tenantId) with
    | nil => simp [hentries] at hown
    | cons entry rest =>
        rw [hentries] at hown
        cases hown with
        | cons hentry hrest =>
            cases hrest
            have hmem := ownEntry_mem h htoken
            rw [hentries, List.mem_singleton] at hmem
            subst hmem
            exact ⟨(ownEntries_eq_iff h htoken).mp hentries, hentry⟩
  · rintro ⟨honce, hentry⟩
    rw [(ownEntries_eq_iff h htoken).mpr honce] at hown
    have hsingle := mapM_eq_ok_iff.mpr (List.Forall₂.cons hentry .nil)
    rw [Except.ok.inj ((mapM_eq_ok_iff.mpr hown).symm.trans hsingle)] at hperm
    exact List.perm_singleton.mp hperm

/-! ### What the assignments have to say -/

/-- The assignments are read by themselves; with them no other name than the tenant's own defines
the tenant, and what was set of it before does not show; and the other tenants are kept. -/
structure ReadsAsReplaced (locale : Locale) (tenantId : String) (old block new : ProcessEnv) :
    Prop where
  accepted : Accepted locale block
  definedOnce : DefinedOnce locale new tenantId
  own : ReadAlike locale tenantId block new
  others : ∀ other, other ≠ tenantId → Kept locale other old new

/-- What a name is assigned does not depend on what it had. -/
theorem get?_assign_eq {assignments : List (String × String)} {key : String}
    (h : key ∈ assignments.map Prod.fst) :
    (env.assign assignments).get? key = (env'.assign assignments).get? key := by
  obtain ⟨value, hvalue⟩ := ProcessEnv.exists_get?_assign h env
  rw [hvalue]
  rw [ProcessEnv.get?_assign_eq_some_iff] at hvalue
  refine (ProcessEnv.get?_assign_eq_some_iff.mpr (.inl ?_)).symm
  exact hvalue.resolve_right fun hnot => hnot.1 h

/-- A tenant that is defined once with assignments over an environment is defined once by them. -/
theorem definedOnce_of_assign {assignments : List (String × String)}
    (h : DefinedOnce locale (env.assign assignments) tenantId) :
    DefinedOnce locale (ProcessEnv.empty.assign assignments) tenantId := by
  rintro ⟨key, value⟩ hentry hdefines
  obtain ⟨hmem, htoken⟩ := List.mem_filter.mp hentry
  have hassigned : (key, value) ∈ assignments :=
    (ProcessEnv.mem_entries_assign hmem).resolve_left nofun
  have hget : (env.assign assignments).get? key = some value := by
    rw [get?_assign_eq (List.mem_map_of_mem hassigned)]
    exact ProcessEnv.mem_entries_iff.mp hmem
  exact h _ (List.mem_filter.mpr ⟨ProcessEnv.mem_entries_iff.mpr hget, htoken⟩) hdefines

/-- Every token variable gives a record: the tenant's own, and another's as one of its old ones. -/
theorem exists_tenants_of_kept (h : isTenantName tenantId = true) {old new : ProcessEnv}
    {oldRecords : List TenantRecord} (hold : parseTenantsFromEnv locale old = .ok oldRecords)
    {token : String} (hget : new.get? (TenantVariable.token.name (locale.toUpperCase tenantId)) =
      some token) {own : TenantRecord}
    (hentry : parseTenant locale new (TenantVariable.token.name (locale.toUpperCase tenantId)) token =
      .ok own) (honce : DefinedOnce locale new tenantId)
    (hothers : ∀ other, other ≠ tenantId → Kept locale other old new) :
    ∃ tenants, (tokenEntries new).mapM (fun e => parseTenant locale new e.1 e.2) = .ok tenants := by
  refine exists_mapM_eq_ok fun entry hmem => ?_
  by_cases hdefines : defines locale tenantId entry = true
  · have hmem := List.mem_filter.mpr ⟨hmem, hdefines⟩
    rw [(ownEntries_eq_iff h hget).mpr honce, List.mem_singleton] at hmem
    subst hmem
    exact ⟨own, hentry⟩
  · have hne : tenantIdFromTokenKey locale entry.1 ≠ tenantId := by simpa [defines] using hdefines
    obtain ⟨htokens, hkept⟩ := hothers _ hne
    have hlist : list (some entry.2) ∈
        tokenLists locale new (tenantIdFromTokenKey locale entry.1) :=
      List.mem_map_of_mem (List.mem_filter.mpr ⟨hmem, by simp [defines]⟩)
    obtain ⟨entry', hmem', hlist'⟩ := List.mem_map.mp (htokens.symm.mem_iff.mp hlist)
    obtain ⟨hmem', hdefines'⟩ := List.mem_filter.mp hmem'
    obtain ⟨record, -, hrecord⟩ := exists_record_of_mem hold hmem'
    have hid' : record.tenantId = tenantIdFromTokenKey locale entry.1 :=
      (tenantId_of_parseTenant hrecord).trans (by simpa [defines] using hdefines')
    refine ⟨record, (parseTenant_alike_iff hrecord).mpr ⟨hid'.symm, ?_, ?_⟩⟩
    · exact hlist'.symm.trans (parseTenant_eq_ok_iff.mp hrecord).2.1.symm
    · rw [hid']
      exact hkept (List.ne_nil_of_mem (htokens.symm.mem_iff.mp hlist))

/-- With assignments that set the tenant's own token, over whatever environment, the old tenants are
read with the tenant replaced by what the assignments make of it exactly where they read so. -/
theorem replaces_iff (h : isTenantName tenantId = true) {old base : ProcessEnv}
    {assignments : List (String × String)}
    (htoken : TenantVariable.token.name (locale.toUpperCase tenantId) ∈
      assignments.map Prod.fst)
    {oldRecords : List TenantRecord} (hold : parseTenantsFromEnv locale old = .ok oldRecords) :
    (∃ newRecords blockRecords own,
        parseTenantsFromEnv locale (base.assign assignments) = .ok newRecords ∧
        parseTenantsFromEnv locale (ProcessEnv.empty.assign assignments) = .ok blockRecords ∧
        blockRecords.filter (isOwn tenantId) = [own] ∧
        Replaces tenantId own oldRecords newRecords) ↔
      ReadsAsReplaced locale tenantId old (ProcessEnv.empty.assign assignments)
        (base.assign assignments) := by
  set block := ProcessEnv.empty.assign assignments with hblock
  set new := base.assign assignments with hnew
  obtain ⟨token, hget⟩ := ProcessEnv.exists_get?_assign htoken base
  have hgetBlock : block.get? (TenantVariable.token.name (locale.toUpperCase tenantId)) =
      some token := (get?_assign_eq htoken).trans hget
  constructor
  · rintro ⟨newRecords, blockRecords, own, hparse, hparseBlock, hown, hownNew, hothers⟩
    obtain ⟨-, hentryBlock⟩ := (own_eq_singleton_iff h hgetBlock hparseBlock).mp hown
    obtain ⟨honce, hentry⟩ := (own_eq_singleton_iff h hget hparse).mp hownNew
    have halike := ((parseTenant_alike_iff hentryBlock).mp hentry).2.2
    rw [tenantId_of_parseTenant hentryBlock, tenantIdFromTokenKey_name h] at halike
    exact
      { accepted := exists_parseTenantsFromEnv_iff.mp ⟨_, hparseBlock⟩
        definedOnce := honce
        own := halike
        others := fun other hne =>
          (own_perm_iff hold hparse).mp (others_perm_iff.mp hothers other hne) }
  · rintro ⟨haccepted, honce, halike, hothers⟩
    obtain ⟨blockRecords, hparseBlock⟩ := exists_parseTenantsFromEnv_iff.mpr haccepted
    obtain ⟨own, hentryBlock⟩ := exists_parseTenant_iff.mpr
      (haccepted _ (List.mem_filter.mp (ownEntry_mem h hgetBlock)).1)
    have hid : own.tenantId = tenantId :=
      (tenantId_of_parseTenant hentryBlock).trans (tenantIdFromTokenKey_name h)
    have hentry : parseTenant locale new
        (TenantVariable.token.name (locale.toUpperCase tenantId)) token = .ok own := by
      refine (parseTenant_alike_iff hentryBlock).mpr ⟨?_, ?_, hid.symm ▸ halike⟩
      · rw [tenantIdFromTokenKey_name h, hid]
      · exact (parseTenant_eq_ok_iff.mp hentryBlock).2.1.symm
    obtain ⟨tenants, htenants⟩ := exists_tenants_of_kept h hold hget hentry honce hothers
    have hparse := parseTenantsFromEnv_eq_ok_iff.mpr ⟨tenants, htenants, rfl⟩
    refine ⟨_, blockRecords, own, hparse, hparseBlock, ?_, ?_, ?_⟩
    · exact (own_eq_singleton_iff h hgetBlock hparseBlock).mpr
        ⟨definedOnce_of_assign honce, hentryBlock⟩
    · exact (own_eq_singleton_iff h hget hparse).mpr ⟨honce, hentry⟩
    · exact others_perm_iff.mpr fun other hne => (own_perm_iff hold hparse).mpr (hothers other hne)

end Provisioning

end VcalmStatus
