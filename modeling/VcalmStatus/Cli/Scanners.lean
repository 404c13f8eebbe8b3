import VcalmStatus.Cli.Places
import VcalmStatus.Cli.Reading

/-!
What provisioning finds in an env file, against what the service is given of it: the value that is
written first against the one that is assigned last, and one spelling of a tenant's name against
all that the registry folds into it.
-/

namespace VcalmStatus

open Js TenantsEnv

namespace Provisioning

open EnvFile

/-! ### Seeing the same -/

/-- The base URL of an env file: what it gives `PUBLIC_BASE_URL`, without the quotes, where that is
not blank. -/
def readBaseUrl (contents : String) : Option String :=
  (((parseEnvFile contents).get? "PUBLIC_BASE_URL").map unquote).filter fun url => trim url ≠ ""

/-- The env file has a name that the registry takes for the tenant's. -/
def DefinesTenant (locale : Locale) (contents tenantId : String) : Prop :=
  ∃ key ∈ (parseEnvFile contents).entries.map Prod.fst,
    isTokenKey key = true ∧ tenantIdFromTokenKey locale key = tenantId

/-- Provisioning sees the env file the service will. -/
structure SeesReading (locale : Locale) (contents : String) : Prop where
  baseUrl : baseUrlFromEnvFile contents = readBaseUrl contents
  tenants : ∀ raw tenantId, normalizeTenantId locale raw = .ok tenantId →
    (hasTenant locale contents tenantId = true ↔ DefinesTenant locale contents tenantId)

/-! ### The base URL -/

variable {contents : String}

/-- A line of the text assigns this to the name, and no later line assigns to it. -/
def LastAssigned (key contents value : String) : Prop :=
  ∃ before after, assignments contents = before ++ (key, value) :: after ∧
    key ∉ after.map Prod.fst

theorem get?_parseEnvFile_iff {key value : String} :
    (parseEnvFile contents).get? key = some value ↔ LastAssigned key contents value := by
  rw [parseEnvFile, ProcessEnv.get?_assign_eq_some_iff]
  simp [LastAssigned]

/-- What is written first for `PUBLIC_BASE_URL` and what is assigned to it last come to one text
without their quotes, unless neither comes to any. -/
def FirstIsLast (contents : String) : Prop :=
  ∀ url, url ≠ "" →
    ((∃ value, FirstWritten "PUBLIC_BASE_URL" contents value ∧ unquote value = url) ↔
      ∃ value, LastAssigned "PUBLIC_BASE_URL" contents value ∧ unquote value = url ∧
        trim url ≠ "")

theorem isName_publicBaseUrl : IsName "PUBLIC_BASE_URL" := by decide +kernel

theorem baseUrlFromEnvFile_eq_some_iff {url : String} :
    baseUrlFromEnvFile contents = some url ↔
      url ≠ "" ∧ ∃ value, FirstWritten "PUBLIC_BASE_URL" contents value ∧ unquote value = url := by
  rw [baseUrlFromEnvFile, Option.filter_eq_some_iff, Option.map_eq_some_iff, decide_eq_true_eq,
    and_comm]
  refine and_congr_right fun _ => exists_congr fun value => and_congr_left fun _ => ?_
  exact findSome?_eq_some_iff isName_publicBaseUrl

theorem readBaseUrl_eq_some_iff {url : String} :
    readBaseUrl contents = some url ↔ ∃ value,
      LastAssigned "PUBLIC_BASE_URL" contents value ∧ unquote value = url ∧ trim url ≠ "" := by
  rw [readBaseUrl, Option.filter_eq_some_iff, Option.map_eq_some_iff, decide_eq_true_eq]
  simp only [get?_parseEnvFile_iff, ← and_assoc, exists_and_right]

theorem baseUrl_eq_iff : baseUrlFromEnvFile contents = readBaseUrl contents ↔
    FirstIsLast contents := by
  have hempty : trim "" = "" := by decide
  constructor
  · intro heq url hurl
    rw [← readBaseUrl_eq_some_iff, ← heq, baseUrlFromEnvFile_eq_some_iff]
    exact (and_iff_right hurl).symm
  · intro h
    ext url
    rw [baseUrlFromEnvFile_eq_some_iff, readBaseUrl_eq_some_iff]
    constructor
    · rintro ⟨hurl, hfirst⟩
      exact (h url hurl).mp hfirst
    · rintro ⟨value, hlast, hvalue, htrim⟩
      have hurl : url ≠ "" := by
        rintro rfl
        exact htrim hempty
      exact ⟨hurl, (h url hurl).mpr ⟨value, hlast, hvalue, htrim⟩⟩

/-! ### Tenants -/

def Assigns (contents key : String) : Prop := ∃ value, (key, value) ∈ assignments contents

variable {name : String}

/-- The place is an assignment of one line of the file: nothing else stands before the name in its
line, the `=` stands in it as well, and so does all of the value. -/
def Place.OnOneLine (p : Place name contents) : Prop :=
  (∀ c ∈ (p.before ++ p.gap).rtakeWhile fun c => c ≠ '\n', isWhitespace c = true) ∧
    '\n' ∉ p.inner ∧
    isOneLine (trim (String.ofList (p.rest.takeWhile fun c => c ≠ '\n'))) = true

theorem Place.assigns (p : Place name contents) (hname : IsName name) (h : p.OnOneLine) :
    Assigns contents name := by
  obtain ⟨hfront, hinner, hvalue⟩ := h
  set front := (p.before ++ p.gap).rtakeWhile fun c => c ≠ '\n' with hfrontDef
  set value := p.rest.takeWhile fun c => c ≠ '\n' with hvalueDef
  set line := String.ofList (front ++ name.toList ++ (p.inner ++ '=' :: value)) with hlineDef
  have hmem : line ∈ split contents '\n' := by
    refine mem_split_iff.mpr ⟨?_, (p.before ++ p.gap).rdropWhile fun c => c ≠ '\n',
      p.rest.dropWhile fun c => c ≠ '\n', ?_, ?_, ?_⟩
    · rw [hlineDef, String.toList_ofList]
      simp only [List.mem_append, List.mem_cons, not_or]
      refine ⟨⟨fun hnl => ?_, fun hnl => ?_⟩, hinner, by decide, fun hnl => ?_⟩
      · simpa using List.mem_rtakeWhile_imp hnl
      · exact absurd (hname.chars _ hnl) (by decide)
      · simpa using List.mem_takeWhile_imp hnl
    · have hbefore : (p.before ++ p.gap).rdropWhile (fun c => c ≠ '\n') ++ front =
          p.before ++ p.gap := List.rdropWhile_append_rtakeWhile
      have hrest : value ++ p.rest.dropWhile (fun c => c ≠ '\n') = p.rest :=
        List.takeWhile_append_dropWhile
      calc contents.toList
          = (p.before ++ p.gap) ++ name.toList ++ (p.inner ++ '=' :: p.rest) := by
            rw [p.text, List.append_assoc, List.append_assoc, List.append_assoc]
        _ = ((p.before ++ p.gap).rdropWhile (fun c => c ≠ '\n') ++ front) ++ name.toList ++
            (p.inner ++ '=' :: (value ++ p.rest.dropWhile fun c => c ≠ '\n')) := by
            rw [hbefore, hrest]
        _ = (p.before ++ p.gap).rdropWhile (fun c => c ≠ '\n') ++ line.toList ++
            p.rest.dropWhile (fun c => c ≠ '\n') := by
            rw [hlineDef, String.toList_ofList]
            simp only [List.append_assoc, List.cons_append]
    · intro c hc
      obtain ⟨hne, rfl⟩ := List.mem_getLast?_eq_getLast hc
      have hlast := List.rdropWhile_last_not (fun c => decide (c ≠ '\n')) (p.before ++ p.gap) hne
      simpa using hlast
    · intro c hc
      have hhead := List.head?_dropWhile_not (fun c => decide (c ≠ '\n')) p.rest
      rw [Option.mem_def.mp hc] at hhead
      simpa using hhead
  have hline : parseLine line = some (name, trim (String.ofList value)) := by
    refine parseLine_eq_some_iff.mpr ⟨hname, hvalue, front, p.inner, value, ?_, hfront,
      p.white_inner, rfl⟩
    rw [hlineDef, String.toList_ofList]
  exact ⟨_, List.mem_filterMap.mpr ⟨line, hmem, hline⟩⟩

theorem exists_place_of_assigns (h : Assigns contents name) : Nonempty (Place name contents) := by
  obtain ⟨value, hmem⟩ := h
  obtain ⟨line, hline, hparse⟩ := List.mem_filterMap.mp hmem
  obtain ⟨-, -, gap, inner, rest, htext, hgap, hinner, -⟩ := parseLine_eq_some_iff.mp hparse
  obtain ⟨-, before, after, hcontents, hbefore, -⟩ := mem_split_iff.mp hline
  refine ⟨⟨before, gap, inner, rest ++ after, ?_, fun c hc => ?_, hgap, hinner⟩⟩
  · rw [hcontents, htext]
    simp only [List.append_assoc, List.cons_append]
  · rw [hbefore c hc]
    decide

theorem mem_keys_iff {key : String} :
    key ∈ (parseEnvFile contents).entries.map Prod.fst ↔ Assigns contents key := by
  constructor
  · intro h
    obtain ⟨entry, hentry, rfl⟩ := List.mem_map.mp h
    exact ⟨entry.2, (ProcessEnv.mem_entries_assign hentry).resolve_left nofun⟩
  · rintro ⟨value, hmem⟩
    obtain ⟨last, hlast⟩ := ProcessEnv.exists_get?_assign
      (List.mem_map_of_mem hmem) ProcessEnv.empty
    exact ProcessEnv.mem_keys_of_get? hlast

/-- A line assigns to another name that the registry takes for the tenant's. -/
def SpelledOtherwise (locale : Locale) (contents tenantId : String) : Prop :=
  ∃ key, key ≠ "TENANT_TOKEN_" ++ locale.toUpperCase tenantId ∧ Assigns contents key ∧
    isTokenKey key = true ∧ tenantIdFromTokenKey locale key = tenantId

/-- The name in upper case stands at a place that is no assignment of one line. -/
def StandsAstray (locale : Locale) (contents tenantId : String) : Prop :=
  ∃ p : Place ("TENANT_TOKEN_" ++ locale.toUpperCase tenantId) contents, ¬p.OnOneLine

/-- A line assigns to the tenant's name in upper case, or else the name is astray in the text just
where another spelling of it is assigned to. -/
def FoundAsRead (locale : Locale) (contents tenantId : String) : Prop :=
  Assigns contents ("TENANT_TOKEN_" ++ locale.toUpperCase tenantId) ∨
    (StandsAstray locale contents tenantId ↔ SpelledOtherwise locale contents tenantId)

variable {locale : Locale} {tenantId : String}

theorem isName_tenantToken (locale : Locale) {tenantId : String}
    (h : isTenantName tenantId = true) :
    IsName ("TENANT_TOKEN_" ++ locale.toUpperCase tenantId) := by
  have hhead : IsName "TENANT_TOKEN_" := by decide +kernel
  exact isName_append hhead (toNameChars locale h).2

theorem hasTenant_iff_defines (h : isTenantName tenantId = true) :
    (hasTenant locale contents tenantId = true ↔ DefinesTenant locale contents tenantId) ↔
      FoundAsRead locale contents tenantId := by
  have hname := isName_tenantToken locale h
  rw [hasTenant_iff hname]
  by_cases hassigns : Assigns contents ("TENANT_TOKEN_" ++ locale.toUpperCase tenantId)
  · have hdefines : DefinesTenant locale contents tenantId :=
      ⟨_, mem_keys_iff.mpr hassigns, isTokenKey_name.mpr rfl, tenantIdFromTokenKey_name h⟩
    exact iff_of_true (iff_of_true (exists_place_of_assigns hassigns) hdefines) (.inl hassigns)
  · -- No place is an assignment then, and no name that defines the tenant is in upper case.
    have hplaces : Nonempty (Place ("TENANT_TOKEN_" ++ locale.toUpperCase tenantId) contents) ↔
        StandsAstray locale contents tenantId := by
      constructor
      · rintro ⟨p⟩
        exact ⟨p, fun hline => hassigns (p.assigns hname hline)⟩
      · rintro ⟨p, -⟩
        exact ⟨p⟩
    have hspelled : DefinesTenant locale contents tenantId ↔
        SpelledOtherwise locale contents tenantId := by
      constructor
      · rintro ⟨key, hkey, hdefines⟩
        refine ⟨key, ?_, mem_keys_iff.mp hkey, hdefines⟩
        rintro rfl
        exact hassigns (mem_keys_iff.mp hkey)
      · rintro ⟨key, -, hkey, hdefines⟩
        exact ⟨key, mem_keys_iff.mpr hkey, hdefines⟩
    rw [hplaces, hspelled, FoundAsRead, or_iff_right hassigns]

/-- Provisioning sees what the service reads exactly where the base URL that is written first is the
one assigned last and every tenant's name stands in the lines that assign it as it is looked for. -/
theorem scanners_see_reading_iff (locale : Locale) (contents : String) :
    SeesReading locale contents ↔ FirstIsLast contents ∧
      ∀ raw tenantId, normalizeTenantId locale raw = .ok tenantId →
        FoundAsRead locale contents tenantId := by
  constructor
  · intro h
    refine ⟨baseUrl_eq_iff.mp h.baseUrl, fun raw tenantId hid => ?_⟩
    exact (hasTenant_iff_defines (isTenantName_of_normalizeTenantId hid)).mp
      (h.tenants raw tenantId hid)
  · rintro ⟨hfirst, hfound⟩
    refine ⟨baseUrl_eq_iff.mpr hfirst, fun raw tenantId hid => ?_⟩
    exact (hasTenant_iff_defines (isTenantName_of_normalizeTenantId hid)).mpr
      (hfound raw tenantId hid)

/-- After a base URL that is left blank the next line is taken for it. -/
theorem blank_base_url_misread :
    ¬∀ locale contents, SeesReading locale contents := by
  intro h
  have hbase := (h asciiLocale "PUBLIC_BASE_URL=\nPORT=4008\n").baseUrl
  revert hbase
  decide +kernel

end Provisioning

end VcalmStatus
