import VcalmStatus.App.Errors
import VcalmStatus.App.Selectors
import VcalmStatus.Config
import VcalmStatus.UrlPaths

/-!
Whether the URL a list is minted under leads back to it. Minting appends to the configured base
whatever that is; resolution parses what came of it, and takes no other path than
`/status-lists/{id}`.
-/

namespace VcalmStatus

open Js Effects Policy

/-! ### Resolving -/

section Resolving

variable {platform : Platform} {base id : String}

/-- The base is the whole of a list's URL before `/status-lists`, and the id is a segment; or the
base has a query or a fragment, and has the list's path itself. -/
def ResolvesUnder (platform : Platform) (base id : String) : Prop :=
  (IsBare base ∧ id ∉ dotSegments ∧
    ∃ u, platform.parseUrl (base ++ "/status-lists") = some u ∧ u.segments = ["status-lists"]) ∨
  (¬IsBare base ∧ listPathId platform base = some id)

/-- Only the path counts. -/
theorem listPathId_congr {url url' : String}
    (h : (platform.parseUrl url).map (·.pathname) = (platform.parseUrl url').map (·.pathname)) :
    listPathId platform url = listPathId platform url' := by
  have hone : ∀ {url url' id : String},
      (platform.parseUrl url).map (·.pathname) = (platform.parseUrl url').map (·.pathname) →
      listPathId platform url = some id → listPathId platform url' = some id := by
    intro url url' id h hid
    obtain ⟨u, segment, hu, hsegments, hdecode⟩ := listPathId_eq_some_iff.mp hid
    rw [hu] at h
    obtain ⟨u', hu', hsame⟩ := Option.map_eq_some_iff.mp h.symm
    refine listPathId_eq_some_iff.mpr ⟨u', segment, hu', ?_, hdecode⟩
    rw [Url.segments, hsame]
    exact hsegments
  ext id
  exact ⟨hone h, hone h.symm⟩

/-- A minted URL names its list exactly under such a base. -/
theorem listPathId_statusListUrl_iff (hpaths : UrlPaths platform) :
    listPathId platform (statusListUrl base id) = some id ↔ ResolvesUnder platform base id := by
  have hlists : encodeURIComponent "status-lists" = "status-lists" ∧
      "status-lists" ∉ dotSegments := by decide +kernel
  have hbase : base ++ "/status-lists" = base ++ "/" ++ encodeURIComponent "status-lists" := by
    rw [hlists.1, ← String.toList_inj]
    simp
  have hurl : statusListUrl base id =
      base ++ "/" ++ encodeURIComponent "status-lists" ++ "/" ++ encodeURIComponent id := by
    rw [← hbase, statusListUrl, ← String.toList_inj]
    simp
  by_cases hbare : IsBare base
  · rw [ResolvesUnder, or_iff_left fun h => h.1 hbare, and_iff_right hbare]
    by_cases hdot : id ∈ dotSegments
    · refine iff_of_false (fun h => ?_) fun h => h.1 hdot
      obtain ⟨u, segment, hu, hsegments, hdecode⟩ := listPathId_eq_some_iff.mp h
      obtain rfl | hdots := List.mem_cons.mp hdot
      · -- A segment of a path is not empty, and only the empty text decodes to it.
        have hmem : segment ∈ u.segments := by simp [hsegments]
        have hne : segment ≠ "" := by simpa using (List.mem_filter.mp hmem).2
        exact hne (decodeURIComponent_eq_empty hdecode)
      · rw [hurl] at hu
        exact hpaths.dots hbare hlists.2 (by simpa using hdots) hu hsegments hdecode
    · have happend : (∃ u, platform.parseUrl (base ++ "/status-lists") = some u ∧
          u.segments = [] ++ ["status-lists"]) ↔
          ∃ u, platform.parseUrl (statusListUrl base id) = some u ∧
            u.segments = [] ++ ["status-lists", encodeURIComponent id] := by
        rw [hurl, hbase]
        have h := @UrlPaths.append platform hpaths base "status-lists" id [] hbare hlists.2 hdot
        rwa [hlists.1] at h ⊢
      rw [and_iff_right hdot]
      refine Iff.trans ?_ happend.symm
      rw [listPathId_eq_some_iff]
      constructor
      · rintro ⟨u, segment, hu, hsegments, -⟩
        -- Whatever the last segment is, it is the one that was appended.
        obtain rfl : segment = encodeURIComponent id := by
          have hbare' : IsBare (base ++ "/status-lists") := hbare.append (by decide +kernel)
          have hu' := hu
          rw [hurl, ← hbase] at hu'
          exact platform.segments_encoded hbare' hdot hu' hsegments
        exact ⟨u, hu, hsegments⟩
      · rintro ⟨u, hu, hsegments⟩
        exact ⟨u, _, hu, hsegments, decodeURIComponent_encodeURIComponent id⟩
  · rw [ResolvesUnder, or_iff_right fun h => hbare h.1, and_iff_right hbare]
    have hrest : statusListUrl base id = base ++ ("/status-lists/" ++ encodeURIComponent id) :=
      String.append_assoc
    rw [hrest, listPathId_congr (hpaths.query _ hbare)]

end Resolving

/-! ### Creating -/

section Creating

variable {B : Type} {deps : ManagerDeps B} {env : Environment} {i : Nat} {w w' : World}

/-- A program that has come to a value goes on from what its first operation answers. -/
theorem run_await_ok {α : Type} {o : Operation} {f : o.Answer → Async α} {a : α} (h : w.OnlyBy i)
    (hrun : (await o >>= f).run (World.step env i) w = some (.ok a, w')) :
    (f (w.respond env i o).1).run (World.step env i) (w.respond env i o).2 = some (.ok a, w') ∧
      (w.respond env i o).2.OnlyBy i := by
  rw [h.run_await] at hrun
  exact ⟨hrun, h.effect (World.effect_of_step (h.step_eq o))⟩

theorem ofExcept_ok_of_run {α : Type} {x : Except JsError α} {a : α}
    (hrun : (Program.ofExcept x : Async α).run (World.step env i) w = some (.ok a, w')) :
    x = .ok a ∧ w' = w := by
  cases x with
  | ok b =>
      cases hrun
      exact ⟨rfl, rfl⟩
  | error e => cases hrun

theorem run_materialize {url : String} {issuerInstance : IssuerInstance}
    {statusPurpose : StatusPurpose} {list : B} {ttl : Option Nat}
    {m : StatusListMaterialization} (h : w.OnlyBy i)
    (hrun : (StatusListManager.materialize deps url issuerInstance statusPurpose list ttl).run
      (World.step env i) w = some (.ok m, w')) :
    Materialized deps env url issuerInstance statusPurpose list ttl m ∧ w'.OnlyBy i := by
  obtain ⟨issuer, w₁, hissuer, hrun⟩ := Program.run_bind_ok _ hrun
  obtain ⟨hissuer, h₁⟩ := run_await_ok h hissuer
  obtain ⟨hdid, rfl⟩ := ofExcept_ok_of_run hissuer
  obtain ⟨hrun, h₂⟩ := run_await_ok h₁ hrun
  obtain ⟨signed, w₂, hsigned, hrun⟩ := Program.run_bind_ok _ hrun
  obtain ⟨hsigned, h₃⟩ := run_await_ok h₂ hsigned
  obtain ⟨hsign, rfl⟩ := ofExcept_ok_of_run hsigned
  cases hrun
  exact ⟨⟨build_encodedList, issuer, _, ⟨_, hdid⟩, _, hsign⟩, h₃⟩

theorem run_createStatusList {record : NewStatusListRecord} {row : StatusListRecord}
    (h : w.OnlyBy i)
    (hrun : (SqlStorage.createStatusList record).run (World.step env i) w = some (.ok row, w')) :
    row.toNewStatusListRecord = record ∧ row.version = 1 ∧
      w'.db.getStatusList row.id = some row ∧ w'.OnlyBy i := by
  obtain ⟨hrun, h₁⟩ := run_await_ok h hrun
  obtain ⟨hrun, h₂⟩ := run_await_ok h₁ hrun
  set w₁ := (w.respond env i .newDate).2
  set stored : StatusListRecord := { record with
    version := 1
    createdAt := (w.respond env i .newDate).1
    updatedAt := (w.respond env i .newDate).1 } with hstored
  have hnew : stored.toNewStatusListRecord = record ∧ stored.version = 1 ∧
      stored.id = record.id := ⟨rfl, rfl, rfl⟩
  clear_value stored w₁
  cases hfree : w₁.db.getStatusList stored.id with
  | some old =>
      have hresponse : w₁.respond env i (.insertStatusList stored) = (false, w₁) :=
        if_pos (by rw [hfree]; rfl)
      rw [hresponse] at hrun h₂
      obtain ⟨hrun, -⟩ := run_await_ok h₂ hrun
      rw [hnew.2.2] at hfree
      simp only [World.respond, hfree] at hrun
      cases hrun
  | none =>
      have hresponse : w₁.respond env i (.insertStatusList stored) =
          (true, w₁.insertStatusList i stored) := if_neg (by rw [hfree]; decide)
      rw [hresponse] at hrun h₂
      cases hrun
      refine ⟨hnew.1, hnew.2.1, ?_, h₂⟩
      have hnone : w₁.db.statusLists.find? (fun other => other.id = row.id) = none := hfree
      change (w₁.db.statusLists ++ [row]).find? (fun other => other.id = row.id) = some row
      rw [List.find?_append, hnone]
      simp

/-- A list that is created by itself is stored as it is returned. -/
theorem run_createList {input : CreateStatusListInput} {row : StatusListRecord} (h : w.OnlyBy i)
    (hrun : (StatusListManager.createList deps input).run (World.step env i) w =
      some (.ok row, w')) :
    Created deps env input row ∧ w'.db.getStatusList row.id = some row ∧ w'.OnlyBy i := by
  rw [StatusListManager.createList_eq] at hrun
  obtain ⟨c, w₁, hrunc, hrest⟩ := Program.run_bind_ok _ hrun
  obtain ⟨hc, hw₁⟩ := ofExcept_ok_of_run hrunc
  subst hw₁
  -- What is left to do once the id is there.
  have hnamed : ∀ {id : String} {w₂ : World}, CreatedId env input id → w₂.OnlyBy i →
      (StatusListManager.createNamed deps input c id).run (World.step env i) w₂ =
        some (.ok row, w') →
      Created deps env input row ∧ w'.db.getStatusList row.id = some row ∧ w'.OnlyBy i := by
    intro id w₂ hid h₂ hrun
    obtain ⟨list, w₃, hrunlist, hrest⟩ := Program.run_bind_ok _ hrun
    obtain ⟨hlist, hw₃⟩ := ofExcept_ok_of_run hrunlist
    subst hw₃
    obtain ⟨m, w₄, hrunm, hrest⟩ := Program.run_bind_ok _ hrest
    obtain ⟨hm, h₄⟩ := run_materialize h₂ hrunm
    obtain ⟨hnew, hversion, hstored, h'⟩ := run_createStatusList h₄ hrest
    refine ⟨?_, hstored, h'⟩
    obtain ⟨new, version, createdAt, updatedAt⟩ := row
    subst hnew
    exact
      { characteristics := hc
        id := hid
        tenantId := rfl
        issuerInstanceId := rfl
        statusPurpose := rfl
        version := hversion
        materialized := ⟨list, hlist, hm⟩ }
  cases hinput : input.id with
  | some id =>
      simp only [hinput] at hrest
      exact hnamed (.inl hinput) h hrest
  | none =>
      simp only [hinput] at hrest
      obtain ⟨hrest, h₂⟩ := run_await_ok h hrest
      exact hnamed (.inr ⟨hinput, _, rfl⟩) h₂ hrest

end Creating

/-! ### Leading back -/

section Leading

variable {B : Type} {deps : AppDeps B} {env : Environment} {i : Nat} {w : World}
  {row : StatusListRecord} {url : String}

/-- The URL, sent as `statusListCredential`, leads to the list as it is stored. -/
def LeadsTo (deps : AppDeps B) (env : Environment) (i : Nat) (w : World) (url : String)
    (row : StatusListRecord) : Prop :=
  ∃ w', (listFromUrl deps url).run (World.step env i) w = some (.ok row, w')

/-- It does where its path has the id of the list, if the list answers to it. -/
theorem leadsTo_iff (h : w.OnlyBy i) (hrow : w.db.getStatusList row.id = some row)
    (hcanonical : canonicalUrlOf deps.publicBaseUrl row = url) :
    LeadsTo deps env i w url row ↔ listPathId deps.platform url = some row.id := by
  constructor
  · rintro ⟨w', hrun⟩
    obtain ⟨id, w₁, hrunid, hrest⟩ := Program.run_bind_ok _ hrun
    obtain ⟨hid, hw₁⟩ := ofExcept_ok_of_run hrunid
    subst hw₁
    obtain ⟨hrest, -⟩ := run_await_ok h hrest
    -- The list that comes back was found under the id in the path.
    have hfound : w₁.db.getStatusList id = some row := by
      simp only [World.respond] at hrest
      cases hget : w₁.db.getStatusList id with
      | none =>
          rw [hget] at hrest
          cases hrest
      | some found =>
          rw [hget] at hrest
          by_cases hsame : canonicalUrlOf deps.publicBaseUrl found = url
          · simp only [Option.filter_some, hsame, decide_true, if_true] at hrest
            cases hrest
            rfl
          · simp only [Option.filter_some, hsame, decide_false, Bool.false_eq_true,
              if_false] at hrest
            cases hrest
    have hsame : row.id = id := (Database.mem_of_getStatusList hfound).2
    rw [hsame]
    exact listIdFromUrl_eq_ok_iff.mp hid
  · intro hid
    have hfound : (some row).filter (fun record =>
        canonicalUrlOf deps.publicBaseUrl record = url) = some row := by
      rw [Option.filter_some, if_pos (by simpa using hcanonical)]
    refine ⟨w, ?_⟩
    rw [listFromUrl, listIdFromUrl_eq_ok_iff.mpr hid, Program.ofExcept_ok, Program.ret_bind]
    refine (h.run_await (.getStatusList row.id) _).trans ?_
    simp only [World.respond, hrow, hfound, Program.pure_eq, Program.run_ret]

/-- Under its minted URL a list is led to where the base leaves the path to it, as long as it is
published under it. -/
theorem leadsTo_minted_iff (hpaths : UrlPaths deps.platform) {current : StatusListRecord}
    (hminted : canonicalUrlOf deps.publicBaseUrl row = statusListUrl deps.publicBaseUrl row.id)
    (h : w.OnlyBy i) (hcurrent : w.db.getStatusList row.id = some current)
    (hsame : credentialId? current.signedCredential = credentialId? row.signedCredential) :
    LeadsTo deps env i w (statusListUrl deps.publicBaseUrl row.id) current ↔
      ResolvesUnder deps.platform deps.publicBaseUrl row.id := by
  have hid : current.id = row.id := (Database.mem_of_getStatusList hcurrent).2
  have hanswers : canonicalUrlOf deps.publicBaseUrl current =
      statusListUrl deps.publicBaseUrl row.id := by
    rw [← hminted, canonicalUrlOf, canonicalUrlOf, hsame, hid]
  rw [leadsTo_iff h (hid.symm ▸ hcurrent) hanswers, hid]
  exact listPathId_statusListUrl_iff hpaths

end Leading

/-! ### Test runs -/

/-- The configuration of a service with this base URL and defaults for the rest. -/
def testConfig (base : String) : Except ConfigError Config :=
  parseConfig (tidyPlatform []) (fun _ => .nan)
    ⟨[("PUBLIC_BASE_URL", base)], List.nodup_singleton _⟩

/-- A list for `acme` under an id of its own. -/
def namedInput : CreateStatusListInput :=
  { tenantId := "acme", issuerInstance := testIssuerInstance, statusPurpose := .revocation
    id := some "list-1" }

/-- What this configuration's first creation comes to. -/
def testCreation (config : Config) : Option (Except JsError StatusListRecord × World) :=
  (StatusListManager.createList
    (AppDeps.configured (tidyPlatform []) plainLibrary config).manager namedInput).run
    (World.step (testEnvironment .sqlite) 0) World.initial

theorem exists_testCreation (raw base : String)
    (h : ((testConfig raw).toOption.any fun config => config.publicBaseUrl = base &&
      (testCreation config).any fun rw => rw.1.toOption.any fun row => row.id = "list-1") = true) :
    ∃ config row w', testConfig raw = .ok config ∧ config.publicBaseUrl = base ∧
      testCreation config = some (.ok row, w') ∧ row.id = "list-1" := by
  obtain ⟨config, hconfig, hmore⟩ := exists_ok_of_any h
  rw [Bool.and_eq_true, decide_eq_true_eq, Option.any_eq_true] at hmore
  obtain ⟨hbase, ⟨r, w'⟩, hcreate, hr⟩ := hmore
  obtain ⟨row, rfl, hid⟩ := exists_ok_of_any hr
  exact ⟨config, row, w', hconfig, hbase, hcreate, by simpa using hid⟩

/-- **A minted URL leads back to its list exactly under a base it resolves under.** Whatever the
configuration, distinct ids are minted distinct URLs; and a list that `createList` was given no URL
for is what its URL leads to, from its creation on and for as long as it is published under that
URL, exactly where the base leaves the path to the list. -/
theorem minted_leads_back_iff {B : Type} (lib : BitstringLibrary B) (platform : Platform)
    (hpaths : UrlPaths platform) (toNumber : String → Coerced) (vars : ProcessEnv)
    (config : Config) (_ : parseConfig platform toNumber vars = .ok config)
    (env : Environment) (hkeeps : env.signing.KeepsId) (input : CreateStatusListInput)
    (hurl : input.url = none) (i : Nat) (w w' : World) (honly : w.OnlyBy i)
    (row : StatusListRecord)
    (hcreate : (StatusListManager.createList
      (AppDeps.configured platform lib config).manager input).run (World.step env i) w =
        some (.ok row, w')) :
    Function.Injective (statusListUrl config.publicBaseUrl) ∧
    (LeadsTo (AppDeps.configured platform lib config) env i w'
      (statusListUrl config.publicBaseUrl row.id) row ↔
        ResolvesUnder platform config.publicBaseUrl row.id) ∧
    ∀ (env' : Environment) (j : Nat) (later : World) (current : StatusListRecord),
      later.OnlyBy j → later.db.getStatusList row.id = some current →
      credentialId? current.signedCredential = credentialId? row.signedCredential →
      (LeadsTo (AppDeps.configured platform lib config) env' j later
        (statusListUrl config.publicBaseUrl row.id) current ↔
          ResolvesUnder platform config.publicBaseUrl row.id) := by
  obtain ⟨hcreated, hstored, honly'⟩ := run_createList honly hcreate
  have hcanonical : canonicalUrlOf config.publicBaseUrl row =
      statusListUrl config.publicBaseUrl row.id := by
    have h : canonicalUrlOf config.publicBaseUrl row =
        input.url.getD (statusListUrl config.publicBaseUrl row.id) :=
      @canonicalUrlOf_of_created _ (AppDeps.configured platform lib config) env hkeeps input row
        hcreated
    rwa [hurl] at h
  exact ⟨statusListUrl_injective _,
    @leadsTo_minted_iff _ (AppDeps.configured platform lib config) env i w' row hpaths row
      hcanonical honly' hstored rfl,
    fun env' j later current hj hcurrent hsame =>
      @leadsTo_minted_iff _ (AppDeps.configured platform lib config) env' j later row hpaths current
        hcanonical hj hcurrent hsame⟩

/-- Under `https://status.example` it does. -/
theorem minted_leads_back_origin : ∃ config row w',
    testConfig "https://status.example/" = .ok config ∧
      testCreation config = some (.ok row, w') ∧
      LeadsTo (AppDeps.configured (tidyPlatform []) plainLibrary config) (testEnvironment .sqlite)
        0 w' (statusListUrl config.publicBaseUrl row.id) row := by
  obtain ⟨config, row, w', hconfig, hbase, hcreate, hid⟩ := exists_testCreation
    "https://status.example/" "https://status.example" (by decide +kernel)
  refine ⟨config, row, w', hconfig, hcreate, ?_⟩
  have hresolves : ResolvesUnder (tidyPlatform []) config.publicBaseUrl row.id := by
    rw [hbase, hid]
    have hparsed : ((tidyPlatform []).parseUrl ("https://status.example" ++ "/status-lists")).any
        (fun u => u.segments = ["status-lists"]) = true := by decide +kernel
    obtain ⟨u, hu, hsegments⟩ := (Option.any_eq_true _ _).mp hparsed
    exact .inl ⟨by decide +kernel, by decide +kernel, u, hu, by simpa using hsegments⟩
  exact (minted_leads_back_iff plainLibrary (tidyPlatform []) (urlPaths_tidyPlatform [])
    (fun _ => .nan) _ config hconfig (testEnvironment .sqlite)
    (SigningService.Agrees.keepsId (fakeSigning_agrees _)) namedInput rfl 0 World.initial w'
    (fun _ _ => ⟨rfl, nofun, nofun⟩) row hcreate).2.1.mpr hresolves

/-- Under `https://status.example/vc` the URL of the list is refused. -/
theorem minted_under_path_refused : ¬∀ (config : Config) (row : StatusListRecord) (w' : World),
    testConfig "https://status.example/vc" = .ok config →
    testCreation config = some (.ok row, w') →
    LeadsTo (AppDeps.configured (tidyPlatform []) plainLibrary config) (testEnvironment .sqlite)
      0 w' (statusListUrl config.publicBaseUrl row.id) row := by
  intro h
  obtain ⟨config, row, w', hconfig, hbase, hcreate, hid⟩ := exists_testCreation
    "https://status.example/vc" "https://status.example/vc" (by decide +kernel)
  obtain ⟨_, hrun⟩ := h config row w' hconfig hcreate
  obtain ⟨id, _, hrunid, -⟩ := Program.run_bind_ok _ hrun
  obtain ⟨hfound, -⟩ := ofExcept_ok_of_run hrunid
  have hnone : (listIdFromUrl (tidyPlatform [])
      (statusListUrl "https://status.example/vc" "list-1")).toOption = none := by decide +kernel
  rw [hbase, hid] at hfound
  change listIdFromUrl (tidyPlatform []) _ = _ at hfound
  rw [hfound] at hnone
  cases hnone

end VcalmStatus
