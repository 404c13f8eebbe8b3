import VcalmStatus.App.Runs
import VcalmStatus.App.TestRequests
import VcalmStatus.Safety.Refusals

/-!
Retrieval of what was minted. Creation reads the path of a client's URL with the empty segments
left out, the router reads it as it is, so the two agree on the list exactly where the path is the
prefix and one segment.
-/

namespace VcalmStatus

open Js Effects Policy

/-- The path is `/status-lists/` and one segment, and nothing besides. -/
def OneSegment (pathname : String) : Prop :=
  ∃ segment, pathname = "/status-lists/" ++ segment ∧ segment ≠ "" ∧ '/' ∉ segment.toList

theorem split_one_segment {pathname segment : String} :
    split pathname '/' = ["", "status-lists", segment] ↔
      pathname = "/status-lists/" ++ segment ∧ '/' ∉ segment.toList := by
  have htext : ['/'].intercalate (["", "status-lists", segment].map String.toList) =
      ("/status-lists/" ++ segment).toList := by
    simp [List.intercalate]
  rw [split_eq_iff (by simp), htext, String.toList_inj]
  simp

/-- The router finds a list exactly where the path has one segment for it. -/
theorem statusListParam_isSome {pathname : String} :
    (statusListParam pathname).isSome = true ↔ OneSegment pathname := by
  constructor
  · intro h
    unfold statusListParam at h
    split at h
    · rename_i segment hsplit
      by_cases hempty : segment = ""
      · simp [hempty] at h
      · obtain ⟨rfl, hslash⟩ := split_one_segment.mp hsplit
        exact ⟨segment, rfl, hempty, hslash⟩
    · cases h
  · rintro ⟨segment, rfl, hne, hslash⟩
    simp [statusListParam, split_one_segment.mpr ⟨rfl, hslash⟩, hne]

/-- Where both read an id, they read the same one. -/
theorem statusListParam_of_slug {platform : Platform} {url id : String} {parsed : Url}
    (hparsed : platform.parseUrl url = some parsed)
    (hslug : slugFromListUrl platform url = .ok (some id)) (h : OneSegment parsed.pathname) :
    statusListParam parsed.pathname = some id := by
  obtain ⟨segment, hpath, hne, hslash⟩ := h
  obtain ⟨segment', hsegments, hdecode⟩ := segments_of_slug hparsed hslug
  have hsplit := split_one_segment.mpr ⟨hpath, hslash⟩
  have hsame : segment' = segment := by
    have : parsed.segments = ["status-lists", segment] := by simp [Url.segments, hsplit, hne]
    simpa using hsegments.symm.trans this
  subst hsame
  simp [statusListParam, hsplit, hne, hdecode]

section Minting

variable {B : Type} {deps : AppDeps B} {env : Environment} {P : Policy} {i : Nat} {s t : World}
  {request : Request} {tenant : TenantRecord}

/-- A refused creation is answered as one. -/
theorem createListRefused_status {e : JsError}
    (h : CreateListRefused deps env P i s request tenant t e) :
    400 ≤ e.status deps.platform := by
  cases h with
  | input h =>
      obtain hstatus | ⟨hstatus, _⟩ := createInput_error h <;> omega
  | create hinput hquiet h =>
      obtain hclient | hsigner | ⟨⟨name, rfl⟩, _⟩ := createRefused_status h
      · exact le_of_mem_clientStatuses hclient
      · have hle : 500 ≤ e.status deps.platform := status_of_fromSigner hsigner.fromSigner
        omega
      · change 400 ≤ 500
        omega
  | location hinput hrow hlocation =>
      change 400 ≤ 500
      omega

/-- A list is stored for every creation that is answered with 201. -/
theorem Dispatched.minted {r : Except JsError Response}
    (h : Dispatched deps env P i s request r t) (hmethod : request.method = "POST")
    (hpath : request.path = "/status-lists") (hstatus : (deps.respond r).status = 201) :
    ∃ tenant input row, deps.caller env.tenants request = some tenant ∧
      createInput deps tenant request = .ok input ∧ Created deps.manager env input row ∧
      ∃ row' ∈ t.db.statusLists, P.Same row row' := by
  have hends := h.create hmethod hpath
  unfold Authenticated at hends
  split at hends
  · obtain ⟨detail, rfl⟩ := hends
    cases hstatus
  · rename_i tenant hcaller
    obtain ⟨u, _, hends⟩ := hends
    cases r with
    | ok response =>
        obtain ⟨_, input, row, hinput, hrow, _, row', hrow', hsame⟩ := hends
        exact ⟨tenant, input, row, hcaller, hinput, hrow, row', hrow', hsame⟩
    | error e =>
        have hle := createListRefused_status hends
        have hsame : e.status deps.platform = 201 := hstatus
        omega

end Minting

/-! ### Retrieval -/

/-- A public retrieval of a parsed URL: its path, asked for at its host. -/
structure RetrievalOf (parsed : Url) (request : Request) : Prop where
  method : request.method = "GET"
  path : request.path = parsed.pathname
  host : request.header "Host" = some parsed.host
  forwarded : request.header "X-Forwarded-Host" = none
  fresh : request.header "If-None-Match" = none

section Retrieval

variable {B : Type} {deps : AppDeps B} {env : Environment} {i : Nat} {w : World}
  {parsed : Url} {get : Request}

theorem RetrievalOf.effectiveHost {url : String} (hparsed : deps.platform.parseUrl url = some parsed)
    (hweb : parsed.isWeb = true) (h : RetrievalOf parsed get) :
    effectiveHost deps.platform get = hostname deps.platform (some parsed.host) := by
  rw [VcalmStatus.effectiveHost, h.forwarded, h.host, hostname_host hparsed hweb (.inl rfl)]
  rfl

theorem dispatch_list {id : String} (hmethod : get.method = "GET")
    (hparam : statusListParam get.path = some id) :
    dispatch deps get = getStatusListHandler deps get id := by
  have hroot : get.path ≠ "/" := by
    intro h
    rw [h] at hparam
    cases hparam
  have hhealth : get.path ≠ "/healthz" := by
    intro h
    rw [h] at hparam
    cases hparam
  simp [dispatch, hmethod, hparam]

theorem dispatch_notFound (hmethod : get.method = "GET") (hroot : get.path ≠ "/")
    (hhealth : get.path ≠ "/healthz") (hparam : statusListParam get.path = none) :
    dispatch deps get = .ret (notFoundHandler get) := by
  simp [dispatch, hmethod, hparam]

/-- A stored list is served, under a host its tenant may use. -/
theorem run_getStatusListHandler {row : StatusListRecord} {tenant : TenantRecord} {id : String}
    (honly : w.OnlyBy i) (hrow : w.db.getStatusList id = some row)
    (htenant : env.tenants.getTenant row.tenantId = some tenant)
    (hhost : isAuthorizedHost deps.platform tenant (effectiveHost deps.platform get)
      deps.publicBaseUrl = true) (hfresh : get.header "If-None-Match" = none) :
    ∃ headers, (getStatusListHandler deps get id).run (World.step env i) w =
      some (.ok ⟨200, headers, some (.obj row.signedCredential)⟩, w) := by
  refine ⟨[("ETag", etagFor row), ("Cache-Control", cacheControlFor row),
    ("Content-Type", contentTypeFor deps.platform (get.header "Accept"))], ?_⟩
  rw [getStatusListHandler]
  refine (honly.run_await (.getStatusList id) _).trans ?_
  simp only [World.respond, hrow]
  refine (honly.run_await (.getTenant row.tenantId) _).trans ?_
  simp only [World.respond, htenant, Option.getD_some, hhost, hfresh, reduceCtorEq, if_false]
  rfl

/-- Where the path of a list URL has anything but one segment, there is no route. -/
theorem run_notFound {url id : String} (hparsed : deps.platform.parseUrl url = some parsed)
    (hslug : slugFromListUrl deps.platform url = .ok (some id)) (hget : RetrievalOf parsed get)
    (hsegments : ¬OneSegment parsed.pathname) :
    (handle deps get).run (World.step env i) w = some (.ok (notFoundHandler get), w) := by
  have hparam : statusListParam get.path = none := by
    rw [hget.path]
    exact Option.not_isSome_iff_eq_none.mp (mt statusListParam_isSome.mp hsegments)
  -- The two fixed paths have fewer segments than a list.
  obtain ⟨segment, hlist, _⟩ := segments_of_slug hparsed hslug
  have hfixed : ∀ path, (⟨"", "", "", path⟩ : Url).segments.length < 2 → get.path ≠ path := by
    intro path hlength hpath
    have hsame : (⟨"", "", "", path⟩ : Url).segments = parsed.segments := by
      rw [Url.segments, Url.segments, ← hget.path, hpath]
    rw [hsame, hlist] at hlength
    exact absurd hlength (by simp)
  rw [run_handle, dispatch_notFound hget.method (hfixed "/" (by decide))
    (hfixed "/healthz" (by decide)) hparam]
  rfl

/-- The list that was minted under a URL is what a retrieval is answered with: the router names
it, and the response is its stored credential. -/
structure Fetched (deps : AppDeps B) (env : Environment) (i : Nat) (w : World)
    (tenant : TenantRecord) (url : String) (get : Request) (row : StatusListRecord) : Prop where
  stored : row ∈ w.db.statusLists
  tenantId : row.tenantId = tenant.tenantId
  id : credentialId? row.signedCredential = some url
  slug : slugFromListUrl deps.platform url = .ok (some row.id)
  param : statusListParam get.path = some row.id
  host : isAuthorizedHost deps.platform tenant (effectiveHost deps.platform get)
    deps.publicBaseUrl = true
  answer : ∃ headers, (handle deps get).run (World.step env i) w =
    some (.ok ⟨200, headers, some (.obj row.signedCredential)⟩, w)

end Retrieval

/-- **A minted list can be fetched exactly under a path of one segment.** -/
theorem minted_fetched_iff {B : Type} (deps : AppDeps B) (env env' : Environment)
    (hagrees : env.signing.Agrees) (htenants : env'.tenants = env.tenants)
    (requests : Nat → Option Request) (responses : Nat → Option Response) (w : World)
    (hw : AllAnswered deps env requests responses w) (tenant : TenantRecord) (j : Nat)
    (creation : Request) (response : Response) (hj : requests j = some creation)
    (hresponse : responses j = some response) (hmethod : creation.method = "POST")
    (hpath : creation.path = "/status-lists")
    (hcaller : deps.caller env.tenants creation = some tenant) (url : String)
    (hurl : requestedUrl deps creation = some url) (hstatus : response.status = 201)
    (parsed : Url) (hparsed : deps.platform.parseUrl url = some parsed) (get : Request)
    (hget : RetrievalOf parsed get) (i : Nat) :
    (∃ row, Fetched deps env' i w tenant url get row) ↔ OneSegment parsed.pathname := by
  have hsettled := hw.settled True (fun _ => True) (fun _ => hagrees) (providesIssuer_true env)
  obtain ⟨r, hr, hsame⟩ := hsettled.answered hj
  rw [hresponse, Option.some.injEq] at hsame
  obtain ⟨tenant', input, row, hcaller', hinput, hcreated, row', hrow', hsamerow⟩ :=
    hr.minted hmethod hpath (hsame ▸ hstatus)
  rw [hcaller, Option.some.injEq] at hcaller'
  subst hcaller'
  -- The id is the slug of the URL, because the client named it.
  have hasked := askedFor_of_createInput hpath hinput
  obtain ⟨_, hid⟩ := served_of_created hagrees hasked hcreated
  rw [createdUrl, hurl, Option.getD_some] at hid
  have hinputurl : input.url = some url := hasked.url.trans hurl
  obtain ⟨_, hnone⟩ | ⟨id, url', hinputid, hurl', hslug, hauthorized⟩ := hasked.slug
  · rw [hinputurl] at hnone
    cases hnone
  rw [hinputurl, Option.some.injEq] at hurl'
  subst hurl'
  have hrowid : row.id = id := by
    obtain hcreatedid | ⟨hnone, _⟩ := hcreated.id
    · exact (Option.some.inj (hinputid.symm.trans hcreatedid)).symm
    · rw [hinputid] at hnone
      cases hnone
  have honly : w.OnlyBy i := fun k _ => hsettled.idle k
  have hweb : parsed.isWeb = true := by
    rw [isAuthorizedListUrl, hparsed, Bool.and_eq_true] at hauthorized
    exact hauthorized.1
  constructor
  · rintro ⟨_, hfetched⟩
    by_contra hsegments
    obtain ⟨headers, hrun⟩ := hfetched.answer
    rw [run_notFound hparsed hslug hget hsegments] at hrun
    cases hrun
  · intro hsegments
    have hparam : statusListParam get.path = some row'.id := by
      rw [hget.path, statusListParam_of_slug hparsed hslug hsegments, ← hrowid,
        hsamerow.binding.id]
    have hhost : isAuthorizedHost deps.platform tenant (effectiveHost deps.platform get)
        deps.publicBaseUrl = true := by
      rw [hget.effectiveHost hparsed hweb]
      exact isAuthorizedHost_of_isAuthorizedListUrl hparsed hauthorized
    have htenantId : row'.tenantId = tenant.tenantId :=
      hsamerow.binding.tenantId.symm.trans (hcreated.tenantId.trans hasked.tenantId)
    have hregistered : env'.tenants.getTenant row'.tenantId = some tenant := by
      rw [htenantId, htenants]
      exact getTenant_of_callerOf hcaller
    obtain ⟨headers, hrun⟩ := run_getStatusListHandler honly
      (Database.getStatusList_of_mem hsettled.inv.ids_nodup hrow') hregistered hhost hget.fresh
    refine ⟨row', hrow', htenantId, ?_, ?_, hparam, hhost, headers, ?_⟩
    · exact (hsamerow.keeps trivial).symm.trans hid
    · rw [hslug, ← hrowid, hsamerow.binding.id]
    · rw [run_handle, dispatch_list hget.method hparam, hrun]
      rfl

theorem retrievalOf_getRequest (parsed : Url) (hhost : parsed.host = "status.example") :
    RetrievalOf parsed (getRequest parsed.pathname) :=
  ⟨rfl, rfl, congrArg some hhost.symm, rfl, rfl⟩

/-- What is fetched under a URL that `acme` minted. -/
theorem fetched_plainUrl : ∃ w parsed row, testApp.platform.parseUrl plainUrl = some parsed ∧
    Fetched testApp (testEnvironment .postgres) 1 w (testTenant "acme") plainUrl
      (getRequest parsed.pathname) row := by
  have hstate : ((handle testApp (namedRequest plainUrl)).run
      (World.step (testEnvironment .postgres) 0) World.initial).any (fun rw =>
        rw.1.toOption.any fun response => response.status = 201) = true := by decide +kernel
  obtain ⟨⟨r, w⟩, hrun, hcheck⟩ := (Option.any_eq_true _ _).mp hstate
  obtain ⟨response, rfl, hstatus⟩ := exists_ok_of_any hcheck
  have hparsed : testApp.platform.parseUrl plainUrl =
      some ⟨"https:", "status.example", "status.example", "/status-lists/x"⟩ := by
    decide +kernel
  obtain ⟨row, hrow⟩ := (minted_fetched_iff testApp (testEnvironment .postgres)
    (testEnvironment .postgres) (fakeSigning_agrees _) rfl _ _ w
    (allAnswered_initial.next rfl hrun) (testTenant "acme") 0 _ response
    (Function.update_self 0 _ _) (Function.update_self 0 _ _) rfl rfl (caller_postRequest _ _)
    plainUrl (by decide +kernel) (by simpa using hstatus) _ hparsed _
    (retrievalOf_getRequest _ rfl) 1).mpr ⟨"x", by decide, by decide, by decide⟩
  exact ⟨w, _, row, hparsed, hrow⟩

/-- A list that `acme` minted under a URL with slashes to spare is not found under it. -/
theorem minted_not_found : ∃ requests responses w response parsed answer,
    AllAnswered testApp (testEnvironment .postgres) requests responses w ∧
    requests 0 = some (namedRequest slashedUrl) ∧ responses 0 = some response ∧
    response.status = 201 ∧ requestedUrl testApp (namedRequest slashedUrl) = some slashedUrl ∧
    testApp.platform.parseUrl slashedUrl = some parsed ∧
    RetrievalOf parsed (getRequest parsed.pathname) ∧
    (handle testApp (getRequest parsed.pathname)).run
      (World.step (testEnvironment .postgres) 1) w = some (.ok answer, w) ∧
    answer.status = 404 := by
  have hstate : ((handle testApp (namedRequest slashedUrl)).run
      (World.step (testEnvironment .postgres) 0) World.initial).any (fun rw =>
        rw.1.toOption.any fun response => response.status = 201) = true := by decide +kernel
  obtain ⟨⟨r, w⟩, hrun, hcheck⟩ := (Option.any_eq_true _ _).mp hstate
  obtain ⟨response, rfl, hstatus⟩ := exists_ok_of_any hcheck
  have hparsed : testApp.platform.parseUrl slashedUrl =
      some ⟨"https:", "status.example", "status.example", "//status-lists//x/"⟩ := by
    decide +kernel
  exact ⟨_, _, w, response, _, _, allAnswered_initial.next rfl hrun, Function.update_self 0 _ _,
    Function.update_self 0 _ _, by simpa using hstatus, by decide +kernel, hparsed,
    retrievalOf_getRequest _ rfl, run_handle.trans rfl, rfl⟩

end VcalmStatus
