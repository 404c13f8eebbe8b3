import VcalmStatus.App.Runs
import VcalmStatus.App.TestRequests
import VcalmStatus.Safety.OwnRuns

/-!
To a tenant the lists of others do not exist. The same request, sent to two services that agree on
what is the tenant's and on nothing else, is answered with the same words: where a list of somebody
else is named, and whatever is wrong with it, the refusal is the one for no list at all.
-/

namespace VcalmStatus

open Js Effects Program

variable {B : Type} {deps : AppDeps B} {tenantId : String} {i : Nat} {env₁ env₂ : Environment}
  {w₁ w₂ : World} {request : Request} {tenant : TenantRecord} {α : Type}

/-- An explicit selector: before the owner is known, every refusal is the same one. -/
theorem setByExplicitSelector_sameRun (h : SameView tenantId i env₁ env₂ w₁ w₂)
    (body : UpdateCredentialStatusBody) :
    SameRun tenantId i env₁ env₂ w₁ w₂ (setByExplicitSelector deps tenantId body) := by
  unfold setByExplicitSelector
  split
  case h_2 => exact .fail h _
  case h_1 statusListIndex url hindex hurl =>
      rw [listFromUrl]
      cases listIdFromUrl deps.platform url with
      | error e => exact .fail h e
      | ok id =>
          rw [Program.ofExcept_ok, Program.ret_bind, bind_assoc]
          refine h.getStatusList (fun list hne => ?_) (.fail (.refl h)) fun list hlist => ?_
          · -- Not the URL's list, or not the tenant's: the same words.
            by_cases hcanonical : canonicalUrlOf deps.publicBaseUrl list = url
            · rw [Option.filter_some, if_pos (by simpa using hcanonical)]
              show ite (list.tenantId ≠ tenantId) _ _ = _
              rw [if_pos hne]
              rfl
            · rw [Option.filter_some, if_neg (by simpa using hcanonical)]
              rfl
          · obtain ⟨rfl, htenant, hid⟩ := StatusListManager.hasList_of_eq hlist
            by_cases hcanonical : canonicalUrlOf deps.publicBaseUrl list = url
            · rw [Option.filter_some, if_pos (by simpa using hcanonical)]
              show SameRun tenantId i env₁ env₂ w₁ w₂ (ite (list.tenantId ≠ tenantId) _ _)
              rw [if_neg (by simp [htenant])]
              split
              · exact .fail h _
              · refine SameRun.bind (.ofExcept h _) fun n _ _ h₁ => ?_
                exact StatusListManager.setStatus_sameRun h₁.toSameView
                  (h₁.steady₁.hasList hid) n _
            · rw [Option.filter_some, if_neg (by simpa using hcanonical)]
              exact .fail (.refl h)

theorem changeStatus_sameRun (h : SameView tenantId i env₁ env₂ w₁ w₂)
    (body : UpdateCredentialStatusBody) :
    SameRun tenantId i env₁ env₂ w₁ w₂ (changeStatus deps tenantId body) := by
  unfold changeStatus
  split
  · exact setByExplicitSelector_sameRun h body
  · exact StatusListManager.setCredentialStatus_sameRun h _ _ _

theorem updateCredentialStatusHandler_alike (h : SameView tenant.tenantId i env₁ env₂ w₁ w₂) :
    Alike (World.step env₁ i) (World.step env₂ i)
      (fun _ => SameView tenant.tenantId i env₁ env₂)
      (updateCredentialStatusHandler deps request tenant)
      (updateCredentialStatusHandler deps request tenant) w₁ w₂ := by
  have hrun : SameRun tenant.tenantId i env₁ env₂ w₁ w₂
      (updateCredentialStatusHandler deps request tenant) := by
    refine SameRun.bind (.ofExcept h _) fun body _ _ h₁ => ?_
    refine SameRun.bind (changeStatus_sameRun h₁.toSameView body) fun change _ _ h₂ => ?_
    exact .ret h₂.toSameView _
  exact hrun.imp fun _ _ _ h₁ => h₁.toSameView

theorem allocateHandler_alike (h : SameView tenant.tenantId i env₁ env₂ w₁ w₂)
    (hf₁ : w₁.Fresh env₁) (hf₂ : w₂.Fresh env₂) :
    Alike (World.step env₁ i) (World.step env₂ i)
      (fun _ => SameView tenant.tenantId i env₁ env₂)
      (allocateHandler deps request tenant) (allocateHandler deps request tenant) w₁ w₂ := by
  refine Alike.bind (SameRun.ofExcept h _) ?_ fun _ _ _ h₁ => h₁.toSameView
  intro input t₁ t₂ h₁
  refine Alike.bind (StatusListManager.allocateForCredential_alike h₁.toSameView
    (h₁.steady₁.fresh hf₁) (h₁.steady₂.fresh hf₂) _ _ _) ?_ fun _ _ _ h₂ => h₂
  exact fun r _ _ h₂ => .ofExcept h₂

/-- Authentication asks the registry, which is the same in both. -/
theorem tenantAuth_alike {Q : Except JsError α → World → World → Prop}
    {f : TenantRecord → Async α} (h : SameView tenantId i env₁ env₂ w₁ w₂)
    (hcaller : deps.caller env₁.tenants request = some tenant)
    (hf : ∀ t₁ t₂, Still tenantId i env₁ env₂ w₁ w₂ t₁ t₂ →
      Alike (World.step env₁ i) (World.step env₂ i) Q (f tenant) (f tenant) t₁ t₂) :
    Alike (World.step env₁ i) (World.step env₂ i) Q
      (tenantAuth deps.platform deps.accessJwtSecret request >>= f)
      (tenantAuth deps.platform deps.accessJwtSecret request >>= f) w₁ w₂ := by
  obtain ⟨token, htoken, hfound⟩ := Option.bind_eq_some_iff.mp hcaller
  rw [tenantAuth, htoken]
  dsimp only
  rw [bind_assoc, resolveTenant]
  cases hid : tenantIdFromAccessToken deps.platform request.receivedAt token
      deps.accessJwtSecret with
  | none =>
      rw [hid] at hfound
      have hanswer : (w₁.respond env₁ i (.getTenantByToken token)).1 = some tenant := hfound
      refine h.await trivial fun t₁ t₂ h₁ => ?_
      rw [hanswer]
      exact hf t₁ t₂ h₁
  | some id =>
      rw [hid] at hfound
      have hanswer : (w₁.respond env₁ i (.getTenant id)).1 = some tenant := hfound
      refine h.await trivial fun t₁ t₂ h₁ => ?_
      rw [hanswer]
      exact hf t₁ t₂ h₁

/-- The two routes that answer from the tenant's lists. -/
def credentialPaths : List String := ["/credentials/status", "/credentials/status/allocate"]

theorem handle_alike (h : SameView tenant.tenantId i env₁ env₂ w₁ w₂) (hf₁ : w₁.Fresh env₁)
    (hf₂ : w₂.Fresh env₂) (hmethod : request.method = "POST")
    (hpath : request.path ∈ credentialPaths)
    (hcaller : deps.caller env₁.tenants request = some tenant) :
    Alike (World.step env₁ i) (World.step env₂ i)
      (fun _ => SameView tenant.tenantId i env₁ env₂)
      (handle deps request) (handle deps request) w₁ w₂ := by
  refine Alike.tryCatch (Q := fun _ => SameView tenant.tenantId i env₁ env₂) ?_
    (fun _ _ _ h₁ => h₁) fun e _ _ h₁ => .ret h₁
  simp only [credentialPaths, List.mem_cons, List.not_mem_nil, or_false] at hpath
  rcases hpath with hpath | hpath
  · rw [dispatch_update hmethod hpath]
    exact tenantAuth_alike h hcaller fun _ _ h₁ => updateCredentialStatusHandler_alike h₁.toSameView
  · have hdispatch : dispatch deps request = authenticated deps request (allocateHandler deps) := by
      simp [dispatch, hmethod, hpath]
    rw [hdispatch]
    exact tenantAuth_alike h hcaller fun _ _ h₁ =>
      allocateHandler_alike h₁.toSameView (h₁.steady₁.fresh hf₁) (h₁.steady₂.fresh hf₂)

/-! ### From reachable states -/

variable {requests requests₁ requests₂ : Nat → Option Request}

/-- In every state the service reaches, allocations are in lists of their tenant, and a request
that was not sent has no transaction. -/
theorem owned_of_inv {env : Environment} {tenants : TenantRegistry} {lawful : Prop}
    {issued : StatusListRecord → Prop} {w : World}
    (hI : (requestPolicy deps tenants lawful issued requests).Inv env w)
    (hi : requests i = none) : w.db.Owned ∧ w.transaction i = {} := by
  refine ⟨⟨hI.ids_nodup, fun a ha => ?_⟩, ?_⟩
  · obtain ⟨row, hrow, hid, hfits⟩ := hI.fits a ha
    exact ⟨row, hrow, hid, hfits.1⟩
  · have hrow : (w.transaction i).row = none := by
      cases hrow : (w.transaction i).row with
      | none => rfl
      | some row =>
          obtain ⟨_, _, request, _, hsent, _⟩ := hI.held i row hrow
          rw [hi] at hsent
          cases hsent
    have hwrite : (w.transaction i).write = none := by
      cases hwrite : (w.transaction i).write with
      | none => rfl
      | some u =>
          obtain ⟨row, hsome, _⟩ := hI.staged i u hwrite
          rw [hrow] at hsome
          cases hsome
    calc w.transaction i = ⟨(w.transaction i).row, (w.transaction i).write⟩ := rfl
      _ = {} := by rw [hrow, hwrite]

/-- Two services, each after any run of requests of its own, that agree on what is one tenant's: a
request of that tenant that was not sent before cannot tell them apart. -/
theorem sameView_of_reaches {q₁ q₂ : Pool Operation Operation.Answer JsError (Option Response)
      World Nat} (hq₁ : Reaches deps env₁ requests₁ q₁) (hq₂ : Reaches deps env₂ requests₂ q₂)
    (hi₁ : requests₁ i = none) (hi₂ : requests₂ i = none)
    (hview : q₁.state.db.ofTenant tenantId = q₂.state.db.ofTenant tenantId)
    (houtside : env₁.AnswersAlike q₁.state.tick env₂ q₂.state.tick) :
    SameView tenantId i env₁ env₂ q₁.state q₂.state := by
  obtain ⟨howned₁, htransaction₁⟩ :=
    owned_of_inv (hq₁.good False (fun _ => True) False.elim (providesIssuer_true env₁)).inv hi₁
  obtain ⟨howned₂, htransaction₂⟩ :=
    owned_of_inv (hq₂.good False (fun _ => True) False.elim (providesIssuer_true env₂)).inv hi₂
  exact ⟨hview, howned₁, howned₂, htransaction₁.trans htransaction₂.symm, houtside⟩

/-- **To a tenant, other tenants' lists do not exist.** Take any two states that services reach, with
whatever requests under way, which agree on the lists and allocations of a tenant and from which
registry, clock, random source, ids and signer answer alike. A request of that tenant to
`POST /credentials/status` or `POST /credentials/status/allocate` that comes to an end in both has
the same response in both, and leaves them agreeing on what is the tenant's; and where every
earlier request has been answered, it does come to an end. -/
theorem other_tenants_unseen {B : Type} (deps : AppDeps B) (env₁ env₂ : Environment)
    (requests₁ requests₂ : Nat → Option Request)
    (q₁ q₂ : Pool Operation Operation.Answer JsError (Option Response) World Nat)
    (hq₁ : Reaches deps env₁ requests₁ q₁) (hq₂ : Reaches deps env₂ requests₂ q₂)
    (i : Nat) (hi₁ : requests₁ i = none) (hi₂ : requests₂ i = none)
    (request : Request) (hmethod : request.method = "POST")
    (hpath : request.path ∈ credentialPaths) (tenant : TenantRecord)
    (hcaller : deps.caller env₁.tenants request = some tenant)
    (hview : q₁.state.db.ofTenant tenant.tenantId = q₂.state.db.ofTenant tenant.tenantId)
    (houtside : env₁.AnswersAlike q₁.state.tick env₂ q₂.state.tick)
    (hfresh₁ : q₁.state.Fresh env₁) (hfresh₂ : q₂.state.Fresh env₂) :
    (∀ answer₁ w₁ answer₂ w₂,
      (handle deps request).run (World.step env₁ i) q₁.state = some (answer₁, w₁) →
      (handle deps request).run (World.step env₂ i) q₂.state = some (answer₂, w₂) →
      answer₁ = answer₂ ∧
        w₁.db.ofTenant tenant.tenantId = w₂.db.ofTenant tenant.tenantId) ∧
    ∀ responses₁ responses₂ : Nat → Option Response,
      (∀ j, (q₁.thread j).outcome? = some (.ok (responses₁ j))) →
      (∀ j, (q₂.thread j).outcome? = some (.ok (responses₂ j))) →
      ∃ response w₁ w₂,
        (handle deps request).run (World.step env₁ i) q₁.state = some (.ok response, w₁) ∧
        (handle deps request).run (World.step env₂ i) q₂.state = some (.ok response, w₂) ∧
        w₁.db.ofTenant tenant.tenantId = w₂.db.ofTenant tenant.tenantId := by
  have hview := sameView_of_reaches hq₁ hq₂ hi₁ hi₂ hview houtside
  have halike := handle_alike hview hfresh₁ hfresh₂ hmethod hpath hcaller
  refine ⟨fun answer₁ w₁ answer₂ w₂ hrun₁ hrun₂ => ?_, fun responses₁ responses₂ hall₁ hall₂ => ?_⟩
  · obtain ⟨hanswer, hafter⟩ := halike _ _ _ _ hrun₁ hrun₂
    exact ⟨hanswer, hafter.view⟩
  · have hsettled₁ := AllAnswered.settled False (fun _ => True) ⟨q₁, hq₁, rfl, hall₁⟩ False.elim
      (providesIssuer_true env₁)
    have hsettled₂ := AllAnswered.settled False (fun _ => True) ⟨q₂, hq₂, rfl, hall₂⟩ False.elim
      (providesIssuer_true env₂)
    obtain ⟨response, _, w₁, _, hrun₁, _⟩ := hsettled₁.handle request False.elim rfl hi₁
    obtain ⟨_, _, w₂, _, hrun₂, _⟩ := hsettled₂.handle request False.elim rfl hi₂
    obtain ⟨hanswer, hafter⟩ := halike _ _ _ _ hrun₁ hrun₂
    cases hanswer
    exact ⟨response, w₁, w₂, hrun₁, hrun₂, hafter.view⟩

/-- A world around the fixtures that always answers the same; only its first id may be another. -/
def stillEnvironment (firstId : String) (hid : firstId ∉ dotSegments) : Environment where
  dialect := .postgres
  tenants := testTenants
  signing := FakeSigningService.toService fun _ => "0"
  now _ := 1786147200000
  newDate _ := 1786147200000
  randomIndex _ _ := 0
  generateId tick := if tick = 0 then firstId else "list-1"
  randomIndex_lt _ _ h := h
  generateId_segment tick := by
    split
    · exact hid
    · decide

/-- `acme` names the list of `globex` in an update: it hears what it would hear if there were no
list at all. -/
theorem other_tenants_unseen_selector :
    ∃ w, handled (stillEnvironment "list-0" (by decide)) World.initial 0
        [fromGlobex createRequest] = some w ∧
      (∃ list ∈ w.db.statusLists, list.id = "list-0" ∧ list.tenantId = "globex") ∧
      ∃ response w₁ w₂,
        (handle testApp (updateRequest (selectorText "urn:uuid:1" "5" firstUrl))).run
          (World.step (stillEnvironment "list-1" (by decide)) 1) World.initial =
            some (.ok response, w₁) ∧
        (handle testApp (updateRequest (selectorText "urn:uuid:1" "5" firstUrl))).run
          (World.step (stillEnvironment "list-0" (by decide)) 1) w = some (.ok response, w₂) ∧
        w₁.db.ofTenant "acme" = w₂.db.ofTenant "acme" := by
  have hcomputed : ((handled (stillEnvironment "list-0" (by decide)) World.initial 0
      [fromGlobex createRequest]).any fun w => w.tick = 5 && w.db.indexAllocations.isEmpty &&
        w.db.statusLists.map (fun row => (row.id, row.tenantId)) = [("list-0", "globex")]) =
      true := by
    decide +kernel
  obtain ⟨w, hw, hspec⟩ := (Option.any_eq_true _ _).mp hcomputed
  simp only [Bool.and_eq_true, decide_eq_true_eq, List.isEmpty_iff] at hspec
  obtain ⟨⟨htick, hallocations⟩, hlists⟩ := hspec
  obtain ⟨list, hlist, hpair⟩ : ∃ list, w.db.statusLists = [list] ∧
      (list.id, list.tenantId) = ("list-0", "globex") := by
    obtain ⟨list, hlist⟩ := List.length_eq_one_iff.mp (by
      simpa using congrArg List.length hlists : w.db.statusLists.length = 1)
    rw [hlist] at hlists
    exact ⟨list, hlist, by simpa using hlists⟩
  rw [Prod.mk.injEq] at hpair
  refine ⟨w, hw, ⟨list, by simp [hlist], hpair⟩, ?_⟩
  obtain ⟨requests, responses, ⟨q, hq, rfl, hall⟩, hfree⟩ := allAnswered_of_handled hw
  refine (other_tenants_unseen testApp (stillEnvironment "list-1" (by decide))
    (stillEnvironment "list-0" (by decide)) (fun _ => none) requests _ q .refl hq 1 rfl hfree
    (updateRequest (selectorText "urn:uuid:1" "5" firstUrl)) rfl (by decide) (testTenant "acme")
    (caller_postRequest _ _) ?_ ?_ ?_ ?_).2 (fun _ => none) responses (fun _ => rfl) hall
  · show Database.empty.ofTenant "acme" = q.state.db.ofTenant "acme"
    simp [Database.ofTenant, Database.empty, hlist, hallocations, hpair.2]
  · show Environment.AnswersAlike _ 0 _ q.state.tick
    rw [htick]
    refine ⟨rfl, fun _ => rfl, fun _ => rfl, fun _ => rfl, fun k => ?_, fun _ => rfl, fun _ => rfl⟩
    show (if 0 + k = 0 then "list-1" else "list-1") = if 5 + k = 0 then "list-0" else "list-1"
    simp
  · exact fun _ => rfl
  · intro k
    have hid : (stillEnvironment "list-0" (by decide)).generateId (q.state.tick + k) =
        "list-1" := if_neg (by omega)
    rw [hid, Database.getStatusList_eq_none, hlist]
    simp [hpair.1]

end VcalmStatus
