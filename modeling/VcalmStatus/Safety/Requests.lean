import VcalmStatus.Safety.Handlers

/-!
The specification of the app: authentication in front of the writes, the routes, and the error
handler behind them. Every request is answered, and a request that is answered has let go of its
transaction.
-/

namespace VcalmStatus

open Js Effects Policy

variable {B : Type} (deps : AppDeps B) (env : Environment)

/-- The tenant a request acts for, by its bearer token. -/
def AppDeps.caller (tenants : TenantRegistry) (request : Request) : Option TenantRecord :=
  callerOf deps.platform deps.accessJwtSecret tenants request

/-- The response to what a handler came to. -/
def AppDeps.respond : Except JsError Response → Response
  | .ok response => response
  | .error e => errorHandler deps.platform e

section Specification

variable (P : Policy) (i : Nat) (s : World) (request : Request)

/-- How a write ends: refused for want of a tenant, or as its handler ends for the tenant. -/
def Authenticated (E : World → TenantRecord → Except JsError Response → World → Prop)
    (r : Except JsError Response) (t : World) : Prop :=
  match deps.caller env.tenants request with
  | none => ∃ detail, r = .error (unauthorized detail)
  | some tenant => ∃ u, P.Interference i s u ∧ E u tenant r t

/-- How a request ends, by the route it took. -/
structure Dispatched (r : Except JsError Response) (t : World) : Prop where
  idle : t.Idle i
  create : request.method = "POST" → request.path = "/status-lists" →
    Authenticated deps env P i s request
      (fun u tenant => CreateEnds deps env P i u request tenant) r t
  allocate : request.method = "POST" → request.path = "/credentials/status/allocate" →
    Authenticated deps env P i s request
      (fun u tenant => AllocateEnds deps env P u request tenant) r t
  update : request.method = "POST" → request.path = "/credentials/status" →
    Authenticated deps env P i s request
      (fun u tenant => UpdateEnds deps env P u request tenant) r t

end Specification

variable {deps env} {P : Policy} {i : Nat} {s : World} {request : Request}

theorem tenantAuth_serves (hn : s.NotCommitted i) :
    P.Serves env i (tenantAuth deps.platform deps.accessJwtSecret request)
      (Ends
        (fun tenant t => P.Interference i s t ∧ deps.caller env.tenants request = some tenant)
        (fun e t => P.Interference i s t ∧ deps.caller env.tenants request = none ∧
          ∃ detail, e = unauthorized detail)) s := by
  unfold tenantAuth AppDeps.caller callerOf
  cases htoken : bearerToken deps.platform (request.header "Authorization") with
  | none => exact Serves.fail fun t ht _ => ⟨ht, rfl, _, rfl⟩
  | some token =>
      -- The answer of the registry decides, whichever way the token is looked up.
      have answered : ∀ (t : World) (tenant : Option TenantRecord), P.Interference i s t →
          P.Serves env i
            (match tenant with
            | none => throw (unauthorized "The bearer token is not valid for any tenant.")
            | some tenant => pure tenant)
            (Ends (fun found u => P.Interference i s u ∧ tenant = some found)
              (fun e u => P.Interference i s u ∧ tenant = none ∧
                ∃ detail, e = unauthorized detail)) t := by
        intro t tenant ht
        cases tenant with
        | none => exact Serves.fail fun u hu _ => ⟨ht.trans hu, rfl, _, rfl⟩
        | some found => exact Serves.ret fun u hu _ => ⟨ht.trans hu, rfl⟩
      simp only [Option.bind_eq_bind, Option.bind_some, resolveTenant]
      cases tenantIdFromAccessToken deps.platform request.receivedAt token
          deps.accessJwtSecret with
      | none =>
          refine Serves.quiet (.getTenantByToken token) rfl hn fun t tenant ht _ htenant => ?_
          have htenant : tenant = env.tenants.getTenantByToken token := htenant
          exact htenant ▸ answered t tenant ht
      | some tenantId =>
          refine Serves.quiet (.getTenant tenantId) rfl hn fun t tenant ht _ htenant => ?_
          have htenant : tenant = env.tenants.getTenant tenantId := htenant
          exact htenant ▸ answered t tenant ht

theorem authenticated_serves {handler : Request → TenantRecord → Async Response}
    {E : World → TenantRecord → Except JsError Response → World → Prop}
    (hn : s.NotCommitted i) (hidle : s.Idle i)
    (hhandler : ∀ tenant u, deps.caller env.tenants request = some tenant →
      u.NotCommitted i → u.Idle i →
      P.Serves env i (handler request tenant) (fun r t => t.Idle i ∧ E u tenant r t) u) :
    P.Serves env i (authenticated deps request handler)
      (fun r t => t.Idle i ∧ Authenticated deps env P i s request E r t) s := by
  refine Serves.seq (tenantAuth_serves hn) ?_ ?_
  · rintro tenant u _ ⟨hu, hcaller⟩
    refine (hhandler tenant u hcaller (hu.notCommitted hn) (hu.idle hidle)).imp ?_
    rintro r t _ ⟨hit, hE⟩
    refine ⟨hit, ?_⟩
    rw [Authenticated, hcaller]
    exact ⟨u, hu, hE⟩
  · rintro e t _ ⟨ht, hcaller, hdetail⟩
    refine ⟨ht.idle hidle, ?_⟩
    obtain ⟨detail, rfl⟩ := hdetail
    rw [Authenticated, hcaller]
    exact ⟨detail, rfl⟩

theorem getStatusListHandler_serves {id : String} (hn : s.NotCommitted i) (hidle : s.Idle i) :
    P.Serves env i (getStatusListHandler deps request id) (fun _ t => t.Idle i) s := by
  refine Serves.quiet (.getStatusList id) rfl hn fun t record ht _ _ => ?_
  cases record with
  | none => exact Serves.fail fun u hu _ => hu.idle (ht.idle hidle)
  | some record =>
      refine Serves.quiet (.getTenant record.tenantId) rfl (ht.notCommitted hn)
        fun u tenant hu _ _ => ?_
      have hiu := hu.idle (ht.idle hidle)
      dsimp only
      split
      · exact Serves.fail fun v hv _ => hv.idle hiu
      · split <;> exact Serves.ret fun v hv _ => hv.idle hiu

/-- Every route, under a policy that grants the caller its own lists. -/
theorem dispatch_serves
    (hgrants : ∀ tenant, deps.caller env.tenants request = some tenant →
      P.Grants deps env i request tenant)
    (hn : s.NotCommitted i) (hidle : s.Idle i) :
    P.Serves env i (dispatch deps request) (Dispatched deps env P i s request) s := by
  -- A route that is not the one taken has nothing to say.
  have other : ∀ {p : Async Response}, P.Serves env i p (fun _ t => t.Idle i) s →
      request.method ≠ "POST" ∨ (request.path ≠ "/status-lists" ∧
        request.path ≠ "/credentials/status/allocate" ∧ request.path ≠ "/credentials/status") →
      P.Serves env i p (Dispatched deps env P i s request) s := by
    intro p hp hne
    refine hp.imp fun r t _ hit => ⟨hit, fun hm hpath => ?_, fun hm hpath => ?_,
      fun hm hpath => ?_⟩ <;> simp [hm, hpath] at hne
  have answer : ∀ response : Response,
      P.Serves env i (.ret response : Async Response) (fun _ t => t.Idle i) s :=
    fun response => Serves.ret fun t ht _ => ht.idle hidle
  unfold dispatch
  split
  · rename_i hm _
    exact other (answer _) (.inl (by simp [hm]))
  · rename_i hm _
    exact other (answer _) (.inl (by simp [hm]))
  · rename_i hm _ _
    refine other ?_ (.inl (by simp [hm]))
    split
    · exact getStatusListHandler_serves hn hidle
    · exact answer _
  · rename_i _ hpath
    refine (authenticated_serves hn hidle fun tenant u hcaller hnu hiu =>
      createStatusListHandler_serves (hgrants tenant hcaller) hpath hnu hiu).imp ?_
    exact fun r t _ h => ⟨h.1, fun _ _ => h.2, fun _ hp => by simp [hpath] at hp,
      fun _ hp => by simp [hpath] at hp⟩
  · rename_i _ hpath
    refine (authenticated_serves hn hidle fun tenant u hcaller hnu hiu =>
      allocateHandler_serves (hgrants tenant hcaller) (by simp [hpath])
        (getTenant_of_callerOf hcaller) hnu hiu).imp ?_
    exact fun r t _ h => ⟨h.1, fun _ hp => by simp [hpath] at hp, fun _ _ => h.2,
      fun _ hp => by simp [hpath] at hp⟩
  · rename_i _ hpath
    refine (authenticated_serves hn hidle fun tenant u hcaller hnu hiu =>
      updateCredentialStatusHandler_serves (hgrants tenant hcaller) hnu hiu).imp ?_
    exact fun r t _ h => ⟨h.1, fun _ hp => by simp [hpath] at hp,
      fun _ hp => by simp [hpath] at hp, fun _ _ => h.2⟩
  · rename_i _ _ _ hcreate hallocate hupdate
    refine other (answer _) ?_
    by_cases hm : request.method = "POST"
    · exact .inr ⟨hcreate hm, hallocate hm, hupdate hm⟩
    · exact .inl hm

theorem handle_serves
    (h : P.Serves env i (dispatch deps request) (Dispatched deps env P i s request) s) :
    P.Serves env i (handle deps request)
      (Ends (fun response t => ∃ r, Dispatched deps env P i s request r t ∧
        response = deps.respond r) (fun _ _ => False)) s :=
  Safe.recover h (fun response _ hr => ⟨.ok response, hr, rfl⟩) fun e _ hr => ⟨.error e, hr, rfl⟩

end VcalmStatus
