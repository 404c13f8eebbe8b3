import VcalmStatus.Safety.Served

/-!
The states a service reaches. Any number of requests run at once from an empty database; a request
that was not sent is a thread with nothing to do. Between requests, when every one that was sent
has been answered, nobody holds anything and the next request has the service to itself.
-/

namespace VcalmStatus

open Js Effects Policy

variable {B : Type} (deps : AppDeps B) (env : Environment)

/-- The thread of a request, if there is one. -/
def serve : Option Request → Async (Option Response)
  | none => pure none
  | some request => do
      let response ← handle deps request
      pure (some response)

/-- The service before any of the requests was looked at. -/
def requestPool (requests : Nat → Option Request) :
    Pool Operation Operation.Answer JsError (Option Response) World Nat :=
  ⟨World.initial, fun i => serve deps (requests i)⟩

/-- The states in which any of the requests may be under way. -/
def Reaches (requests : Nat → Option Request)
    (q : Pool Operation Operation.Answer JsError (Option Response) World Nat) : Prop :=
  Pool.Run (World.step env) (requestPool deps requests) q

/-- The states in which every request that was sent has been answered, by these responses. -/
def AllAnswered (requests : Nat → Option Request) (responses : Nat → Option Response)
    (w : World) : Prop :=
  ∃ q, Reaches deps env requests q ∧ q.state = w ∧
    ∀ i, (q.thread i).outcome? = some (.ok (responses i))

/-- What a thread has come to that was started in `s`. -/
def Ended (P : Policy) (i : Nat) (s : World) :
    Option Request → Except JsError (Option Response) → World → Prop
  | none => fun answer t => t.Idle i ∧ answer = .ok none
  | some request => fun answer t => ∃ r, Dispatched deps env P i s request r t ∧
      answer = .ok (some (deps.respond r))

variable {deps env} {lawful : Prop} {issued : StatusListRecord → Prop}
  {requests : Nat → Option Request} {responses : Nat → Option Response} {i : Nat}

theorem serve_serves {P : Policy} {request : Option Request} {s : World}
    (hgrants : ∀ r tenant, request = some r → deps.caller env.tenants r = some tenant →
      P.Grants deps env i r tenant) (hn : s.NotCommitted i) (hidle : s.Idle i) :
    P.Serves env i (serve deps request)
      (Ended deps env P i s request) s := by
  cases request with
  | none => exact Serves.ret fun t ht _ => ⟨ht.idle hidle, rfl⟩
  | some request =>
      refine (handle_serves (dispatch_serves (fun tenant => hgrants request tenant rfl) hn
        hidle)).map ?_
      rintro (e | response) t h
      · exact h.elim
      · obtain ⟨r, hr, rfl⟩ := h
        exact ⟨r, hr, rfl⟩

variable (deps) in
/-- A service that has not started yet keeps to the policy of its requests. -/
theorem requestPool_good (hagrees : lawful → env.signing.Agrees)
    (hissued : ProvidesIssuer env issued) (requests : Nat → Option Request) :
    Pool.Good ((requestPolicy deps env.tenants lawful issued requests).discipline env)
      (fun i => Ended deps env (requestPolicy deps env.tenants lawful issued requests) i
        World.initial (requests i)) (requestPool deps requests) :=
  good_of (Policy.accepts_empty _) fun i =>
    serve_serves (fun _ _ hr hcaller => requestPolicy_grants hagrees hissued hr hcaller)
      (notCommitted_of i) (idle_of i)

section Run

variable {q : Pool Operation Operation.Answer JsError (Option Response) World Nat}

variable (lawful issued) in
theorem Reaches.good (h : Reaches deps env requests q) (hagrees : lawful → env.signing.Agrees)
    (hissued : ProvidesIssuer env issued) :
    Pool.Good ((requestPolicy deps env.tenants lawful issued requests).discipline env)
      (fun i => Ended deps env (requestPolicy deps env.tenants lawful issued requests) i
        World.initial (requests i)) q :=
  run_good (requestPool_good deps hagrees hissued requests) h

variable (lawful issued) in
theorem Reaches.recorded (h : Reaches deps env requests q)
    (hagrees : lawful → env.signing.Agrees) (hissued : ProvidesIssuer env issued) :
    (requestPolicy deps env.tenants lawful issued requests).Recorded Database.empty q.state :=
  run_recorded (requestPool_good deps hagrees hissued requests) h (recorded_of _ _)

/-- Whatever is in the log, a request of a tenant put it there. -/
theorem owner_of_history {log : List Event} {db : Database} {tenants : TenantRegistry}
    (h : History (requestPolicy deps tenants lawful issued requests) Database.empty log db) :
    ∀ e ∈ log, (requests e.owner).isSome = true := by
  induction h with
  | start => exact nofun
  | @snoc log db e h he ih =>
      intro e' he'
      rcases List.mem_append.mp he' with he' | he'
      · exact ih e' he'
      · rw [List.mem_singleton.mp he']
        have hacts : ∃ tenantId, ActsFor deps tenants requests e.owner tenantId := by
          cases e with
          | created j row => exact ⟨_, he.2.2.1⟩
          | allocated j a => exact ⟨_, he.2.1⟩
          | committed j row write => exact ⟨_, he.2.1⟩
        obtain ⟨_, request, _, hrequest, _⟩ := hacts
        rw [hrequest]
        rfl

end Run

/-! ### Between requests -/

theorem allAnswered_initial : AllAnswered deps env (fun _ => none) (fun _ => none) World.initial :=
  ⟨_, .refl, rfl, fun _ => rfl⟩

/-- Another request may be handled by itself once the ones before it are answered. -/
theorem AllAnswered.next {w w' : World} {request : Request} {response : Response}
    (h : AllAnswered deps env requests responses w) (hi : requests i = none)
    (hrun : (VcalmStatus.handle deps request).run (World.step env i) w =
      some (.ok response, w')) :
    AllAnswered deps env (Function.update requests i (some request))
      (Function.update responses i (some response)) w' := by
  obtain ⟨q, hq, rfl, hanswered⟩ := h
  have hidle : ((requestPool deps requests).thread i).outcome? = some (.ok none) := by
    change (serve deps (requests i)).outcome? = _
    rw [hi]
    rfl
  obtain ⟨_, hreplaced⟩ := hq.replace_finished hidle (serve deps (some request))
  have hpool : requestPool deps (Function.update requests i (some request)) =
      ⟨World.initial, Function.update (requestPool deps requests).thread i
        (serve deps (some request))⟩ := by
    refine congrArg (Pool.mk World.initial) (funext fun j => ?_)
    by_cases hj : j = i
    · subst hj
      simp
    · simp [requestPool, Function.update_of_ne hj]
  have hserve : (serve deps (some request)).run (World.step env i) q.state =
      some (.ok (some response), w') := by
    rw [serve, Program.run_bind, hrun]
    rfl
  obtain ⟨y, hy, hlast⟩ := Pool.run_of_program
    (T := Function.update q.thread i (serve deps (some request))) (by simp) hserve
  refine ⟨⟨w', Function.update (Function.update q.thread i (serve deps (some request))) i y⟩, ?_,
    rfl, fun j => ?_⟩
  · rw [Reaches, hpool]
    exact hreplaced.trans hlast
  · by_cases hj : j = i
    · subst hj
      simpa using hy
    · simpa [Function.update_of_ne hj] using hanswered j

/-- What is known between requests, under the policy of those that came before. -/
structure Settled (P : Policy) (requests : Nat → Option Request)
    (responses : Nat → Option Response) (deps : AppDeps B) (env : Environment) (w : World) :
    Prop where
  inv : P.Inv env w
  idle : ∀ i, w.Idle i
  recorded : P.Recorded Database.empty w
  owner : ∀ e ∈ w.log, (requests e.owner).isSome = true
  answered : ∀ {i request}, requests i = some request →
    ∃ r, Dispatched deps env P i World.initial request r w ∧ responses i = some (deps.respond r)

variable (lawful issued) in
/-- Once everything is answered, everything is settled. -/
theorem AllAnswered.settled {w : World} (h : AllAnswered deps env requests responses w)
    (hagrees : lawful → env.signing.Agrees) (hissued : ProvidesIssuer env issued) :
    Settled (requestPolicy deps env.tenants lawful issued requests) requests responses deps env
      w := by
  obtain ⟨q, hrun, rfl, hanswered⟩ := h
  have hgood := hrun.good lawful issued hagrees hissued
  have hended := fun i => hgood.outcome (hanswered i)
  refine ⟨hgood.inv, fun i => ?_, hrun.recorded lawful issued hagrees hissued,
    owner_of_history (hrun.recorded lawful issued hagrees hissued).history, fun {i request} hi => ?_⟩
  · have h := hended i
    cases hi : requests i with
    | none =>
        rw [hi] at h
        exact h.1
    | some request =>
        rw [hi] at h
        obtain ⟨r, hr, _⟩ := h
        exact hr.idle
  · have h := hended i
    rw [hi] at h
    obtain ⟨r, hr, hresponse⟩ := h
    exact ⟨r, hr, Except.ok.inj hresponse⟩

theorem Settled.notCommitted {P : Policy} {w : World}
    (h : Settled P requests responses deps env w) (hi : requests i = none) : w.NotCommitted i := by
  intro row write he
  have := h.owner _ he
  rw [show Event.owner (.committed i row write) = i from rfl, hi] at this
  cases this

/-- The policy of one request that is handled by itself. -/
abbrev onePolicy (deps : AppDeps B) (tenants : TenantRegistry) (lawful : Prop)
    (request : Request) : Policy :=
  requestPolicy deps tenants lawful (fun _ => True) fun _ => some request

/-- Between requests another environment with the same tenants finds everything in order. -/
theorem Settled.restart {env' : Environment} {w : World} (request : Request)
    (h : Settled (requestPolicy deps env.tenants lawful (fun _ => True) requests) requests
      responses deps env w) (htenants : env'.tenants = env.tenants) :
    (onePolicy deps env'.tenants lawful request).Inv env' w := by
  refine h.inv.restart h.idle (fun row _ hwf => ?_) fun row a hfits => hfits
  rw [htenants]
  exact hwf

/-- The next request, handled by itself, is answered; the environment may be another one by now, as
long as the tenants are the same. -/
theorem Settled.handle {env' : Environment} {w : World} (request : Request)
    (h : Settled (requestPolicy deps env.tenants lawful (fun _ => True) requests) requests
      responses deps env w)
    (hagrees : lawful → env'.signing.Agrees) (htenants : env'.tenants = env.tenants)
    (hi : requests i = none) :
    ∃ response r w' events,
      (VcalmStatus.handle deps request).run (World.step env' i) w = some (.ok response, w') ∧
      (onePolicy deps env'.tenants lawful request).Inv env' w' ∧
      (onePolicy deps env'.tenants lawful request).Alone i w w' events ∧
      Dispatched deps env' (onePolicy deps env'.tenants lawful request) i w request r w' ∧
      response = deps.respond r := by
  have hinv := h.restart request htenants
  have hdispatch : (onePolicy deps env'.tenants lawful request).Serves env' i
      (dispatch deps request)
      (Dispatched deps env' (onePolicy deps env'.tenants lawful request) i w request) w :=
    dispatch_serves
      (fun tenant hcaller => requestPolicy_grants hagrees (providesIssuer_true env') rfl hcaller)
      (h.notCommitted hi) (h.idle i)
  have honly : w.OnlyBy i := fun j _ => h.idle j
  obtain ⟨answer, w', hrun, _⟩ := honly.run_isSome (VcalmStatus.handle deps request)
  obtain ⟨hinv', hends, events, halone⟩ := (handle_serves hdispatch).run_alone hinv hrun
  cases answer with
  | error e => exact hends.elim
  | ok response =>
      obtain ⟨r, hr, hresponse⟩ := hends
      exact ⟨response, r, w', events, hrun, hinv', halone, hr, hresponse⟩

end VcalmStatus
