import VcalmStatus.App.TestRequests
import VcalmStatus.Effects.Protocol
import VcalmStatus.Effects.Schedule
import VcalmStatus.Safety.Moments
import VcalmStatus.Safety.Reachable

/-!
Every request is answered. A transaction is the only thing requests wait for: on SQLite it has the
one connection, on Postgres the lock of a row and a connection of the pool. A transaction that has
its row asks the database for nothing outside itself and need not wait, and one that has not waits
for nothing but the row; so whoever waits does so for a transaction that is further, and since a
handler is a finite program, requests come to an end in whatever order they take turns.
-/

namespace VcalmStatus

open Js Effects

/-! ### The queries of a transaction -/

/-- The queries that are sent to a transaction (`trx`) and not to the database. -/
def Operation.onTransaction : Operation → Bool
  | .lockStatusList _ | .updateStatusListRow _ _ _ _ | .commit | .rollback => true
  | _ => false

/-- The queries that begin a transaction or are sent to one. -/
def Operation.ofTransaction : Operation → Bool
  | .beginTransaction => true
  | o => o.onTransaction

inductive Phase
  | idle
  | opened
  | locked
  deriving DecidableEq, Repr

/-- A transaction opens, locks its row, and from then on is the only thing its request uses of the
database until it ends. -/
def transactions : Protocol Operation Phase where
  Allows
    | .idle, o => o.onTransaction = false
    | .opened, o => ∃ id, o = .lockStatusList id
    | .locked, o => o.usesDatabase = false ∨ o = .commit ∨ o = .rollback ∨
        ∃ id m version updatedAt, o = .updateStatusListRow id m version updatedAt
  next
    | .idle, .beginTransaction => .opened
    | .opened, .lockStatusList _ => .locked
    | .locked, .commit => .idle
    | .locked, .rollback => .idle
    | phase, _ => phase

section Programs

variable {α B : Type}

/-- A program that leaves no transaction open. -/
abbrev LeavesIdle (p : Async α) : Prop := Steady transactions .idle p

/-- What a transaction may do once it has its row. -/
abbrev StaysLocked (p : Async α) : Prop := Steady transactions .locked p

theorem leavesIdle_await {o : Operation} (ho : o.ofTransaction = false) :
    LeavesIdle (await o) := by
  obtain ⟨hon, hnext⟩ : o.onTransaction = false ∧ transactions.next .idle o = .idle := by
    cases o <;> simp_all [Operation.ofTransaction, Operation.onTransaction, transactions]
  exact .call hon hnext fun _ => rfl

theorem outside_transaction {o : Operation} (ho : o.usesDatabase = false) :
    o.ofTransaction = false ∧ transactions.next .locked o = .locked := by
  cases o <;> simp_all [Operation.ofTransaction, Operation.onTransaction, Operation.usesDatabase,
    transactions]

/-- What goes past the database may be asked for in a transaction as well. -/
theorem steady_await {o : Operation} {phase : Phase} (ho : o.usesDatabase = false)
    (hphase : phase ≠ .opened) : Steady transactions phase (await o) := by
  cases phase with
  | idle => exact leavesIdle_await (outside_transaction ho).1
  | opened => exact absurd rfl hphase
  | locked => exact .call (.inl ho) (outside_transaction ho).2 fun _ => rfl

/-- Whatever its body throws, a transaction ends. -/
theorem transaction_leavesIdle {T : Type} {body : Async T}
    (h : KeepsTo transactions body (fun _ phase => phase = .locked) .opened) :
    LeavesIdle (transaction body) := by
  refine ⟨rfl, fun _ => KeepsTo.tryCatch (KeepsTo.bind (h.imp fun r phase hphase => ?_))⟩
  subst hphase
  cases r with
  | ok result => exact ⟨.inr (.inl rfl), fun _ => rfl⟩
  | error e => exact ⟨.inr (.inr (.inl rfl)), fun _ => rfl⟩

theorem updateStatusList_leavesIdle {T : Type} {id : String}
    {mutate : StatusListRecord → Async (StatusListMutationResult T)}
    (h : ∀ current, StaysLocked (mutate current)) :
    LeavesIdle (SqlStorage.updateStatusList id mutate) := by
  refine transaction_leavesIdle ⟨⟨id, rfl⟩, fun row => ?_⟩
  cases row with
  | none => rfl
  | some current =>
      show KeepsTo transactions (mutate current >>= _) _ .locked
      refine Steady.bind (h current) fun outcome => ?_
      split
      · exact (steady_await rfl (by decide)).bind fun updatedAt =>
          .call (.inr (.inr (.inr ⟨_, _, _, _, rfl⟩))) rfl fun _ => rfl
      · rfl

end Programs

/-! ### The manager -/

namespace StatusListManager

variable {B : Type} (deps : ManagerDeps B)

theorem materialize_steady {phase : Phase} (hphase : phase ≠ .opened) (url : String)
    (issuerInstance : IssuerInstance) (statusPurpose : StatusPurpose) (list : B)
    (ttl : Option Nat) :
    Steady transactions phase (materialize deps url issuerInstance statusPurpose list ttl) := by
  have hdid : Steady transactions phase (issuerDid issuerInstance) :=
    (steady_await rfl hphase).bind fun did => .ofExcept did
  have hsign : ∀ unsigned, Steady transactions phase (sign issuerInstance unsigned) :=
    fun unsigned => (steady_await rfl hphase).bind fun signed => .ofExcept signed
  exact hdid.bind fun issuer => (steady_await rfl hphase).bind fun now =>
    (hsign _).bind fun signed => rfl

theorem createStatusList_leavesIdle (record : NewStatusListRecord) :
    LeavesIdle (SqlStorage.createStatusList record) := by
  refine (leavesIdle_await rfl).bind fun now => ?_
  refine (leavesIdle_await rfl).bind fun inserted => ?_
  split
  · rfl
  · refine (leavesIdle_await rfl).bind fun existing => ?_
    split <;> rfl

theorem createList_leavesIdle (input : CreateStatusListInput) :
    LeavesIdle (createList deps input) := by
  have hnamed : ∀ c id, LeavesIdle (createNamed deps input c id) := fun c id =>
    (Steady.ofExcept _).bind fun list =>
      (materialize_steady deps (by decide) _ _ _ _ _).bind fun m => createStatusList_leavesIdle _
  rw [createList_eq]
  refine (Steady.ofExcept _).bind fun c => ?_
  cases input.id with
  | some id => exact hnamed c id
  | none => exact (leavesIdle_await rfl).bind fun id => hnamed c id

theorem applyStatus_staysLocked (current : StatusListRecord) (issuerInstance : IssuerInstance)
    (statusListIndex : Number) (status : Bool) :
    StaysLocked (applyStatus deps current issuerInstance statusListIndex status) := by
  rw [applyStatus]
  split
  · rfl
  · refine (Steady.ofExcept _).bind fun list => (Steady.ofExcept _).bind fun held => ?_
    split
    · rfl
    · exact (Steady.ofExcept _).bind fun list =>
        (materialize_steady deps (by decide) _ _ _ _ _).bind fun m =>
          (steady_await rfl (by decide)).bind fun updatedAt => rfl

theorem instanceFor_leavesIdle (list : StatusListRecord) : LeavesIdle (instanceFor list) := by
  refine (leavesIdle_await rfl).bind fun tenant => ?_
  split <;> rfl

theorem defaultInstanceFor_leavesIdle (tenantId : String) :
    LeavesIdle (defaultInstanceFor tenantId) := by
  refine (leavesIdle_await rfl).bind fun tenant => ?_
  split <;> rfl

theorem setStatus_leavesIdle (listId : String) (statusListIndex : Number) (status : Bool) :
    LeavesIdle (setStatus deps listId statusListIndex status) := by
  refine (leavesIdle_await rfl).bind fun list => ?_
  split
  · rfl
  · exact (instanceFor_leavesIdle _).bind fun issuerInstance =>
      updateStatusList_leavesIdle fun current =>
        applyStatus_staysLocked deps current issuerInstance statusListIndex status

theorem setCredentialStatus_leavesIdle (tenantId credentialId : String)
    (statusPurpose : StatusPurpose) (status : Bool) :
    LeavesIdle (setCredentialStatus deps tenantId credentialId statusPurpose status) := by
  refine (leavesIdle_await rfl).bind fun allocation => ?_
  split
  · rfl
  · exact setStatus_leavesIdle deps _ _ _

theorem insertAllocation_leavesIdle (allocation : NewIndexAllocation) :
    LeavesIdle (SqlStorage.allocateIndex allocation) := by
  have hclassify : LeavesIdle (SqlStorage.classifyAllocationFailure allocation driverError) := by
    refine (leavesIdle_await rfl).bind fun existing => ?_
    split
    · rfl
    · refine (leavesIdle_await rfl).bind fun taken => ?_
      split
      · rfl
      · refine (leavesIdle_await rfl).bind fun list => ?_
        split <;> rfl
  refine (leavesIdle_await rfl).bind fun now => ?_
  refine (leavesIdle_await rfl).bind fun inserted => ?_
  split
  · rfl
  · exact hclassify.bind fun _ => rfl

theorem probe_leavesIdle (allocationAt : Nat → NewIndexAllocation) (listId : String)
    (length attempts : Nat) : LeavesIdle (probe allocationAt listId length attempts) := by
  induction attempts with
  | zero => rfl
  | succ attempts ih =>
      refine (leavesIdle_await rfl).bind fun index => ?_
      refine (leavesIdle_await rfl).bind fun taken => ?_
      split
      · exact ih
      · have hinserted : LeavesIdle (do
            let created ← SqlStorage.allocateIndex (allocationAt index)
            pure (some created)) :=
          (insertAllocation_leavesIdle (allocationAt index)).bind fun _ => rfl
        refine (hinserted.tryCatch fun e => ?_).bind fun outcome => ?_
        · split <;> rfl
        · split
          · rfl
          · exact ih

theorem allocateIndex_leavesIdle (tenantId credentialId : String) (statusPurpose : StatusPurpose)
    (listId : String) : LeavesIdle (allocateIndex tenantId credentialId statusPurpose listId) := by
  refine (leavesIdle_await rfl).bind fun list => ?_
  split
  · rfl
  · exact probe_leavesIdle _ _ _ _

theorem chosenList_leavesIdle (tenantId listId : String) (statusPurpose : StatusPurpose) :
    LeavesIdle (chosenList tenantId listId statusPurpose) := by
  refine (leavesIdle_await rfl).bind fun list => ?_
  split
  · rfl
  · split <;> rfl

theorem firstUnderThreshold_leavesIdle (lists : List StatusListRecord) :
    LeavesIdle (firstUnderThreshold deps lists) := by
  induction lists with
  | nil => rfl
  | cons list lists ih =>
      refine (leavesIdle_await rfl).bind fun used => ?_
      split
      · rfl
      · exact ih

theorem listForPurpose_leavesIdle (tenantId : String) (statusPurpose : StatusPurpose) :
    LeavesIdle (listForPurpose deps tenantId statusPurpose) := by
  refine (leavesIdle_await rfl).bind fun lists => ?_
  refine (firstUnderThreshold_leavesIdle deps _).bind fun candidate => ?_
  split
  · rfl
  · exact (defaultInstanceFor_leavesIdle tenantId).bind fun issuerInstance =>
      createList_leavesIdle deps _

theorem allocateForCredential_leavesIdle (tenantId credentialId : String)
    (statusPurpose : StatusPurpose) (listId : Option String) :
    LeavesIdle (allocateForCredential deps tenantId credentialId statusPurpose listId) := by
  have hallocated : ∀ list : StatusListRecord, LeavesIdle (do
      let a ← allocateIndex tenantId credentialId statusPurpose list.id
      pure (a, list)) := fun list =>
    (allocateIndex_leavesIdle tenantId credentialId statusPurpose list.id).bind fun _ => rfl
  cases listId with
  | none => exact (listForPurpose_leavesIdle deps tenantId statusPurpose).bind hallocated
  | some listId => exact (chosenList_leavesIdle tenantId listId statusPurpose).bind hallocated

end StatusListManager

/-! ### The handlers -/

section Handlers

variable {B : Type} (deps : AppDeps B)

theorem authenticated_leavesIdle {request : Request}
    {handler : Request → TenantRecord → Async Response}
    (h : ∀ tenant, LeavesIdle (handler request tenant)) :
    LeavesIdle (authenticated deps request handler) := by
  have hresolved : ∀ token, LeavesIdle (resolveTenant deps.platform deps.accessJwtSecret
      request.receivedAt token) := by
    intro token
    unfold resolveTenant
    split <;> exact leavesIdle_await rfl
  have htenant : LeavesIdle (tenantAuth deps.platform deps.accessJwtSecret request) := by
    unfold tenantAuth
    split
    · rfl
    · refine (hresolved _).bind fun tenant => ?_
      split <;> rfl
  exact htenant.bind h

theorem createStatusListHandler_leavesIdle (request : Request) (tenant : TenantRecord) :
    LeavesIdle (createStatusListHandler deps request tenant) :=
  (Steady.ofExcept _).bind fun input =>
    (StatusListManager.createList_leavesIdle deps.manager input).bind fun _ =>
      (Steady.ofExcept _).bind fun _ => rfl

theorem allocateHandler_leavesIdle (request : Request) (tenant : TenantRecord) :
    LeavesIdle (allocateHandler deps request tenant) :=
  (Steady.ofExcept _).bind fun _ =>
    (StatusListManager.allocateForCredential_leavesIdle deps.manager _ _ _ _).bind fun _ =>
      Steady.ofExcept _

theorem setByExplicitSelector_leavesIdle (tenantId : String) (body : UpdateCredentialStatusBody) :
    LeavesIdle (setByExplicitSelector deps tenantId body) := by
  have hlist : ∀ url, LeavesIdle (listFromUrl deps url) := by
    intro url
    refine (Steady.ofExcept _).bind fun id => (leavesIdle_await rfl).bind fun record => ?_
    split <;> rfl
  unfold setByExplicitSelector
  split
  · refine (hlist _).bind fun list => ?_
    split
    · rfl
    · split
      · rfl
      · exact (Steady.ofExcept _).bind fun index =>
          StatusListManager.setStatus_leavesIdle deps.manager _ _ _
  · rfl

theorem updateCredentialStatusHandler_leavesIdle (request : Request) (tenant : TenantRecord) :
    LeavesIdle (updateCredentialStatusHandler deps request tenant) := by
  refine (Steady.ofExcept _).bind fun body => ?_
  have hchange : LeavesIdle (changeStatus deps tenant.tenantId body) := by
    unfold changeStatus
    split
    · exact setByExplicitSelector_leavesIdle deps _ _
    · exact StatusListManager.setCredentialStatus_leavesIdle deps.manager _ _ _ _
  exact hchange.bind fun change => rfl

theorem getStatusListHandler_leavesIdle (request : Request) (id : String) :
    LeavesIdle (getStatusListHandler deps request id) := by
  refine (leavesIdle_await rfl).bind fun record => ?_
  split
  · rfl
  · refine (leavesIdle_await rfl).bind fun tenant => ?_
    dsimp only
    split
    · rfl
    · split <;> rfl

theorem dispatch_leavesIdle (request : Request) : LeavesIdle (dispatch deps request) := by
  unfold dispatch
  split
  · rfl
  · rfl
  · split
    · exact getStatusListHandler_leavesIdle deps _ _
    · rfl
  · exact authenticated_leavesIdle deps (createStatusListHandler_leavesIdle deps request)
  · exact authenticated_leavesIdle deps (allocateHandler_leavesIdle deps request)
  · exact authenticated_leavesIdle deps (updateCredentialStatusHandler_leavesIdle deps request)
  · rfl

/-- How the thread of a request ends: with a response if the request was sent, and outside of any
transaction. -/
def Answered (request : Option Request) (r : Except JsError (Option Response)) (phase : Phase) :
    Prop :=
  phase = .idle ∧ ∃ response, r = .ok response ∧ response.isSome = request.isSome

theorem serve_keepsTo (request : Option Request) :
    KeepsTo transactions (serve deps request) (Answered request) .idle := by
  cases request with
  | none => exact ⟨rfl, none, rfl, rfl⟩
  | some request =>
      have hhandle : KeepsTo transactions (handle deps request)
          (fun r phase => phase = .idle ∧ ∃ response, r = .ok response) .idle := by
        refine KeepsTo.tryCatch ((dispatch_leavesIdle deps request).imp fun r phase hphase => ?_)
        cases r with
        | ok response => exact ⟨hphase, response, rfl⟩
        | error e => exact ⟨hphase, _, rfl⟩
      refine KeepsTo.bind (hhandle.imp ?_)
      rintro r phase ⟨hphase, response, rfl⟩
      exact ⟨hphase, some response, rfl, rfl⟩

end Handlers

/-! ### Who holds what -/

/-- What is held is held in a transaction, and SQLite's connection in every transaction. -/
structure Phases (env : Environment) (w : World) (phase : Nat → Phase) : Prop where
  connection : ∀ i, w.connection = some i → phase i ≠ .idle
  connected : env.dialect = .sqlite → ∀ i, phase i ≠ .idle → w.connection = some i
  holder : ∀ id i, w.holder id = some i → phase i = .locked
  transaction : ∀ i, phase i ≠ .locked → w.transaction i = {}

namespace Phases

variable {env : Environment} {w w' : World} {phase : Nat → Phase} {i : Nat}

theorem initial (env : Environment) : Phases env World.initial fun _ => .idle :=
  ⟨nofun, fun _ _ h => absurd rfl h, nofun, fun _ _ => rfl⟩

/-- A step that leaves locks and transactions alone leaves the phases alone. -/
theorem of_same (h : Phases env w phase) (hconnection : w'.connection = w.connection)
    (hholder : w'.holder = w.holder) (htransaction : w'.transaction = w.transaction) :
    Phases env w' phase :=
  ⟨hconnection ▸ h.connection, hconnection ▸ h.connected, hholder ▸ h.holder,
    htransaction ▸ h.transaction⟩

theorem opened (h : Phases env w phase) (hidle : phase i = .idle)
    (hconnection : (env.dialect = .sqlite → w'.connection = some i) ∧
      ∀ j, w'.connection = some j → w.connection = some j ∨ j = i)
    (hholder : w'.holder = w.holder) (htransaction : w'.transaction = w.transaction)
    (hfree : env.dialect = .sqlite → ∀ j, w.connection = some j → j = i) :
    Phases env w' (Function.update phase i .opened) where
  connection j hj := by
    by_cases hji : j = i
    · subst hji
      simp
    · rw [Function.update_of_ne hji]
      exact h.connection j ((hconnection.2 j hj).resolve_right hji)
  connected hd j hj := by
    by_cases hji : j = i
    · rw [hji]
      exact hconnection.1 hd
    · rw [Function.update_of_ne hji] at hj
      exact absurd (hfree hd j (h.connected hd j hj)) hji
  holder id j hj := by
    rw [hholder] at hj
    by_cases hji : j = i
    · subst hji
      rw [h.holder id j hj] at hidle
      cases hidle
    · rw [Function.update_of_ne hji]
      exact h.holder id j hj
  transaction j hj := by
    rw [htransaction]
    by_cases hji : j = i
    · subst hji
      exact h.transaction j (by simp [hidle])
    · rw [Function.update_of_ne hji] at hj
      exact h.transaction j hj

theorem locked (h : Phases env w phase) (hopened : phase i = .opened)
    (hconnection : w'.connection = w.connection)
    (hholder : ∀ id j, w'.holder id = some j → w.holder id = some j ∨ j = i)
    (htransaction : ∀ j ≠ i, w'.transaction j = w.transaction j) :
    Phases env w' (Function.update phase i .locked) where
  connection j hj := by
    rw [hconnection] at hj
    by_cases hji : j = i
    · subst hji
      simp
    · rw [Function.update_of_ne hji]
      exact h.connection j hj
  connected hd j hj := by
    rw [hconnection]
    refine h.connected hd j ?_
    by_cases hji : j = i
    · subst hji
      simp [hopened]
    · rwa [Function.update_of_ne hji] at hj
  holder id j hj := by
    by_cases hji : j = i
    · subst hji
      simp
    · rw [Function.update_of_ne hji]
      exact h.holder id j ((hholder id j hj).resolve_right hji)
  transaction j hj := by
    by_cases hji : j = i
    · subst hji
      simp at hj
    · rw [Function.update_of_ne hji] at hj
      rw [htransaction j hji]
      exact h.transaction j hj

theorem released (h : Phases env w phase) (db : Database) (log : List Event) :
    Phases env { w.release i with db, log } (Function.update phase i .idle) where
  connection j hj := by
    simp only [World.release] at hj
    split at hj <;> rename_i hne
    · cases hj
    · have hji : j ≠ i := fun hji => hne (hji ▸ hj)
      rw [Function.update_of_ne hji]
      exact h.connection j hj
  connected hd j hj := by
    by_cases hji : j = i
    · subst hji
      simp at hj
    · rw [Function.update_of_ne hji] at hj
      have hconnection := h.connected hd j hj
      simp [World.release, hconnection, hji]
  holder id j hj := by
    simp only [World.release] at hj
    split at hj <;> rename_i hne
    · cases hj
    · have hji : j ≠ i := fun hji => hne (hji ▸ hj)
      rw [Function.update_of_ne hji]
      exact h.holder id j hj
  transaction j hj := by
    by_cases hji : j = i
    · subst hji
      simp [World.release]
    · rw [Function.update_of_ne hji] at hj
      simpa [World.release, Function.update_of_ne hji] using h.transaction j hj

theorem staged (h : Phases env w phase) (hlocked : phase i = .locked) (u : RowUpdate) :
    Phases env (w.stage i u) phase where
  connection := h.connection
  connected := h.connected
  holder := h.holder
  transaction j hj := by
    by_cases hji : j = i
    · subst hji
      exact absurd hlocked hj
    · simpa [World.stage, Function.update_of_ne hji] using h.transaction j hj

/-- What does not belong to a transaction touches none. -/
theorem respond_same {o : Operation} (ho : o.ofTransaction = false) :
    (w.respond env i o).2.connection = w.connection ∧ (w.respond env i o).2.holder = w.holder ∧
      (w.respond env i o).2.transaction = w.transaction := by
  cases o with
  | beginTransaction => cases ho
  | lockStatusList id => cases ho
  | updateStatusListRow id m v u => cases ho
  | commit => cases ho
  | rollback => cases ho
  | insertStatusList row =>
      simp only [World.respond]
      split <;> exact ⟨rfl, rfl, rfl⟩
  | insertAllocation a =>
      simp only [World.respond]
      split <;> exact ⟨rfl, rfl, rfl⟩
  | _ => exact ⟨rfl, rfl, rfl⟩

theorem opened_of_begin (h : Phases env w phase) (hidle : phase i = .idle)
    (hfree : w.blocked env i .beginTransaction = false) :
    Phases env (w.respond env i .beginTransaction).2 (Function.update phase i .opened) := by
  have hsqlite : env.dialect = .sqlite → ∀ j, w.connection = some j → j = i := fun hd =>
    World.not_blocked_sqlite hfree hd rfl
  refine h.opened hidle ?_ ?_ ?_ hsqlite <;> simp only [World.respond]
  · cases hd : env.dialect with
    | sqlite => exact ⟨fun _ => rfl, fun j hj => .inr (Option.some.inj hj).symm⟩
    | postgres => exact ⟨by simp, fun j hj => .inl hj⟩
  · split <;> rfl
  · split <;> rfl

theorem locked_of_lock (h : Phases env w phase) (hopened : phase i = .opened) (id : String) :
    Phases env (w.respond env i (.lockStatusList id)).2 (Function.update phase i .locked) := by
  refine h.locked hopened ?_ ?_ ?_ <;> simp only [World.respond] <;> split
  · rfl
  · rfl
  · intro id' j hj
    rename_i row hrow
    by_cases hid : id' = row.id
    · subst hid
      simp only [World.lock, Function.update_self, Option.some.injEq] at hj
      exact .inr hj.symm
    · simp only [World.lock, Function.update_of_ne hid] at hj
      exact .inl hj
  · exact fun _ _ hj => .inl hj
  · exact fun j hj => Function.update_of_ne hj _ _
  · exact fun _ _ => rfl

/-- The step lemma of the phases. -/
theorem step (h : Phases env w phase) {o : Operation} {r : o.Answer}
    (ho : transactions.Allows (phase i) o) (hstep : w.step env i o = some (r, w')) :
    Phases env w' (Function.update phase i (transactions.next (phase i) o)) := by
  obtain ⟨hfree, hrespond⟩ := World.step_eq_some.mp hstep
  obtain rfl : (w.respond env i o).2 = w' := congrArg Prod.snd hrespond
  have hsame : o.ofTransaction = false → transactions.next (phase i) o = phase i →
      Phases env (w.respond env i o).2
        (Function.update phase i (transactions.next (phase i) o)) := by
    intro hof hnext
    obtain ⟨hconnection, hholder, htransaction⟩ :
        (w.respond env i o).2.connection = w.connection ∧
          (w.respond env i o).2.holder = w.holder ∧
            (w.respond env i o).2.transaction = w.transaction := respond_same hof
    rw [hnext, Function.update_eq_self]
    exact h.of_same hconnection hholder htransaction
  cases hphase : phase i with
  | idle =>
      rw [hphase] at ho hsame
      cases o with
      | beginTransaction => exact h.opened_of_begin hphase hfree
      | lockStatusList id => cases ho
      | updateStatusListRow id m v u => cases ho
      | commit => cases ho
      | rollback => cases ho
      | _ => exact hsame rfl rfl
  | opened =>
      rw [hphase] at ho
      obtain ⟨id, rfl⟩ := ho
      exact h.locked_of_lock hphase id
  | locked =>
      rw [hphase] at ho hsame
      rcases ho with houtside | rfl | rfl | ⟨id, m, v, u, rfl⟩
      · obtain ⟨hof, hnext⟩ := outside_transaction houtside
        exact hsame hof hnext
      · exact h.released (w.apply i).db (w.apply i).log
      · exact h.released w.db w.log
      · have hstaged := h.staged hphase ⟨id, m, v, u⟩
        rwa [← Function.update_eq_self i phase, hphase] at hstaged

end Phases

/-! ### Waiting -/

/-- How far the transaction of a request has come in these moments. -/
def phaseAfter (τ : List ServiceMoment) (i : Nat) : Phase := transactions.after .idle (own i τ)

/-- What an operation may have to wait for, with the requests in these phases. On SQLite a query
that is not on the transaction waits for the connection even if its own request has it. On Postgres
`for update` waits for the lock of its row, and so does an allocation, whose foreign key takes a lock
of its own on the row of its list; and a query outside a transaction takes a connection from the
pool, which may have none left as soon as some transaction is open. -/
inductive World.MayWait (env : Environment) (phase : Nat → Phase) (w : World) (i : Nat) :
    Operation → Prop
  | connection {o : Operation} {j : Nat} (hdialect : env.dialect = .sqlite)
      (ho : o.usesDatabase = true) (hj : w.connection = some j)
      (hother : j ≠ i ∨ o.onTransaction = false) : MayWait env phase w i o
  | row {id : String} {j : Nat} (hdialect : env.dialect = .postgres)
      (hj : w.holder id = some j) (hother : j ≠ i) : MayWait env phase w i (.lockStatusList id)
  | foreignKey {a : IndexAllocation} {j : Nat} (hdialect : env.dialect = .postgres)
      (hj : w.holder a.listId = some j) : MayWait env phase w i (.insertAllocation a)
  | pool {o : Operation} {j : Nat} (hdialect : env.dialect = .postgres)
      (ho : o.usesDatabase = true) (houtside : o.onTransaction = false)
      (hj : phase j ≠ .idle) : MayWait env phase w i o

/-- Nothing is blocked that need not wait. -/
theorem World.not_blocked_of_not_mayWait {env : Environment} {phase : Nat → Phase} {w : World}
    {i : Nat} {o : Operation} (h : ¬w.MayWait env phase i o) : w.blocked env i o = false := by
  rw [← Bool.not_eq_true]
  intro hblocked
  unfold World.blocked at hblocked
  split at hblocked <;> rename_i hdialect
  · obtain ⟨huses, hheld⟩ := Bool.and_eq_true_iff.mp hblocked
    obtain ⟨j, hj, hne⟩ := (Option.any_eq_true _ _).mp hheld
    exact h (.connection hdialect huses hj (.inl (by simpa using hne)))
  · split at hblocked
    · obtain ⟨j, hj, hne⟩ := (Option.any_eq_true _ _).mp hblocked
      exact h (.row hdialect hj (by simpa using hne))
    · cases hblocked

/-- How far a phase is. -/
def Phase.rank : Phase → Nat
  | .idle => 0
  | .opened => 1
  | .locked => 2

theorem Phase.rank_pos {phase : Phase} (h : phase ≠ .idle) : 0 < phase.rank := by
  cases phase with
  | idle => exact absurd rfl h
  | opened => decide
  | locked => decide

/-- What a transaction uses of the database is on it. -/
theorem onTransaction_of_allows {phase : Phase} {o : Operation} (h : transactions.Allows phase o)
    (hphase : phase ≠ .idle) (ho : o.usesDatabase = true) : o.onTransaction = true := by
  cases phase with
  | idle => exact absurd rfl hphase
  | opened =>
      obtain ⟨id, rfl⟩ := h
      rfl
  | locked =>
      rcases h with houtside | rfl | rfl | ⟨id, m, v, u, rfl⟩
      · rw [ho] at houtside
        cases houtside
      · rfl
      · rfl
      · rfl

/-- Whoever waits, waits for a transaction that is further. -/
theorem Phases.further_of_mayWait {env : Environment} {w : World} {phase : Nat → Phase}
    (h : Phases env w phase) {i : Nat} {o : Operation} (ho : transactions.Allows (phase i) o)
    (hwait : w.MayWait env phase i o) : ∃ j, (phase i).rank < (phase j).rank := by
  have houtside : o.usesDatabase = true → o.onTransaction = false → phase i = .idle := by
    intro huses hoff
    by_contra hphase
    rw [onTransaction_of_allows ho hphase huses] at hoff
    cases hoff
  -- One case for each thing there is to wait for; whoever has it is past the phase of who waits.
  cases hwait with
  | @connection _ j hdialect huses hj hother =>
      refine ⟨j, ?_⟩
      have hidle : phase i = .idle := by
        by_contra hphase
        have hown := h.connected hdialect i hphase
        rw [hj, Option.some.injEq] at hown
        rcases hother with hne | hoff
        · exact hne hown
        · exact hphase (houtside huses hoff)
      rw [hidle]
      exact Phase.rank_pos (h.connection j hj)
  | @row id j hdialect hj hother =>
      refine ⟨j, ?_⟩
      rw [h.holder id j hj]
      cases hphase : phase i with
      | idle => decide
      | opened => decide
      | locked =>
          rw [hphase] at ho
          simp [transactions, Operation.usesDatabase] at ho
  | @foreignKey a j hdialect hj =>
      refine ⟨j, ?_⟩
      rw [houtside rfl rfl, h.holder a.listId j hj]
      decide
  | @pool _ j hdialect huses hoff hj =>
      refine ⟨j, ?_⟩
      rw [houtside huses hoff]
      exact Phase.rank_pos hj

/-! ### Progress -/

section Runs

variable {B : Type} {deps : AppDeps B} {env : Environment} {requests : Nat → Option Request}
  {τ : List ServiceMoment}
  {q : Pool Operation Operation.Answer JsError (Option Response) World Nat}

theorem phases_of_traced (h : Pool.Traced (World.step env) (requestPool deps requests) τ q) :
    Phases env q.state (phaseAfter τ) ∧
      ∀ i, KeepsTo transactions (q.thread i) (Answered (requests i)) (phaseAfter τ i) :=
  KeepsTo.traced (fun h ho hstep => h.step ho hstep) (Phases.initial env)
    (fun i => serve_keepsTo deps (requests i)) h

/-- No deadlock: until every request is answered and nothing is held, some request need not wait. -/
theorem some_request_goes_on
    (h : Pool.Traced (World.step env) (requestPool deps requests) τ q) :
    (∃ j o k, q.thread j = .call o k ∧ ¬q.state.MayWait env (phaseAfter τ) j o) ∨
      ∀ i, q.state.Idle i ∧ ∃ response, (q.thread i).outcome? = some (.ok response) ∧
        response.isSome = (requests i).isSome := by
  obtain ⟨hphases, hkeeps⟩ := phases_of_traced h
  by_cases hwork : ∃ i o k, q.thread i = .call o k
  · obtain ⟨i, o, k, hthread⟩ := hwork
    refine .inl (KeepsTo.progress Phase.rank 2 hkeeps ?_ ?_
      (fun ho hready => hphases.further_of_mayWait ho (not_not.mp hready)) hthread)
    · intro phase
      cases phase <;> decide
    · rintro i r s ⟨rfl, -⟩
      rfl
  · refine .inr fun i => ?_
    have hended : ∃ r, (q.thread i).outcome? = some r ∧
        Answered (requests i) r (phaseAfter τ i) := by
      have hi := hkeeps i
      cases hthread : q.thread i with
      | ret a =>
          rw [hthread] at hi
          exact ⟨_, rfl, hi⟩
      | fail e =>
          rw [hthread] at hi
          exact ⟨_, rfl, hi⟩
      | call o k => exact absurd ⟨i, o, k, hthread⟩ hwork
    obtain ⟨r, hr, hidle, response, rfl, hsome⟩ := hended
    have hnone := hphases.transaction i (by simp [hidle])
    refine ⟨⟨hnone, fun hheld => hphases.connection i hheld hidle, fun id hheld => ?_⟩, response,
      hr, hsome⟩
    have hlocked := hphases.holder id i hheld
    rw [hidle] at hlocked
    cases hlocked

/-- The threads of requests that were not sent have nothing to do. -/
theorem requestPool_work {i : Nat} {o : Operation} {k : o.Answer → Async (Option Response)}
    (h : (requestPool deps requests).thread i = .call o k) : (requests i).isSome = true := by
  cases hi : requests i with
  | none => simp [requestPool, serve, hi] at h
  | some request => rfl

/-- Every request is answered: however finitely many requests take turns, after finitely many steps
none can be taken, and then each has its response and nothing is held. Until then one of them need
not wait. -/
theorem every_request_is_answered (hfinite : {i | (requests i).isSome}.Finite)
    (h : Pool.Traced (World.step env) (requestPool deps requests) τ q) :
    (¬∃ run : Nat → Pool Operation Operation.Answer JsError (Option Response) World Nat,
      run 0 = q ∧ ∀ n, Pool.Step (World.step env) (run n) (run (n + 1))) ∧
    ((∃ j o k, q.thread j = .call o k ∧ ¬q.state.MayWait env (phaseAfter τ) j o ∧
        ∃ q', Pool.Step (World.step env) q q') ∨
      ∃ responses, AllAnswered deps env requests responses q.state ∧
        (∀ i, (responses i).isSome = (requests i).isSome) ∧ ∀ i, q.state.Idle i) := by
  constructor
  · have hstart : Acc (fun q p => Pool.Step (World.step env) p q) (requestPool deps requests) :=
      Pool.acc_step hfinite.toFinset fun hthread =>
        hfinite.mem_toFinset.mpr (requestPool_work hthread)
    have hacc : Acc (fun q p => Pool.Step (World.step env) p q) q := by
      have hrun := h.run
      clear h
      induction hrun with
      | refl => exact hstart
      | tail _ hstep ih => exact ih.inv hstep
    rintro ⟨run, rfl, hrun⟩
    exact (acc_iff_isEmpty_descending_chain.mp hacc).false ⟨run, rfl, hrun⟩
  · obtain ⟨j, o, k, hthread, hwaits⟩ | hanswered := some_request_goes_on h
    · have hstep : World.step env j q.state o = some (q.state.respond env j o) :=
        World.step_eq_some.mpr ⟨World.not_blocked_of_not_mayWait hwaits, rfl⟩
      exact .inl ⟨j, o, k, hthread, hwaits, _, .call hthread hstep⟩
    · choose hidle responses hresponses hsome using hanswered
      exact .inr ⟨responses, ⟨q, h.run, rfl, hresponses⟩, hsome, hidle⟩

end Runs

/-- A list, an entry for a credential, two requests that revoke it and one for an entry for another
credential. -/
def contendingRequests : Nat → Option Request
  | 0 => some createRequest
  | 1 => some (allocateRequest "urn:uuid:1")
  | 2 | 3 => some (updateRequest (updateText "urn:uuid:1"))
  | 4 => some (allocateRequest "urn:uuid:2")
  | _ => none

theorem contendingRequests_finite : {i | (contendingRequests i).isSome}.Finite := by
  refine (Set.finite_Iio 5).subset fun i hi => ?_
  by_contra hlarge
  have hnone : contendingRequests i = none := by
    unfold contendingRequests
    split <;> simp at hlarge ⊢
  have hsome : (contendingRequests i).isSome = true := hi
  rw [hnone] at hsome
  cases hsome

/-- The list whose row a query locks, or refers to in the allocation it writes. -/
def Operation.contended? : Operation → Option String
  | .lockStatusList id => some id
  | .insertAllocation a => some a.listId
  | _ => none

theorem mayWait_of_contended? {env : Environment} {phase : Nat → Phase} {w : World} {i j : Nat}
    {o : Operation} {id : String} (hdialect : env.dialect = .postgres)
    (ho : o.contended? = some id) (hj : w.holder id = some j) (hne : j ≠ i) :
    w.MayWait env phase i o := by
  cases o with
  | lockStatusList id' =>
      cases ho
      exact .row hdialect hj hne
  | insertAllocation a =>
      cases ho
      exact .foreignKey hdialect hj
  | _ => cases ho

/-- Where one request has the row of a list, and another update of the list and an allocation in it
wait for the row, some request need not wait. -/
theorem contending_requests_go_on :
    ∃ τ q, Pool.Traced (World.step (testEnvironment .postgres))
        (requestPool testApp contendingRequests) τ q ∧
      q.state.holder "list-0" = some 2 ∧
      (∀ i ∈ [3, 4], ∃ o k, q.thread i = .call o k ∧
        q.state.MayWait (testEnvironment .postgres) (phaseAfter τ) i o) ∧
      (¬∃ run : Nat → Pool Operation Operation.Answer JsError (Option Response) World Nat,
        run 0 = q ∧ ∀ n, Pool.Step (World.step (testEnvironment .postgres)) (run n) (run (n + 1))) ∧
      ∃ j o k, q.thread j = .call o k ∧
        ¬q.state.MayWait (testEnvironment .postgres) (phaseAfter τ) j o := by
  -- The list and the entry are there; 4 comes as far as its insert, 3 as far as the row, and 2
  -- locks it.
  let run := Pool.scheduled (World.step (testEnvironment .postgres))
    (List.replicate 7 0 ++ List.replicate 8 1 ++ List.replicate 7 4 ++ List.replicate 5 3 ++
      List.replicate 6 2) (requestPool testApp contendingRequests)
  have hrun : Pool.Traced (World.step (testEnvironment .postgres))
      (requestPool testApp contendingRequests) run.1 run.2 := Pool.traced_scheduled _ _
  have hholder : run.2.state.holder "list-0" = some 2 := by decide +kernel
  have hnext : ∀ i ∈ [3, 4],
      (run.2.thread i).next?.bind Operation.contended? = some "list-0" := by decide +kernel
  obtain ⟨hends, hgoes⟩ := every_request_is_answered contendingRequests_finite hrun
  refine ⟨run.1, run.2, hrun, hholder, fun i hi => ?_, hends, ?_⟩
  · obtain ⟨o, ho, hid⟩ := Option.bind_eq_some_iff.mp (hnext i hi)
    obtain ⟨k, hthread⟩ := Program.exists_of_next? ho
    have hne : 2 ≠ i := by
      rintro rfl
      simp at hi
    exact ⟨o, k, hthread, mayWait_of_contended? rfl hid hholder hne⟩
  · obtain ⟨j, o, k, hthread, hready, -⟩ | ⟨responses, -, -, hidle⟩ := hgoes
    · exact ⟨j, o, k, hthread, hready⟩
    · exact absurd hholder ((hidle 2).holder "list-0")

end VcalmStatus
