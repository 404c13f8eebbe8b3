import VcalmStatus.App.TestRequests
import VcalmStatus.Js.JsonReading
import VcalmStatus.Safety.Reachable
import VcalmStatus.Services.RowWorld

/-!
The service over the database as it is stored. Whatever a request writes is something columns can
hold, since what it writes was read as JSON, signed, or taken from the clock; so the service runs
over texts exactly as it runs over records.
-/

namespace VcalmStatus

open Js Effects

/-- What a request may rely on: rows that columns hold, a date before the year 10000, and a signed
credential that can be written as JSON. -/
def Operation.Promises (N : Numerals) : (o : Operation) → o.Answer → Prop
  | .lockStatusList _, row => ∀ record ∈ row, record.Writable N
  | .newDate, date => date < firstOfFiveDigits
  | .sign _ _, .ok signed => (Json.obj signed).Storable N
  | _, _ => True

/-- A bitstring library that builds credentials which can be written as JSON. -/
def BitstringLibrary.BuildsStorable {B : Type} (N : Numerals) (lib : BitstringLibrary B) : Prop :=
  ∀ url list statusPurpose, (lib.createCredential url list statusPurpose).context.Storable N ∧
    (lib.createCredential url list statusPurpose).type.Storable N ∧
    (Json.obj (lib.createCredential url list statusPurpose).credentialSubject).Storable N

/-- So is the unsigned credential of a list. -/
theorem storable_unsigned {B : Type} {N : Numerals} {lib : BitstringLibrary B}
    (hlib : lib.BuildsStorable N) {input : StatusListCredentialInput B}
    (httl : ∀ ttl ∈ input.ttl, (Number.int ttl).IsFinite N) :
    (Json.obj (buildStatusListCredential lib input).unsigned).Storable N := by
  obtain ⟨hcontext, htype, hsubject⟩ := hlib input.url input.list input.statusPurpose
  have hwithTtl : (Json.obj (withTtl (lib.createCredential input.url input.list
      input.statusPurpose).credentialSubject input.ttl)).Storable N := by
    cases hinput : input.ttl with
    | none => exact hsubject
    | some ttl =>
        have hname : isArrayIndex "ttl" = false := by decide +kernel
        exact hsubject.set hname (.num (httl ttl hinput))
  have hkeys : (buildStatusListCredential lib input).unsigned.map Prod.fst =
      ["@context", "id", "type", "issuer", "validFrom", "credentialSubject"] := rfl
  refine .of_names (hkeys ▸ by decide) (hkeys ▸ by decide +kernel) ?_
  simp only [buildStatusListCredential, List.map_cons, List.map_nil, List.forall_mem_cons]
  exact ⟨hcontext, .str _, htype, .str _, .str _, hwithTtl, List.forall_mem_nil _⟩

/-- A request that writes what columns can hold. -/
abbrev Writes {α : Type} (N : Numerals) (p : Async α) (P : α → Prop) : Prop :=
  Obeys (Operation.Promises N) (Operation.Writable N) p P

variable {B : Type} {N : Numerals}

theorem getTenant_writes (tenantId : String) :
    Writes N (await (.getTenant tenantId)) fun _ => True := ⟨trivial, fun _ _ => trivial⟩

section Storage

theorem createStatusList_writes {record : NewStatusListRecord}
    (hfinite : record.characteristics.Finite N)
    (hstorable : (Json.obj record.signedCredential).Storable N) :
    Writes N (SqlStorage.createStatusList record) fun _ => True := by
  refine ⟨trivial, fun now hnow => ⟨⟨hfinite, hstorable, hnow, hnow⟩, fun inserted _ => ?_⟩⟩
  cases inserted with
  | true => trivial
  | false =>
      refine ⟨trivial, fun existing _ => ?_⟩
      cases existing <;> trivial

theorem transaction_writes {T : Type} {body : Async T} (h : Writes N body fun _ => True) :
    Writes N (transaction body) fun _ => True :=
  ⟨trivial, fun _ _ => .tryCatch (h.bind fun _ _ => ⟨trivial, fun _ _ => trivial⟩)
    fun _ => ⟨trivial, fun _ _ => trivial⟩⟩

theorem updateStatusList_writes {T : Type} {id : String}
    {mutate : StatusListRecord → Async (StatusListMutationResult T)}
    (h : ∀ current, current.Writable N → Writes N (mutate current) fun outcome =>
      ∀ m ∈ outcome.materialization, (Json.obj m.signedCredential).Storable N) :
    Writes N (SqlStorage.updateStatusList id mutate) fun _ => True := by
  refine transaction_writes ⟨trivial, fun row hrow => ?_⟩
  cases row with
  | none => trivial
  | some current =>
      refine (h current (hrow current rfl)).bind fun outcome houtcome => ?_
      cases hm : outcome.materialization with
      | none => trivial
      | some m => exact ⟨trivial, fun date hdate => ⟨⟨houtcome m hm, hdate⟩, fun _ _ => trivial⟩⟩

theorem getStatusList_writes (id : String) :
    Writes N (SqlStorage.getStatusList id) fun _ => True := ⟨trivial, fun _ _ => trivial⟩

theorem classifyAllocationFailure_writes (allocation : NewIndexAllocation) (cause : JsError) :
    Writes N (SqlStorage.classifyAllocationFailure allocation cause) fun _ => True := by
  refine ⟨trivial, fun existing _ => ?_⟩
  cases existing with
  | some a => trivial
  | none =>
      refine ⟨trivial, fun taken _ => ?_⟩
      cases taken with
      | true => trivial
      | false =>
          refine ⟨trivial, fun list _ => ?_⟩
          cases list <;> trivial

theorem allocateIndex_writes (allocation : NewIndexAllocation) :
    Writes N (SqlStorage.allocateIndex allocation) fun _ => True := by
  refine ⟨trivial, fun date hdate => ⟨hdate, fun inserted _ => ?_⟩⟩
  cases inserted with
  | true => trivial
  | false =>
      exact (classifyAllocationFailure_writes allocation driverError).bind fun _ _ => trivial

end Storage

namespace StatusListManager

/-- The numbers of a request for a list are ones there are. -/
structure FiniteRequest (N : Numerals) (requested : RequestedCharacteristics) : Prop where
  length : ∀ length ∈ requested.length, (Number.int length).IsFinite N
  ttl : ∀ ttl ∈ requested.ttl, (Number.int ttl).IsFinite N

theorem characteristicsOf_finite {requested : RequestedCharacteristics}
    {c : StatusListCharacteristics} (h : FiniteRequest N requested)
    (hc : characteristicsOf requested = .ok c) : c.Finite N := by
  unfold characteristicsOf at hc
  dsimp only at hc
  split at hc
  · cases hc
  · split at hc
    · cases hc
    · cases hc
      have hone : (Number.int 1).IsFinite N := Number.isFinite_int N (by decide)
      have hminimum : (Number.int minimumListLength).IsFinite N :=
        Number.isFinite_int N (by decide)
      refine ⟨?_, hone, h.ttl⟩
      cases hlength : requested.length with
      | none => exact hminimum
      | some length => exact h.length length hlength

theorem instanceFor_writes (list : StatusListRecord) :
    Writes N (instanceFor list) fun _ => True := by
  refine (getTenant_writes _).bind fun tenant _ => ?_
  split <;> trivial

theorem defaultInstanceFor_writes (tenantId : String) :
    Writes N (defaultInstanceFor tenantId) fun _ => True := by
  refine (getTenant_writes _).bind fun tenant _ => ?_
  split <;> trivial

theorem probe_writes (allocationAt : Nat → NewIndexAllocation) (listId : String) (length : Nat)
    (attempts : Nat) : Writes N (probe allocationAt listId length attempts) fun _ => True := by
  induction attempts with
  | zero => trivial
  | succ attempts ih =>
      refine ⟨trivial, fun index _ => ⟨trivial, fun taken _ => ?_⟩⟩
      cases taken with
      | true => exact ih
      | false =>
          have hinserted : Writes N (do
              let created ← SqlStorage.allocateIndex (allocationAt index)
              pure (some created)) fun _ => True :=
            (allocateIndex_writes (allocationAt index)).bind fun _ _ => trivial
          refine (hinserted.tryCatch fun e => ?_).bind fun outcome _ => ?_
          · split <;> trivial
          · cases outcome with
            | some allocation => trivial
            | none => exact ih

theorem allocateIndex_writes (tenantId credentialId : String) (statusPurpose : StatusPurpose)
    (listId : String) :
    Writes N (allocateIndex tenantId credentialId statusPurpose listId) fun _ => True := by
  refine (getStatusList_writes listId).bind fun list _ => ?_
  split
  · trivial
  · exact probe_writes _ _ _ _

theorem chosenList_writes (tenantId listId : String) (statusPurpose : StatusPurpose) :
    Writes N (chosenList tenantId listId statusPurpose) fun _ => True := by
  refine (getStatusList_writes listId).bind fun list _ => ?_
  split
  · trivial
  · split <;> trivial

theorem firstUnderThreshold_writes (deps : ManagerDeps B) (lists : List StatusListRecord) :
    Writes N (firstUnderThreshold deps lists) fun _ => True := by
  induction lists with
  | nil => trivial
  | cons list lists ih =>
      refine Obeys.bind (P := fun _ => True) ⟨trivial, fun _ _ => trivial⟩ fun used _ => ?_
      split
      · trivial
      · exact ih

section Signing

variable (deps : ManagerDeps B) (hlib : deps.lib.BuildsStorable N)
include hlib

theorem materialize_writes {url : String} {issuerInstance : IssuerInstance}
    {statusPurpose : StatusPurpose} {list : B} {ttl : Option Nat}
    (httl : ∀ n ∈ ttl, (Number.int n).IsFinite N) :
    Writes N (materialize deps url issuerInstance statusPurpose list ttl) fun m =>
      (Json.obj m.signedCredential).Storable N := by
  have hdid : Writes N (issuerDid issuerInstance) fun _ => True :=
    ⟨trivial, fun did _ => .ofExcept fun _ _ => trivial⟩
  have hsign : ∀ unsigned, (Json.obj unsigned).Storable N →
      Writes N (sign issuerInstance unsigned) fun signed => (Json.obj signed).Storable N := by
    intro unsigned hunsigned
    refine ⟨hunsigned, fun signed hsigned => .ofExcept fun vc hvc => ?_⟩
    subst hvc
    exact hsigned
  exact hdid.bind fun issuer _ => ⟨trivial, fun now _ =>
    (hsign _ (storable_unsigned hlib httl)).bind fun signed hsigned => hsigned⟩

theorem createList_writes {input : CreateStatusListInput}
    (h : FiniteRequest N (input.characteristics.getD {})) :
    Writes N (createList deps input) fun _ => True := by
  rw [createList_eq]
  refine Obeys.bind (.ofExcept fun c hc => characteristicsOf_finite h hc) fun c hfinite => ?_
  have hnamed : ∀ id, Writes N (createNamed deps input c id) fun _ => True := fun id =>
    Obeys.bind (P := fun _ => True) (.ofExcept fun _ _ => trivial) fun list _ =>
      (materialize_writes deps hlib hfinite.ttl).bind fun m hm =>
        createStatusList_writes hfinite hm
  cases input.id with
  | some id => exact hnamed id
  | none => exact ⟨trivial, fun id _ => hnamed id⟩

theorem applyStatus_writes {current : StatusListRecord} (hcurrent : current.Writable N)
    (issuerInstance : IssuerInstance) (statusListIndex : Number) (status : Bool) :
    Writes N (applyStatus deps current issuerInstance statusListIndex status) fun outcome =>
      ∀ m ∈ outcome.materialization, (Json.obj m.signedCredential).Storable N := by
  rw [applyStatus]
  split
  · trivial
  · refine Obeys.bind (P := fun _ => True) (.ofExcept fun _ _ => trivial) fun list _ => ?_
    refine Obeys.bind (P := fun _ => True) (.ofExcept fun _ _ => trivial) fun held _ => ?_
    split
    · exact nofun
    · refine Obeys.bind (P := fun _ => True) (.ofExcept fun _ _ => trivial) fun list _ => ?_
      refine (materialize_writes deps hlib hcurrent.finite.ttl).bind fun m hm =>
        ⟨trivial, fun now _ => ?_⟩
      intro m' hm'
      cases hm'
      exact hm

theorem setStatus_writes (listId : String) (statusListIndex : Number) (status : Bool) :
    Writes N (setStatus deps listId statusListIndex status) fun _ => True := by
  refine ⟨trivial, fun list _ => ?_⟩
  cases list with
  | none => trivial
  | some list =>
      exact (instanceFor_writes list).bind fun issuerInstance _ =>
        updateStatusList_writes fun current hcurrent =>
          applyStatus_writes deps hlib hcurrent issuerInstance statusListIndex status

theorem setCredentialStatus_writes (tenantId credentialId : String)
    (statusPurpose : StatusPurpose) (status : Bool) :
    Writes N (setCredentialStatus deps tenantId credentialId statusPurpose status)
      fun _ => True := by
  refine ⟨trivial, fun allocation _ => ?_⟩
  cases allocation with
  | none => trivial
  | some allocation => exact setStatus_writes deps hlib _ _ _

theorem listForPurpose_writes (tenantId : String) (statusPurpose : StatusPurpose) :
    Writes N (listForPurpose deps tenantId statusPurpose) fun _ => True := by
  refine ⟨trivial, fun lists _ => (firstUnderThreshold_writes deps _).bind fun found _ => ?_⟩
  cases found with
  | some list => trivial
  | none =>
      exact (defaultInstanceFor_writes tenantId).bind fun issuerInstance _ =>
        createList_writes deps hlib ⟨nofun, nofun⟩

theorem allocateForCredential_writes (tenantId credentialId : String)
    (statusPurpose : StatusPurpose) (listId : Option String) :
    Writes N (allocateForCredential deps tenantId credentialId statusPurpose listId)
      fun _ => True := by
  have hallocated : ∀ list : StatusListRecord, Writes N
      (do
        let a ← allocateIndex tenantId credentialId statusPurpose list.id
        pure (a, list)) fun _ => True := fun list =>
    (allocateIndex_writes tenantId credentialId statusPurpose list.id).bind fun _ _ => trivial
  cases listId with
  | none =>
      exact (listForPurpose_writes deps hlib tenantId statusPurpose).bind fun list _ => hallocated list
  | some listId =>
      exact (chosenList_writes tenantId listId statusPurpose).bind fun list _ => hallocated list

end Signing

end StatusListManager

/-! ### The numbers a request names -/

theorem Parsed.and_eq_ok {α β : Type} {f : Parsed (α → β)} {x : Parsed α} {b : β} :
    f.and x = Except.ok b ↔ ∃ g a, f = Except.ok g ∧ x = Except.ok a ∧ b = g a := by
  cases f <;> cases x <;> simp [Parsed.and, Parsed.ok, eq_comm]

namespace Zod

theorem strict_eq_ok {α : Type} {shape path : List String} {o : JsonObject} {fields : Parsed α}
    {a : α} (h : strict shape path o fields = Except.ok a) : fields = Except.ok a := by
  unfold strict at h
  dsimp only at h
  split at h
  · exact h
  · obtain ⟨_, _, _, hrefused, _⟩ := Parsed.and_eq_ok.mp h
    cases hrefused

theorem object_eq_ok {path : List String} {json : Json} {o : JsonObject}
    (h : object path (some json) = Except.ok o) : json = .obj o := by
  cases json <;> simp_all [object, ofType, Json.object?, Parsed.ok]

theorem optional_eq_ok {α : Type} {schema : List String → Option Json → Parsed α}
    {path : List String} {json : Option Json} {value : α}
    (h : optional schema path json = Except.ok (some value)) :
    ∃ v, json = some v ∧ schema path (some v) = Except.ok value := by
  cases json with
  | none => cases h
  | some v =>
      simp only [optional] at h
      cases hv : schema path (some v) with
      | error issues => simp [hv, Except.map] at h
      | ok a => exact ⟨v, rfl, by simpa [hv, Except.map] using h⟩

/-- A positive integer is one that was read. -/
theorem positiveInt_finite {path : List String} {v : Json} {n : Nat} (hread : v.Read N)
    (h : positiveInt path (some v) = Except.ok n) : (Number.int n).IsFinite N := by
  obtain ⟨number, hnumber, hinteger⟩ := bind_eq_ok.mp h
  have hv : v = .num number := by
    cases v <;> simp_all [ofType, Json.number?, Parsed.ok]
  subst hv
  cases number with
  | nonInteger negative text => cases hinteger
  | int i =>
      dsimp only at hinteger
      split at hinteger
      · cases hinteger
      · rename_i hpositive
        cases hinteger
        rw [Int.toNat_of_nonneg (by omega)]
        exact hread.isFinite_int

theorem optional_positiveInt_finite {o : JsonObject} {key : String} {path : List String}
    {value : Option Nat} (hread : (Json.obj o).Read N)
    (h : optional positiveInt path (o.get? key) = Except.ok value) :
    ∀ n ∈ value, (Number.int n).IsFinite N := by
  intro n hn
  rw [Option.mem_def] at hn
  subst hn
  obtain ⟨v, hv, hn⟩ := optional_eq_ok h
  exact positiveInt_finite (hread.get? hv) hn

end Zod

theorem optionsSchema_finite {path : List String} {v : Json} {options : CreateOptions}
    (hread : v.Read N) (h : optionsSchema path (some v) = Except.ok options) :
    (∀ n ∈ options.length, (Number.int n).IsFinite N) ∧
      ∀ n ∈ options.ttl, (Number.int n).IsFinite N := by
  obtain ⟨o, ho, hfields⟩ := bind_eq_ok.mp h
  rw [Zod.object_eq_ok ho] at hread
  obtain ⟨_, _, hfields₁, _, rfl⟩ := Parsed.and_eq_ok.mp (Zod.strict_eq_ok hfields)
  obtain ⟨_, ttl, hfields₂, httl, rfl⟩ := Parsed.and_eq_ok.mp hfields₁
  obtain ⟨_, _, hfields₃, _, rfl⟩ := Parsed.and_eq_ok.mp hfields₂
  obtain ⟨_, _, hfields₄, _, rfl⟩ := Parsed.and_eq_ok.mp hfields₃
  obtain ⟨_, length, hfields₅, hlength, rfl⟩ := Parsed.and_eq_ok.mp hfields₄
  cases hfields₅
  exact ⟨Zod.optional_positiveInt_finite hread hlength,
    Zod.optional_positiveInt_finite hread httl⟩

/-- What the schema of a creation hands on from its `options` was read by their own schema. -/
theorem createStatusListSchema_options {platform : Platform} {json : Json}
    {body : CreateStatusListBody} {options : CreateOptions} (hread : json.Read N)
    (h : createStatusListSchema platform json = Except.ok body)
    (hoptions : body.options = some options) :
    ∃ v : Json, v.Read N ∧ optionsSchema ["options"] (some v) = Except.ok options := by
  obtain ⟨o, ho, hfields⟩ := bind_eq_ok.mp h
  rw [Zod.object_eq_ok ho] at hread
  obtain ⟨_, found, hfields₁, hfound, rfl⟩ := Parsed.and_eq_ok.mp (Zod.strict_eq_ok hfields)
  obtain ⟨_, _, hfields₂, _, rfl⟩ := Parsed.and_eq_ok.mp hfields₁
  obtain ⟨_, _, hfields₃, _, rfl⟩ := Parsed.and_eq_ok.mp hfields₂
  cases hfields₃
  subst hoptions
  obtain ⟨v, hv, hschema⟩ := Zod.optional_eq_ok hfound
  exact ⟨v, hread.get? hv, hschema⟩

/-- What the service relies on when its rows are texts: bodies are read as JSON is, the clock stays
within four-digit years, and the bitstring library and the signing service make documents. -/
structure Textual {B : Type} (N : Numerals) (deps : AppDeps B) (env : Environment) : Prop where
  parseJson : deps.platform.parseJson = Json.parse N
  newDate : ∀ tick, env.newDate tick < firstOfFiveDigits
  build : deps.manager.lib.BuildsStorable N
  sign : ∀ {tick issuerInstance unsigned signed}, (Json.obj unsigned).Storable N →
    env.signing.sign tick issuerInstance unsigned = .ok signed → (Json.obj signed).Storable N

section Handlers

variable {deps : AppDeps B}

theorem listFromUrl_writes (url : String) : Writes N (listFromUrl deps url) fun _ => True := by
  refine Obeys.bind (P := fun _ => True) (.ofExcept fun _ _ => trivial) fun id _ => ?_
  refine (getStatusList_writes id).bind fun record _ => ?_
  split <;> trivial

theorem getStatusListHandler_writes (request : Request) (id : String) :
    Writes N (getStatusListHandler deps request id) fun _ => True := by
  refine (getStatusList_writes id).bind fun record _ => ?_
  cases record with
  | none => trivial
  | some record =>
      refine (getTenant_writes _).bind fun tenant _ => ?_
      dsimp only
      split
      · trivial
      · split <;> trivial

theorem authenticated_writes {request : Request}
    {handler : Request → TenantRecord → Async Response}
    (h : ∀ tenant, Writes N (handler request tenant) fun _ => True) :
    Writes N (authenticated deps request handler) fun _ => True := by
  have htenant : Writes N (tenantAuth deps.platform deps.accessJwtSecret request)
      fun _ => True := by
    unfold tenantAuth
    split
    · trivial
    · have hfound : ∀ token, Writes N (resolveTenant deps.platform deps.accessJwtSecret
          request.receivedAt token) fun _ => True := by
        intro token
        unfold resolveTenant
        split <;> exact ⟨trivial, fun _ _ => trivial⟩
      refine (hfound _).bind fun tenant _ => ?_
      split <;> trivial
  exact htenant.bind fun tenant _ => h tenant

end Handlers

namespace Textual

variable {deps : AppDeps B} {env : Environment} (h : Textual N deps env)
include h

theorem createInput_finite {tenant : TenantRecord} {request : Request}
    {input : CreateStatusListInput} (hinput : createInput deps tenant request = .ok input) :
    StatusListManager.FiniteRequest N (input.characteristics.getD {}) := by
  obtain ⟨body, hbody, hinput⟩ := bind_eq_ok.mp hinput
  obtain ⟨issuerInstance, _, hinput⟩ := bind_eq_ok.mp hinput
  obtain ⟨named, _, hinput⟩ := bind_eq_ok.mp hinput
  cases hinput
  obtain ⟨json, hjson, hbody⟩ := bind_eq_ok.mp hbody
  have hread : json.Read N := by
    unfold Request.json at hjson
    split at hjson
    · rename_i hparsed
      cases hjson
      rw [h.parseJson] at hparsed
      exact Json.parse_read hparsed
    · cases hjson
  have hschema : createStatusListSchema deps.platform json = Except.ok body := by
    cases hparsed : createStatusListSchema deps.platform json with
    | error issues => simp [hparsed, Parsed.orThrow] at hbody
    | ok a => simpa [hparsed, Parsed.orThrow] using hbody
  cases hoptions : body.options with
  | none => exact ⟨nofun, nofun⟩
  | some options =>
      obtain ⟨v, hv, hparsed⟩ := createStatusListSchema_options hread hschema hoptions
      obtain ⟨hlength, httl⟩ := optionsSchema_finite hv hparsed
      exact ⟨hlength, httl⟩

theorem createStatusListHandler_writes (request : Request) (tenant : TenantRecord) :
    Writes N (createStatusListHandler deps request tenant) fun _ => True := by
  refine Obeys.bind (.ofExcept fun input hinput => h.createInput_finite hinput)
    fun input hinput => ?_
  have hcreated := StatusListManager.createList_writes deps.manager h.build hinput
  refine hcreated.bind fun record _ => ?_
  exact Obeys.bind (P := fun _ => True) (.ofExcept fun _ _ => trivial) fun _ _ => trivial

theorem allocateHandler_writes (request : Request) (tenant : TenantRecord) :
    Writes N (allocateHandler deps request tenant) fun _ => True := by
  refine Obeys.bind (P := fun _ => True) (.ofExcept fun _ _ => trivial) fun input _ => ?_
  have hallocated := StatusListManager.allocateForCredential_writes deps.manager h.build
    tenant.tenantId input.2 input.1.statusPurpose input.1.statusListId
  exact hallocated.bind fun _ _ => .ofExcept fun _ _ => trivial

theorem setByExplicitSelector_writes (tenantId : String) (body : UpdateCredentialStatusBody) :
    Writes N (setByExplicitSelector deps tenantId body) fun _ => True := by
  unfold setByExplicitSelector
  split
  · refine (listFromUrl_writes _).bind fun list _ => ?_
    split
    · trivial
    · split
      · trivial
      · exact Obeys.bind (P := fun _ => True) (.ofExcept fun _ _ => trivial) fun _ _ =>
          StatusListManager.setStatus_writes deps.manager h.build _ _ _
  · trivial

theorem updateCredentialStatusHandler_writes (request : Request) (tenant : TenantRecord) :
    Writes N (updateCredentialStatusHandler deps request tenant) fun _ => True := by
  refine Obeys.bind (P := fun _ => True) (.ofExcept fun _ _ => trivial) fun body _ => ?_
  have hchange : Writes N (changeStatus deps tenant.tenantId body) fun _ => True := by
    unfold changeStatus
    split
    · exact h.setByExplicitSelector_writes _ _
    · exact StatusListManager.setCredentialStatus_writes deps.manager h.build _ _ _ _
  exact hchange.bind fun _ _ => trivial

theorem serve_writes (request : Option Request) :
    Writes N (serve deps request) fun _ => True := by
  cases request with
  | none => trivial
  | some request =>
      have hdispatch : Writes N (dispatch deps request) fun _ => True := by
        unfold dispatch
        split
        · trivial
        · trivial
        · split
          · exact getStatusListHandler_writes _ _
          · trivial
        · exact authenticated_writes (h.createStatusListHandler_writes request)
        · exact authenticated_writes (h.allocateHandler_writes request)
        · exact authenticated_writes (h.updateCredentialStatusHandler_writes request)
        · trivial
      have hhandle : Writes N (handle deps request) fun _ => True :=
        hdispatch.tryCatch fun _ => trivial
      exact hhandle.bind fun _ _ => trivial

end Textual

/-! ### Runs -/

/-- The service over the columns, before any of the requests was looked at. -/
def rowPool {B : Type} (deps : AppDeps B) (requests : Nat → Option Request) :
    Pool Operation Operation.Answer JsError (Option Response) RowWorld Nat :=
  ⟨RowWorld.initial, fun i => serve deps (requests i)⟩

section Runs

variable {deps : AppDeps B} {env : Environment}

/-- Where columns hold the records, a request is answered as it may rely on, and they hold them
again. -/
theorem Textual.answers (h : Textual N deps env) {owner : Nat} {w w' : World} {o : Operation}
    {answer : o.Answer} (hholds : ∃ rows, Holds N rows w) (ho : o.Writable N)
    (hstep : World.step env owner w o = some (answer, w')) :
    o.Promises N answer ∧ ∃ rows, Holds N rows w' := by
  obtain ⟨rows, hholds⟩ := hholds
  rw [World.step] at hstep
  split at hstep
  · cases hstep
  · have hrespond := Option.some.inj hstep
    have hanswer : (w.respond env owner o).1 = answer := congrArg Prod.fst hrespond
    have hstate : (w.respond env owner o).2 = w' := congrArg Prod.snd hrespond
    obtain ⟨rows', -, hholds'⟩ : ∃ rows', rows.respond N env owner o =
        some ((w.respond env owner o).1, rows') ∧ Holds N rows' (w.respond env owner o).2 :=
      hholds.respond ho
    subst hanswer hstate
    refine ⟨?_, rows', hholds'⟩
    cases o with
    | lockStatusList id =>
        intro record hrecord
        simp only [World.respond] at hrecord
        split at hrecord <;> rename_i row hfound
        · obtain rfl : row = record := Option.some.inj hrecord
          exact hholds.getStatusList_writable hfound
        · cases hrecord
    | newDate => exact h.newDate w.tick
    | sign issuerInstance unsigned =>
        show Operation.Promises N (.sign issuerInstance unsigned)
          (env.signing.sign w.tick issuerInstance unsigned)
        cases hsigned : env.signing.sign w.tick issuerInstance unsigned with
        | ok signed => exact h.sign ho hsigned
        | error e => trivial
    | _ => trivial

/-- In no run does the service write what columns cannot hold. -/
theorem Textual.writable (h : Textual N deps env) {requests : Nat → Option Request}
    {q : Pool Operation Operation.Answer JsError (Option Response) World Nat}
    (hrun : Reaches deps env requests q) {i : Nat} {o : Operation}
    {k : o.Answer → Async (Option Response)} (hthread : q.thread i = .call o k) :
    o.Writable N := by
  have hobeys := (Obeys.run (A := Operation.Promises N) h.answers ⟨_, Holds.initial N⟩
    (fun i => h.serve_writes (requests i)) hrun).2 i
  rw [hthread] at hobeys
  exact hobeys.1

/-- The service over the database's columns has exactly the runs it has over records: the threads
are the same, and the columns hold the records. -/
theorem runs_over_rows (h : Textual N deps env) (requests : Nat → Option Request) :
    (∀ q, Pool.Run (RowWorld.step N env) (rowPool deps requests) q →
      ∃ q', Reaches deps env requests q' ∧ q.thread = q'.thread ∧ Holds N q.state q'.state) ∧
    ∀ q', Reaches deps env requests q' →
      ∃ q, Pool.Run (RowWorld.step N env) (rowPool deps requests) q ∧ q.thread = q'.thread ∧
        Holds N q.state q'.state := by
  have hstart : Matches.Pools (Holds N) (rowPool deps requests) (requestPool deps requests) :=
    ⟨rfl, Holds.initial N⟩
  constructor
  · intro q hrun
    obtain ⟨q', hrun', hpools⟩ := (rows_match N env).run hstart h.writable hrun
    exact ⟨q', hrun', hpools.thread, hpools.state⟩
  · intro q' hrun'
    obtain ⟨q, hrun, hpools⟩ := (rows_match N env).run_back hstart h.writable hrun'
    exact ⟨q, hrun, hpools.thread, hpools.state⟩

end Runs

/-! ### The fixtures as texts -/

theorem plainLibrary_buildsStorable (N : Numerals) : plainLibrary.BuildsStorable N := by
  intro url list statusPurpose
  refine ⟨.arr ?_, .arr ?_, ?_⟩
  · simpa using Json.Storable.str _
  · simpa using ⟨Json.Storable.str _, Json.Storable.str _⟩
  · have hkeys : (plainLibrary.createCredential url list statusPurpose).credentialSubject.map
        Prod.fst = ["id", "type", "statusPurpose", "encodedList"] := rfl
    refine .of_names (hkeys ▸ by decide) (hkeys ▸ by decide +kernel) ?_
    simpa [plainLibrary, PlainList.createCredential] using
      ⟨Json.Storable.str _, Json.Storable.str _, Json.Storable.str _, Json.Storable.str _⟩

theorem FakeSigningService.sign_storable {digest : UnsignedCredential → String}
    {issuerInstance : IssuerInstance} {unsigned signed : JsonObject}
    (hunsigned : (Json.obj unsigned).Storable N)
    (h : FakeSigningService.sign digest issuerInstance unsigned = .ok signed) :
    (Json.obj signed).Storable N := by
  obtain ⟨did, _, h⟩ := bind_eq_ok.mp h
  dsimp only at h
  split at h
  · cases h
  · cases h
    refine hunsigned.set (by decide +kernel) (.of_names (by simp) ?_ ?_)
    · simp only [List.map_cons, List.map_nil]
      decide +kernel
    · simpa using ⟨Json.Storable.str _, Json.Storable.str _, Json.Storable.str _,
        Json.Storable.str _, Json.Storable.str _⟩

/-- The test environment while its clock stands still. -/
def stoppedEnvironment (dialect : Dialect) : Environment :=
  { testEnvironment dialect with newDate := fun _ => 1786147200000 }

/-- The test app, reading bodies as JSON. -/
def readingApp : AppDeps PlainList :=
  { testApp with platform := { plainPlatform [] with parseJson := Json.parse plainNumerals } }

theorem readingApp_textual (dialect : Dialect) :
    Textual plainNumerals readingApp (stoppedEnvironment dialect) where
  parseJson := rfl
  newDate _ := by
    show 1786147200000 < firstOfFiveDigits
    decide
  build := plainLibrary_buildsStorable _
  sign {_ issuerInstance unsigned signed} hunsigned hsigned := by
    have hfake : FakeSigningService.sign (fun _ => "0") issuerInstance unsigned = .ok signed :=
      hsigned
    exact FakeSigningService.sign_storable hunsigned hfake

theorem runs_over_rows_stopped :
    Textual plainNumerals readingApp (stoppedEnvironment .sqlite) ∧
      ∀ q', Reaches readingApp (stoppedEnvironment .sqlite) (fun _ => some createRequest) q' →
        ∃ q, Pool.Run (RowWorld.step plainNumerals (stoppedEnvironment .sqlite))
          (rowPool readingApp fun _ => some createRequest) q ∧ q.thread = q'.thread ∧
            Holds plainNumerals q.state q'.state :=
  ⟨readingApp_textual .sqlite, (runs_over_rows (readingApp_textual .sqlite) _).2⟩

end VcalmStatus
