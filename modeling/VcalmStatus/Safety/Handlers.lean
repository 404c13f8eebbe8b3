import VcalmStatus.App
import VcalmStatus.Safety.Allocation

/-!
The specifications of the handlers: what each of the three writes answers with, what it can be
refused for, and that it keeps to any policy that grants the tenant its own lists.
-/

namespace VcalmStatus

open Js Effects Policy

section Specification

variable {B : Type} (deps : AppDeps B) (env : Environment)

/-- The URL a creation names for its list itself. -/
def requestedUrl (request : Request) : Option String :=
  if request.path = "/status-lists" then (createBody deps request).toOption.bind (·.id) else none

/-- What the lists a request creates are created from. -/
structure AskedFor (request : Request) (tenant : TenantRecord) (input : CreateStatusListInput) :
    Prop where
  tenantId : input.tenantId = tenant.tenantId
  bound : resolveIssuerInstance tenant (some input.issuerInstance.id) = some input.issuerInstance
  url : input.url = requestedUrl deps request
  slug : input.id = none ∧ input.url = none ∨ ∃ id url, input.id = some id ∧
    input.url = some url ∧ slugFromListUrl deps.platform url = .ok (some id) ∧
    isAuthorizedListUrl deps.platform tenant url deps.publicBaseUrl = true

/-- What a policy has to grant a request of a tenant. -/
structure Policy.Grants (P : Policy) (i : Nat) (request : Request) (tenant : TenantRecord) :
    Prop where
  creates : ∀ input row, AskedFor deps request tenant input →
    Created deps.manager env input row → P.wf row ∧ P.mayCreate i row
  resigns : P.Resigns deps.manager env
  owns : ∀ {row a}, P.fits row a → row.tenantId = a.tenantId
  updates : ∀ {row}, row.tenantId = tenant.tenantId → P.mayUpdate i row
  allocates : ∀ row credentialId statusPurpose, P.wf row → row.tenantId = tenant.tenantId →
    row.statusPurpose = statusPurpose → 0 < row.characteristics.length ∧
      ∀ a, AllocationFor tenant.tenantId credentialId statusPurpose row.id
        row.characteristics.length a → P.fits row a ∧ P.mayAllocate i a

variable (P : Policy) (i : Nat) (s : World) (request : Request) (tenant : TenantRecord)

/-- What `POST /status-lists` throws. -/
inductive CreateListRefused (t : World) : JsError → Prop
  | input {e : JsError} (h : createInput deps tenant request = .error e) : CreateListRefused t e
  | create {input : CreateStatusListInput} {e : JsError}
      (hinput : createInput deps tenant request = .ok input) (hquiet : P.Interference i s t)
      (h : CreateRefused deps.manager env input t e) : CreateListRefused t e
  | location {input : CreateStatusListInput} {row : StatusListRecord}
      (hinput : createInput deps tenant request = .ok input)
      (hrow : Created deps.manager env input row)
      (hlocation : isHeaderValue (canonicalUrlOf deps.publicBaseUrl row) = false) :
      CreateListRefused t (.other "TypeError")

/-- How `POST /status-lists` ends. -/
def CreateEnds : Except JsError Response → World → Prop :=
  Ends
    (fun response t => response.status = 201 ∧ ∃ input row,
      createInput deps tenant request = .ok input ∧ Created deps.manager env input row ∧
      isHeaderValue (canonicalUrlOf deps.publicBaseUrl row) = true ∧
      ∃ row' ∈ t.db.statusLists, P.Same row row')
    (fun e t => CreateListRefused deps env P i s request tenant t e)

/-- What `POST /credentials/status` throws. -/
inductive UpdateRefused : JsError → Prop
  | body {e : JsError} (h : updateBody deps request = .error e) : UpdateRefused e
  | selector (message : String) : UpdateRefused (problem 400 message)
  | noList (message : String) : UpdateRefused (problem 404 message)
  | url {body : UpdateCredentialStatusBody} {index url : String} {e : JsError}
      (hbody : updateBody deps request = .ok body)
      (hindex : body.credentialStatus.statusListIndex = some index)
      (hurl : body.credentialStatus.statusListCredential = some url)
      (h : listIdFromUrl deps.platform url = .error e) : UpdateRefused e
  | index {raw : String} {e : JsError} (h : parseIndex raw = .error e) : UpdateRefused e
  | set {row : StatusListRecord} {n : Number} {e : JsError}
      (hrow : CurrentRow P env s row.id row) (htenant : row.tenantId = tenant.tenantId)
      (h : SetRefused deps.manager env P s row.id n e) : UpdateRefused e
  | credential {credentialId : String} {statusPurpose : StatusPurpose} {e : JsError}
      (h : CredentialRefused deps.manager env P s tenant.tenantId credentialId statusPurpose e) :
      UpdateRefused e

/-- How `POST /credentials/status` ends. -/
def UpdateEnds : Except JsError Response → World → Prop :=
  Ends (fun response _ => response.status = 200)
    (fun e _ => UpdateRefused deps env P s request tenant e)

/-- How `POST /credentials/status/allocate` ends. -/
def AllocateEnds : Except JsError Response → World → Prop :=
  Ends
    (fun response t => ∃ input a list, allocateInput deps request = .ok input ∧
      Chosen P tenant.tenantId input.1.statusPurpose list t ∧
      AllocationFor tenant.tenantId input.2 input.1.statusPurpose list.id
        list.characteristics.length a ∧
      a ∈ t.db.indexAllocations ∧
      allocateResponse deps input.1.credential a list = .ok response)
    (fun e _ => allocateInput deps request = .error e ∨ ∃ input,
      allocateInput deps request = .ok input ∧
      (ForCredentialRefused deps.manager env P s tenant.tenantId input.2 input.1.statusPurpose
          input.1.statusListId e ∨
        ∃ a list, allocateResponse deps input.1.credential a list = .error e))

end Specification

/-! ### What a creation is asked for -/

section Input

variable {B : Type} {deps : AppDeps B} {request : Request} {tenant : TenantRecord}

/-- An id is read from the second of two segments. -/
theorem segments_of_slug {platform : Platform} {url id : String} {parsed : Url}
    (hparsed : platform.parseUrl url = some parsed)
    (hslug : slugFromListUrl platform url = .ok (some id)) :
    ∃ segment, parsed.segments = ["status-lists", segment] ∧
      decodeURIComponent segment = some id := by
  unfold slugFromListUrl at hslug
  rw [hparsed] at hslug
  dsimp only at hslug
  split at hslug
  · rename_i segment hsegments
    split at hslug
    · rename_i id' hdecode
      cases hslug
      exact ⟨segment, hsegments, hdecode⟩
    · cases hslug
  · cases hslug

theorem issuerInstanceFor_eq_ok {wanted : Option String} {found : IssuerInstance} :
    issuerInstanceFor tenant wanted = .ok found ↔
      resolveIssuerInstance tenant wanted = some found := by
  unfold issuerInstanceFor
  split <;> rename_i h <;> simp [h]

theorem namedList_eq_ok {url : String} {named : String × String} :
    namedList deps tenant url = .ok named ↔ named.2 = url ∧
      isAuthorizedListUrl deps.platform tenant url deps.publicBaseUrl = true ∧
      slugFromListUrl deps.platform url = .ok (some named.1) := by
  obtain ⟨id, url'⟩ := named
  unfold namedList
  cases hurl : isAuthorizedListUrl deps.platform tenant url deps.publicBaseUrl with
  | false => simp
  | true =>
      rcases hslug : slugFromListUrl deps.platform url with e | id' | id'
      · simp [bind, Except.bind]
      · simp [bind, Except.bind]
      · simp [bind, Except.bind, and_comm, eq_comm]

/-- The input of a creation, from its body. -/
theorem createInput_eq_ok {input : CreateStatusListInput}
    (h : createInput deps tenant request = .ok input) :
    ∃ body named, createBody deps request = .ok body ∧
      resolveIssuerInstance tenant (body.options.bind (·.issuerInstance)) =
        some input.issuerInstance ∧
      input.tenantId = tenant.tenantId ∧ input.id = named.map (·.1) ∧
      input.url = named.map (·.2) ∧
      (body.id = none ∧ named = none ∨ ∃ url n, body.id = some url ∧ named = some n ∧
        namedList deps tenant url = .ok n) := by
  obtain ⟨body, hbody, h⟩ := bind_eq_ok.mp h
  obtain ⟨issuerInstance, hinstance, h⟩ := bind_eq_ok.mp h
  obtain ⟨named, hnamed, h⟩ := bind_eq_ok.mp h
  cases h
  refine ⟨body, named, hbody, issuerInstanceFor_eq_ok.mp hinstance, rfl, rfl, rfl, ?_⟩
  cases hid : body.id with
  | none =>
      rw [hid] at hnamed
      cases hnamed
      exact .inl ⟨rfl, rfl⟩
  | some url =>
      rw [hid] at hnamed
      cases hn : namedList deps tenant url with
      | error e => simp [createInput.nameOf, hn, Except.map] at hnamed
      | ok n =>
          simp only [createInput.nameOf, hn, Except.map, Except.ok.injEq] at hnamed
          exact .inr ⟨url, n, rfl, hnamed.symm, hn⟩

theorem askedFor_of_createInput {input : CreateStatusListInput}
    (hpath : request.path = "/status-lists") (h : createInput deps tenant request = .ok input) :
    AskedFor deps request tenant input := by
  obtain ⟨body, named, hbody, hinstance, htenant, hid, hurl, hnamed⟩ := createInput_eq_ok h
  have hrequested : requestedUrl deps request = body.id := by
    rw [requestedUrl, if_pos hpath, hbody]
    rfl
  refine ⟨htenant, resolveIssuerInstance_id hinstance, ?_, ?_⟩
  · obtain ⟨hnone, rfl⟩ | ⟨url, n, hsome, rfl, hn⟩ := hnamed
    · rw [hrequested, hurl, hnone]
      rfl
    · rw [hrequested, hurl, hsome, Option.map_some, (namedList_eq_ok.mp hn).1]
  · obtain ⟨_, rfl⟩ | ⟨url, n, _, rfl, hn⟩ := hnamed
    · exact .inl ⟨hid, hurl⟩
    · obtain ⟨hsame, hauthorized, hslug⟩ := namedList_eq_ok.mp hn
      exact .inr ⟨n.1, n.2, hid, hurl, hsame ▸ hslug, hsame ▸ hauthorized⟩

theorem askedFor_of_default {issuerInstance : IssuerInstance} {statusPurpose : StatusPurpose}
    (hpath : request.path ≠ "/status-lists")
    (h : resolveIssuerInstance tenant = some issuerInstance) :
    AskedFor deps request tenant
      { tenantId := tenant.tenantId, issuerInstance, statusPurpose } :=
  ⟨rfl, resolveIssuerInstance_id h, (if_neg hpath).symm, .inl ⟨rfl, rfl⟩⟩

end Input

/-! ### The handlers -/

section Handlers

variable {B : Type} {deps : AppDeps B} {env : Environment} {P : Policy} {i : Nat} {s : World}
  {request : Request} {tenant : TenantRecord}

/-- The `Location` header is set or refused before anything is answered. -/
theorem withHeader_eq_ok {headers headers' : List (String × String)} {name value : String} :
    withHeader headers name value = .ok headers' ↔
      isHeaderValue value = true ∧ headers' = headers ++ [(name, value)] := by
  unfold withHeader
  split <;> rename_i h <;> simp [h, eq_comm]

theorem withHeader_eq_error {headers : List (String × String)} {name value : String}
    {e : JsError} : withHeader headers name value = .error e ↔
      isHeaderValue value = false ∧ e = .other "TypeError" := by
  unfold withHeader
  split <;> rename_i h <;> simp [h, eq_comm]

theorem createStatusListHandler_serves (hgrants : P.Grants deps env i request tenant)
    (hpath : request.path = "/status-lists") (hn : s.NotCommitted i) (hidle : s.Idle i) :
    P.Serves env i (createStatusListHandler deps request tenant)
      (fun r t => t.Idle i ∧ CreateEnds deps env P i s request tenant r t) s := by
  refine Serves.ofExcept (fun input hinput => ?_) fun e t he ht _ => ⟨ht.idle hidle, .input he⟩
  refine Serves.seq (StatusListManager.createList_serves hn hidle fun row hrow =>
    hgrants.creates input row (askedFor_of_createInput hpath hinput) hrow) ?_ ?_
  · intro row t _ h
    have hrow := h.1
    have hmem := h.2.2.1
    have hit := h.2.2.2.2
    refine Serves.ofExcept (fun headers hheaders => Serves.ret fun u hu _ => ?_)
      fun e u he hu _ => ?_
    · obtain ⟨row', hrow', hsame⟩ := hmem
      obtain ⟨row'', hrow'', hsame'⟩ := hu.lists row' hrow'
      exact ⟨hu.idle hit, rfl, input, row, hinput, hrow, (withHeader_eq_ok.mp hheaders).1, row'',
        hrow'', hsame.trans hsame'⟩
    · obtain ⟨hlocation, rfl⟩ := withHeader_eq_error.mp he
      exact ⟨hu.idle hit, .location hinput hrow hlocation⟩
  · rintro e t _ ⟨ht, he⟩
    exact ⟨ht.idle hidle, .create hinput ht he⟩

theorem listFromUrl_serves {body : UpdateCredentialStatusBody} {index url : String}
    (hbody : updateBody deps request = .ok body)
    (hindex : body.credentialStatus.statusListIndex = some index)
    (hurl : body.credentialStatus.statusListCredential = some url) (hn : s.NotCommitted i) :
    P.Serves env i (listFromUrl deps url)
      (Ends (fun row t => P.Interference i s t ∧ CurrentRow P env s row.id row ∧
          ∃ row' ∈ t.db.statusLists, P.Same row row')
        (fun e t => P.Interference i s t ∧ UpdateRefused deps env P s request tenant e)) s := by
  refine Serves.ofExcept (fun id _ => ?_) fun e t he ht _ => ⟨ht, .url hbody hindex hurl he⟩
  refine Serves.quiet (.getStatusList id) rfl hn fun t record ht hI hrecord => ?_
  have hrecord : record = t.db.getStatusList id := hrecord
  cases hfound : record.filter fun record =>
      canonicalUrlOf deps.publicBaseUrl record = url with
  | none => exact Serves.fail fun u hu _ => ⟨ht.trans hu, .noList _⟩
  | some row =>
      have hsome := (Option.filter_eq_some_iff.mp hfound).1
      rw [hrecord] at hsome
      have hmem := (Database.mem_of_getStatusList hsome).1
      exact Serves.ret fun u hu _ =>
        ⟨ht.trans hu, ⟨⟨t, ht.toExtends, hI, hmem⟩, rfl⟩, hu.lists row hmem⟩

/-- The selector leads to a list of the tenant and the purpose, or is refused. -/
theorem setByExplicitSelector_serves (hgrants : P.Grants deps env i request tenant)
    {body : UpdateCredentialStatusBody} (hbody : updateBody deps request = .ok body)
    (hn : s.NotCommitted i) (hidle : s.Idle i) :
    P.Serves env i (setByExplicitSelector deps tenant.tenantId body)
      (Ends (fun _ t => t.Idle i)
        (fun e t => t.Idle i ∧ UpdateRefused deps env P s request tenant e)) s := by
  unfold setByExplicitSelector
  split
  · rename_i index url hindex hurl
    refine Serves.seq (listFromUrl_serves hbody hindex hurl hn) ?_ fun e t _ h =>
      ⟨h.1.idle hidle, h.2⟩
    rintro row t hI ⟨ht, hrow, row₁, hrow₁, hsame₁⟩
    split
    · exact Serves.fail fun u hu _ => ⟨hu.idle (ht.idle hidle), .noList _⟩
    · rename_i htenant
      rw [ne_eq, not_not] at htenant
      split
      · exact Serves.fail fun u hu _ => ⟨hu.idle (ht.idle hidle), .selector _⟩
      · refine Serves.ofExcept (fun n _ => ?_) fun e u he hu _ =>
          ⟨hu.idle (ht.idle hidle), .index he⟩
        -- The list is the tenant's own whenever it is read again.
        refine (StatusListManager.setStatus_serves (ht.notCommitted hn) (ht.idle hidle)
          (fun v hv hIv row' hrow' hid => hgrants.updates ?_) hgrants.resigns).imp ?_
        · obtain ⟨row₂, hrow₂, hsame₂⟩ := hv.lists row₁ hrow₁
          have hsame := (hsame₁.trans hsame₂).binding
          rw [hIv.eq_of_id hrow' hrow₂ (hid.trans hsame.id), ← hsame.tenantId, htenant]
        · rintro (e | change) u _ h
          · exact ⟨h.1, .set hrow htenant
              (StatusListManager.SetRefused.mono ht.toExtends h.2.2)⟩
          · exact h.1
  · exact Serves.fail fun t ht _ => ⟨ht.idle hidle, .selector _⟩

theorem updateCredentialStatusHandler_serves (hgrants : P.Grants deps env i request tenant)
    (hn : s.NotCommitted i) (hidle : s.Idle i) :
    P.Serves env i (updateCredentialStatusHandler deps request tenant)
      (fun r t => t.Idle i ∧ UpdateEnds deps env P s request tenant r t) s := by
  refine Serves.ofExcept (fun body hbody => ?_) fun e t he ht _ => ⟨ht.idle hidle, .body he⟩
  refine Serves.seq
    (R := fun _ t => t.Idle i)
    (E := fun e t => t.Idle i ∧ UpdateRefused deps env P s request tenant e) ?_
    (fun change t _ hidle => Serves.ret fun u hu _ => ⟨hu.idle hidle, rfl⟩) fun e t _ h => h
  unfold changeStatus
  split
  · exact setByExplicitSelector_serves hgrants hbody hn hidle
  · -- An allocation of the tenant points into a list of the tenant.
    refine (StatusListManager.setCredentialStatus_serves hn hidle
      (fun a ha u _ hI hmem row hrow hid => hgrants.updates ?_) hgrants.resigns).imp ?_
    · obtain ⟨row', hrow', hid', hfits⟩ := hI.fits a hmem
      rw [hI.eq_of_id hrow hrow' (hid.trans hid'.symm), hgrants.owns hfits, ha.tenantId]
    · rintro (e | change) t _ h
      · exact ⟨h.1, .credential h.2.2⟩
      · exact h.1

theorem allocateHandler_serves (hgrants : P.Grants deps env i request tenant)
    (hpath : request.path ≠ "/status-lists")
    (hregistered : env.tenants.getTenant tenant.tenantId = some tenant)
    (hn : s.NotCommitted i) (hidle : s.Idle i) :
    P.Serves env i (allocateHandler deps request tenant)
      (fun r t => t.Idle i ∧ AllocateEnds deps env P s request tenant r t) s := by
  refine Serves.ofExcept (fun input hinput => ?_) fun e t he ht _ => ⟨ht.idle hidle, .inl he⟩
  refine Serves.seq (StatusListManager.allocateForCredential_serves hn hidle
    (fun issuerInstance row hinstance hrow => ?_)
    fun row hwf htenant hpurpose => hgrants.allocates row _ _ hwf htenant hpurpose) ?_ ?_
  · rw [DefaultInstance, hregistered, Option.bind_some] at hinstance
    exact hgrants.creates _ row (askedFor_of_default hpath hinstance) hrow
  · rintro r t _ ⟨hlist, ha, hmem, _, _, hit⟩
    refine Safe.ofExcept fun u hu _ => ⟨hu.idle hit, ?_⟩
    cases hresponse : allocateResponse deps input.1.credential r.1 r.2 with
    | error e => exact .inr ⟨input, hinput, .inr ⟨r.1, r.2, hresponse⟩⟩
    | ok response =>
        obtain ⟨row, hrow, hsame⟩ := hlist.mem
        obtain ⟨row', hrow', hsame'⟩ := hu.lists row hrow
        exact ⟨input, r.1, r.2, hinput,
          ⟨hlist.tenantId, hlist.statusPurpose, row', hrow', hsame.trans hsame'⟩, ha,
          hu.allocations r.1 hmem, hresponse⟩
  · rintro e t _ ⟨_, hit, he⟩
    exact ⟨hit, .inr ⟨input, hinput, .inl he⟩⟩

end Handlers

end VcalmStatus
