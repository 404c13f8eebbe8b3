import VcalmStatus.Safety.Served

/-!
The statuses of refusals. Every error a handler can end with is one the client can do something
about, answered with 400, 404 or 409, or comes from the signing service, or is one of the few that
nothing on the way maps: text that is no JSON, an escape that does not decode, a length the
bitstring library cannot allocate.
-/

namespace VcalmStatus

open Js Effects Policy

/-- The status an error is answered with. -/
def JsError.status (platform : Platform) (e : JsError) : Nat :=
  (toProblemDetails platform e).status

/-- The statuses of refusals a client can do something about. -/
def clientStatuses : List Nat := [400, 404, 409]

/-- The path is that of a list, but its last segment does not decode. -/
def BadEscape (platform : Platform) (url : String) : Prop :=
  ∃ parsed segment, platform.parseUrl url = some parsed ∧
    parsed.segments = ["status-lists", segment] ∧ decodeURIComponent segment = none

variable {B : Type} {deps : AppDeps B} {platform : Platform} {env : Environment}
  {request : Request} {tenant : TenantRecord} {P : Policy} {i : Nat} {s t : World} {e : JsError}

theorem status_statusList {code : StatusListErrorCode} {message : String}
    (h : code.status ∈ clientStatuses) :
    (JsError.statusList code message).status platform ∈ clientStatuses := h

theorem status_storage {code : StorageErrorCode} {message : String}
    (h : code.status ∈ clientStatuses) :
    (JsError.storage code message).status platform ∈ clientStatuses := h

theorem status_of_fromSigner (h : e.fromSigner = true) : 500 ≤ e.status platform := by
  cases e with
  | signing code message => exact Nat.le_refl 500
  | other name => exact Nat.le_refl 500
  | signingService code message =>
      have h : ∀ code : SigningServiceErrorCode, 500 ≤ code.status := by
        intro code
        cases code <;> decide
      exact h code
  | statusList code message => cases h
  | storage code message => cases h
  | problem e => cases h
  | zod issues => cases h
  | http status message => cases h

theorem Environment.SignerFails.fromSigner {issuerInstance : IssuerInstance}
    (h : env.SignerFails issuerInstance e) : e.fromSigner = true := by
  cases h with
  | issuerDid h => exact env.signing.issuerDid_error h
  | sign hdid hissuer h => exact env.signing.sign_error h

theorem le_of_mem_clientStatuses {n : Nat} (h : n ∈ clientStatuses) : 400 ≤ n := by
  simp only [clientStatuses, List.mem_cons, List.not_mem_nil, or_false] at h
  omega

/-! ### Bodies -/

theorem orThrow_error {α : Type} {parsed : Parsed α} (h : parsed.orThrow = .error e) :
    e.status platform = 400 := by
  cases parsed with
  | ok a => cases h
  | error issues =>
      cases h
      rfl

/-- A body is refused for its text or for what the schema finds. -/
theorem body_error {α : Type} {parse : Json → Except JsError α}
    (hparse : ∀ json e, parse json = .error e → e.status platform = 400)
    (h : (do
      let json ← request.json platform
      parse json) = .error e) :
    e.status platform = 400 ∨ platform.parseJson request.body = none := by
  obtain h | ⟨json, _, h⟩ := bind_eq_error.mp h
  · unfold Request.json at h
    split at h <;> rename_i hjson
    · cases h
    · exact .inr hjson
  · exact .inl (hparse json e h)

theorem json_of_none (h : platform.parseJson request.body = none) :
    request.json platform = .error (.other "SyntaxError") := by
  rw [Request.json, h]

theorem createBody_error (h : createBody deps request = .error e) :
    e.status deps.platform = 400 ∨ deps.platform.parseJson request.body = none :=
  body_error (fun _ _ => orThrow_error) h

theorem slugFromListUrl_error {url : String} (h : slugFromListUrl platform url = .error e) :
    platform.parseUrl url = none ∨ e = .other "URIError" ∧ BadEscape platform url := by
  unfold slugFromListUrl at h
  split at h <;> rename_i hparsed
  · exact .inl hparsed
  · split at h <;> rename_i hsegments
    · split at h <;> rename_i hdecode
      · cases h
      · cases h
        exact .inr ⟨rfl, _, _, hparsed, hsegments, hdecode⟩
    · cases h

theorem slugFromListUrl_of_badEscape {url : String} (h : BadEscape platform url) :
    slugFromListUrl platform url = .error (.other "URIError") := by
  obtain ⟨parsed, segment, hparsed, hsegments, hdecode⟩ := h
  simp [slugFromListUrl, hparsed, hsegments, hdecode]

theorem listIdFromUrl_error {url : String} (h : listIdFromUrl platform url = .error e) :
    e.status platform = 400 ∨ BadEscape platform url := by
  unfold listIdFromUrl at h
  split at h <;> rename_i hparsed
  · cases h
    exact .inl rfl
  · split at h <;> rename_i hsegments
    · split at h <;> rename_i hdecode
      · cases h
      · exact .inr ⟨_, _, hparsed, hsegments, hdecode⟩
    · cases h
      exact .inl rfl

theorem listIdFromUrl_of_badEscape {url : String} (h : BadEscape platform url) :
    listIdFromUrl platform url = .error (.other "URIError") := by
  obtain ⟨parsed, segment, hparsed, hsegments, hdecode⟩ := h
  simp [listIdFromUrl, hparsed, hsegments, hdecode]

theorem parseIndex_error {raw : String} (h : parseIndex raw = .error e) :
    e.status platform = 400 := by
  unfold parseIndex at h
  split at h
  · cases h
    rfl
  · split at h
    · cases h
    · cases h
      rfl

/-! ### Creations -/

/-- The input of a creation cannot be made of the body, and nothing says so to the client. -/
inductive InputFault (deps : AppDeps B) (tenant : TenantRecord) (request : Request) : Prop
  | notJson (h : deps.platform.parseJson request.body = none)
  | badEscape {body : CreateStatusListBody} {issuerInstance : IssuerInstance} {url : String}
      (hbody : createBody deps request = .ok body)
      (hinstance : resolveIssuerInstance tenant (body.options.bind (·.issuerInstance)) =
        some issuerInstance)
      (hurl : body.id = some url)
      (hauthorized : isAuthorizedListUrl deps.platform tenant url deps.publicBaseUrl = true)
      (hescape : BadEscape deps.platform url)

theorem namedList_error {url : String} (h : namedList deps tenant url = .error e) :
    e.status deps.platform = 400 ∨
      isAuthorizedListUrl deps.platform tenant url deps.publicBaseUrl = true ∧
        BadEscape deps.platform url := by
  unfold namedList at h
  cases hauthorized : isAuthorizedListUrl deps.platform tenant url deps.publicBaseUrl with
  | false =>
      rw [hauthorized] at h
      cases h
      exact .inl rfl
  | true =>
      rw [hauthorized] at h
      obtain h | ⟨slug, _, h⟩ := bind_eq_error.mp h
      · obtain hnone | ⟨_, hescape⟩ := slugFromListUrl_error h
        · simp [isAuthorizedListUrl, hnone] at hauthorized
        · exact .inr ⟨rfl, hescape⟩
      · cases slug with
        | none =>
            cases h
            exact .inl rfl
        | some id => cases h

/-- What is wrong with a creation is the client's, or a fault, or a tenant with nobody to sign. -/
theorem createInput_error (h : createInput deps tenant request = .error e) :
    e.status deps.platform = 400 ∨ e.status deps.platform = 500 ∧
      (InputFault deps tenant request ∨ resolveIssuerInstance tenant = none) := by
  obtain h | ⟨body, hbody, h⟩ := bind_eq_error.mp h
  · obtain hstatus | hjson := createBody_error h
    · exact .inl hstatus
    · rw [createBody, json_of_none hjson] at h
      cases h
      exact .inr ⟨rfl, .inl (.notJson hjson)⟩
  obtain h | ⟨issuerInstance, hinstance, h⟩ := bind_eq_error.mp h
  · unfold issuerInstanceFor at h
    split at h
    · cases h
    · cases h
      exact .inl rfl
    · rename_i hnone hwanted
      cases h
      exact .inr ⟨rfl, .inr (by rwa [hwanted] at hnone)⟩
  obtain h | ⟨named, _, h⟩ := bind_eq_error.mp h
  · cases hid : body.id with
    | none =>
        rw [hid] at h
        cases h
    | some url =>
        rw [hid] at h
        cases hnamed : namedList deps tenant url with
        | ok n => simp [createInput.nameOf, hnamed, Except.map] at h
        | error e' =>
            have hsame : e' = e := by
              simpa [createInput.nameOf, hnamed, Except.map] using h
            subst hsame
            obtain hstatus | ⟨hauthorized, hescape⟩ := namedList_error hnamed
            · exact .inl hstatus
            · refine .inr ⟨?_, .inl (.badEscape hbody (issuerInstanceFor_eq_ok.mp hinstance) hid
                hauthorized hescape)⟩
              rw [namedList, hauthorized, slugFromListUrl_of_badEscape hescape] at hnamed
              cases hnamed
              rfl
  · cases h

theorem characteristicsOf_error {requested : RequestedCharacteristics}
    (h : characteristicsOf requested = .error e) : e.status platform = 400 := by
  simp only [characteristicsOf] at h
  split at h
  · cases h
    rfl
  · split at h
    · cases h
      rfl
    · cases h

/-- A creation is refused for what it asks for or for the id it names, or the library has no room
for it, or the signing service fails. -/
theorem createRefused_status {input : CreateStatusListInput}
    (h : CreateRefused deps.manager env input t e) :
    e.status platform ∈ clientStatuses ∨ env.SignerFails input.issuerInstance e ∨
      (∃ name, e = .other name) ∧
      ∃ c, characteristicsOf (input.characteristics.getD {}) = .ok c ∧
        deps.manager.lib.createList c.length = .error e := by
  cases h with
  | characteristics h =>
      rw [characteristicsOf_error h]
      exact .inl (by decide)
  | length hc h => exact .inr (.inr ⟨deps.manager.lib.createList_error h, _, hc, h⟩)
  | signer h => exact .inr (.inl h)
  | duplicate hc hlist hold hid =>
      exact .inl (status_storage (by decide))

/-! ### Allocations and updates -/

theorem allocateRefused_status {tenantId credentialId listId : String}
    {statusPurpose : StatusPurpose}
    (h : AllocateRefused env P s tenantId credentialId statusPurpose listId e) :
    e.status platform ∈ clientStatuses := by
  cases h with
  | listNotFound hu hnone => exact status_statusList (by decide)
  | exhausted => exact status_statusList (by decide)
  | alreadyAllocated ha message => exact status_storage (by decide)

/-- With a default instance, the choice of a list fails only where the signing service does. -/
theorem forCredentialRefused_status {tenantId credentialId : String}
    {statusPurpose : StatusPurpose} {listId : Option String}
    (h : ForCredentialRefused deps.manager env P s tenantId credentialId statusPurpose listId e) :
    e.status platform ∈ clientStatuses ∨
      (∃ issuerInstance, env.SignerFails issuerInstance e) ∨ 500 ≤ e.status platform ∧
      (env.tenants.getTenant tenantId).bind (resolveIssuerInstance ·) = none := by
  cases h with
  | allocate hlist h => exact .inl (allocateRefused_status h)
  | choice h =>
      cases h with
      | listNotFound hu hnone =>
          exact .inl (status_statusList (by decide))
      | purposeMismatch hrow htenant hne =>
          exact .inl (status_statusList (by decide))
      | noInstance hnone message => exact .inr (.inr ⟨Nat.le_refl 500, hnone⟩)
      | create hinstance h =>
          obtain hclient | hsigner | ⟨_, c, hc, hlist⟩ := createRefused_status h
          · exact .inl hclient
          · exact .inr (.inl ⟨_, hsigner⟩)
          · -- The default length is one the library always has room for.
            obtain ⟨_, _, rfl⟩ := characteristicsOf_eq_ok.mp hc
            obtain ⟨list, hroom⟩ := deps.manager.lib.createList_minimum
            have hlist : deps.manager.lib.createList minimumListLength = .error e := hlist
            rw [hroom] at hlist
            cases hlist

/-- A response is not written only where its body is too deep. -/
theorem Platform.json_eq_ok {body : Json} {response : Response}
    (h : platform.json body = .ok response) :
    response = { status := 200, body := some body } := by
  unfold Platform.json at h
  split at h
  · cases h
  · exact (Except.ok.inj h).symm

theorem Platform.json_eq_error {body : Json} (h : platform.json body = .error e) :
    platform.maxNesting < body.depth ∧ e = .other "RangeError" := by
  unfold Platform.json at h
  split at h <;> rename_i hdeep
  · exact ⟨hdeep, (Except.error.inj h).symm⟩
  · cases h

/-- A credential has one allocation for a purpose, now and later. -/
theorem HeldFor.eq {a b : IndexAllocation}
    (h : HeldFor env P s a.tenantId a.credentialId a.statusPurpose b)
    (ha : a ∈ s.db.indexAllocations) : b = a := by
  obtain ⟨u, hu, hI, hb⟩ := h.held
  exact List.inj_on_of_nodup_map hI.credentials_nodup hb (hu.allocations a ha)
    (by rw [h.tenantId, h.credentialId, h.statusPurpose])

section Allocated

variable {a : IndexAllocation} {row : StatusListRecord}

/-- The list of an allocation, as it is found later, still has room for it. -/
theorem lt_of_currentRow
    (hfits : ∀ row a, P.fits row a → a.statusListIndex < row.characteristics.length)
    (ha : a ∈ s.db.indexAllocations) (hrow : CurrentRow P env s a.listId row) :
    a.statusListIndex < row.characteristics.length := by
  obtain ⟨u, hu, hIu, hmem⟩ := hrow.current
  obtain ⟨list, hlist, hid, hlt⟩ := hIu.fits a (hu.allocations a ha)
  rw [hIu.eq_of_id hmem hlist (hrow.id.trans hid.symm)]
  exact hfits list a hlt

/-- The list of an allocation, as it is found later, has the instance it had. -/
theorem bound_of_currentRow {issuerInstance : IssuerInstance} (hI : P.Inv env s)
    (ha : a ∈ s.db.indexAllocations) (hrow : CurrentRow P env s a.listId row)
    (hbound : BoundInstance env row issuerInstance) :
    ∃ list ∈ s.db.statusLists, list.id = a.listId ∧ BoundInstance env list issuerInstance := by
  obtain ⟨u, hu, hIu, hmem⟩ := hrow.current
  obtain ⟨list, hlist, hid, _⟩ := hI.fits a ha
  obtain ⟨list', hlist', hsame⟩ := hu.lists list hlist
  have hrowid : row.id = list'.id := (hrow.id.trans hid.symm).trans hsame.binding.id
  rw [hIu.eq_of_id hmem hlist' hrowid, BoundInstance, ← hsame.binding.tenantId,
    ← hsame.binding.issuerInstanceId] at hbound
  exact ⟨list, hlist, hid, hbound⟩

/-- A call for an allocation that is there fails only where the signing service does, for the
instance of its list. -/
theorem signerFails_of_credentialRefused (hsound : ∀ row, P.wf row → Sound deps env.tenants row)
    (hfits : ∀ row a, P.fits row a → a.statusListIndex < row.characteristics.length)
    (hI : P.Inv env s) (ha : a ∈ s.db.indexAllocations)
    (h : CredentialRefused deps.manager env P s a.tenantId a.credentialId a.statusPurpose e) :
    ∃ row issuerInstance, row ∈ s.db.statusLists ∧ row.id = a.listId ∧
      BoundInstance env row issuerInstance ∧ env.SignerFails issuerInstance e := by
  cases h with
  | notAllocated hu hnone => exact absurd ⟨rfl, rfl, rfl⟩ (hnone a (hu.allocations a ha))
  | @set b _ hb hset =>
      have hsame : b = a := HeldFor.eq hb ha
      subst hsame
      cases hset with
      | listNotFound hu hnone =>
          obtain ⟨row, hrow, hid, _⟩ := hI.fits b ha
          obtain ⟨row', hrow', hsame⟩ := hu.lists row hrow
          exact absurd (hsame.binding.id.symm.trans hid) (hnone row' hrow')
      | issuerInstance hrow hnone message =>
          obtain ⟨issuerInstance, hbound⟩ := (hsound _ hrow.wf).bound
          rw [hnone] at hbound
          cases hbound
      | apply hrow hbound happly =>
          obtain ⟨hout, _⟩ | hsigner := refused_of_sound (hsound _ hrow.wf) happly
          · have hin := StatusListManager.indexWithin_eq_some.mpr
              ⟨rfl, lt_of_currentRow hfits ha hrow⟩
            rw [hout] at hin
            cases hin
          · obtain ⟨list, hlist, hid, hbound⟩ := bound_of_currentRow hI ha hrow hbound
            exact ⟨list, _, hlist, hid, hbound, hsigner⟩

end Allocated

end VcalmStatus
