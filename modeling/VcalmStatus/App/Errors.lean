import VcalmStatus.App.Runs
import VcalmStatus.App.TestRequests
import VcalmStatus.Safety.Asked
import VcalmStatus.Safety.Refusals
import VcalmStatus.StatusLists.Granted

/-!
What a write is answered with when the tenant has somebody to sign for it and the signer does not
fail. Each of the three writes ends with a status that is mapped, unless one of the exceptions
slips through that nothing on the way catches; which they are is said here input by input, and a
creation is followed through its whole run for it.
-/

namespace VcalmStatus

open Js Effects Policy

section Slips

variable {B : Type} (deps : AppDeps B) (env : Environment) (w : World) (tenant : TenantRecord)
  (request : Request)

/-- What is wrong with a creation that ends in a bare 500: its input cannot be read, its length
cannot be allocated, or its list is stored under a URL that no `Location` header can have. -/
inductive CreationSlips : Prop
  | input (h : InputFault deps tenant request)
  | length {input : CreateStatusListInput} {c : StatusListCharacteristics} {e : JsError}
      (hinput : createInput deps tenant request = .ok input)
      (hc : characteristicsOf (input.characteristics.getD {}) = .ok c)
      (hlist : deps.manager.lib.createList c.length = .error e)
  | location {input : CreateStatusListInput} {c : StatusListCharacteristics} {list : B}
      (hinput : createInput deps tenant request = .ok input)
      (hc : characteristicsOf (input.characteristics.getD {}) = .ok c)
      (hlist : deps.manager.lib.createList c.length = .ok list)
      (hfree : w.db.getStatusList (input.id.getD (env.generateId w.tick)) = none)
      (hlocation : isHeaderValue (input.url.getD (statusListUrl deps.publicBaseUrl
        (input.id.getD (env.generateId w.tick)))) = false)

/-- What is wrong with an update that ends in one. -/
inductive UpdateSlips : Prop
  | notJson (h : deps.platform.parseJson request.body = none)
  | badEscape {body : UpdateCredentialStatusBody} {index url : String}
      (hbody : updateBody deps request = .ok body)
      (hindex : body.credentialStatus.statusListIndex = some index)
      (hurl : body.credentialStatus.statusListCredential = some url)
      (hescape : BadEscape deps.platform url)

/-- What is wrong with an allocation that ends in one: its body is no JSON, or an entry is given
and the credential is nested too deep to be sent back with it. -/
inductive AllocationSlips : Prop
  | notJson (h : deps.platform.parseJson request.body = none)
  | tooDeep {input : AllocateRequest × String} (hinput : allocateInput deps request = .ok input)
      (hgranted : Granted deps.manager env w tenant.tenantId input.2 input.1.statusPurpose
        input.1.statusListId)
      (hdeep : deps.platform.maxNesting <
        (Json.obj (withStatusEntry input.1.credential (.obj []))).depth)

/-- The writes that end in a bare 500. -/
inductive Slips : Prop
  | create (hpath : request.path = "/status-lists")
      (h : CreationSlips deps env w tenant request)
  | allocate (hpath : request.path = "/credentials/status/allocate")
      (h : AllocationSlips deps env w tenant request)
  | update (hpath : request.path = "/credentials/status") (h : UpdateSlips deps request)

end Slips

section Routes

variable {B : Type} {deps : AppDeps B} {env : Environment} {i : Nat} {w : World}
  {tenant : TenantRecord} {request : Request} {slips : Prop}

theorem canonicalUrlOf_of_created (hkeeps : env.signing.KeepsId) {input : CreateStatusListInput}
    {row : StatusListRecord} (h : Created deps.manager env input row) :
    canonicalUrlOf deps.publicBaseUrl row =
      input.url.getD (statusListUrl deps.publicBaseUrl row.id) := by
  obtain ⟨list, _, _, issuer, validFrom, _, tick, hsign⟩ := h.materialized
  rw [canonicalUrlOf, credentialId?_congr (hkeeps hsign), build_id]
  rfl

/-- Of the surroundings only the ids and the indexes that are drawn make a difference. -/
theorem Slips.congr {env' : Environment} (hid : env.generateId = env'.generateId)
    (hindex : env.randomIndex = env'.randomIndex) (h : Slips deps env w tenant request) :
    Slips deps env' w tenant request := by
  cases h with
  | create hpath h =>
      refine .create hpath ?_
      cases h with
      | input h => exact .input h
      | length hinput hc hlist => exact .length hinput hc hlist
      | location hinput hc hlist hfree hlocation =>
          rw [hid] at hfree hlocation
          exact .location hinput hc hlist hfree hlocation
  | allocate hpath h =>
      refine .allocate hpath ?_
      cases h with
      | notJson h => exact .notJson h
      | tooDeep hinput hgranted hdeep => exact .tooDeep hinput (hgranted.congr hid hindex) hdeep
  | update hpath h => exact .update hpath h

end Routes

end VcalmStatus
