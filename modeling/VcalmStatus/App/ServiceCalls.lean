import VcalmStatus.App.Retrieval
import VcalmStatus.App.Revocation
import VcalmStatus.Safety.Moments
import VcalmStatus.Safety.Versions

/-!
Requests and status calls, all at once. A status call made directly returns what it changed, which a
response does not say; so the pool has both. A commit that moves a bit is what a change is reported
for, and what a retrieval answers is the list of one moment of the run.
-/

namespace VcalmStatus

open Js Effects Policy

/-- A request to the app, or a status call that is made of the manager itself. -/
inductive ServiceCall
  | status (call : StatusCall)
  | http (request : Request)

inductive ServiceResult
  | change (change : StatusChange)
  | response (response : Response)

def ServiceCall.program {B : Type} (deps : AppDeps B) : ServiceCall → Async ServiceResult
  | .status call => do
      let change ← call.program deps.manager
      pure (.change change)
  | .http request => do
      let response ← handle deps request
      pure (.response response)

/-- The value a status call asks for. -/
def StatusCall.value : StatusCall → Bool
  | .setStatus _ _ status => status
  | .setCredentialStatus _ _ _ status => status

section Pool

variable {B : Type} (deps : AppDeps B) (env : Environment) (calls : Nat → ServiceCall)

/-- Lists are created by requests and can be read, moved and signed for; whose they are does not
matter here. -/
def servicePolicy (tenants : TenantRegistry) : Policy where
  wf row := Sound deps tenants row ∧ Served deps row
  keeps _ _ := True
  fits row a := row.tenantId = a.tenantId ∧ row.statusPurpose = a.statusPurpose ∧
    a.statusListIndex < row.characteristics.length
  mayCreate _ row := row.version = 1
  mayUpdate _ _ := True
  mayAllocate _ _ := True
  keeps_refl _ := trivial
  keeps_trans _ _ := trivial
  fits_congr h hf := h.fits hf
  mayUpdate_congr _ h := h

end Pool

section Calls

variable {B : Type} {deps : AppDeps B} {env : Environment} {calls : Nat → ServiceCall} {i : Nat}
  {s t : World}

end Calls

end VcalmStatus
