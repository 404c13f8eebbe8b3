import VcalmStatus.Safety.Reachable

/-!
A request that is handled by itself, as an equation: authentication finds the caller and touches
nothing, so what is left of the request is its handler, run from the same state.
-/

namespace VcalmStatus

open Js Effects

section Runs

variable {B : Type} {deps : AppDeps B} {env : Environment} {i : Nat} {w : World}
  {request : Request} {tenant : TenantRecord}

theorem run_handle : (handle deps request).run (World.step env i) w =
    ((dispatch deps request).run (World.step env i) w).map
      fun rw => (.ok (deps.respond rw.1), rw.2) := by
  rw [handle, Program.run_tryCatch]
  cases (dispatch deps request).run (World.step env i) w with
  | none => rfl
  | some rw =>
      obtain ⟨r, w'⟩ := rw
      cases r <;> rfl

theorem dispatch_update (hmethod : request.method = "POST")
    (hpath : request.path = "/credentials/status") :
    dispatch deps request =
      authenticated deps request (updateCredentialStatusHandler deps) := by
  simp [dispatch, hmethod, hpath]

end Runs

end VcalmStatus
