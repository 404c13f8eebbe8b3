import VcalmStatus.Safety.Alone
import VcalmStatus.StatusLists.Leftover

/-!
What decides how a creation or an allocation ends that runs alone.

The signing service apart, the tables do, and the moments to come: the id a list is given, and the
indexes that are drawn.
-/

namespace VcalmStatus

open Js Effects Policy

/-- One of the indexes that are drawn from this moment on is free. -/
def DrawsFree (env : Environment) (db : Database) (tick : Nat) (listId : String)
    (length attempts : Nat) : Prop :=
  ∃ k < attempts, db.isIndexAllocated listId (env.randomIndex (tick + k) length) = false

/-- The newest list of the tenant and purpose that is under the threshold. -/
def ManagerDeps.candidate {B : Type} (deps : ManagerDeps B) (db : Database) (tenantId : String)
    (statusPurpose : StatusPurpose) : Option StatusListRecord :=
  (db.findStatusLists tenantId (some statusPurpose) none).reverse.find? fun list =>
    (db.countAllocations list.id : ℚ) < deps.threshold list.characteristics.length

/-- An entry for the credential can be given: it has none for the purpose, and there is room in the
list that is chosen, in the one that is next, or in one that can be made. -/
inductive Granted {B : Type} (deps : ManagerDeps B) (env : Environment) (w : World)
    (tenantId credentialId : String) (statusPurpose : StatusPurpose) : Option String → Prop
  | chosen {listId : String} {list : StatusListRecord}
      (hnone : w.db.getAllocation tenantId credentialId statusPurpose = none)
      (hlist : w.db.getStatusList listId = some list) (htenant : list.tenantId = tenantId)
      (hpurpose : list.statusPurpose = statusPurpose)
      (hdraws : DrawsFree env w.db w.tick list.id list.characteristics.length allocationAttempts) :
      Granted deps env w tenantId credentialId statusPurpose (some listId)
  | rolled {list : StatusListRecord}
      (hnone : w.db.getAllocation tenantId credentialId statusPurpose = none)
      (hlist : deps.candidate w.db tenantId statusPurpose = some list)
      (hdraws : DrawsFree env w.db w.tick list.id list.characteristics.length allocationAttempts) :
      Granted deps env w tenantId credentialId statusPurpose none
  | minted (hnone : w.db.getAllocation tenantId credentialId statusPurpose = none)
      (hlist : deps.candidate w.db tenantId statusPurpose = none)
      (hfree : w.db.getStatusList (env.generateId w.tick) = none) :
      Granted deps env w tenantId credentialId statusPurpose none

theorem DrawsFree.congr {env env' : Environment} {db : Database} {tick length attempts : Nat}
    {listId : String} (hindex : env.randomIndex = env'.randomIndex)
    (h : DrawsFree env db tick listId length attempts) :
    DrawsFree env' db tick listId length attempts := by
  rwa [DrawsFree, hindex] at h

theorem Granted.congr {B : Type} {deps : ManagerDeps B} {env env' : Environment} {w : World}
    {tenantId credentialId : String} {statusPurpose : StatusPurpose} {listId? : Option String}
    (hid : env.generateId = env'.generateId) (hindex : env.randomIndex = env'.randomIndex)
    (h : Granted deps env w tenantId credentialId statusPurpose listId?) :
    Granted deps env' w tenantId credentialId statusPurpose listId? := by
  cases h with
  | chosen hheld hlist htenant hpurpose hdraws =>
      exact .chosen hheld hlist htenant hpurpose (hdraws.congr hindex)
  | rolled hheld hlist hdraws => exact .rolled hheld hlist (hdraws.congr hindex)
  | minted hheld hlist hfree => exact .minted hheld hlist (hid ▸ hfree)

/-! ### A list that is created alone -/

section Lists

variable {B : Type} {deps : ManagerDeps B} {env : Environment} {P : Policy} {i : Nat} {w : World}
  {input : CreateStatusListInput} {c : StatusListCharacteristics} {list : B}

theorem Policy.Alone.fresh {w' : World} {events : List Event} {row : StatusListRecord}
    (h : P.Alone i w w' events) (hnew : ∀ e ∈ w.log, e.owner ≠ i)
    (hmem : Event.created i row ∈ w'.log) : w.db.getStatusList row.id = none := by
  rw [h.log] at hmem
  exact h.history.fresh ((List.mem_append.mp hmem).resolve_left fun he => hnew _ he rfl)

end Lists

section Alone

variable {B : Type} {deps : ManagerDeps B} {env : Environment} {i : Nat} {w : World}
  {tenantId credentialId listId : String} {statusPurpose : StatusPurpose}

theorem World.OnlyBy.advance (h : w.OnlyBy i) : w.advance.OnlyBy i := fun j hj =>
  ⟨(h j hj).transaction, (h j hj).connection, (h j hj).holder⟩

/-- The policy lets the request create a list for the purpose. -/
def Creates (P : Policy) (deps : ManagerDeps B) (env : Environment) (i : Nat) (tenantId : String)
    (statusPurpose : StatusPurpose) : Prop :=
  ∀ issuerInstance row, DefaultInstance env tenantId issuerInstance →
    Created deps env { tenantId, issuerInstance, statusPurpose } row →
    P.wf row ∧ P.mayCreate i row

end Alone

end VcalmStatus
