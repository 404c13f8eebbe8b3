import VcalmStatus.Services.World

/-!
What one operation can do to the world. `World.Effect` lists every way an operation that is not
blocked moves it, with what is known of the world before; every invariant of the service is
derived from this list and from nothing else about `World.respond`.
-/

namespace VcalmStatus

namespace World

/-- `quiet` is a read, a refused insert, an empty lock or a call outside the database: nothing
but the tick may differ. -/
inductive Effect (env : Environment) (owner : Nat) (w : World) : Operation → World → Prop
  | quiet {o : Operation} (tick : Nat) : Effect env owner w o { w with tick := tick }
  | inserted {row : StatusListRecord} (hfresh : w.db.getStatusList row.id = none) :
      Effect env owner w (.insertStatusList row) (w.insertStatusList owner row)
  | allocated {row : IndexAllocation} (hadmits : w.db.admits row = true) :
      Effect env owner w (.insertAllocation row) (w.insertAllocation owner row)
  | connected (hsqlite : env.dialect = .sqlite)
      (hfree : ∀ j, w.connection = some j → j = owner) :
      Effect env owner w .beginTransaction (w.connect owner)
  | locked {id : String} {row : StatusListRecord} (hrow : w.db.getStatusList id = some row)
      (hfree : env.dialect = .postgres → ∀ j, w.holder id = some j → j = owner) :
      Effect env owner w (.lockStatusList id) (w.lock owner row)
  | staged {id : String} {materialization : StatusListMaterialization} {version : Nat}
      {updatedAt : Date} :
      Effect env owner w (.updateStatusListRow id materialization version updatedAt)
        (w.stage owner ⟨id, materialization, version, updatedAt⟩)
  | committed : Effect env owner w .commit (w.commit owner)
  | released : Effect env owner w .rollback (w.release owner)

variable {env : Environment} {owner : Nat} {w w' : World} {o : Operation} {r : o.Answer}

theorem not_blocked_sqlite (h : w.blocked env owner o = false) (hd : env.dialect = .sqlite)
    (ho : o.usesDatabase = true) : ∀ j, w.connection = some j → j = owner := by
  intro j hj
  simpa [blocked, hd, ho, hj] using h

theorem not_blocked_postgres {id : String}
    (h : w.blocked env owner (.lockStatusList id) = false) (hd : env.dialect = .postgres) :
    ∀ j, w.holder id = some j → j = owner := by
  intro j hj
  simpa [blocked, hd, hj] using h

/-- The inversion of a step: it was not blocked, its answer is `respond`'s, and the world moved in
one of the listed ways. -/
theorem effect_of_step (h : w.step env owner o = some (r, w')) : w.Effect env owner o w' := by
  obtain ⟨hfree, hresp⟩ := step_eq_some.mp h
  cases o with
  | getStatusList id => cases hresp; exact .quiet w.tick
  | findStatusLists t p n => cases hresp; exact .quiet w.tick
  | insertStatusList row =>
      simp only [respond] at hresp
      split at hresp <;> rename_i hrow
      · cases hresp
        exact .quiet w.tick
      · cases hresp
        exact .inserted (by simpa using hrow)
  | beginTransaction =>
      simp only [respond] at hresp
      split at hresp <;> rename_i hd
      · cases hresp
        exact .connected hd (not_blocked_sqlite hfree hd rfl)
      · cases hresp
        exact .quiet w.tick
  | lockStatusList id =>
      simp only [respond] at hresp
      split at hresp <;> rename_i hrow
      · cases hresp
        exact .locked hrow (not_blocked_postgres hfree)
      · cases hresp
        exact .quiet w.tick
  | updateStatusListRow id m v u => cases hresp; exact .staged
  | commit => cases hresp; exact .committed
  | rollback => cases hresp; exact .released
  | insertAllocation row =>
      simp only [respond] at hresp
      split at hresp <;> rename_i hrow
      · cases hresp
        exact .allocated hrow
      · cases hresp
        exact .quiet w.tick
  | getAllocation t c p => cases hresp; exact .quiet w.tick
  | isIndexAllocated id n => cases hresp; exact .quiet w.tick
  | countAllocations id => cases hresp; exact .quiet w.tick
  | getTenant id => cases hresp; exact .quiet w.tick
  | getTenantByToken token => cases hresp; exact .quiet w.tick
  | now => cases hresp; exact .quiet _
  | newDate => cases hresp; exact .quiet _
  | randomIndex n => cases hresp; exact .quiet _
  | generateId => cases hresp; exact .quiet _
  | issuerDid i => cases hresp; exact .quiet _
  | sign i u => cases hresp; exact .quiet _

end World

/-! ### The log and its owners -/

def Event.owner : Event → Nat
  | .created owner _ => owner
  | .allocated owner _ => owner
  | .committed owner _ _ => owner

namespace World

/-- Nothing was committed for this request so far. -/
def NotCommitted (i : Nat) (w : World) : Prop := ∀ row write, Event.committed i row write ∉ w.log

/-- The request has no transaction open and holds no lock. -/
structure Idle (i : Nat) (w : World) : Prop where
  transaction : w.transaction i = {}
  connection : w.connection ≠ some i
  holder : ∀ id, w.holder id ≠ some i

/-- Whoever waits, waits for somebody else's transaction. -/
theorem exists_of_blocked {env : Environment} {i : Nat} {w : World} {o : Operation}
    (h : w.blocked env i o = true) : ∃ j, j ≠ i ∧ ¬w.Idle j := by
  have hsome : ∀ {holder : Option Nat}, holder.any (· ≠ i) = true →
      ∃ j, holder = some j ∧ j ≠ i := by
    intro holder hany
    obtain ⟨j, hj, hne⟩ := (Option.any_eq_true _ _).mp hany
    exact ⟨j, hj, by simpa using hne⟩
  unfold blocked at h
  split at h
  · obtain ⟨j, hj, hne⟩ := hsome (Bool.and_eq_true_iff.mp h).2
    exact ⟨j, hne, fun hidle => hidle.connection hj⟩
  · split at h
    · obtain ⟨j, hj, hne⟩ := hsome h
      exact ⟨j, hne, fun hidle => hidle.holder _ hj⟩
    · cases h

/-- What an operation appends to the log. -/
theorem Effect.log {env : Environment} {owner : Nat} {w w' : World} {o : Operation}
    (h : w.Effect env owner o w') : w'.log = w.log ∨ ∃ e, e.owner = owner ∧ w'.log = w.log ++ [e] := by
  cases h with
  | quiet tick => exact .inl rfl
  | inserted hfresh => exact .inr ⟨_, rfl, rfl⟩
  | allocated hadmits => exact .inr ⟨_, rfl, rfl⟩
  | connected hsqlite hfree => exact .inl rfl
  | locked hrow hfree => exact .inl rfl
  | staged => exact .inl rfl
  | committed =>
      simp only [commit, release, apply]
      cases (w.transaction owner).row with
      | none => exact .inl rfl
      | some row => exact .inr ⟨_, rfl, rfl⟩
  | released => exact .inl rfl

end World

end VcalmStatus
