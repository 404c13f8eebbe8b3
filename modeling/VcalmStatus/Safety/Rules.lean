import VcalmStatus.Safety.Policy

/-!
One rule for each operation, in the form the specifications of the programs use: from what holds
before, the guard, and what the program goes on with after every way the operation can go.
-/

namespace VcalmStatus

open Effects

/-! ### What a quiet operation answers -/

/-- The operations that only read. -/
def Operation.quiet : Operation → Bool
  | .insertStatusList _ | .beginTransaction | .lockStatusList _ | .updateStatusListRow _ _ _ _
  | .commit | .rollback | .insertAllocation _ => false
  | _ => true

/-- What is known of the answer of a quiet operation: a query answers from the database, anything
outside of it as the environment does at some moment. -/
def Operation.Answers (env : Environment) (w : World) : (o : Operation) → o.Answer → Prop
  | .getStatusList id, r => r = w.db.getStatusList id
  | .findStatusLists t p n, r => r = w.db.findStatusLists t p n
  | .getAllocation t c p, r => r = w.db.getAllocation t c p
  | .isIndexAllocated id n, r => r = w.db.isIndexAllocated id n
  | .countAllocations id, r => r = w.db.countAllocations id
  | .getTenant id, r => r = env.tenants.getTenant id
  | .getTenantByToken token, r => r = env.tenants.getTenantByToken token
  | .now, r => ∃ tick, r = env.now tick
  | .newDate, r => ∃ tick, r = env.newDate tick
  | .randomIndex length, r => ∃ tick, r = env.randomIndex tick length
  | .generateId, r => ∃ tick, r = env.generateId tick
  | .issuerDid issuerInstance, r => ∃ tick, r = env.signing.issuerDid tick issuerInstance
  | .sign issuerInstance unsigned, r => ∃ tick, r = env.signing.sign tick issuerInstance unsigned
  | _, _ => True

namespace World

variable {env : Environment} {i : Nat} {w w' : World}

theorem quiet_step {o : Operation} {r : o.Answer} (ho : o.quiet = true)
    (h : w.step env i o = some (r, w')) :
    (∃ tick, w' = { w with tick := tick }) ∧ o.Answers env w' r := by
  have hresp := (step_eq_some.mp h).2
  cases o with
  | getStatusList id => cases hresp; exact ⟨⟨_, rfl⟩, rfl⟩
  | findStatusLists t p n => cases hresp; exact ⟨⟨_, rfl⟩, rfl⟩
  | getAllocation t c p => cases hresp; exact ⟨⟨_, rfl⟩, rfl⟩
  | isIndexAllocated id n => cases hresp; exact ⟨⟨_, rfl⟩, rfl⟩
  | countAllocations id => cases hresp; exact ⟨⟨_, rfl⟩, rfl⟩
  | getTenant id => cases hresp; exact ⟨⟨_, rfl⟩, rfl⟩
  | getTenantByToken token => cases hresp; exact ⟨⟨_, rfl⟩, rfl⟩
  | now => cases hresp; exact ⟨⟨_, rfl⟩, _, rfl⟩
  | newDate => cases hresp; exact ⟨⟨_, rfl⟩, _, rfl⟩
  | randomIndex n => cases hresp; exact ⟨⟨_, rfl⟩, _, rfl⟩
  | generateId => cases hresp; exact ⟨⟨_, rfl⟩, _, rfl⟩
  | issuerDid n => cases hresp; exact ⟨⟨_, rfl⟩, _, rfl⟩
  | sign n u => cases hresp; exact ⟨⟨_, rfl⟩, _, rfl⟩
  | insertStatusList row => cases ho
  | beginTransaction => cases ho
  | lockStatusList id => cases ho
  | updateStatusListRow id m v u => cases ho
  | commit => cases ho
  | rollback => cases ho
  | insertAllocation a => cases ho

/-- The world a transaction starts in. -/
def begin (env : Environment) (i : Nat) (w : World) : World :=
  match env.dialect with
  | .sqlite => w.connect i
  | .postgres => w

end World

namespace Policy

variable {P : Policy} {env : Environment} {i : Nat} {s t : World} {α β : Type}

/-- A program of request `i` that keeps to the discipline of the policy. -/
abbrev Serves (P : Policy) (env : Environment) (i : Nat) (p : Async α)
    (Q : Except JsError α → World → Prop) (s : World) : Prop :=
  Safe (P.discipline env) i p Q s

/-! ### What interference leaves -/

namespace Interference

theorem notCommitted (h : P.Interference i s t) (hs : s.NotCommitted i) : t.NotCommitted i :=
  fun row write he => hs row write (h.own _ he rfl)

theorem idle (h : P.Interference i s t) (hs : s.Idle i) : t.Idle i :=
  ⟨h.transaction.trans hs.transaction, fun hc => hs.connection (h.connection.mp hc),
    fun id hh => hs.holder id ((h.holder id).mp hh)⟩

theorem mem_log (h : P.Interference i s t) {e : Event} (he : e ∈ s.log) : e ∈ t.log :=
  h.log.subset he

theorem ticked (h : P.Interference i s t) (tick : Nat) :
    P.Interference i s { t with tick := tick } :=
  ⟨⟨h.lists, h.allocations, h.log⟩, h.transaction, h.connection, h.holder, h.own⟩

end Interference

/-- A stored row is found again by its id, as the same list. -/
theorem Extends.getStatusList (h : P.Extends s t) (ht : P.Inv env t) {row : StatusListRecord}
    (hrow : row ∈ s.db.statusLists) :
    ∃ row', t.db.getStatusList row.id = some row' ∧ P.Same row row' := by
  obtain ⟨row', hmem, hsame⟩ := h.lists row hrow
  exact ⟨row', hsame.binding.id ▸ Database.getStatusList_of_mem ht.ids_nodup hmem, hsame⟩

/-! ### The rules -/

/-- A postcondition with one part for each way a program can end. -/
def Ends (ok : α → World → Prop) (err : JsError → World → Prop) : Except JsError α → World → Prop
  | .ok a, t => ok a t
  | .error e, t => err e t

@[simp] theorem Ends_ok {ok : α → World → Prop} {err : JsError → World → Prop} {a : α} :
    Ends ok err (.ok a) t ↔ ok a t := .rfl

@[simp] theorem Ends_error {ok : α → World → Prop} {err : JsError → World → Prop} {e : JsError} :
    Ends ok err (.error e) t ↔ err e t := .rfl

section Rules

variable {Q : Except JsError α → World → Prop}

/-- A returned value only has to survive what others do. -/
theorem Serves.ret {a : α} (h : ∀ t, P.Interference i s t → P.Inv env t → Q (.ok a) t) :
    P.Serves env i (.ret a) Q s := h

theorem Serves.fail {e : JsError} (h : ∀ t, P.Interference i s t → P.Inv env t → Q (.error e) t) :
    P.Serves env i (.fail e) Q s := h

/-- The rule of calling a program that has a specification. -/
theorem Serves.seq {p : Async α} {f : α → Async β} {R : α → World → Prop}
    {E : JsError → World → Prop} {Q : Except JsError β → World → Prop}
    (hp : P.Serves env i p (Ends R E) s)
    (hok : ∀ a t, P.Inv env t → R a t → P.Serves env i (f a) Q t)
    (herr : ∀ e t, P.Inv env t → E e t → Q (.error e) t) : P.Serves env i (p >>= f) Q s := by
  refine Safe.bind (hp.imp fun r t hI h => ?_)
  cases r with
  | ok a => exact hok a t hI h
  | error e => exact herr e t hI h

theorem Serves.tryCatch {p : Async α} {h : JsError → Async α} {R : α → World → Prop}
    {E : JsError → World → Prop} (hp : P.Serves env i p (Ends R E) s)
    (hok : ∀ a t, P.Inv env t → R a t → Q (.ok a) t)
    (herr : ∀ e t, P.Inv env t → E e t → P.Serves env i (h e) Q t) :
    P.Serves env i (tryCatch p h) Q s := by
  refine Safe.tryCatch (hp.imp fun r t hI h => ?_)
  cases r with
  | ok a => exact hok a t hI h
  | error e => exact herr e t hI h

theorem Serves.ofExcept {x : Except JsError α} {f : α → Async β}
    {Q : Except JsError β → World → Prop}
    (hok : ∀ a, x = .ok a → P.Serves env i (f a) Q s)
    (herr : ∀ e t, x = .error e → P.Interference i s t → P.Inv env t → Q (.error e) t) :
    P.Serves env i (Program.ofExcept x >>= f) Q s := by
  cases x with
  | ok a => exact hok a rfl
  | error e => exact fun t ht hI => herr e t rfl ht hI

/-- The rule of every read and of every call outside the database. -/
theorem Serves.quiet (o : Operation) {f : o.Answer → Async α} (ho : o.quiet = true)
    (hn : s.NotCommitted i)
    (h : ∀ t r, P.Interference i s t → P.Inv env t → o.Answers env t r → P.Serves env i (f r) Q t) :
    P.Serves env i (await o >>= f) Q s := by
  intro t ht hI
  refine ⟨⟨ht.notCommitted hn, ?_⟩, fun r t' hstep => ?_⟩
  · cases o <;> trivial
  · obtain ⟨⟨tick, rfl⟩, hans⟩ := World.quiet_step ho hstep
    exact h _ r (ht.ticked tick) (hI.quiet tick) hans

theorem Serves.insertStatusList {row : StatusListRecord} {f : Bool → Async α}
    (hn : s.NotCommitted i) (hwf : P.wf row) (hmay : P.mayCreate i row)
    (hok : ∀ u, P.Interference i s u → P.Inv env u → u.db.getStatusList row.id = none →
      P.Serves env i (f true) Q (u.insertStatusList i row))
    (hno : ∀ u, P.Interference i s u → P.Inv env u → (∃ old ∈ u.db.statusLists, old.id = row.id) →
      P.Serves env i (f false) Q u) :
    P.Serves env i (await (.insertStatusList row) >>= f) Q s := by
  intro t ht hI
  refine ⟨⟨ht.notCommitted hn, hwf, hmay⟩, fun r t' hstep => ?_⟩
  have hresp := (World.step_eq_some.mp hstep).2
  simp only [World.respond] at hresp
  split at hresp <;> rename_i hrow
  · cases hresp
    obtain ⟨old, hold⟩ := Option.isSome_iff_exists.mp hrow
    exact hno _ ht hI ⟨old, Database.mem_of_getStatusList hold⟩
  · cases hresp
    exact hok _ ht hI (by simpa using hrow)

theorem Serves.insertAllocation {a : IndexAllocation} {f : Bool → Async α}
    (hn : s.NotCommitted i) (hmay : P.mayAllocate i a)
    (hfits : ∃ row ∈ s.db.statusLists, row.id = a.listId ∧ P.fits row a)
    (hok : ∀ u, P.Interference i s u → P.Inv env u → u.db.admits a = true →
      P.Serves env i (f true) Q (u.insertAllocation i a))
    (hno : ∀ u, P.Interference i s u → P.Inv env u → u.db.admits a = false →
      P.Serves env i (f false) Q u) :
    P.Serves env i (await (.insertAllocation a) >>= f) Q s := by
  intro t ht hI
  obtain ⟨row, hrow, hid, hfit⟩ := hfits
  obtain ⟨row', hrow', hsame⟩ := ht.lists row hrow
  refine ⟨⟨ht.notCommitted hn, hmay, row', hrow', hsame.binding.id.symm.trans hid,
    P.fits_congr hsame.binding hfit⟩, fun r t' hstep => ?_⟩
  have hresp := (World.step_eq_some.mp hstep).2
  simp only [World.respond] at hresp
  split at hresp <;> rename_i hadmits
  · cases hresp
    exact hok _ ht hI hadmits
  · cases hresp
    exact hno _ ht hI (by simpa using hadmits)

theorem Serves.beginTransaction {f : Unit → Async α} (hn : s.NotCommitted i)
    (h : ∀ u, P.Interference i s u → P.Inv env u →
      P.Serves env i (f ()) Q (u.begin env i)) :
    P.Serves env i (await .beginTransaction >>= f) Q s := by
  intro t ht hI
  refine ⟨⟨ht.notCommitted hn, trivial⟩, fun r t' hstep => ?_⟩
  have hresp := (World.step_eq_some.mp hstep).2
  have hu := h t ht hI
  simp only [World.respond] at hresp
  simp only [World.begin] at hu
  split at hresp <;> rename_i hd
  · cases hresp
    rwa [hd] at hu
  · cases hresp
    rwa [hd] at hu

theorem Serves.lockStatusList {id : String} {f : Option StatusListRecord → Async α}
    (hn : s.NotCommitted i) (hsqlite : env.dialect = .sqlite → s.connection = some i)
    (hmay : ∀ u, P.Interference i s u → P.Inv env u → ∀ row ∈ u.db.statusLists, row.id = id →
      P.mayUpdate i row)
    (hsome : ∀ u row, P.Interference i s u → P.Inv env u → row ∈ u.db.statusLists → row.id = id →
      P.Serves env i (f (some row)) Q (u.lock i row))
    (hnone : ∀ u, P.Interference i s u → P.Inv env u → (∀ row ∈ u.db.statusLists, row.id ≠ id) →
      P.Serves env i (f none) Q u) :
    P.Serves env i (await (.lockStatusList id) >>= f) Q s := by
  intro t ht hI
  refine ⟨⟨ht.notCommitted hn, fun hd => ht.connection.mpr (hsqlite hd), hmay t ht hI⟩,
    fun r t' hstep => ?_⟩
  have hresp := (World.step_eq_some.mp hstep).2
  simp only [World.respond] at hresp
  split at hresp <;> rename_i hrow
  · cases hresp
    obtain ⟨hmem, hid⟩ := Database.mem_of_getStatusList hrow
    exact hsome _ _ ht hI hmem hid
  · cases hresp
    exact hnone _ ht hI (Database.getStatusList_eq_none.mp hrow)

theorem Serves.updateStatusListRow {id : String} {materialization : StatusListMaterialization}
    {version : Nat} {updatedAt : Date} {row : StatusListRecord} {f : Unit → Async α}
    (hn : s.NotCommitted i) (hrow : (s.transaction i).row = some row)
    (hres : P.Resigned row ⟨id, materialization, version, updatedAt⟩)
    (h : ∀ u, P.Interference i s u → P.Inv env u →
      P.Serves env i (f ()) Q (u.stage i ⟨id, materialization, version, updatedAt⟩)) :
    P.Serves env i
      (await (.updateStatusListRow id materialization version updatedAt) >>= f) Q s := by
  intro t ht hI
  refine ⟨⟨ht.notCommitted hn, row, by rw [ht.transaction, hrow], hres⟩, fun r t' hstep => ?_⟩
  cases (World.step_eq_some.mp hstep).2
  exact h t ht hI

theorem Serves.commit {f : Unit → Async α} (hn : s.NotCommitted i)
    (h : ∀ u, P.Interference i s u → P.Inv env u → P.Serves env i (f ()) Q (u.commit i)) :
    P.Serves env i (await .commit >>= f) Q s := by
  intro t ht hI
  refine ⟨⟨ht.notCommitted hn, trivial⟩, fun r t' hstep => ?_⟩
  cases (World.step_eq_some.mp hstep).2
  exact h t ht hI

theorem Serves.rollback {f : Unit → Async α} (hn : s.NotCommitted i)
    (h : ∀ u, P.Interference i s u → P.Inv env u → P.Serves env i (f ()) Q (u.release i)) :
    P.Serves env i (await .rollback >>= f) Q s := by
  intro t ht hI
  refine ⟨⟨ht.notCommitted hn, trivial⟩, fun r t' hstep => ?_⟩
  cases (World.step_eq_some.mp hstep).2
  exact h t ht hI

end Rules

end Policy

end VcalmStatus
