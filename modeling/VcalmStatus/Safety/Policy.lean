import VcalmStatus.Services.Effect

/-!
The invariant of the service under interference.

A `Policy` says what is to hold of every stored list, how an allocation has to fit its list, and
who may write what; everything else here is about any policy. `Policy.Inv` adds what the keys of
the two tables and the locks give. `Policy.discipline` packages the obligations a request has
before each operation, and `concurrent` is the argument that requests which meet them do not
disturb one another.
-/

namespace VcalmStatus

open Effects

/-- What an update leaves alone in every row. -/
structure SameBinding (a b : StatusListRecord) : Prop where
  id : a.id = b.id
  tenantId : a.tenantId = b.tenantId
  issuerInstanceId : a.issuerInstanceId = b.issuerInstanceId
  statusPurpose : a.statusPurpose = b.statusPurpose
  characteristics : a.characteristics = b.characteristics
  createdAt : a.createdAt = b.createdAt

namespace SameBinding

theorem refl (a : StatusListRecord) : SameBinding a a := ⟨rfl, rfl, rfl, rfl, rfl, rfl⟩

theorem trans {a b c : StatusListRecord} (h : SameBinding a b) (h' : SameBinding b c) :
    SameBinding a c :=
  ⟨h.id.trans h'.id, h.tenantId.trans h'.tenantId, h.issuerInstanceId.trans h'.issuerInstanceId,
    h.statusPurpose.trans h'.statusPurpose, h.characteristics.trans h'.characteristics,
    h.createdAt.trans h'.createdAt⟩

theorem apply (u : RowUpdate) (row : StatusListRecord) : SameBinding row (u.apply row) := by
  unfold RowUpdate.apply
  split <;> exact ⟨rfl, rfl, rfl, rfl, rfl, rfl⟩

/-- An allocation fits the list as well as before. -/
theorem fits {row row' : StatusListRecord} {a : IndexAllocation} (h : SameBinding row row')
    (hfits : row.tenantId = a.tenantId ∧ row.statusPurpose = a.statusPurpose ∧
      a.statusListIndex < row.characteristics.length) :
    row'.tenantId = a.tenantId ∧ row'.statusPurpose = a.statusPurpose ∧
      a.statusListIndex < row'.characteristics.length := by
  rwa [← h.tenantId, ← h.statusPurpose, ← h.characteristics]

end SameBinding

/-- `wf` is what holds of every stored list, `keeps` what a re-signed list has in common with the
list before, `fits` how an allocation agrees with the list it points into, and the three `may`
say which writes are a request's own. -/
structure Policy where
  wf : StatusListRecord → Prop
  keeps : StatusListRecord → StatusListRecord → Prop
  fits : StatusListRecord → IndexAllocation → Prop
  mayCreate : Nat → StatusListRecord → Prop
  mayUpdate : Nat → StatusListRecord → Prop
  mayAllocate : Nat → IndexAllocation → Prop
  keeps_refl : ∀ row, keeps row row
  keeps_trans : ∀ {a b c}, keeps a b → keeps b c → keeps a c
  fits_congr : ∀ {row row' a}, SameBinding row row' → fits row a → fits row' a
  mayUpdate_congr : ∀ {i row row'}, SameBinding row row' → mayUpdate i row → mayUpdate i row'

namespace Policy

variable (P : Policy) (env : Environment)

/-- The same list, before and after any number of updates. -/
structure Same (a b : StatusListRecord) : Prop where
  binding : SameBinding a b
  keeps : P.keeps a b

/-- A write that re-signs the row it was computed from. -/
structure Resigned (row : StatusListRecord) (u : RowUpdate) : Prop where
  id : u.id = row.id
  version : u.version = row.version + 1
  wf : P.wf (u.apply row)
  keeps : P.keeps row (u.apply row)

structure Inv (w : World) : Prop where
  ids_nodup : (w.db.statusLists.map (·.id)).Nodup
  indexes_nodup : (w.db.indexAllocations.map fun a => (a.listId, a.statusListIndex)).Nodup
  credentials_nodup : (w.db.indexAllocations.map
    fun a => (a.tenantId, a.credentialId, a.statusPurpose)).Nodup
  wf : ∀ row ∈ w.db.statusLists, P.wf row
  fits : ∀ a ∈ w.db.indexAllocations, ∃ row ∈ w.db.statusLists, row.id = a.listId ∧ P.fits row a
  held : ∀ i row, (w.transaction i).row = some row →
    row ∈ w.db.statusLists ∧ w.holder row.id = some i ∧ P.mayUpdate i row
  staged : ∀ i u, (w.transaction i).write = some u →
    ∃ row, (w.transaction i).row = some row ∧ P.Resigned row u
  exclusive : env.dialect = .sqlite → ∀ id i, w.holder id = some i → w.connection = some i

/-- What no request ever undoes. -/
structure Extends (w w' : World) : Prop where
  lists : ∀ row ∈ w.db.statusLists, ∃ row' ∈ w'.db.statusLists, P.Same row row'
  allocations : ∀ a ∈ w.db.indexAllocations, a ∈ w'.db.indexAllocations
  log : w.log <+: w'.log

/-- What a request may rely on while others act: lists and allocations stay, its own transaction
and locks are its own, and nobody writes to the log in its name. -/
structure Interference (i : Nat) (w w' : World) : Prop extends P.Extends w w' where
  transaction : w'.transaction i = w.transaction i
  connection : w'.connection = some i ↔ w.connection = some i
  holder : ∀ id, w'.holder id = some i ↔ w.holder id = some i
  own : ∀ e ∈ w'.log, e.owner = i → e ∈ w.log

variable {P env} {w w' : World} {i : Nat}

theorem Same.refl (row : StatusListRecord) : P.Same row row :=
  ⟨SameBinding.refl row, P.keeps_refl row⟩

theorem Same.trans {a b c : StatusListRecord} (h : P.Same a b) (h' : P.Same b c) : P.Same a c :=
  ⟨h.binding.trans h'.binding, P.keeps_trans h.keeps h'.keeps⟩

/-- A step inside the own transaction shows in neither tables nor log. -/
theorem Extends.of_eq (hdb : w'.db = w.db) (hlog : w'.log = w.log) : P.Extends w w' :=
  ⟨fun row h => ⟨row, hdb ▸ h, Same.refl row⟩, fun _ h => hdb ▸ h, hlog ▸ List.prefix_refl _⟩

theorem Extends.refl (w : World) : P.Extends w w := .of_eq rfl rfl

theorem Extends.trans {w₁ w₂ w₃ : World} (h : P.Extends w₁ w₂) (h' : P.Extends w₂ w₃) :
    P.Extends w₁ w₃ where
  lists row hrow := by
    obtain ⟨row₂, h₂, hs₂⟩ := h.lists row hrow
    obtain ⟨row₃, h₃, hs₃⟩ := h'.lists row₂ h₂
    exact ⟨row₃, h₃, hs₂.trans hs₃⟩
  allocations a ha := h'.allocations a (h.allocations a ha)
  log := h.log.trans h'.log

theorem Interference.refl (i : Nat) (w : World) : P.Interference i w w :=
  ⟨Extends.refl w, rfl, .rfl, fun _ => .rfl, fun _ h _ => h⟩

theorem Interference.trans {w₁ w₂ w₃ : World} (h : P.Interference i w₁ w₂)
    (h' : P.Interference i w₂ w₃) : P.Interference i w₁ w₃ where
  toExtends := h.toExtends.trans h'.toExtends
  transaction := h'.transaction.trans h.transaction
  connection := h'.connection.trans h.connection
  holder id := (h'.holder id).trans (h.holder id)
  own e he howner := h.own e (h'.own e he howner) howner

/-! ### Each effect keeps the invariant -/

namespace Inv

/-- With distinct ids a row is known by its id. -/
theorem eq_of_id (hI : P.Inv env w) {a b : StatusListRecord} (ha : a ∈ w.db.statusLists)
    (hb : b ∈ w.db.statusLists) (h : a.id = b.id) : a = b :=
  List.inj_on_of_nodup_map hI.ids_nodup ha hb h

theorem quiet (hI : P.Inv env w) (tick : Nat) : P.Inv env { w with tick := tick } :=
  ⟨hI.ids_nodup, hI.indexes_nodup, hI.credentials_nodup, hI.wf, hI.fits, hI.held, hI.staged,
    hI.exclusive⟩

theorem insertStatusList (hI : P.Inv env w) {row : StatusListRecord}
    (hfresh : w.db.getStatusList row.id = none) (hwf : P.wf row) :
    P.Inv env (w.insertStatusList i row) where
  ids_nodup := Database.ids_nodup_append hI.ids_nodup hfresh
  indexes_nodup := hI.indexes_nodup
  credentials_nodup := hI.credentials_nodup
  wf old hold := by
    rcases List.mem_append.mp hold with h | h
    · exact hI.wf old h
    · rw [List.mem_singleton.mp h]
      exact hwf
  fits a ha := by
    obtain ⟨old, hold, h⟩ := hI.fits a ha
    exact ⟨old, List.mem_append_left _ hold, h⟩
  held j old hj := by
    obtain ⟨hold, h⟩ := hI.held j old hj
    exact ⟨List.mem_append_left _ hold, h⟩
  staged := hI.staged
  exclusive := hI.exclusive

theorem insertAllocation (hI : P.Inv env w) {a : IndexAllocation}
    (hadmits : w.db.admits a = true)
    (hfits : ∃ row ∈ w.db.statusLists, row.id = a.listId ∧ P.fits row a) :
    P.Inv env (w.insertAllocation i a) where
  ids_nodup := hI.ids_nodup
  indexes_nodup := by
    obtain ⟨_, hindex, _⟩ := Database.admits_iff.mp hadmits
    simp only [World.insertAllocation, List.map_append, List.map_cons, List.map_nil]
    refine List.nodup_append.mpr ⟨hI.indexes_nodup, List.nodup_singleton _, ?_⟩
    intro k hk k' hk'
    obtain ⟨b, hb, rfl⟩ := List.mem_map.mp hk
    rw [List.mem_singleton.mp hk']
    simpa using hindex b hb
  credentials_nodup := by
    obtain ⟨_, _, hcredential⟩ := Database.admits_iff.mp hadmits
    simp only [World.insertAllocation, List.map_append, List.map_cons, List.map_nil]
    refine List.nodup_append.mpr ⟨hI.credentials_nodup, List.nodup_singleton _, ?_⟩
    intro k hk k' hk'
    obtain ⟨b, hb, rfl⟩ := List.mem_map.mp hk
    rw [List.mem_singleton.mp hk']
    simpa using hcredential b hb
  wf := hI.wf
  fits b hb := by
    rcases List.mem_append.mp hb with h | h
    · exact hI.fits b h
    · rw [List.mem_singleton.mp h]
      exact hfits
  held := hI.held
  staged := hI.staged
  exclusive := hI.exclusive

theorem connect (hI : P.Inv env w) (hfree : ∀ j, w.connection = some j → j = i) :
    P.Inv env (w.connect i) where
  ids_nodup := hI.ids_nodup
  indexes_nodup := hI.indexes_nodup
  credentials_nodup := hI.credentials_nodup
  wf := hI.wf
  fits := hI.fits
  held := hI.held
  staged := hI.staged
  exclusive hd id j hj := by
    rw [hfree j (hI.exclusive hd id j hj)]
    rfl

/-- A lock goes to a transaction that had none, on a row nobody else has locked. -/
theorem lock (hI : P.Inv env w) {row : StatusListRecord} (hrow : row ∈ w.db.statusLists)
    (hfree : ∀ j, w.holder row.id = some j → j = i)
    (hsqlite : env.dialect = .sqlite → w.connection = some i) (hmay : P.mayUpdate i row) :
    P.Inv env (w.lock i row) where
  ids_nodup := hI.ids_nodup
  indexes_nodup := hI.indexes_nodup
  credentials_nodup := hI.credentials_nodup
  wf := hI.wf
  fits := hI.fits
  held j old hj := by
    by_cases hji : j = i
    · subst hji
      simp only [World.lock, Function.update_self, Option.some.injEq] at hj
      subst hj
      exact ⟨hrow, by simp [World.lock], hmay⟩
    · simp only [World.lock, Function.update_of_ne hji] at hj
      obtain ⟨hold, hholder, hown⟩ := hI.held j old hj
      have hne : old.id ≠ row.id := fun h => hji (hfree j (h ▸ hholder))
      exact ⟨hold, by simpa [World.lock, Function.update_of_ne hne] using hholder, hown⟩
  staged j u hj := by
    by_cases hji : j = i
    · subst hji
      simp [World.lock] at hj
    · simp only [World.lock, Function.update_of_ne hji] at hj ⊢
      exact hI.staged j u hj
  exclusive hd id j hj := by
    by_cases hid : id = row.id
    · subst hid
      simp only [World.lock, Function.update_self, Option.some.injEq] at hj
      rw [← hj]
      exact hsqlite hd
    · simp only [World.lock, Function.update_of_ne hid] at hj
      exact hI.exclusive hd id j hj

theorem stage (hI : P.Inv env w) {row : StatusListRecord} {u : RowUpdate}
    (hrow : (w.transaction i).row = some row) (hu : P.Resigned row u) :
    P.Inv env (w.stage i u) where
  ids_nodup := hI.ids_nodup
  indexes_nodup := hI.indexes_nodup
  credentials_nodup := hI.credentials_nodup
  wf := hI.wf
  fits := hI.fits
  held j old hj := by
    refine hI.held j old ?_
    by_cases hji : j = i
    · subst hji
      simpa [World.stage] using hj
    · simpa [World.stage, Function.update_of_ne hji] using hj
  staged j v hj := by
    by_cases hji : j = i
    · subst hji
      simp only [World.stage, Function.update_self, Option.some.injEq] at hj
      subst hj
      exact ⟨row, by simpa [World.stage] using hrow, hu⟩
    · simp only [World.stage, Function.update_of_ne hji] at hj ⊢
      exact hI.staged j v hj
  exclusive := hI.exclusive

/-- Letting go of a transaction frees its row and disturbs no other lock. -/
theorem release (hI : P.Inv env w) : P.Inv env (w.release i) where
  ids_nodup := hI.ids_nodup
  indexes_nodup := hI.indexes_nodup
  credentials_nodup := hI.credentials_nodup
  wf := hI.wf
  fits := hI.fits
  held j old hj := by
    by_cases hji : j = i
    · subst hji
      simp [World.release] at hj
    · simp only [World.release, Function.update_of_ne hji] at hj ⊢
      obtain ⟨hold, hholder, hown⟩ := hI.held j old hj
      exact ⟨hold, by simp [hholder, hji], hown⟩
  staged j u hj := by
    by_cases hji : j = i
    · subst hji
      simp [World.release] at hj
    · simp only [World.release, Function.update_of_ne hji] at hj ⊢
      exact hI.staged j u hj
  exclusive hd id j hj := by
    simp only [World.release] at hj ⊢
    split at hj <;> rename_i hne
    · cases hj
    · have hconn := hI.exclusive hd id j hj
      have hji : j ≠ i := fun h => hne (h ▸ hj)
      simp [hconn, hji]

theorem withLog (hI : P.Inv env w) (log : List Event) : P.Inv env { w with log := log } :=
  ⟨hI.ids_nodup, hI.indexes_nodup, hI.credentials_nodup, hI.wf, hI.fits, hI.held, hI.staged,
    hI.exclusive⟩

/-- A row somebody else has locked is not the one a transaction writes to. -/
theorem apply_of_held (hI : P.Inv env w) {j : Nat} {u : RowUpdate} {old : StatusListRecord}
    (hij : j ≠ i) (hu : (w.transaction i).write = some u)
    (hold : (w.transaction j).row = some old) : u.apply old = old := by
  obtain ⟨row, hrow, hres⟩ := hI.staged i u hu
  have hi := (hI.held i row hrow).2.1
  have hj := (hI.held j old hold).2.1
  refine RowUpdate.apply_of_ne fun h => hij ?_
  rw [h, hres.id, hi, Option.some.injEq] at hj
  exact hj.symm

/-- A commit with a write: the locked row is replaced by its re-signed successor. -/
theorem update (hI : P.Inv env w) {u : RowUpdate} (hu : (w.transaction i).write = some u) :
    P.Inv env { w.release i with db := w.db.update u } where
  ids_nodup := by
    rw [Database.update_ids]
    exact hI.ids_nodup
  indexes_nodup := hI.indexes_nodup
  credentials_nodup := hI.credentials_nodup
  wf row hrow := by
    obtain ⟨old, hold, rfl⟩ := Database.mem_update.mp hrow
    obtain ⟨locked, hlocked, hres⟩ := hI.staged i u hu
    by_cases hid : old.id = u.id
    · rw [hI.eq_of_id hold (hI.held i locked hlocked).1 (hid.trans hres.id)]
      exact hres.wf
    · rw [RowUpdate.apply_of_ne hid]
      exact hI.wf old hold
  fits a ha := by
    obtain ⟨row, hrow, hid, hfits⟩ := hI.fits a ha
    exact ⟨u.apply row, Database.mem_update.mpr ⟨row, hrow, rfl⟩, (u.apply_id row).trans hid,
      P.fits_congr (SameBinding.apply u row) hfits⟩
  held j old hj := by
    by_cases hji : j = i
    · subst hji
      simp [World.release] at hj
    · obtain ⟨hold, hrest⟩ := hI.release.held j old hj
      have hsame := hI.apply_of_held hji hu
        (by simpa [World.release, Function.update_of_ne hji] using hj)
      exact ⟨Database.mem_update.mpr ⟨old, hold, hsame⟩, hrest⟩
  staged := hI.release.staged
  exclusive := hI.release.exclusive

theorem commit (hI : P.Inv env w) : P.Inv env (w.commit i) := by
  unfold World.commit World.apply
  cases hu : (w.transaction i).write with
  | none => exact (hI.withLog _).release
  | some u => exact (hI.update hu).withLog _

/-- A row is free to lock when the dialect's own check says so. -/
theorem holder_eq (hI : P.Inv env w) {id : String}
    (hsqlite : env.dialect = .sqlite → w.connection = some i)
    (hpostgres : env.dialect = .postgres → ∀ j, w.holder id = some j → j = i) :
    ∀ j, w.holder id = some j → j = i := by
  intro j hj
  cases hd : env.dialect with
  | sqlite => exact Option.some.inj ((hI.exclusive hd id j hj).symm.trans (hsqlite hd))
  | postgres => exact hpostgres hd j hj

end Inv

/-! ### The discipline -/

variable (P env) in
/-- What request `i` owes before an operation. No operation follows a commit. -/
def Guard (i : Nat) (w : World) (o : Operation) : Prop :=
  w.NotCommitted i ∧
    match o with
    | .insertStatusList row => P.wf row ∧ P.mayCreate i row
    | .insertAllocation a =>
        P.mayAllocate i a ∧ ∃ row ∈ w.db.statusLists, row.id = a.listId ∧ P.fits row a
    | .lockStatusList id =>
        (env.dialect = .sqlite → w.connection = some i) ∧
          ∀ row ∈ w.db.statusLists, row.id = id → P.mayUpdate i row
    | .updateStatusListRow id materialization version updatedAt =>
        ∃ row, (w.transaction i).row = some row ∧
          P.Resigned row ⟨id, materialization, version, updatedAt⟩
    | _ => True

/-- The step lemma of the invariant. -/
theorem inv_effect {o : Operation} (hI : P.Inv env w) (hG : P.Guard env i w o)
    (h : w.Effect env i o w') : P.Inv env w' := by
  cases h with
  | quiet tick => exact hI.quiet tick
  | inserted hfresh => exact hI.insertStatusList hfresh hG.2.1
  | allocated hadmits => exact hI.insertAllocation hadmits hG.2.2
  | connected hsqlite hfree => exact hI.connect hfree
  | locked hrow hfree =>
      obtain ⟨hmem, hid⟩ := Database.mem_of_getStatusList hrow
      subst hid
      exact hI.lock hmem (hI.holder_eq hG.2.1 hfree) hG.2.1 (hG.2.2 _ hmem rfl)
  | staged =>
      obtain ⟨row, hrow, hres⟩ := hG.2
      exact hI.stage hrow hres
  | committed => exact hI.commit
  | released => exact hI.release

/-- No effect takes a list away, and only a re-sign changes one. -/
theorem lists_effect {o : Operation} (hI : P.Inv env w) (h : w.Effect env i o w') :
    ∀ row ∈ w.db.statusLists, ∃ row' ∈ w'.db.statusLists, P.Same row row' := by
  intro row hrow
  cases h with
  | inserted hfresh => exact ⟨row, List.mem_append_left _ hrow, Same.refl row⟩
  | committed =>
      cases hu : (w.transaction i).write with
      | none => exact ⟨row, by rwa [World.commit_db_of_none hu], Same.refl row⟩
      | some u =>
          obtain ⟨locked, hlocked, hres⟩ := hI.staged i u hu
          refine ⟨u.apply row, ?_, SameBinding.apply u row, ?_⟩
          · rw [World.commit_db_of_some hu]
            exact Database.mem_update.mpr ⟨row, hrow, rfl⟩
          · by_cases hid : row.id = u.id
            · rw [hI.eq_of_id hrow (hI.held i locked hlocked).1 (hid.trans hres.id)]
              exact hres.keeps
            · rw [RowUpdate.apply_of_ne hid]
              exact P.keeps_refl row
  | quiet tick => exact ⟨row, hrow, Same.refl row⟩
  | allocated hadmits => exact ⟨row, hrow, Same.refl row⟩
  | connected hsqlite hfree => exact ⟨row, hrow, Same.refl row⟩
  | locked hmem hfree => exact ⟨row, hrow, Same.refl row⟩
  | staged => exact ⟨row, hrow, Same.refl row⟩
  | released => exact ⟨row, hrow, Same.refl row⟩

/-- No effect takes an allocation away or changes one. -/
theorem allocations_effect {o : Operation} (h : w.Effect env i o w') :
    ∀ a ∈ w.db.indexAllocations, a ∈ w'.db.indexAllocations := by
  intro a ha
  cases h with
  | allocated hadmits => exact List.mem_append_left _ ha
  | committed =>
      cases hu : (w.transaction i).write with
      | none => rwa [World.commit_db_of_none hu]
      | some u => rwa [World.commit_db_of_some hu]
  | quiet tick => exact ha
  | inserted hfresh => exact ha
  | connected hsqlite hfree => exact ha
  | locked hmem hfree => exact ha
  | staged => exact ha
  | released => exact ha

theorem extends_effect {o : Operation} (hI : P.Inv env w) (h : w.Effect env i o w') :
    P.Extends w w' := by
  refine ⟨lists_effect hI h, allocations_effect h, ?_⟩
  obtain h | ⟨e, _, h⟩ := h.log
  · exact h ▸ List.prefix_refl _
  · exact h ▸ List.prefix_append _ _

/-- What a release leaves to the others of one lock. -/
theorem freed_eq_some {j : Nat} (hij : i ≠ j) (holder : Option Nat) :
    (if holder = some j then none else holder) = some i ↔ holder = some i := by
  split <;> rename_i h
  · simp [h, hij.symm]
  · rfl

/-- Another request's transaction, connection and locks are its own. -/
theorem transaction_effect {o : Operation} {j : Nat} (hI : P.Inv env w)
    (hG : P.Guard env j w o) (h : w.Effect env j o w') (hij : i ≠ j) :
    w'.transaction i = w.transaction i ∧ (w'.connection = some i ↔ w.connection = some i) ∧
      ∀ id, w'.holder id = some i ↔ w.holder id = some i := by
  have hji : some j ≠ some i := fun h => hij (Option.some.inj h).symm
  cases h with
  | connected hsqlite hfree =>
      exact ⟨rfl, ⟨fun h => absurd h hji, fun h => absurd (hfree i h) hij⟩, fun _ => .rfl⟩
  | @locked id row hrow hfree =>
      obtain ⟨hmem, hid⟩ := Database.mem_of_getStatusList hrow
      subst hid
      refine ⟨by simp [World.lock, Function.update_of_ne hij], .rfl, fun id => ?_⟩
      by_cases hid : id = row.id
      · subst hid
        simp only [World.lock, Function.update_self]
        exact ⟨fun h => absurd h hji, fun h => absurd (hI.holder_eq hG.2.1 hfree i h) hij⟩
      · simp [World.lock, Function.update_of_ne hid]
  | committed =>
      exact ⟨Function.update_of_ne hij _ _, freed_eq_some hij _, fun _ => freed_eq_some hij _⟩
  | released =>
      exact ⟨Function.update_of_ne hij _ _, freed_eq_some hij _, fun _ => freed_eq_some hij _⟩
  | staged => exact ⟨by simp [World.stage, Function.update_of_ne hij], .rfl, fun _ => .rfl⟩
  | quiet tick => exact ⟨rfl, .rfl, fun _ => .rfl⟩
  | inserted hfresh => exact ⟨rfl, .rfl, fun _ => .rfl⟩
  | allocated hadmits => exact ⟨rfl, .rfl, fun _ => .rfl⟩

/-- A list that is not a request's to update is not changed by it. -/
theorem frame_effect {o : Operation} (hI : P.Inv env w) (h : w.Effect env i o w')
    {row : StatusListRecord} (hrow : row ∈ w.db.statusLists) (hnot : ¬P.mayUpdate i row) :
    row ∈ w'.db.statusLists := by
  cases h with
  | inserted hfresh => exact List.mem_append_left _ hrow
  | committed =>
      cases hu : (w.transaction i).write with
      | none => rwa [World.commit_db_of_none hu]
      | some u =>
          obtain ⟨locked, hlocked, hres⟩ := hI.staged i u hu
          obtain ⟨hmem, _, hmay⟩ := hI.held i locked hlocked
          have hne : row.id ≠ u.id := by
            intro hid
            rw [hI.eq_of_id hrow hmem (hid.trans hres.id)] at hnot
            exact hnot hmay
          rw [World.commit_db_of_some hu]
          exact Database.mem_update.mpr ⟨row, hrow, RowUpdate.apply_of_ne hne⟩
  | quiet tick => exact hrow
  | allocated hadmits => exact hrow
  | connected hsqlite hfree => exact hrow
  | locked hmem hfree => exact hrow
  | staged => exact hrow
  | released => exact hrow

variable (P env) in
/-- The obligations of every request, whichever others run beside it. -/
def discipline : Discipline (World.step env) where
  Inv := P.Inv env
  Rely := P.Interference
  Guard := P.Guard env
  rely_refl := Interference.refl
  rely_trans := Interference.trans
  inv_step hI hG h := inv_effect hI hG (World.effect_of_step h)

/-- Requests that keep to the discipline do not disturb one another. -/
theorem concurrent : (P.discipline env).Concurrent := by
  intro i j w o r w' hI hG hstep hij
  have heffect := World.effect_of_step hstep
  obtain ⟨htransaction, hconnection, hholder⟩ := transaction_effect hI hG heffect hij
  refine ⟨extends_effect hI heffect, htransaction, hconnection, hholder, fun e he howner => ?_⟩
  obtain h | ⟨e', howner', h⟩ := heffect.log
  · exact h ▸ he
  · rw [h] at he
    rcases List.mem_append.mp he with he | he
    · exact he
    · rw [List.mem_singleton.mp he, howner'] at howner
      exact absurd howner.symm hij

end Policy

end VcalmStatus
