import VcalmStatus.Safety.History
import VcalmStatus.StatusLists.Bitstring

/-!
One list over a stretch of history. Its version goes up with every commit that re-signs it and with
nothing else, so a version is one state of the list; and a bit that was moved stays moved until an
event moves it back.
-/

namespace VcalmStatus

open Js Effects Policy

namespace History

variable {P : Policy} {db₀ db db' : Database} {log : List Event}

theorem eq_foldl (h : History P db₀ log db) : db = log.foldl Event.apply db₀ := by
  induction h with
  | start => rfl
  | snoc h he ih => rw [List.foldl_append, ← ih, List.foldl_cons, List.foldl_nil]

/-- The log alone says what the tables are. -/
theorem unique (h : History P db₀ log db) (h' : History P db₀ log db') : db = db' :=
  h.eq_foldl.trans h'.eq_foldl.symm

/-- A history can be cut anywhere. -/
theorem split {l₁ l₂ : List Event} (h : History P db₀ (l₁ ++ l₂) db) :
    ∃ db₁, History P db₀ l₁ db₁ ∧ History P db₁ l₂ db := by
  generalize hlog : l₁ ++ l₂ = log at h
  induction h generalizing l₂ with
  | start =>
      obtain ⟨rfl, rfl⟩ := List.append_eq_nil_iff.mp hlog
      exact ⟨db₀, .start, .start⟩
  | @snoc log db e h he ih =>
      obtain rfl | ⟨l, e', rfl⟩ := List.eq_nil_or_concat l₂
      · rw [List.append_nil] at hlog
        subst hlog
        exact ⟨_, h.snoc he, .start⟩
      · rw [List.concat_eq_append, ← List.append_assoc] at hlog
        obtain ⟨hinit, hlast⟩ := List.append_inj' hlog rfl
        cases hlast
        obtain ⟨db₁, h₁, h₂⟩ := ih hinit
        rw [List.concat_eq_append]
        exact ⟨db₁, h₁, h₂.snoc he⟩

/-- The tables an event met, and what came of them. -/
theorem at_event {l₁ l₂ : List Event} {e : Event} (h : History P db₀ (l₁ ++ e :: l₂) db) :
    ∃ db₁, History P db₀ l₁ db₁ ∧ e.Allowed P db₁ ∧ History P (e.apply db₁) l₂ db := by
  obtain ⟨db₁, h₁, hrest⟩ := h.split
  have hrest : History P db₁ ([e] ++ l₂) db := hrest
  obtain ⟨db₂, hone, h₂⟩ := hrest.split
  obtain ⟨he, rfl⟩ := hone.of_singleton
  exact ⟨db₁, h₁, he, h₂⟩

end History

/-! ### Versions -/

section Versions

variable {P : Policy} {db₀ db db' : Database} {log : List Event} {e : Event}
  {row : StatusListRecord}

/-- What one event makes of a list: its next version, or nothing. -/
theorem Event.Allowed.next (hn : (db.statusLists.map (·.id)).Nodup) (he : e.Allowed P db)
    (hrow : row ∈ db.statusLists) : ∃ row' ∈ (e.apply db).statusLists, row'.id = row.id ∧
      (e.flips row.id = false ∧ row' = row ∨
        e.flips row.id = true ∧ row'.version = row.version + 1) := by
  cases e with
  | created i new => exact ⟨row, List.mem_append_left _ hrow, rfl, .inl ⟨rfl, rfl⟩⟩
  | allocated i a => exact ⟨row, hrow, rfl, .inl ⟨rfl, rfl⟩⟩
  | committed i before write =>
      cases write with
      | none => exact ⟨row, hrow, rfl, .inl ⟨rfl, rfl⟩⟩
      | some u =>
          obtain ⟨hbefore, _, hresigned⟩ := he
          have hresigned := hresigned u rfl
          refine ⟨u.apply row, Database.mem_update.mpr ⟨row, hrow, rfl⟩, u.apply_id row, ?_⟩
          by_cases hid : row.id = u.id
          · have hsame : row = before :=
              List.inj_on_of_nodup_map hn hrow hbefore (hid.trans hresigned.id)
            subst hsame
            exact .inr ⟨by simp [flips], by simp [RowUpdate.apply_of_eq hid, hresigned.version]⟩
          · have hother : before.id ≠ row.id := fun h => hid (h.symm.trans hresigned.id.symm)
            exact .inl ⟨by simp [flips, hother], RowUpdate.apply_of_ne hid⟩

/-- Over a stretch of history the version counts the commits, and without any the list is the same
list, bytes and all. -/
theorem History.next (hn : (db₀.statusLists.map (·.id)).Nodup) (h : History P db₀ log db)
    (hrow : row ∈ db₀.statusLists) : ∃ row' ∈ db.statusLists, row'.id = row.id ∧
      row'.version = row.version + log.countP (Event.flips row.id) ∧
      (log.countP (Event.flips row.id) = 0 → row' = row) := by
  induction h with
  | start => exact ⟨row, hrow, rfl, by simp, fun _ => rfl⟩
  | @snoc log db e h he ih =>
      obtain ⟨row₁, hrow₁, hid, hversion, hsame⟩ := ih
      obtain ⟨row₂, hrow₂, hid₂, hnext⟩ := he.next (h.ids_nodup hn) hrow₁
      rw [hid] at hid₂ hnext
      refine ⟨row₂, hrow₂, hid₂, ?_⟩
      rw [List.countP_append, List.countP_singleton]
      obtain ⟨hquiet, rfl⟩ | ⟨hflips, hbumped⟩ := hnext
      · rw [hquiet, if_neg Bool.false_ne_true, Nat.add_zero]
        exact ⟨hversion, hsame⟩
      · rw [hflips, if_pos rfl, hbumped, hversion]
        exact ⟨by omega, fun hzero => by omega⟩

end Versions

/-! ### Bits -/

section Bits

variable {B : Type} (lib : BitstringLibrary B)

/-- An event that moves the bit of one index of one list to `status`. -/
def Event.Moves (id : String) (index : Nat) (status : Bool) : Event → Prop
  | .committed _ before (some u) => before.id = id ∧ index < before.characteristics.length ∧
      lib.readStatus before.encodedList index = .ok (!status) ∧
      lib.readStatus u.materialization.encodedList index = .ok status
  | _ => False

/-- The bit of one index of a list, as it is stored. -/
def BitstringLibrary.Holds (row : StatusListRecord) (index : Nat) (status : Bool) : Prop :=
  index < row.characteristics.length ∧ lib.readStatus row.encodedList index = .ok status

variable {lib} {P : Policy} {db₀ db : Database} {log : List Event} {e : Event} {id : String}
  {index : Nat} {status : Bool}

theorem Event.Moves.flips (h : e.Moves lib id index status) : e.flips id = true := by
  cases e with
  | created i row => exact h.elim
  | allocated i a => exact h.elim
  | committed i before write =>
      cases write with
      | none => exact h.elim
      | some u => simpa [Event.flips] using h.1

/-- What the list holds once its bit was moved. -/
theorem Event.Moves.holds (h : e.Moves lib id index status) (he : e.Allowed P db) :
    ∃ row ∈ (e.apply db).statusLists, row.id = id ∧ lib.Holds row index status := by
  cases e with
  | created i row => exact h.elim
  | allocated i a => exact h.elim
  | committed i before write =>
      cases write with
      | none => exact h.elim
      | some u =>
          obtain ⟨hid, hlt, _, hread⟩ := h
          obtain ⟨hbefore, _, hresigned⟩ := he
          have happly := RowUpdate.apply_of_eq (hresigned u rfl).id.symm
          refine ⟨u.apply before, Database.mem_update.mpr ⟨before, hbefore, rfl⟩,
            (u.apply_id before).trans hid, ?_, ?_⟩
          · rw [happly]
            exact hlt
          · rw [happly]
            exact hread

/-- One event leaves the bit where it is or moves it to the other side. -/
theorem Event.Allowed.holds (hn : (db.statusLists.map (·.id)).Nodup)
    (hreads : ∀ row, P.wf row → index < row.characteristics.length →
      ∃ v, lib.readStatus row.encodedList index = .ok v)
    (he : e.Allowed P db) {row : StatusListRecord} (hrow : row ∈ db.statusLists)
    (hholds : lib.Holds row index status) : ∃ row' ∈ (e.apply db).statusLists, row'.id = row.id ∧
      (lib.Holds row' index status ∨ e.Moves lib row.id index (!status)) := by
  cases e with
  | created i new => exact ⟨row, List.mem_append_left _ hrow, rfl, .inl hholds⟩
  | allocated i a => exact ⟨row, hrow, rfl, .inl hholds⟩
  | committed i before write =>
      cases write with
      | none => exact ⟨row, hrow, rfl, .inl hholds⟩
      | some u =>
          obtain ⟨hbefore, _, hresigned⟩ := he
          have hresigned := hresigned u rfl
          refine ⟨u.apply row, Database.mem_update.mpr ⟨row, hrow, rfl⟩, u.apply_id row, ?_⟩
          by_cases hid : row.id = u.id
          · have hsame : row = before :=
              List.inj_on_of_nodup_map hn hrow hbefore (hid.trans hresigned.id)
            subst hsame
            have happly := RowUpdate.apply_of_eq hid
            have hlt : index < (u.apply row).characteristics.length := by
              rw [happly]
              exact hholds.1
            obtain ⟨v, hv⟩ := hreads _ hresigned.wf hlt
            by_cases hstatus : v = status
            · exact .inl ⟨hlt, hstatus ▸ hv⟩
            · have hv' : v = !status := Bool.eq_not_of_ne hstatus
              rw [hv', happly] at hv
              exact .inr ⟨rfl, hholds.1, by simpa using hholds.2, hv⟩
          · rw [RowUpdate.apply_of_ne hid]
            exact .inl hholds

/-- A bit stays where it was moved to until an event moves it back. -/
theorem History.holds (hn : (db₀.statusLists.map (·.id)).Nodup)
    (hreads : ∀ row, P.wf row → index < row.characteristics.length →
      ∃ v, lib.readStatus row.encodedList index = .ok v)
    (h : History P db₀ log db) {row : StatusListRecord} (hrow : row ∈ db₀.statusLists)
    (hholds : lib.Holds row index status) : ∃ row' ∈ db.statusLists, row'.id = row.id ∧
      (lib.Holds row' index status ∨ ∃ e ∈ log, e.Moves lib row.id index (!status)) := by
  induction h with
  | start => exact ⟨row, hrow, rfl, .inl hholds⟩
  | @snoc log db e h he ih =>
      obtain ⟨row₁, hrow₁, hid₁, hheld⟩ := ih
      obtain hheld | ⟨e', hmem, hback⟩ := hheld
      · obtain ⟨row₂, hrow₂, hid₂, hnext⟩ := he.holds (h.ids_nodup hn) hreads hrow₁ hheld
        rw [hid₁] at hid₂ hnext
        exact ⟨row₂, hrow₂, hid₂, hnext.imp_right fun hback => ⟨e, by simp, hback⟩⟩
      · obtain ⟨row₂, hrow₂, hid₂⟩ := e.apply_ids hrow₁
        exact ⟨row₂, hrow₂, hid₂.trans hid₁, .inr ⟨e', by simp [hmem], hback⟩⟩

end Bits

end VcalmStatus
