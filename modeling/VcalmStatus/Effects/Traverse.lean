import Mathlib.Data.List.Perm.Basic
import VcalmStatus.Effects.Program

/-!
A function that may throw, taken through a list: it succeeds where it succeeds on each member, and
what it returns there can be split as the list can.
-/

namespace VcalmStatus.Effects

variable {ε α β : Type}

theorem mapM_eq_ok_iff {f : α → Except ε β} {l : List α} {rs : List β} :
    l.mapM f = .ok rs ↔ List.Forall₂ (fun a r => f a = .ok r) l rs := by
  induction l generalizing rs with
  | nil =>
      constructor
      · intro h
        cases h
        exact .nil
      · intro h
        cases h
        rfl
  | cons a l ih =>
      rw [List.mapM_cons, bind_eq_ok]
      constructor
      · rintro ⟨r, hr, h⟩
        obtain ⟨rs', hrs', heq⟩ := bind_eq_ok.mp h
        cases heq
        exact .cons hr (ih.mp hrs')
      · intro h
        cases h with
        | cons hr hrs =>
            exact ⟨_, hr, bind_eq_ok.mpr ⟨_, ih.mpr hrs, rfl⟩⟩

/-- It succeeds where it succeeds on every member. -/
theorem exists_mapM_eq_ok {f : α → Except ε β} {l : List α} (h : ∀ a ∈ l, ∃ r, f a = .ok r) :
    ∃ rs, l.mapM f = .ok rs := by
  induction l with
  | nil => exact ⟨[], rfl⟩
  | cons a l ih =>
      obtain ⟨r, hr⟩ := h a List.mem_cons_self
      obtain ⟨rs, hrs⟩ := ih fun b hb => h b (List.mem_cons_of_mem _ hb)
      exact ⟨r :: rs, mapM_eq_ok_iff.mpr (.cons hr (mapM_eq_ok_iff.mp hrs))⟩

/-- What it returned for a member is among what it returns. -/
theorem exists_mem_of_mapM {f : α → Except ε β} {l : List α} {rs : List β}
    (h : l.mapM f = .ok rs) {a : α} (ha : a ∈ l) : ∃ r ∈ rs, f a = .ok r := by
  have hall := mapM_eq_ok_iff.mp h
  clear h
  induction hall with
  | nil => simp at ha
  | cons hr _ ih =>
      rcases List.mem_cons.mp ha with rfl | ha
      · exact ⟨_, List.mem_cons_self, hr⟩
      · obtain ⟨r, hmem, hr'⟩ := ih ha
        exact ⟨r, List.mem_cons_of_mem _ hmem, hr'⟩

theorem exists_of_mapM_eq_ok {f : α → Except ε β} {l : List α} {rs : List β}
    (h : l.mapM f = .ok rs) {a : α} (ha : a ∈ l) : ∃ r, f a = .ok r := by
  obtain ⟨r, -, hr⟩ := exists_mem_of_mapM h ha
  exact ⟨r, hr⟩

/-- What it returns was returned for a member. -/
theorem exists_of_mem_mapM {f : α → Except ε β} {l : List α} {rs : List β}
    (h : l.mapM f = .ok rs) {r : β} (hr : r ∈ rs) : ∃ a ∈ l, f a = .ok r := by
  have hall := mapM_eq_ok_iff.mp h
  clear h
  induction hall with
  | nil => simp at hr
  | cons ha _ ih =>
      rcases List.mem_cons.mp hr with rfl | hr
      · exact ⟨_, List.mem_cons_self, ha⟩
      · obtain ⟨a, hmem, ha'⟩ := ih hr
        exact ⟨a, List.mem_cons_of_mem _ hmem, ha'⟩

/-- Where a result shows whether its argument was of a kind, the results of that kind are the
results of the arguments of that kind. -/
theorem mapM_filter {f : α → Except ε β} {p : α → Bool} {q : β → Bool} {l : List α} {rs : List β}
    (h : l.mapM f = .ok rs) (hpq : ∀ {a r}, f a = .ok r → p a = q r) :
    (l.filter p).mapM f = .ok (rs.filter q) := by
  refine mapM_eq_ok_iff.mpr (List.rel_filter ?_ (mapM_eq_ok_iff.mp h))
  intro a r hr
  show p a = true ↔ q r = true
  rw [hpq hr]

/-- Members in another order give the results in another order. -/
theorem mapM_perm {f : α → Except ε β} {l l' : List α} {rs rs' : List β}
    (h : l.mapM f = .ok rs) (h' : l'.mapM f = .ok rs') (hperm : l.Perm l') : rs.Perm rs' := by
  have hunique : Relator.RightUnique fun (a : α) (r : β) => f a = .ok r :=
    fun _ _ _ hr hr' => Except.ok.inj (hr.symm.trans hr')
  exact List.rel_perm_imp hunique (mapM_eq_ok_iff.mp h) (mapM_eq_ok_iff.mp h') hperm

/-- What is done to every result is done to the list of them. -/
theorem mapM_map {γ : Type} {f : α → Except ε γ} {g : α → Except ε β} {φ : β → γ} {l : List α}
    (h : ∀ a ∈ l, f a = (g a).map φ) : l.mapM f = (l.mapM g).map (List.map φ) := by
  induction l with
  | nil => rfl
  | cons a l ih =>
      rw [List.mapM_cons, List.mapM_cons, h a List.mem_cons_self,
        ih fun b hb => h b (List.mem_cons_of_mem _ hb)]
      cases g a with
      | error e => rfl
      | ok r => cases l.mapM g <;> rfl

/-- Only what it does on the members matters. -/
theorem mapM_congr {f g : α → Except ε β} {l : List α} (h : ∀ a ∈ l, f a = g a) :
    l.mapM f = l.mapM g := by
  induction l with
  | nil => rfl
  | cons a l ih =>
      rw [List.mapM_cons, List.mapM_cons, h a List.mem_cons_self,
        ih fun b hb => h b (List.mem_cons_of_mem _ hb)]

end VcalmStatus.Effects
