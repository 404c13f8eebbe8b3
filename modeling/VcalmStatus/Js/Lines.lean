import Mathlib.Data.List.DropRight
import VcalmStatus.Js.Text

/-!
Texts that are read line by line: what `trim` leaves of a value, and where a text splits when it is
two texts put together.
-/

namespace VcalmStatus.Js

/-- The characters the `.` of a regular expression does not match. -/
def isLineTerminator (c : Char) : Bool :=
  c = '\n' || c = '\r' || c.toNat = 0x2028 || c.toNat = 0x2029

theorem isWhitespace_of_isLineTerminator {c : Char} (h : isLineTerminator c = true) :
    isWhitespace c = true := by
  simp only [isLineTerminator, Bool.or_eq_true, decide_eq_true_eq] at h
  rcases h with ((rfl | rfl) | h) | h
  · decide
  · decide
  · simp [isWhitespace, h]
  · simp [isWhitespace, h]

/-- `/^.*$/.test(s)`: the text has one line. -/
def isOneLine (s : String) : Bool := s.toList.all fun c => !isLineTerminator c

theorem isOneLine_iff {s : String} :
    isOneLine s = true ↔ ∀ c ∈ s.toList, isLineTerminator c = false := by
  simp [isOneLine]

theorem newline_not_mem {s : String} (h : isOneLine s = true) : '\n' ∉ s.toList := by
  intro hmem
  have := isOneLine_iff.mp h _ hmem
  exact absurd this (by decide)

theorem isOneLine_append {s t : String} :
    isOneLine (s ++ t) = (isOneLine s && isOneLine t) := by
  simp [isOneLine]

/-! ### Trimming -/

theorem toList_trim (s : String) :
    (trim s).toList = (s.toList.dropWhile isWhitespace).rdropWhile isWhitespace := by
  simp [trim, trimBy, List.rdropWhile]

/-- A text that neither begins nor ends in white space. -/
def IsTrimmed (s : String) : Prop :=
  (∀ c ∈ s.toList.head?, isWhitespace c = false) ∧ ∀ c ∈ s.toList.getLast?, isWhitespace c = false

theorem trim_of_isTrimmed {s : String} (h : IsTrimmed s) : trim s = s := by
  rw [← String.toList_inj, toList_trim]
  have hfront : s.toList.dropWhile isWhitespace = s.toList := by
    cases hs : s.toList with
    | nil => rfl
    | cons c cs => simp [h.1 c (by simp [hs])]
  rw [hfront, List.rdropWhile_eq_self_iff]
  intro hne hlast
  rw [h.2 _ (List.getLast_mem_getLast? hne)] at hlast
  exact absurd hlast (by decide)

theorem isTrimmed_trim (s : String) : IsTrimmed (trim s) := by
  rw [IsTrimmed, toList_trim]
  set front := s.toList.dropWhile isWhitespace with hfront
  have hlast : ∀ c ∈ (front.rdropWhile isWhitespace).getLast?, isWhitespace c = false := by
    intro c hc
    obtain ⟨hne, rfl⟩ := List.mem_getLast?_eq_getLast hc
    simpa using List.rdropWhile_last_not isWhitespace front hne
  refine ⟨?_, hlast⟩
  intro c hc
  -- What is dropped at the end cannot be all there is before it.
  have hhead : c ∈ front.head? := by
    obtain ⟨rest, hrest⟩ := List.rdropWhile_prefix isWhitespace front
    rw [← hrest, List.head?_append, Option.mem_def.mp hc]
    rfl
  have := List.head?_dropWhile_not isWhitespace s.toList
  rw [← hfront, Option.mem_def.mp hhead] at this
  simpa using this

theorem trim_eq_self_iff {s : String} : trim s = s ↔ IsTrimmed s := by
  constructor
  · intro h
    rw [← h]
    exact isTrimmed_trim s
  · exact trim_of_isTrimmed

@[simp] theorem trim_trim (s : String) : trim (trim s) = trim s :=
  trim_of_isTrimmed (isTrimmed_trim s)

/-- Nothing is left of white space, and of nothing else. -/
theorem trim_eq_empty_iff {s : String} :
    trim s = "" ↔ ∀ c ∈ s.toList, isWhitespace c = true := by
  have hnil : trim s = "" ↔
      (s.toList.dropWhile isWhitespace).rdropWhile isWhitespace = [] := by
    rw [← toList_trim, ← String.toList_inj]
    rfl
  rw [hnil]
  constructor
  · intro h
    -- What the first pass leaves begins with a character it does not drop.
    have hdrop : s.toList.dropWhile isWhitespace = [] := by
      by_contra hne
      have hhead := List.head?_dropWhile_not isWhitespace s.toList
      rw [List.head?_eq_some_head hne] at hhead
      have hspace := List.rdropWhile_eq_nil_iff.mp h _ (List.head_mem hne)
      simp [hspace] at hhead
    exact List.dropWhile_eq_nil_iff.mp hdrop
  · intro h
    rw [List.dropWhile_eq_nil_iff.mpr h]
    rfl

theorem mem_of_mem_trim {s : String} {c : Char} (h : c ∈ (trim s).toList) : c ∈ s.toList := by
  rw [toList_trim] at h
  exact (List.dropWhile_suffix _).subset ((List.rdropWhile_prefix _ _).subset h)

theorem isOneLine_trim {s : String} (h : isOneLine s = true) : isOneLine (trim s) = true :=
  isOneLine_iff.mpr fun c hc => isOneLine_iff.mp h c (mem_of_mem_trim hc)

/-! ### Splitting -/

/-- A separator ends the piece before it. -/
theorem split_append_separator (s t : String) (sep : Char) :
    split (s ++ String.singleton sep ++ t) sep = split s sep ++ split t sep := by
  simp [split, List.splitOn_append_cons_self]

theorem split_of_not_mem {s : String} {sep : Char} (h : sep ∉ s.toList) : split s sep = [s] := by
  simp [split, List.splitOn_eq_singleton h]

theorem not_mem_of_mem_split {s piece : String} {sep : Char} (h : piece ∈ split s sep) :
    sep ∉ piece.toList := by
  obtain ⟨cs, hcs, rfl⟩ := List.mem_map.mp h
  simpa using not_mem_of_mem_splitOn cs hcs

theorem mem_intercalate_of_mem {α : Type} {sep piece : List α} {pieces : List (List α)} {a : α}
    (hpiece : piece ∈ pieces) (ha : a ∈ piece) : a ∈ sep.intercalate pieces := by
  induction pieces with
  | nil => simp at hpiece
  | cons p ps ih =>
      cases ps with
      | nil =>
          obtain rfl : piece = p := by simpa using hpiece
          simpa using ha
      | cons p' ps =>
          rw [List.intercalate_cons_cons, List.mem_append]
          rcases List.mem_cons.mp hpiece with rfl | hpiece
          · exact .inl (List.mem_append_left _ ha)
          · exact .inr (ih hpiece)

theorem mem_of_mem_intercalate {α : Type} {sep : List α} {pieces : List (List α)} {a : α}
    (ha : a ∈ sep.intercalate pieces) : a ∈ sep ∨ ∃ piece ∈ pieces, a ∈ piece := by
  induction pieces with
  | nil => simp at ha
  | cons p ps ih =>
      cases ps with
      | nil => exact .inr ⟨p, List.mem_cons_self, by simpa using ha⟩
      | cons p' ps =>
          rw [List.intercalate_cons_cons, List.mem_append, List.mem_append] at ha
          obtain (hp | hsep) | hrest := ha
          · exact .inr ⟨p, List.mem_cons_self, hp⟩
          · exact .inl hsep
          · obtain hsep | ⟨piece, hpiece, hmem⟩ := ih hrest
            · exact .inl hsep
            · exact .inr ⟨piece, List.mem_cons_of_mem _ hpiece, hmem⟩

theorem split_ne_nil (s : String) (sep : Char) : split s sep ≠ [] := by
  simp [split, List.splitOn_ne_nil]

theorem mem_of_mem_split {s piece : String} {sep c : Char} (h : piece ∈ split s sep)
    (hc : c ∈ piece.toList) : c ∈ s.toList := by
  obtain ⟨hjoin, -⟩ := (split_eq_iff (split_ne_nil s sep)).mp (rfl : split s sep = split s sep)
  rw [hjoin]
  exact mem_intercalate_of_mem (List.mem_map_of_mem h) hc

/-- Of what is joined, one piece stands between separators. -/
theorem exists_intercalate_append {α : Type} (sep : α) (before : List (List α)) (piece : List α)
    (after : List (List α)) :
    ∃ front back, [sep].intercalate (before ++ piece :: after) = front ++ piece ++ back ∧
      (∀ a ∈ front.getLast?, a = sep) ∧ ∀ a ∈ back.head?, a = sep := by
  induction before with
  | nil =>
      cases after with
      | nil => exact ⟨[], [], by simp, nofun, nofun⟩
      | cons p ps => exact ⟨[], sep :: [sep].intercalate (p :: ps), by simp, nofun, by simp⟩
  | cons p ps ih =>
      obtain ⟨front, back, hjoin, hfront, hback⟩ := ih
      refine ⟨p ++ sep :: front, back, ?_, ?_, hback⟩
      · rw [List.cons_append, List.intercalate_cons_of_ne_nil (by simp), hjoin]
        simp
      · intro a ha
        rw [List.getLast?_append, List.getLast?_cons] at ha
        cases hlast : front.getLast? with
        | none => simpa [hlast, eq_comm] using ha
        | some b =>
            obtain rfl : b = a := by simpa [hlast] using ha
            exact hfront b hlast

/-- The pieces of a text are what stands between its separators. -/
theorem mem_split_iff {s piece : String} {sep : Char} :
    piece ∈ split s sep ↔ sep ∉ piece.toList ∧
      ∃ before after, s.toList = before ++ piece.toList ++ after ∧
        (∀ c ∈ before.getLast?, c = sep) ∧ ∀ c ∈ after.head?, c = sep := by
  constructor
  · intro h
    refine ⟨not_mem_of_mem_split h, ?_⟩
    obtain ⟨hjoin, -⟩ := (split_eq_iff (split_ne_nil s sep)).mp (rfl : split s sep = split s sep)
    obtain ⟨before, after, hpieces⟩ := List.append_of_mem h
    rw [hpieces, List.map_append, List.map_cons] at hjoin
    rw [hjoin]
    exact exists_intercalate_append _ _ _ _
  · rintro ⟨hpiece, before, after, hs, hbefore, hafter⟩
    have hself := List.splitOn_eq_singleton hpiece
    -- What follows the piece begins with a separator of its own.
    have hrest : piece.toList ∈ (piece.toList ++ after).splitOn sep := by
      cases after with
      | nil => simp [hself]
      | cons c cs =>
          obtain rfl := hafter c rfl
          rw [List.splitOn_append_cons_self, hself]
          exact List.mem_cons_self
    have hmem : piece.toList ∈ s.toList.splitOn sep := by
      rw [hs, List.append_assoc]
      cases hlast : before.getLast? with
      | none =>
          rw [List.getLast?_eq_none_iff.mp hlast]
          exact hrest
      | some c =>
          obtain rfl := hbefore c hlast
          obtain ⟨front, rfl⟩ := List.getLast?_eq_some_iff.mp hlast
          rw [List.append_assoc, List.singleton_append, List.splitOn_append_cons_self]
          exact List.mem_append_right _ hrest
    exact List.mem_map.mpr ⟨piece.toList, hmem, String.ofList_toList⟩

end VcalmStatus.Js
