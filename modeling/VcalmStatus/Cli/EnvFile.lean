import VcalmStatus.Js.Lines
import VcalmStatus.Js.Locale
import VcalmStatus.Services.ProcessEnv

/-!
An env file read line by line. A line `KEY=value` assigns, anything else (a comment, a blank line,
a value with a line break of its own) is passed over, and a later assignment to a name overrides an
earlier one.
-/

namespace VcalmStatus

open Js

namespace EnvFile

def isNameStart (c : Char) : Bool := c.isAlpha || c = '_'

/-- The two groups of `/^\s*([A-Za-z_][A-Za-z0-9_]*)\s*=\s*(.*?)\s*$/`: the name, and the value
without the white space around it, in which there must be no line terminator. -/
def parseLine (line : String) : Option (String × String) :=
  match line.toList.dropWhile isWhitespace with
  | [] => none
  | c :: cs =>
      if isNameStart c then
        match (cs.dropWhile isNameChar).dropWhile isWhitespace with
        | '=' :: rest =>
            let value := trim (String.ofList rest)
            if isOneLine value then some (String.ofList (c :: cs.takeWhile isNameChar), value)
            else none
        | _ => none
      else none

/-- What the lines of a text assign, in order. -/
def assignments (contents : String) : List (String × String) :=
  (split contents '\n').filterMap parseLine

def parseEnvFile (contents : String) : ProcessEnv := ProcessEnv.empty.assign (assignments contents)

/-! ### Lines -/

/-- A name that can stand before the `=`. -/
def IsName (key : String) : Prop :=
  ∃ c cs, key.toList = c :: cs ∧ isNameStart c = true ∧ ∀ d ∈ cs, isNameChar d = true

theorem isName_iff {key : String} : IsName key ↔
    (key.toList.head?.any isNameStart && key.toList.tail.all isNameChar) = true := by
  unfold IsName
  cases key.toList with
  | nil => simp
  | cons c cs => simp

instance (key : String) : Decidable (IsName key) := decidable_of_iff _ isName_iff.symm

theorem nameChar_plain {c : Char} (h : isNameChar c = true) :
    isWhitespace c = false ∧ isLineTerminator c = false ∧ c ≠ '=' := by
  have hall : ∀ n : Fin 128, isNameChar (Char.ofNat n) = true →
      isWhitespace (Char.ofNat n) = false ∧ isLineTerminator (Char.ofNat n) = false ∧
        Char.ofNat n ≠ '=' := by decide
  have hc := hall ⟨c.toNat, toNat_lt_of_isNameChar h⟩
  rw [Char.ofNat_toNat] at hc
  exact hc h

theorem isNameChar_of_isNameStart {c : Char} (h : isNameStart c = true) : isNameChar c = true := by
  simp only [isNameStart, isNameChar, Char.isAlphanum, Bool.or_eq_true] at h ⊢
  tauto

theorem IsName.chars {key : String} (h : IsName key) : ∀ c ∈ key.toList, isNameChar c = true := by
  obtain ⟨c, cs, hkey, hc, hcs⟩ := h
  intro d hd
  rw [hkey, List.mem_cons] at hd
  rcases hd with rfl | hd
  · exact isNameChar_of_isNameStart hc
  · exact hcs d hd

/-- After white space, a name stands where the white space ends. -/
theorem dropWhile_gap {gap cs : List Char} {key : String} (hgap : ∀ c ∈ gap, isWhitespace c = true)
    (hkey : IsName key) :
    (gap ++ key.toList ++ cs).dropWhile isWhitespace = key.toList ++ cs := by
  obtain ⟨c, name, hlist, hc, -⟩ := hkey
  have hstart := (nameChar_plain (isNameChar_of_isNameStart hc)).1
  rw [List.append_assoc, List.dropWhile_append_of_pos hgap, hlist, List.cons_append,
    List.dropWhile_cons, hstart]
  rfl

theorem dropWhile_equals {gap cs : List Char} (hgap : ∀ c ∈ gap, isWhitespace c = true) :
    (gap ++ '=' :: cs).dropWhile isWhitespace = '=' :: cs := by
  rw [List.dropWhile_append_of_pos hgap]
  rfl

/-- A line assigns where it has a name, an `=` and a value of one line, with no more than white
space around them. -/
theorem parseLine_eq_some_iff {line key value : String} :
    parseLine line = some (key, value) ↔ IsName key ∧ isOneLine value = true ∧
      ∃ gap inner rest, line.toList = gap ++ key.toList ++ (inner ++ '=' :: rest) ∧
        (∀ c ∈ gap, isWhitespace c = true) ∧ (∀ c ∈ inner, isWhitespace c = true) ∧
        value = trim (String.ofList rest) := by
  constructor
  · intro h
    unfold parseLine at h
    split at h
    · cases h
    · rename_i c cs hline
      split at h <;> rename_i hc
      · split at h
        · rename_i rest hrest
          dsimp only at h
          split at h <;> rename_i hvalue
          · cases h
            refine ⟨⟨c, cs.takeWhile isNameChar, String.toList_ofList, hc, ?_⟩, hvalue,
              line.toList.takeWhile isWhitespace,
              (cs.dropWhile isNameChar).takeWhile isWhitespace, rest, ?_, ?_, ?_, rfl⟩
            · intro d hd
              exact List.mem_takeWhile_imp hd
            · rw [← hrest, List.takeWhile_append_dropWhile, String.toList_ofList,
                List.append_assoc, List.cons_append, List.takeWhile_append_dropWhile, ← hline,
                List.takeWhile_append_dropWhile]
            · exact fun d hd => List.mem_takeWhile_imp hd
            · exact fun d hd => List.mem_takeWhile_imp hd
          · cases h
        · cases h
      · cases h
  · rintro ⟨hkey, hvalue, gap, inner, rest, hline, hgap, hinner, rfl⟩
    have hstart : (gap ++ key.toList ++ (inner ++ '=' :: rest)).dropWhile isWhitespace =
        key.toList ++ (inner ++ '=' :: rest) := dropWhile_gap hgap hkey
    obtain ⟨c, cs, hlist, hc, hcs⟩ := hkey
    -- Neither white space nor the `=` is part of a name.
    have hstop : (inner ++ '=' :: rest).dropWhile isNameChar = inner ++ '=' :: rest ∧
        (inner ++ '=' :: rest).takeWhile isNameChar = [] := by
      cases inner with
      | nil => exact ⟨rfl, rfl⟩
      | cons d ds =>
          have hd : isNameChar d = false := by
            by_contra hname
            have hplain := (nameChar_plain (by simpa using hname)).1
            rw [hinner d List.mem_cons_self] at hplain
            cases hplain
          exact ⟨by simp [hd], by simp [hd]⟩
    unfold parseLine
    rw [hline, hstart, hlist]
    simp only [List.cons_append, hc, if_true]
    rw [List.dropWhile_append_of_pos hcs, List.takeWhile_append_of_pos hcs, hstop.1, hstop.2,
      dropWhile_equals hinner]
    simp only [hvalue, if_true, List.append_nil, ← hlist, String.ofList_toList]

/-- A line that assigns a value of one line to a name is read as that. -/
theorem parseLine_assignment {key value : String} (hkey : IsName key)
    (hvalue : isOneLine value = true) :
    parseLine (key ++ "=" ++ value) = some (key, trim value) := by
  rw [parseLine_eq_some_iff]
  exact ⟨hkey, isOneLine_trim hvalue, [], [], value.toList, by simp, nofun, nofun, by simp⟩

/-- A comment assigns nothing. -/
theorem parseLine_comment {line : String} (h : line.toList.head? = some '#') :
    parseLine line = none := by
  obtain ⟨text, hline⟩ := List.head?_eq_some_iff.mp h
  have hhash : isWhitespace '#' = false ∧ isNameStart '#' = false := by decide
  unfold parseLine
  rw [hline, List.dropWhile_cons, hhash.1]
  simp [hhash.2]

/-- What a line assigns is a trimmed value of one line, to a name. -/
theorem parseLine_spec {line key value : String} (h : parseLine line = some (key, value)) :
    IsName key ∧ isOneLine value = true ∧ trim value = value := by
  obtain ⟨hkey, hvalue, -, -, rest, -, -, -, rfl⟩ := parseLine_eq_some_iff.mp h
  exact ⟨hkey, hvalue, trim_trim _⟩

/-! ### Texts -/

/-- What is written after a line break is read after what is there. -/
theorem assignments_append (s t : String) :
    assignments (s ++ "\n" ++ t) = assignments s ++ assignments t := by
  have hsplit := split_append_separator s t '\n'
  rw [show String.singleton '\n' = "\n" from rfl] at hsplit
  rw [assignments, hsplit, List.filterMap_append]
  rfl

theorem assignments_empty : assignments "" = [] := rfl

/-- Texts that are joined by line breaks are read one by one. -/
theorem assignments_intercalate (texts : List String) :
    assignments ("\n".intercalate texts) = texts.flatMap assignments := by
  induction texts with
  | nil => rfl
  | cons text texts ih =>
      cases texts with
      | nil => simp
      | cons next texts =>
          have hjoin : "\n".intercalate (text :: next :: texts) =
              text ++ "\n" ++ "\n".intercalate (next :: texts) := by simp
          rw [hjoin, assignments_append, ih]
          rfl

/-- So are lines that are joined. -/
theorem assignments_join {lines : List String} (h : ∀ line ∈ lines, '\n' ∉ line.toList) :
    assignments ("\n".intercalate lines) = lines.filterMap parseLine := by
  cases lines with
  | nil => rfl
  | cons line lines =>
      rw [assignments]
      refine congrArg _ ?_
      rw [split_eq_iff (List.cons_ne_nil _ _)]
      exact ⟨by simp, h⟩

theorem mem_assignments {contents key value : String} (h : (key, value) ∈ assignments contents) :
    IsName key ∧ isOneLine value = true ∧ trim value = value := by
  obtain ⟨line, -, hline⟩ := List.mem_filterMap.mp h
  exact parseLine_spec hline

/-- What a file gives a name is trimmed and of one line. -/
theorem get?_parseEnvFile {contents key value : String}
    (h : (parseEnvFile contents).get? key = some value) :
    IsName key ∧ isOneLine value = true ∧ trim value = value := by
  have hmem := ProcessEnv.mem_entries_assign (ProcessEnv.mem_entries_iff.mpr h)
  exact mem_assignments (hmem.resolve_left nofun)

end EnvFile

end VcalmStatus
