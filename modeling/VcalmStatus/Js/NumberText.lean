import VcalmStatus.Js.Json
import VcalmStatus.Js.Text
import Mathlib.Data.List.TakeWhile

/-!
Number literals of JSON, and the texts of numbers among them. A scanner takes its part off the
front of a text and gives what is left.
-/

namespace VcalmStatus.Js

/-! ### Number literals -/

/-- A reader of part of a text: what it read and what it left. -/
abbrev Scanner := List Char → Option (List Char × List Char)

/-- One reader after the other. -/
def followedBy (first second : Scanner) : Scanner := fun cs => do
  let (read, cs) ← first cs
  let (more, cs) ← second cs
  some (read ++ more, cs)

/-- One of the given characters, if it is there. -/
def scanSign (signs : List Char) : Scanner
  | c :: cs => if c ∈ signs then some ([c], cs) else some ([], c :: cs)
  | [] => some ([], [])

/-- `[0-9]+`. -/
def scanDigits : Scanner := fun cs =>
  if cs.takeWhile Char.isDigit = [] then none
  else some (cs.takeWhile Char.isDigit, cs.dropWhile Char.isDigit)

/-- `0|[1-9][0-9]*`. -/
def scanInteger : Scanner
  | c :: cs => if c = '0' then some (['0'], cs) else scanDigits (c :: cs)
  | [] => none

/-- `(\.[0-9]+)?`. -/
def scanFraction : Scanner
  | c :: cs =>
      if c = '.' then (scanDigits cs).map fun (digits, rest) => (c :: digits, rest)
      else some ([], c :: cs)
  | [] => some ([], [])

/-- `([eE][+-]?[0-9]+)?`. -/
def scanExponent : Scanner
  | c :: cs =>
      if c = 'e' ∨ c = 'E' then
        (followedBy (scanSign ['+', '-']) scanDigits cs).map fun (read, rest) => (c :: read, rest)
      else some ([], c :: cs)
  | [] => some ([], [])

/-- A number literal of JSON. -/
def scanNumber : Scanner :=
  followedBy (scanSign ['-']) (followedBy scanInteger (followedBy scanFraction scanExponent))

/-- What can stand in a number literal. -/
def isNumberChar (c : Char) : Bool := c.isDigit || c ∈ ['-', '+', '.', 'e', 'E']

/-- What follows is no part of a number. -/
def EndsNumber (cs : List Char) : Prop := ∀ c ∈ cs.head?, isNumberChar c = false

theorem EndsNumber.nil : EndsNumber [] := fun _ h => absurd h (by simp)

theorem EndsNumber.cons {c : Char} (h : isNumberChar c = false) (cs : List Char) :
    EndsNumber (c :: cs) := by
  intro c' hc'
  rw [← Option.some.inj hc']
  exact h

/-- Where a scanner that stopped before `rest` stops again. -/
def StopsLike (rest rest' : List Char) : Prop := rest'.head? = rest.head? ∨ EndsNumber rest'

/-- What holds of each of the scanners above: the text is what it read and what it left, what it
read can stand in a number, and it reads the same again before whatever stops it. -/
structure Scans (scan : Scanner) : Prop where
  parts : ∀ {cs read rest}, scan cs = some (read, rest) → read ++ rest = cs
  chars : ∀ {cs read rest}, scan cs = some (read, rest) → ∀ c ∈ read, isNumberChar c = true
  again : ∀ {cs read rest rest'}, scan cs = some (read, rest) → StopsLike rest rest' →
    scan (read ++ rest') = some (read, rest')

theorem StopsLike.append {rest rest' : List Char} (h : StopsLike rest rest') (read : List Char) :
    StopsLike (read ++ rest) (read ++ rest') := by
  cases read with
  | nil => exact h
  | cons c read => exact .inl rfl

/-- A property of characters that number characters alone have does not hold where a scanner that
met none of them stops again. -/
theorem StopsLike.head {rest rest' : List Char} {p : Char → Prop} (h : StopsLike rest rest')
    (hp : ∀ c, p c → isNumberChar c = true) (hrest : ∀ c ∈ rest.head?, ¬p c) :
    ∀ c ∈ rest'.head?, ¬p c := by
  intro c hc hpc
  obtain hsame | hends := h
  · exact hrest c (hsame ▸ hc) hpc
  · exact absurd (hp c hpc) (by simp [hends c hc])

namespace Scans

variable {scan : Scanner} {cs read rest : List Char}

/-- What was read is read again from itself alone. -/
theorem alone (h : Scans scan) (hread : scan cs = some (read, rest)) : scan read = some (read, []) := by
  simpa using h.again hread (.inr .nil)

/-- Something that is no part of a number may follow. -/
theorem before (h : Scans scan) (hread : scan cs = some (cs, [])) (hrest : EndsNumber rest) :
    scan (cs ++ rest) = some (cs, rest) := h.again hread (.inr hrest)

end Scans

theorem followedBy_eq_some {first second : Scanner} {cs read rest : List Char} :
    followedBy first second cs = some (read, rest) ↔ ∃ r cs' r', first cs = some (r, cs') ∧
      second cs' = some (r', rest) ∧ read = r ++ r' := by
  constructor
  · intro h
    obtain ⟨⟨r, cs'⟩, hfirst, h⟩ := Option.bind_eq_some_iff.mp h
    obtain ⟨⟨r', rest'⟩, hsecond, h⟩ := Option.bind_eq_some_iff.mp h
    cases h
    exact ⟨r, cs', r', hfirst, hsecond, rfl⟩
  · rintro ⟨r, cs', r', hfirst, hsecond, rfl⟩
    simp [followedBy, hfirst, hsecond]

theorem Scans.followedBy {first second : Scanner} (hf : Scans first) (hs : Scans second) :
    Scans (followedBy first second) := by
  refine ⟨?_, ?_, ?_⟩
  · intro cs read rest h
    obtain ⟨r, cs', r', hfirst, hsecond, rfl⟩ := followedBy_eq_some.mp h
    rw [List.append_assoc, hs.parts hsecond, hf.parts hfirst]
  · intro cs read rest h c hc
    obtain ⟨r, cs', r', hfirst, hsecond, rfl⟩ := followedBy_eq_some.mp h
    obtain hc | hc := List.mem_append.mp hc
    · exact hf.chars hfirst c hc
    · exact hs.chars hsecond c hc
  · intro cs read rest rest' h hstops
    obtain ⟨r, cs', r', hfirst, hsecond, rfl⟩ := followedBy_eq_some.mp h
    have hmore : StopsLike cs' (r' ++ rest') := by
      rw [← hs.parts hsecond]
      exact hstops.append r'
    rw [List.append_assoc]
    exact followedBy_eq_some.mpr
      ⟨r, r' ++ rest', r', hf.again hfirst hmore, hs.again hsecond hstops, rfl⟩

theorem scanDigits_eq_some {cs read rest : List Char} :
    scanDigits cs = some (read, rest) ↔ read ≠ [] ∧ (∀ c ∈ read, c.isDigit = true) ∧
      (∀ c ∈ rest.head?, ¬c.isDigit = true) ∧ read ++ rest = cs := by
  unfold scanDigits
  constructor
  · intro h
    split at h <;> rename_i hne
    · cases h
    · cases h
      refine ⟨hne, fun c hc => List.mem_takeWhile_imp hc, fun c hc => ?_,
        List.takeWhile_append_dropWhile⟩
      have hnot := List.head?_dropWhile_not Char.isDigit cs
      rw [Option.mem_def.mp hc] at hnot
      simpa using hnot
  · rintro ⟨hne, hread, hrest, rfl⟩
    have htake : (read ++ rest).takeWhile Char.isDigit = read := by
      rw [List.takeWhile_append_of_pos hread]
      cases rest with
      | nil => simp
      | cons c rest => simp [hrest c rfl]
    have hdrop : (read ++ rest).dropWhile Char.isDigit = rest := by
      rw [List.dropWhile_append_of_pos hread]
      cases rest with
      | nil => rfl
      | cons c rest => simp [hrest c rfl]
    rw [htake, hdrop, if_neg hne]

theorem isNumberChar_of_isDigit {c : Char} (h : c.isDigit = true) : isNumberChar c = true := by
  rw [isNumberChar, h, Bool.true_or]

theorem scans_digits : Scans scanDigits := by
  refine ⟨?_, ?_, ?_⟩
  · exact fun h => (scanDigits_eq_some.mp h).2.2.2
  · exact fun h c hc => isNumberChar_of_isDigit ((scanDigits_eq_some.mp h).2.1 c hc)
  · intro cs read rest rest' h hstops
    obtain ⟨hne, hread, hrest, -⟩ := scanDigits_eq_some.mp h
    exact scanDigits_eq_some.mpr ⟨hne, hread,
      hstops.head (fun c => isNumberChar_of_isDigit) hrest, rfl⟩

/-- An optional part that one of its characters opens. -/
theorem scans_opened {p : Char → Prop} [DecidablePred p] {scan : Scanner} (hs : Scans scan)
    (hp : ∀ c, p c → isNumberChar c = true) :
    Scans fun cs => match cs with
      | c :: cs =>
          if p c then (scan cs).map fun (read, rest) => (c :: read, rest) else some ([], c :: cs)
      | [] => some ([], []) := by
  have hnot : ∀ {cs : List Char}, (∀ c ∈ cs.head?, ¬p c) → (match cs with
      | c :: cs =>
          if p c then (scan cs).map fun (read, rest) => (c :: read, rest) else some ([], c :: cs)
      | [] => some ([], [])) = some ([], cs) := by
    intro cs hcs
    cases cs with
    | nil => rfl
    | cons c cs => exact if_neg (hcs c rfl)
  refine ⟨?_, ?_, ?_⟩
  · intro cs read rest h
    cases cs with
    | nil => cases h; rfl
    | cons c cs =>
        dsimp only at h
        split at h
        · obtain ⟨⟨r, rest'⟩, hscan, h⟩ := Option.map_eq_some_iff.mp h
          cases h
          rw [List.cons_append, hs.parts hscan]
        · cases h
          rfl
  · intro cs read rest h d hd
    cases cs with
    | nil => cases h; exact absurd hd List.not_mem_nil
    | cons c cs =>
        dsimp only at h
        split at h <;> rename_i hc
        · obtain ⟨⟨r, rest'⟩, hscan, h⟩ := Option.map_eq_some_iff.mp h
          cases h
          obtain rfl | hd := List.mem_cons.mp hd
          · exact hp d hc
          · exact hs.chars hscan d hd
        · cases h
          exact absurd hd List.not_mem_nil
  · intro cs read rest rest' h hstops
    cases cs with
    | nil =>
        cases h
        exact hnot (hstops.head hp nofun)
    | cons c cs =>
        dsimp only at h
        split at h <;> rename_i hc
        · obtain ⟨⟨r, rest''⟩, hscan, h⟩ := Option.map_eq_some_iff.mp h
          cases h
          dsimp only [List.cons_append]
          rw [if_pos hc, hs.again hscan hstops]
          rfl
        · cases h
          refine hnot (hstops.head hp fun d hd => ?_)
          rw [← Option.some.inj hd]
          exact hc

/-- Nothing at all. -/
theorem scans_nothing : Scans fun cs => some ([], cs) :=
  ⟨fun h => by cases h; rfl, fun h c hc => by cases h; exact absurd hc List.not_mem_nil,
    fun h _ => by cases h; rfl⟩

theorem scans_sign {signs : List Char} (hsigns : ∀ c ∈ signs, isNumberChar c = true) :
    Scans (scanSign signs) :=
  scans_opened (p := fun c => c ∈ signs) scans_nothing hsigns

theorem scans_fraction : Scans scanFraction :=
  scans_opened (p := fun c => c = '.') scans_digits (by rintro c rfl; decide)

theorem scans_exponent : Scans scanExponent := by
  have hsign : Scans (scanSign ['+', '-']) := scans_sign (by simp [isNumberChar])
  exact scans_opened (p := fun c => c = 'e' ∨ c = 'E') (hsign.followedBy scans_digits)
    (by rintro c (rfl | rfl) <;> decide)

theorem scans_integer : Scans scanInteger := by
  refine ⟨?_, ?_, ?_⟩
  · intro cs read rest h
    cases cs with
    | nil => cases h
    | cons c cs =>
        simp only [scanInteger] at h
        split at h <;> rename_i hc
        · cases h
          rw [hc, List.singleton_append]
        · exact scans_digits.parts h
  · intro cs read rest h d hd
    cases cs with
    | nil => cases h
    | cons c cs =>
        simp only [scanInteger] at h
        split at h
        · cases h
          rw [List.mem_singleton.mp hd]
          decide
        · exact scans_digits.chars h d hd
  · intro cs read rest rest' h hstops
    cases cs with
    | nil => cases h
    | cons c cs =>
        simp only [scanInteger] at h
        split at h <;> rename_i hc
        · cases h
          rfl
        · have hagain := scans_digits.again h hstops
          obtain ⟨hne, -, -, hparts⟩ := scanDigits_eq_some.mp h
          cases read with
          | nil => exact absurd rfl hne
          | cons d read =>
              obtain ⟨rfl, -⟩ := List.cons.inj hparts
              rw [List.cons_append] at hagain ⊢
              rw [scanInteger, if_neg hc, hagain]

theorem scans_number : Scans scanNumber :=
  (scans_sign (by simp [isNumberChar])).followedBy
    (scans_integer.followedBy (scans_fraction.followedBy scans_exponent))

theorem isDigit_of_scanDigits {c : Char} {cs : List Char} (h : scanDigits (c :: cs) ≠ none) :
    c.isDigit = true := by
  by_contra hc
  refine h (if_pos ?_)
  rw [List.takeWhile_cons, if_neg hc]

/-- A number begins with a minus sign or a digit. -/
theorem scanNumber_head {c : Char} {cs : List Char} (h : scanNumber (c :: cs) ≠ none) :
    c = '-' ∨ c.isDigit = true := by
  obtain ⟨⟨read, rest⟩, hread⟩ := Option.ne_none_iff_exists'.mp h
  obtain ⟨sign, cs', _, hsign, hinteger, -⟩ := followedBy_eq_some.mp hread
  obtain ⟨_, _, _, hinteger, -⟩ := followedBy_eq_some.mp hinteger
  simp only [scanSign] at hsign
  split at hsign <;> rename_i hc <;> cases hsign
  · exact .inl (List.mem_singleton.mp hc)
  · right
    simp only [scanInteger] at hinteger
    split at hinteger <;> rename_i hzero
    · rw [hzero]
      decide
    · exact isDigit_of_scanDigits (by rw [hinteger]; exact Option.some_ne_none _)

/-! ### Numbers -/

/-- Whether a text is a number literal, all of it. -/
def isNumberLiteral (text : String) : Bool := scanNumber text.toList = some (text.toList, [])

theorem head_toDigits {n : Nat} (h : 0 < n) : ∃ c cs, Nat.toDigits 10 n = c :: cs ∧ c ≠ '0' := by
  induction n using Nat.strongRecOn with
  | _ n ih =>
      by_cases hn : n < 10
      · rw [Nat.toDigits_of_lt_base hn]
        have hdigit : ∀ m : Fin 10, 0 < m.val → Nat.digitChar m.val ≠ '0' := by decide
        exact ⟨_, [], rfl, hdigit ⟨n, hn⟩ h⟩
      · obtain ⟨c, cs, hcs, hc⟩ := ih (n / 10) (by omega) (by omega)
        rw [Nat.toDigits_of_base_le (by omega) (by omega), hcs]
        exact ⟨c, _, rfl, hc⟩

theorem scanDigits_of_digits {cs : List Char} (hne : cs ≠ [])
    (hcs : ∀ c ∈ cs, c.isDigit = true) : scanDigits cs = some (cs, []) :=
  scanDigits_eq_some.mpr ⟨hne, hcs, nofun, List.append_nil cs⟩

theorem scanInteger_toDigits (n : Nat) :
    scanInteger (Nat.toDigits 10 n) = some (Nat.toDigits 10 n, []) := by
  obtain rfl | hn := Nat.eq_zero_or_pos n
  · rfl
  · obtain ⟨c, cs, hcs, hc⟩ := head_toDigits hn
    have hdigits : ∀ d ∈ c :: cs, d.isDigit = true := fun d hd =>
      Nat.isDigit_of_mem_toDigits (by omega) (by omega) (hcs ▸ hd)
    rw [hcs, scanInteger, if_neg hc]
    exact scanDigits_of_digits (List.cons_ne_nil c cs) hdigits

theorem scanNumber_of_integer {sign cs rest : List Char}
    (hsign : scanSign ['-'] cs = some (sign, rest)) (h : scanInteger rest = some (rest, [])) :
    scanNumber cs = some (sign ++ rest, []) := by
  refine followedBy_eq_some.mpr ⟨sign, rest, rest, hsign, ?_, rfl⟩
  refine followedBy_eq_some.mpr ⟨rest, [], [], h, ?_, by simp⟩
  rfl

/-- The decimal text of an integer is a number literal. -/
theorem isNumberLiteral_toString (i : Int) : isNumberLiteral (toString i) = true := by
  rw [isNumberLiteral, decide_eq_true_eq]
  cases i with
  | ofNat n =>
      have htext : (toString (Int.ofNat n)).toList = Nat.toDigits 10 n := Nat.toList_repr
      have hhead : scanSign ['-'] (Nat.toDigits 10 n) = some ([], Nat.toDigits 10 n) := by
        cases hcs : Nat.toDigits 10 n with
        | nil => exact absurd hcs Nat.toDigits_ne_nil
        | cons c cs =>
            have hc : c.isDigit = true :=
              Nat.isDigit_of_mem_toDigits (b := 10) (by omega) (by omega) (hcs ▸ List.mem_cons_self)
            have hne : c ≠ '-' := by
              rintro rfl
              exact absurd hc (by decide)
            simp [scanSign, hne]
      rw [htext]
      exact scanNumber_of_integer hhead (scanInteger_toDigits n)
  | negSucc n =>
      have htext : (toString (Int.negSucc n)).toList = '-' :: Nat.toDigits 10 (n + 1) := by
        have h : toString (Int.negSucc n) = "-" ++ (n + 1).repr := rfl
        rw [h, String.toList_append, Nat.toList_repr]
        rfl
      rw [htext]
      have hsign : scanSign ['-'] ('-' :: Nat.toDigits 10 (n + 1)) = some (['-'], _) := rfl
      exact scanNumber_of_integer hsign (scanInteger_toDigits (n + 1))

/-- `JSON.stringify` of a number: `null` for one that is not finite. -/
def Number.stringify (n : Number) : String :=
  if isNumberLiteral n.toText then n.toText else "null"

/-- A number beyond the range of the finite ones. -/
def Number.isInfinite (n : Number) : Bool := n.toText = "Infinity" || n.toText = "-Infinity"

/-- `Number(literal)` for a number literal: the nearest of the numbers there are. Integers up to
2⁵³ − 1 are among them, and `String(n)` of a finite number is a literal that gives it back. -/
structure Numerals where
  value : String → Number
  value_toString : ∀ {i : Int}, i.natAbs ≤ maxSafeInteger → value (toString i) = .int i
  value_text : ∀ {literal}, isNumberLiteral literal = true → (value literal).isInfinite = false →
    isNumberLiteral (value literal).toText = true ∧ value (value literal).toText = value literal

/-- A finite number: its text is a literal that gives it back. -/
def Number.IsFinite (N : Numerals) (n : Number) : Prop :=
  isNumberLiteral n.toText = true ∧ N.value n.toText = n

theorem Number.isFinite_int (N : Numerals) {i : Int} (h : i.natAbs ≤ maxSafeInteger) :
    (Number.int i).IsFinite N :=
  ⟨isNumberLiteral_toString i, N.value_toString h⟩

/-- The integer of a decimal text with an optional minus sign. -/
def ofSignedDigits (text : String) : Int :=
  match text.toList with
  | '-' :: digits => -(ofDigits (String.ofList digits) : Int)
  | _ => ofDigits text

theorem ofSignedDigits_toString (i : Int) : ofSignedDigits (toString i) = i := by
  cases i with
  | ofNat n =>
      have htext : toString (Int.ofNat n) = toString n := rfl
      have hdigits : (toString n).toList = Nat.toDigits 10 n := Nat.toList_repr
      rw [htext, ofSignedDigits, ofDigits_toString, hdigits]
      split <;> rename_i hcs
      · have hdash : '-'.isDigit = true :=
          Nat.isDigit_of_mem_toDigits (b := 10) (n := n) (by omega) (by omega)
            (hcs ▸ List.mem_cons_self)
        exact absurd hdash (by decide)
      · rfl
  | negSucc n =>
      have htext : (toString (Int.negSucc n)).toList = '-' :: (toString (n + 1)).toList := by
        have h : toString (Int.negSucc n) = "-" ++ toString (n + 1) := rfl
        rw [h, String.toList_append]
        rfl
      rw [ofSignedDigits, htext]
      simp only [String.ofList_toList, ofDigits_toString]
      rfl

/-- The text of a safe integer stands for it, every other literal for itself. -/
def plainValue (literal : String) : Number :=
  if toString (ofSignedDigits literal) = literal ∧ (ofSignedDigits literal).natAbs ≤ maxSafeInteger
  then .int (ofSignedDigits literal)
  else .nonInteger (literal.startsWith "-") literal

theorem plainValue_toText (literal : String) : (plainValue literal).toText = literal := by
  unfold plainValue
  split <;> rename_i h
  · exact h.1
  · rfl

def plainNumerals : Numerals where
  value := plainValue
  value_toString := by
    intro i hi
    rw [plainValue, ofSignedDigits_toString, if_pos ⟨rfl, hi⟩]
  value_text := by
    intro literal hliteral _
    rw [plainValue_toText]
    exact ⟨hliteral, rfl⟩

end VcalmStatus.Js
