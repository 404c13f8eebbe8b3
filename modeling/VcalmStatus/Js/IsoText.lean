import VcalmStatus.Js.Calendar
import VcalmStatus.Js.Text
import Mathlib.Data.List.Lex
import Mathlib.Data.String.Basic

/-!
The text of a date with milliseconds, the date of a text, and the order of texts: it is the order
of the dates as long as the years have four digits.
-/

namespace VcalmStatus.Js

/-! ### Numbers with a fixed number of digits -/

/-- The last `width` decimal digits. -/
def digitsOf : Nat → Nat → List Char
  | 0, _ => []
  | width + 1, n => digitsOf width (n / 10) ++ [Nat.digitChar (n % 10)]

@[simp] theorem length_digitsOf (width n : Nat) : (digitsOf width n).length = width := by
  induction width generalizing n with
  | zero => rfl
  | succ width ih => simp [digitsOf, ih]

theorem digitsOf_zero (width : Nat) : digitsOf width 0 = List.replicate width '0' := by
  induction width with
  | zero => rfl
  | succ width ih =>
      rw [digitsOf, Nat.zero_div, ih, List.replicate_succ']
      rfl

theorem replicate_append_toDigits {width n : Nat} (hwidth : 0 < width) (hn : n < 10 ^ width) :
    List.replicate (width - (Nat.toDigits 10 n).length) '0' ++ Nat.toDigits 10 n =
      digitsOf width n := by
  induction width generalizing n with
  | zero => exact absurd hwidth (Nat.lt_irrefl 0)
  | succ width ih =>
      by_cases h : n < 10
      · rw [Nat.toDigits_of_lt_base h, digitsOf, Nat.div_eq_of_lt h, Nat.mod_eq_of_lt h,
          digitsOf_zero]
        rfl
      · have hpos : 0 < width := by
          rcases Nat.eq_zero_or_pos width with rfl | hpos
          · omega
          · exact hpos
        rw [Nat.toDigits_of_base_le (by omega) (by omega), digitsOf,
          ← ih hpos (by rw [Nat.pow_succ] at hn; omega), List.length_append, List.append_assoc]
        simp

/-- A number padded with zeros is written with as many digits as there is room for. -/
theorem padded_toList {width n : Nat} (hwidth : 0 < width) (hn : n < 10 ^ width) :
    (padded width n).toList = digitsOf width n := by
  have hdigits : (toString n).toList = Nat.toDigits 10 n := Nat.toList_repr
  have hlength : (toString n).length = (Nat.toDigits 10 n).length := by
    rw [← String.length_toList, hdigits]
  rw [padded, String.toList_append, String.toList_ofList, hlength, hdigits]
  exact replicate_append_toDigits hwidth hn

theorem ofDigits_digitsOf {width n : Nat} (h : n < 10 ^ width) :
    ofDigits (String.ofList (digitsOf width n)) = n := by
  have hdigit : ∀ d : Fin 10, (Nat.digitChar d).toNat - 48 = d := by decide
  induction width generalizing n with
  | zero =>
      have hzero : n = 0 := by simpa using h
      rw [hzero]
      rfl
  | succ width ih =>
      have hrec := ih (n := n / 10) (by rw [Nat.pow_succ] at h; omega)
      have hlast := hdigit ⟨n % 10, Nat.mod_lt _ (by decide)⟩
      simp only [ofDigits, String.toList_ofList] at hrec hlast ⊢
      rw [digitsOf, List.foldl_append, hrec, List.foldl_cons, List.foldl_nil, hlast]
      omega

theorem append_lt_append {a b : List Char} (hlength : a.length = b.length) (h : a < b)
    (x y : List Char) : a ++ x < b ++ y := by
  induction a generalizing b with
  | nil =>
      rw [List.length_eq_zero_iff.mp hlength.symm] at h
      exact absurd h (List.not_lt_nil [])
  | cons c a ih =>
      cases b with
      | nil => cases hlength
      | cons d b =>
          rw [List.cons_append, List.cons_append]
          obtain hlt | ⟨rfl, hlt⟩ := List.cons_lt_cons_iff.mp h
          · exact List.cons_lt_cons_iff.mpr (.inl hlt)
          · exact List.cons_lt_cons_iff.mpr (.inr ⟨rfl, ih (Nat.succ.inj hlength) hlt⟩)

theorem digitsOf_lt {width m n : Nat} (h : m < n) (hn : n < 10 ^ width) :
    digitsOf width m < digitsOf width n := by
  have hdigit : ∀ d e : Fin 10, d < e → Nat.digitChar d < Nat.digitChar e := by decide
  induction width generalizing m n with
  | zero =>
      rw [Nat.pow_zero] at hn
      omega
  | succ width ih =>
      rw [digitsOf, digitsOf]
      by_cases hlt : m / 10 < n / 10
      · exact append_lt_append (by simp) (ih hlt (by rw [Nat.pow_succ] at hn; omega)) _ _
      · have heq : m / 10 = n / 10 := by omega
        rw [heq]
        refine List.append_left_lt (List.cons_lt_cons_iff.mpr (.inl ?_))
        exact hdigit ⟨m % 10, by omega⟩ ⟨n % 10, by omega⟩ (Fin.mk_lt_mk.mpr (by omega))

/-- Texts are compared field by field. -/
theorem field_lt {width m n : Nat} {x y : List Char} (hn : n < 10 ^ width)
    (h : m < n ∨ m = n ∧ x < y) : digitsOf width m ++ x < digitsOf width n ++ y := by
  obtain hlt | ⟨rfl, hlt⟩ := h
  · exact append_lt_append (by simp) (digitsOf_lt hlt hn) x y
  · exact List.append_left_lt hlt

theorem cons_lt {c : Char} {x y : List Char} (h : x < y) : c :: x < c :: y :=
  List.cons_lt_cons_iff.mpr (.inr ⟨rfl, h⟩)

/-! ### The text of a date -/

/-- The last moment a `Date` can hold. -/
def maxDate : Nat := 8640000000000000

/-- What `toISOString` writes of a date. -/
def isoText (date : Nat) : String :=
  let (year, month, day) := civilFromDays (date / 86400000)
  let time := date % 86400000
  (if year ≤ 9999 then padded 4 year else "+" ++ padded 6 year) ++ "-" ++ padded 2 month ++ "-" ++
    padded 2 day ++ "T" ++ padded 2 (time / 3600000) ++ ":" ++ padded 2 (time / 60000 % 60) ++
    ":" ++ padded 2 (time / 1000 % 60) ++ "." ++ padded 3 (time % 1000) ++ "Z"

/-- `date.toISOString()`, `none` for the `RangeError` of an invalid date. -/
def toISOString (date : Nat) : Option String :=
  if date ≤ maxDate then some (isoText date) else none

example : toISOString 1786150923456 = some "2026-08-08T01:02:03.456Z" := by decide +kernel

/-- The date that the digits of a text make, at the places where `toISOString` puts them. -/
def dateOfFields (text : List Char) : Nat :=
  let (year, rest) := if text.head? = some '+' then ((text.drop 1).take 6, text.drop 7)
    else (text.take 4, text.drop 4)
  let field (start width : Nat) : Nat :=
    ofDigits (String.ofList ((rest.drop start).take width))
  let days := daysFromCivil (ofDigits (String.ofList year)) (field 1 2) (field 4 2)
  (((days * 24 + field 7 2) * 60 + field 10 2) * 60 + field 13 2) * 1000 + field 16 3

/-- `new Date(text)` of a text that `toISOString` writes; `none` for every other text. -/
def parseISO (text : String) : Option Nat :=
  if toISOString (dateOfFields text.toList) = some text then some (dateOfFields text.toList)
  else none

example : parseISO "2026-08-08T01:02:03.456Z" = some 1786150923456 := by decide +kernel

/-- What follows the year. -/
def afterYear (date : Nat) : List Char :=
  '-' :: (digitsOf 2 (civilFromDays (date / 86400000)).2.1 ++
    '-' :: (digitsOf 2 (civilFromDays (date / 86400000)).2.2 ++
    'T' :: (digitsOf 2 (date % 86400000 / 3600000) ++
    ':' :: (digitsOf 2 (date % 86400000 / 60000 % 60) ++
    ':' :: (digitsOf 2 (date % 86400000 / 1000 % 60) ++
    '.' :: (digitsOf 3 (date % 86400000 % 1000) ++ ['Z']))))))

/-- The year of a date. -/
def yearOf (date : Nat) : Nat := (civilFromDays (date / 86400000)).1

theorem yearOf_lt {date : Nat} (h : date ≤ maxDate) : yearOf date < 10 ^ 6 := by
  have hbound := (civilFromDays_bounds (date / 86400000)).1
  unfold maxDate at h
  unfold yearOf
  omega

/-- The text is the digits of the fields, each with its separator. -/
theorem isoText_toList {date : Nat} (h : date ≤ maxDate) :
    (isoText date).toList =
      (if yearOf date ≤ 9999 then digitsOf 4 (yearOf date) else '+' :: digitsOf 6 (yearOf date)) ++
        afterYear date := by
  have hyear := yearOf_lt h
  obtain ⟨-, hmonth, hday⟩ := civilFromDays_bounds (date / 86400000)
  have hseparator : "-".toList = ['-'] ∧ "T".toList = ['T'] ∧ ":".toList = [':'] ∧
      ".".toList = ['.'] ∧ "Z".toList = ['Z'] ∧ "+".toList = ['+'] := by decide
  obtain ⟨hdash, htee, hcolon, hdot, hzed, hplus⟩ := hseparator
  have hhour : date % 86400000 / 3600000 < 10 ^ 2 := by omega
  have hminute : date % 86400000 / 60000 % 60 < 10 ^ 2 := by omega
  have hsecond : date % 86400000 / 1000 % 60 < 10 ^ 2 := by omega
  have hmillisecond : date % 86400000 % 1000 < 10 ^ 3 := by omega
  unfold isoText afterYear
  dsimp only
  rw [String.toList_append, String.toList_append, String.toList_append, String.toList_append,
    String.toList_append, String.toList_append, String.toList_append, String.toList_append,
    String.toList_append, String.toList_append, String.toList_append, String.toList_append,
    String.toList_append, hdash, htee, hcolon, hdot, hzed,
    padded_toList (by decide) (Nat.lt_of_le_of_lt hmonth (by decide)),
    padded_toList (by decide) (Nat.lt_of_le_of_lt hday (by decide)),
    padded_toList (by decide) hhour, padded_toList (by decide) hminute,
    padded_toList (by decide) hsecond, padded_toList (by decide) hmillisecond]
  have hyearText : (if (civilFromDays (date / 86400000)).1 ≤ 9999
        then padded 4 (civilFromDays (date / 86400000)).1
        else "+" ++ padded 6 (civilFromDays (date / 86400000)).1).toList =
      if yearOf date ≤ 9999 then digitsOf 4 (yearOf date)
        else '+' :: digitsOf 6 (yearOf date) := by
    unfold yearOf at hyear ⊢
    split <;> rename_i hle
    · exact padded_toList (by decide) (by omega)
    · rw [String.toList_append, hplus, padded_toList (by decide) hyear]
      rfl
  rw [hyearText]
  simp only [List.append_assoc, List.cons_append, List.nil_append]

theorem take_field (width n : Nat) (x : List Char) :
    (digitsOf width n ++ x).take width = digitsOf width n := by
  rw [List.take_append_of_le_length (by simp), List.take_of_length_le (by simp)]

theorem drop_two_field (k n : Nat) (x : List Char) :
    (digitsOf 2 n ++ x).drop (k + 2) = x.drop k := by
  rw [Nat.add_comm k, List.drop_append, List.drop_of_length_le (by simp), length_digitsOf]
  simp

theorem drop_field (width n : Nat) (x : List Char) : (digitsOf width n ++ x).drop width = x := by
  rw [List.drop_append, List.drop_of_length_le (by simp), length_digitsOf]
  simp

/-- The fields after the year are the date's. -/
theorem afterYear_fields (date : Nat) :
    ((afterYear date).drop 1).take 2 = digitsOf 2 (civilFromDays (date / 86400000)).2.1 ∧
      ((afterYear date).drop 4).take 2 = digitsOf 2 (civilFromDays (date / 86400000)).2.2 ∧
      ((afterYear date).drop 7).take 2 = digitsOf 2 (date % 86400000 / 3600000) ∧
      ((afterYear date).drop 10).take 2 = digitsOf 2 (date % 86400000 / 60000 % 60) ∧
      ((afterYear date).drop 13).take 2 = digitsOf 2 (date % 86400000 / 1000 % 60) ∧
      ((afterYear date).drop 16).take 3 = digitsOf 3 (date % 86400000 % 1000) := by
  simp only [afterYear, List.drop_succ_cons, drop_two_field, List.drop_zero, take_field, and_self]

theorem head_digitsOf_ne_plus (width n : Nat) (x : List Char) :
    (digitsOf (width + 1) n ++ x).head? ≠ some '+' := by
  have hdigit : ∀ d : Fin 10, Nat.digitChar d ≠ '+' := by decide
  induction width generalizing n x with
  | zero =>
      intro h
      exact hdigit ⟨n % 10, Nat.mod_lt _ (by decide)⟩ (Option.some.inj h)
  | succ width ih =>
      rw [digitsOf, List.append_assoc]
      exact ih (n / 10) _

/-- The fields of what `toISOString` writes are the date's. -/
theorem dateOfFields_isoText {date : Nat} (h : date ≤ maxDate) :
    dateOfFields (isoText date).toList = date := by
  have hyear := yearOf_lt h
  obtain ⟨-, hmonth, hday⟩ := civilFromDays_bounds (date / 86400000)
  obtain ⟨hmonthText, hdayText, hhourText, hminuteText, hsecondText, hmillisecondText⟩ :=
    afterYear_fields date
  have hdays := daysFromCivil_civilFromDays (date / 86400000)
  have hread : ∀ year : List Char, ofDigits (String.ofList year) = yearOf date →
      (((daysFromCivil (ofDigits (String.ofList year))
          (ofDigits (String.ofList (((afterYear date).drop 1).take 2)))
          (ofDigits (String.ofList (((afterYear date).drop 4).take 2))) * 24 +
        ofDigits (String.ofList (((afterYear date).drop 7).take 2))) * 60 +
        ofDigits (String.ofList (((afterYear date).drop 10).take 2))) * 60 +
        ofDigits (String.ofList (((afterYear date).drop 13).take 2))) * 1000 +
        ofDigits (String.ofList (((afterYear date).drop 16).take 3)) = date := by
    intro year hyearText
    rw [hyearText, hmonthText, hdayText, hhourText, hminuteText, hsecondText, hmillisecondText,
      ofDigits_digitsOf (Nat.lt_of_le_of_lt hmonth (by decide)),
      ofDigits_digitsOf (Nat.lt_of_le_of_lt hday (by decide)), ofDigits_digitsOf (by omega),
      ofDigits_digitsOf (by omega), ofDigits_digitsOf (by omega), ofDigits_digitsOf (by omega),
      yearOf, hdays]
    omega
  rw [isoText_toList h]
  split <;> rename_i hle
  · rw [dateOfFields, if_neg (head_digitsOf_ne_plus 3 _ _), take_field, drop_field]
    exact hread _ (ofDigits_digitsOf (by omega))
  · rw [dateOfFields, List.cons_append, List.head?_cons, if_pos rfl, List.drop_succ_cons,
      List.drop_zero, take_field, List.drop_succ_cons, drop_field]
    exact hread _ (ofDigits_digitsOf hyear)

/-- `new Date` undoes `toISOString`. -/
theorem parseISO_toISOString {date : Nat} {text : String} (h : toISOString date = some text) :
    parseISO text = some date := by
  have hdate : date ≤ maxDate := by
    by_contra hlate
    rw [toISOString, if_neg hlate] at h
    cases h
  have htext : isoText date = text := by
    rw [toISOString, if_pos hdate] at h
    exact Option.some.inj h
  rw [parseISO, ← htext, dateOfFields_isoText hdate, toISOString, if_pos hdate, if_pos rfl]

/-! ### The order of the texts -/

/-- The first moment of the year 10000. -/
def firstOfFiveDigits : Nat := 253402300800000

theorem yearOf_le_iff {date : Nat} : yearOf date ≤ 9999 ↔ date < firstOfFiveDigits := by
  have hlast : civilFromDays 2932896 = (9999, 12, 31) := by decide
  have hfirst : civilFromDays 2932897 = (10000, 1, 1) := by decide
  unfold firstOfFiveDigits yearOf
  constructor
  · intro h
    by_contra hlate
    obtain heq | hlt : date / 86400000 = 2932897 ∨ 2932897 < date / 86400000 := by omega
    · rw [heq, hfirst] at h
      omega
    · have hmono := civilFromDays_lt hlt
      rw [hfirst] at hmono
      omega
  · intro h
    obtain heq | hlt : date / 86400000 = 2932896 ∨ date / 86400000 < 2932896 := by omega
    · rw [heq, hlast]
    · have hmono := civilFromDays_lt hlt
      rw [hlast] at hmono
      omega

/-- Of two dates the later one has the later year, or a later text behind the same year. -/
theorem afterYear_lt {a b : Nat} (h : a < b) :
    yearOf a < yearOf b ∨ yearOf a = yearOf b ∧ afterYear a < afterYear b := by
  obtain ⟨-, hmonth, hday⟩ := civilFromDays_bounds (b / 86400000)
  have hfields : ∀ {x y : List Char}, (a / 86400000 = b / 86400000 → x < y) →
      yearOf a < yearOf b ∨ yearOf a = yearOf b ∧
        '-' :: (digitsOf 2 (civilFromDays (a / 86400000)).2.1 ++
          '-' :: (digitsOf 2 (civilFromDays (a / 86400000)).2.2 ++ x)) <
        '-' :: (digitsOf 2 (civilFromDays (b / 86400000)).2.1 ++
          '-' :: (digitsOf 2 (civilFromDays (b / 86400000)).2.2 ++ y)) := by
    intro x y hxy
    have hmonth' := Nat.lt_of_le_of_lt hmonth (show 12 < 10 ^ 2 by decide)
    have hday' := Nat.lt_of_le_of_lt hday (show 31 < 10 ^ 2 by decide)
    obtain heq | hlt : a / 86400000 = b / 86400000 ∨ a / 86400000 < b / 86400000 := by omega
    · refine .inr ⟨by rw [yearOf, yearOf, heq], ?_⟩
      rw [heq]
      exact cons_lt (field_lt hmonth' (.inr ⟨rfl, cons_lt (field_lt hday' (.inr ⟨rfl, hxy heq⟩))⟩))
    · obtain hy | ⟨hy, hm | ⟨hm, hd⟩⟩ := civilFromDays_lt hlt
      · exact .inl hy
      · exact .inr ⟨hy, cons_lt (field_lt hmonth' (.inl hm))⟩
      · exact .inr ⟨hy, cons_lt (field_lt hmonth' (.inr ⟨hm, cons_lt (field_lt hday' (.inl hd))⟩))⟩
  refine hfields fun heq => cons_lt (field_lt (by omega) ?_)
  by_cases hhour : a % 86400000 / 3600000 < b % 86400000 / 3600000
  · exact .inl hhour
  refine .inr ⟨by omega, cons_lt (field_lt (by omega) ?_)⟩
  by_cases hminute : a % 86400000 / 60000 % 60 < b % 86400000 / 60000 % 60
  · exact .inl hminute
  refine .inr ⟨by omega, cons_lt (field_lt (by omega) ?_)⟩
  by_cases hsecond : a % 86400000 / 1000 % 60 < b % 86400000 / 1000 % 60
  · exact .inl hsecond
  refine .inr ⟨by omega, cons_lt (field_lt (by omega) (.inl ?_))⟩
  omega

/-- Texts of dates are in the order of the dates, except that a year of five digits sorts before
every year of four. -/
theorem isoText_lt_iff {a b : Nat} (ha : a ≤ maxDate) (hb : b ≤ maxDate) (h : a < b) :
    isoText a < isoText b ↔ ¬(a < firstOfFiveDigits ∧ firstOfFiveDigits ≤ b) := by
  have hlt := afterYear_lt h
  have hyear := yearOf_lt hb
  have hplus : ∀ (width n : Nat) (x y : List Char), '+' :: x < digitsOf (width + 1) n ++ y := by
    intro width n x y
    induction width generalizing n y with
    | zero =>
        have hdigit : ∀ d : Fin 10, '+' < Nat.digitChar d := by decide
        exact List.cons_lt_cons_iff.mpr (.inl (hdigit ⟨n % 10, Nat.mod_lt _ (by decide)⟩))
    | succ width ih =>
        rw [digitsOf, List.append_assoc]
        exact ih (n / 10) _
  rw [← Nat.not_lt, ← yearOf_le_iff, ← yearOf_le_iff, String.lt_iff_toList_lt, isoText_toList ha,
    isoText_toList hb]
  by_cases hya : yearOf a ≤ 9999 <;> by_cases hyb : yearOf b ≤ 9999
  · rw [if_pos hya, if_pos hyb]
    exact iff_of_true (field_lt (by omega) hlt) (by simp [hyb])
  · rw [if_pos hya, if_neg hyb]
    refine iff_of_false (fun hback => ?_) (by simp [hya, hyb])
    exact List.lt_asymm hback (hplus 3 (yearOf a) _ _)
  · exact absurd hlt (by omega)
  · rw [if_neg hya, if_neg hyb]
    exact iff_of_true (cons_lt (field_lt hyear hlt)) (by simp [hya])

/-- Before the year 10000 the order of the texts is the order of the dates. -/
theorem isoText_le_iff {a b : Nat} (ha : a < firstOfFiveDigits) (hb : b < firstOfFiveDigits) :
    isoText a ≤ isoText b ↔ a ≤ b := by
  have hvalid : ∀ {d}, d < firstOfFiveDigits → d ≤ maxDate := by
    intro d hd
    unfold firstOfFiveDigits at hd
    unfold maxDate
    omega
  have hmono : ∀ {a b}, a < firstOfFiveDigits → b < firstOfFiveDigits → a < b →
      isoText a < isoText b := fun ha hb h =>
    (isoText_lt_iff (hvalid ha) (hvalid hb) h).mpr fun hcross => absurd hb (by omega)
  constructor
  · intro hle
    by_contra hlt
    exact absurd (hmono hb ha (by omega)) (not_lt_of_ge hle)
  · intro hle
    obtain rfl | hlt := Nat.eq_or_lt_of_le hle
    · exact le_refl _
    · exact le_of_lt (hmono ha hb hlt)

end VcalmStatus.Js
