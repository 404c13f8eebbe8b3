import VcalmStatus.Js.Date
import Mathlib.Order.Monotone.Basic
import Mathlib.Tactic.Set

/-!
The calendar days of `civilFromDays`: the day is the only one with its date, and later days have
later dates. Years are counted from the first of March here, so that a leap day ends its year.
-/

namespace VcalmStatus.Js

/-- The days of the years before the `year`th first of March. -/
def daysBeforeMarch (year : Nat) : Nat := 365 * year + year / 4 - year / 100 + year / 400

/-- Year, month and day of a day of the year that began on the first of March. -/
def civilOfMarchDay (year dayOfYear : Nat) : Nat × Nat × Nat :=
  let monthFromMarch := (5 * dayOfYear + 2) / 153
  (year + (if monthFromMarch < 10 then 0 else 1),
    if monthFromMarch < 10 then monthFromMarch + 3 else monthFromMarch - 9,
    dayOfYear - (153 * monthFromMarch + 2) / 5 + 1)

/-- The day counted from 1970-01-01 that has this date. -/
def daysFromCivil (year month day : Nat) : Nat :=
  if month ≤ 2 then daysBeforeMarch (year - 1) + (153 * (month + 9) + 2) / 5 + (day - 1) - 719468
  else daysBeforeMarch year + (153 * (month - 3) + 2) / 5 + (day - 1) - 719468

/-- A year has 365 or 366 days. -/
theorem daysBeforeMarch_succ (year : Nat) :
    daysBeforeMarch year + 365 ≤ daysBeforeMarch (year + 1) ∧
      daysBeforeMarch (year + 1) ≤ daysBeforeMarch year + 366 := by
  have hfourths : (year + 1) / 4 = year / 4 ∨ (year + 1) / 4 = year / 4 + 1 := by omega
  have hhundredths : (year + 1) / 100 = year / 100 ∨
      (year + 1) / 100 = year / 100 + 1 ∧ (year + 1) / 4 = year / 4 + 1 := by omega
  have hera : (year + 1) / 400 = year / 400 ∨
      (year + 1) / 400 = year / 400 + 1 ∧ (year + 1) / 100 = year / 100 + 1 := by omega
  unfold daysBeforeMarch
  omega

theorem daysBeforeMarch_mono : Monotone daysBeforeMarch :=
  monotone_nat_of_le_succ fun year => by
    have h := (daysBeforeMarch_succ year).1
    omega

/-- A day of an era by centuries, spans of four years and years; the last day of an era is the
leap day of its fourth century. -/
theorem dayOfEra_cases {day : Nat} (h : day < 146097) : day = 146096 ∨ ∃ century span year rest,
    century ≤ 3 ∧ span ≤ 24 ∧ year ≤ 3 ∧ (rest < 365 ∨ rest = 365 ∧ year = 3 ∧ span < 24) ∧
      day = 36524 * century + 1461 * span + 365 * year + rest := by
  by_cases hlast : day = 146096
  · exact .inl hlast
  · right
    refine ⟨day / 36524, day % 36524 / 1461, min 3 (day % 36524 % 1461 / 365),
      day % 36524 % 1461 - 365 * min 3 (day % 36524 % 1461 / 365), ?_, ?_, ?_, ?_, ?_⟩
    all_goals omega

/-- The year of a day of an era begins on the day or before it, and less than a year before. -/
theorem yearOfEra_spec {day year : Nat} (h : day < 146097)
    (hyear : year = (day - day / 1460 + day / 36524 - day / 146096) / 365) :
    year < 400 ∧ daysBeforeMarch year ≤ day ∧ day < daysBeforeMarch (year + 1) := by
  obtain rfl | ⟨century, span, y, rest, hcentury, hspan, hy, hrest, rfl⟩ := dayOfEra_cases h
  · subst hyear
    decide
  · have hera : (36524 * century + 1461 * span + 365 * y + rest) / 146096 = 0 := by omega
    have hcent : (36524 * century + 1461 * span + 365 * y + rest) / 36524 = century := by omega
    have hleap : (36524 * century + 1461 * span + 365 * y + rest) / 1460 = 25 * century + span ∨
        (36524 * century + 1461 * span + 365 * y + rest) / 1460 = 25 * century + span + 1 ∧
          y = 3 ∧ 365 ≤ rest + 24 * century + span := by omega
    rw [hera, hcent] at hyear
    have hvalue : year = 100 * century + 4 * span + y := by omega
    have hbefore : daysBeforeMarch year = 36524 * century + 1461 * span + 365 * y := by
      have hfourths : year / 4 = 25 * century + span := by omega
      have hhundredths : year / 100 = century := by omega
      unfold daysBeforeMarch
      clear hyear hleap
      omega
    refine ⟨by omega, by omega, ?_⟩
    have hnext := (daysBeforeMarch_succ year).1
    obtain hrest | ⟨rfl, rfl, hspan'⟩ := hrest
    · omega
    · have hquarter : (year + 1) / 4 = 25 * century + span + 1 := by omega
      have hhundredth : (year + 1) / 100 = century := by omega
      clear hyear hleap
      unfold daysBeforeMarch
      omega

theorem daysBeforeMarch_add_era (year era : Nat) :
    daysBeforeMarch (year + 400 * era) = daysBeforeMarch year + 146097 * era := by
  have hfourths : (year + 400 * era) / 4 = year / 4 + 100 * era := by omega
  have hhundredths : (year + 400 * era) / 100 = year / 100 + 4 * era := by omega
  have hera : (year + 400 * era) / 400 = year / 400 + era := by omega
  unfold daysBeforeMarch
  omega

/-- Every day is a day of a year that begins in March. -/
theorem civilFromDays_eq (days : Nat) : ∃ year dayOfYear,
    days + 719468 = daysBeforeMarch year + dayOfYear ∧ dayOfYear ≤ 365 ∧
      days + 719468 < daysBeforeMarch (year + 1) ∧
        civilFromDays days = civilOfMarchDay year dayOfYear := by
  have hday : (days + 719468) % 146097 < 146097 := Nat.mod_lt _ (by decide)
  obtain ⟨hlt, hbegin, hend⟩ := yearOfEra_spec hday rfl
  have hera := Nat.mod_add_div (days + 719468) 146097
  dsimp only [civilFromDays]
  generalize (days + 719468) % 146097 = day at *
  generalize (days + 719468) / 146097 = era at *
  generalize (day - day / 1460 + day / 36524 - day / 146096) / 365 = year at *
  have hbefore : daysBeforeMarch year = 365 * year + year / 4 - year / 100 := by
    rw [daysBeforeMarch, Nat.div_eq_of_lt hlt, Nat.add_zero]
  have hnext := (daysBeforeMarch_succ year).2
  rw [← hbefore]
  refine ⟨year + 400 * era, day - daysBeforeMarch year, ?_, by omega, ?_, ?_⟩
  · rw [daysBeforeMarch_add_era]
    omega
  · rw [Nat.add_right_comm, daysBeforeMarch_add_era]
    omega
  · have hyear : day - daysBeforeMarch year ≤ 365 := by omega
    generalize day - daysBeforeMarch year = dayOfYear at *
    have hmonth : (5 * dayOfYear + 2) / 153 ≤ 11 := by omega
    dsimp only [civilOfMarchDay]
    refine Prod.ext ?_ rfl
    by_cases hmarch : (5 * dayOfYear + 2) / 153 < 10
    · simp only [if_pos hmarch]
      rw [if_neg (by omega)]
    · simp only [if_neg hmarch]
      rw [if_pos (by omega)]

theorem daysFromCivil_civilOfMarchDay {year dayOfYear : Nat} (h : dayOfYear ≤ 365)
    (hera : 719468 ≤ daysBeforeMarch year + dayOfYear) :
    daysFromCivil (civilOfMarchDay year dayOfYear).1 (civilOfMarchDay year dayOfYear).2.1
      (civilOfMarchDay year dayOfYear).2.2 = daysBeforeMarch year + dayOfYear - 719468 := by
  dsimp only [civilOfMarchDay]
  by_cases hmarch : (5 * dayOfYear + 2) / 153 < 10
  · simp only [if_pos hmarch]
    rw [daysFromCivil, if_neg (by omega), Nat.add_zero, Nat.add_sub_cancel]
    omega
  · simp only [if_neg hmarch]
    rw [daysFromCivil, if_pos (by omega), Nat.add_sub_cancel, Nat.sub_add_cancel (by omega)]
    omega

/-- The day is the only one with its date. -/
theorem daysFromCivil_civilFromDays (days : Nat) :
    daysFromCivil (civilFromDays days).1 (civilFromDays days).2.1 (civilFromDays days).2.2 =
      days := by
  obtain ⟨year, dayOfYear, hdays, hyear, -, hcivil⟩ := civilFromDays_eq days
  rw [hcivil, daysFromCivil_civilOfMarchDay hyear (by omega)]
  omega

/-- The fields of a date are in range. -/
theorem civilFromDays_bounds (days : Nat) :
    365 * (civilFromDays days).1 ≤ days + 719833 ∧ (civilFromDays days).2.1 ≤ 12 ∧
      (civilFromDays days).2.2 ≤ 31 := by
  obtain ⟨year, dayOfYear, hdays, hyear, -, hcivil⟩ := civilFromDays_eq days
  have hbefore : 365 * year ≤ daysBeforeMarch year := by
    unfold daysBeforeMarch
    omega
  rw [hcivil]
  dsimp only [civilOfMarchDay]
  refine ⟨?_, ?_, ?_⟩
  · split <;> omega
  · split <;> omega
  · omega

/-- Later days have later dates. -/
theorem civilFromDays_lt {a b : Nat} (h : a < b) :
    (civilFromDays a).1 < (civilFromDays b).1 ∨ (civilFromDays a).1 = (civilFromDays b).1 ∧
      ((civilFromDays a).2.1 < (civilFromDays b).2.1 ∨
        (civilFromDays a).2.1 = (civilFromDays b).2.1 ∧
          (civilFromDays a).2.2 < (civilFromDays b).2.2) := by
  obtain ⟨ya, da, ha, hda, hanext, hca⟩ := civilFromDays_eq a
  obtain ⟨yb, db, hb, hdb, hbnext, hcb⟩ := civilFromDays_eq b
  have hyears : ya ≤ yb := by
    by_contra hlt
    have hmono := daysBeforeMarch_mono (show yb + 1 ≤ ya by omega)
    omega
  rw [hca, hcb]
  dsimp only [civilOfMarchDay]
  obtain hlt | rfl := Nat.lt_or_eq_of_le hyears
  · split <;> split <;> omega
  · have hdays : da < db := by omega
    split <;> split <;> omega

end VcalmStatus.Js
