import Mathlib.Data.Nat.Notation

/-! The text of a moment, as `Date.prototype.toISOString` writes it. -/

namespace VcalmStatus.Js

/-- A number padded with zeros on the left. -/
def padded (width n : Nat) : String :=
  String.ofList (List.replicate (width - (toString n).length) '0') ++ toString n

/-- Year, month and day of a day counted from 1970-01-01, by eras of 400 years that begin on the
first of March. -/
def civilFromDays (days : Nat) : Nat × Nat × Nat :=
  let z := days + 719468
  let dayOfEra := z % 146097
  let yearOfEra := (dayOfEra - dayOfEra / 1460 + dayOfEra / 36524 - dayOfEra / 146096) / 365
  let dayOfYear := dayOfEra - (365 * yearOfEra + yearOfEra / 4 - yearOfEra / 100)
  let monthFromMarch := (5 * dayOfYear + 2) / 153
  let day := dayOfYear - (153 * monthFromMarch + 2) / 5 + 1
  let month := if monthFromMarch < 10 then monthFromMarch + 3 else monthFromMarch - 9
  let year := yearOfEra + 400 * (z / 146097) + (if month ≤ 2 then 1 else 0)
  (year, month, day)

/-- `date.toISOString().replace(/\.\d{3}Z$/, 'Z')`, the date in milliseconds since the epoch. -/
def toISOSeconds (date : Nat) : String :=
  let (year, month, day) := civilFromDays (date / 86400000)
  let seconds := date / 1000 % 86400
  padded 4 year ++ "-" ++ padded 2 month ++ "-" ++ padded 2 day ++ "T" ++
    padded 2 (seconds / 3600) ++ ":" ++ padded 2 (seconds / 60 % 60) ++ ":" ++
    padded 2 (seconds % 60) ++ "Z"

example : toISOSeconds 1786150923456 = "2026-08-08T01:02:03Z" := by decide

end VcalmStatus.Js
