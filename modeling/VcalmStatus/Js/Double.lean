import Mathlib.Data.Int.Log
import Mathlib.Data.Rat.Floor
import Mathlib.Tactic.FieldSimp

/-!
Products of floating-point numbers.

A product is the rational nearest to the exact one among those of so many significant bits, the one
with the even mantissa where there are two. The exponent has no bounds: the product of an integer
and a double is a multiple of the smallest positive double, so nothing is lost to underflow, and
what overflows is above everything it is compared with.
-/

namespace VcalmStatus.Js

/-- The nearest integer, the even one of two. -/
def roundEven (x : ℚ) : ℤ :=
  if x - ⌊x⌋ < 1 / 2 then ⌊x⌋
  else if 1 / 2 < x - ⌊x⌋ then ⌊x⌋ + 1
  else if ⌊x⌋ % 2 = 0 then ⌊x⌋
  else ⌊x⌋ + 1

/-- The distance of the numbers of `precision` bits around `q`. -/
def quantum (precision : ℕ) (q : ℚ) : ℚ := 2 ^ (Int.log 2 |q| + 1 - precision)

/-- The nearest number of `precision` significant bits. -/
def roundTo (precision : ℕ) (q : ℚ) : ℚ :=
  roundEven (q / quantum precision q) * quantum precision q

/-- Rounding does not go past an integer. -/
theorem roundEven_le {x : ℚ} {n : ℤ} (h : x ≤ n) : roundEven x ≤ n := by
  have hfloor : ⌊x⌋ ≤ n := Int.floor_le_iff.mpr (h.trans_lt (by simp))
  obtain heq | hlt := hfloor.eq_or_lt
  · -- The integer is the floor, so there is nothing to round.
    have hx : x = ⌊x⌋ := le_antisymm (heq ▸ h) (Int.floor_le x)
    have hzero : x - ⌊x⌋ < 1 / 2 := by
      rw [← hx, sub_self]
      norm_num
    rw [roundEven, if_pos hzero]
    exact hfloor
  · unfold roundEven
    split
    · exact hfloor
    · split
      · exact hlt
      · split
        · exact hfloor
        · exact hlt

theorem quantum_pos (precision : ℕ) (q : ℚ) : 0 < quantum precision q := zpow_pos two_pos _

/-- An integer that has no more than the bits of the precision is a number of quanta of every
smaller number. -/
theorem exists_quanta {precision m : ℕ} {q : ℚ} (hm : m < 2 ^ precision) (hpos : 0 < q)
    (h : q ≤ m) : ∃ n : ℤ, (m : ℚ) = n * quantum precision q := by
  have hlog : Int.log 2 q < precision := by
    rw [← Int.lt_zpow_iff_log_lt Nat.one_lt_two hpos, zpow_natCast]
    exact h.trans_lt (by exact_mod_cast hm)
  obtain ⟨k, hk⟩ := Int.eq_ofNat_of_zero_le (show 0 ≤ precision - (Int.log 2 q + 1) by omega)
  have hexponent : Int.log 2 |q| + 1 - precision = -(k : ℤ) := by
    rw [abs_of_pos hpos]
    omega
  refine ⟨m * 2 ^ k, ?_⟩
  rw [quantum, hexponent, zpow_neg, zpow_natCast]
  push_cast
  field_simp

/-- A number is not rounded past an integer of at most so many bits. -/
theorem roundTo_le {precision m : ℕ} {q : ℚ} (hm : m < 2 ^ precision) (h : q ≤ m) :
    roundTo precision q ≤ m := by
  have hquantum := quantum_pos precision q
  obtain hneg | hpos := le_or_gt q 0
  · have hround : roundEven (q / quantum precision q) ≤ 0 :=
      roundEven_le (by simpa using div_nonpos_of_nonpos_of_nonneg hneg hquantum.le)
    have hround : (roundEven (q / quantum precision q) : ℚ) ≤ 0 := by exact_mod_cast hround
    exact (mul_nonpos_of_nonpos_of_nonneg hround hquantum.le).trans (Nat.cast_nonneg m)
  · obtain ⟨n, hn⟩ := exists_quanta hm hpos h
    have hround : roundEven (q / quantum precision q) ≤ n :=
      roundEven_le ((div_le_iff₀ hquantum).mpr (hn ▸ h))
    have hround : (roundEven (q / quantum precision q) : ℚ) ≤ n := by exact_mod_cast hround
    rw [roundTo, hn]
    exact mul_le_mul_of_nonneg_right hround hquantum.le

/-! ### Doubles -/

/-- A finite double. -/
structure Double where
  mantissa : ℤ
  exponent : ℤ
  fits : mantissa.natAbs < 2 ^ 53 := by decide

namespace Double

def value (x : Double) : ℚ := x.mantissa * 2 ^ x.exponent

/-- A power of two. -/
def power (exponent : ℤ) : Double := ⟨1, exponent, by decide⟩

/-- `n * x`, where `n` is an integer that is a double itself. -/
def times (x : Double) (n : ℕ) : ℚ := roundTo 53 (n * x.value)

/-- Two roundings of a tenth: its product with ten is one exactly, and that with three is not three
tenths. -/
example : times ⟨3602879701896397, -55, by decide⟩ 10 = 1 ∧
    times ⟨3602879701896397, -55, by decide⟩ 3 ≠ value ⟨5404319552844595, -54, by decide⟩ := by
  decide +kernel

theorem times_le {x : Double} {n m : ℕ} (hm : m < 2 ^ 53) (h : n * x.value ≤ m) :
    x.times n ≤ m := roundTo_le hm h

end Double

end VcalmStatus.Js
