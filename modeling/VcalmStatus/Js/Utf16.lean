import Mathlib.Data.List.Basic

/-!
Strings as the language has them: sequences of 16-bit code units, in which a surrogate may stand
alone. `TextEncoder` puts U+FFFD for one that does, and what it encodes is never shorter in bytes
than the string is in code units.
-/

namespace VcalmStatus.Js

abbrev CodeUnits := List UInt16

namespace CodeUnits

def isHighSurrogate (u : UInt16) : Bool := 0xD800 ≤ u.toNat && u.toNat < 0xDC00

def isLowSurrogate (u : UInt16) : Bool := 0xDC00 ≤ u.toNat && u.toNat < 0xE000

/-- The scalar value of a unit that is not half of a pair. -/
def unpaired (u : UInt16) : Char :=
  if isHighSurrogate u || isLowSurrogate u then Char.ofNat 0xFFFD else Char.ofNat u.toNat

/-- The scalar value of a surrogate pair. -/
def paired (high low : UInt16) : Char :=
  Char.ofNat (0x10000 + (high.toNat - 0xD800) * 0x400 + (low.toNat - 0xDC00))

/-- Conversion to scalar values. -/
def toScalars : CodeUnits → List Char
  | [] => []
  | [u] => [unpaired u]
  | u :: v :: units =>
      if isHighSurrogate u && isLowSurrogate v then paired u v :: toScalars units
      else unpaired u :: toScalars (v :: units)

/-- `new TextEncoder().encode(s)`. -/
def encode (units : CodeUnits) : List UInt8 := units.toScalars.flatMap String.utf8EncodeChar

/-- A pair stands for a character that takes four bytes. -/
theorem length_utf8EncodeChar_paired {u v : UInt16} (hu : isHighSurrogate u = true)
    (hv : isLowSurrogate v = true) : (String.utf8EncodeChar (paired u v)).length = 4 := by
  simp only [isHighSurrogate, isLowSurrogate, Bool.and_eq_true, decide_eq_true_eq] at hu hv
  set n := 0x10000 + (u.toNat - 0xD800) * 0x400 + (v.toNat - 0xDC00) with hn
  have hvalid : n.isValidChar := .inr ⟨by omega, by omega⟩
  have htoNat : (paired u v).toNat = n := by
    rw [paired, ← hn, Char.ofNat, dif_pos hvalid]
    rfl
  have hsize : (paired u v).utf8Size = 4 := by
    have hval : (paired u v).val.toNat = n := htoNat
    unfold Char.utf8Size
    simp only [UInt32.le_iff_toNat_le, hval]
    rw [if_neg, if_neg, if_neg]
    · simp; omega
    · simp; omega
    · simp; omega
  rw [String.length_utf8EncodeChar, hsize]

/-- Every unit is encoded in one byte at least. -/
theorem length_le_length_encode (units : CodeUnits) : units.length ≤ units.encode.length := by
  have hchar : ∀ c : Char, 1 ≤ (String.utf8EncodeChar c).length := fun c => by
    rw [String.length_utf8EncodeChar]
    exact c.utf8Size_pos
  fun_induction toScalars units with
  | case1 => exact Nat.zero_le _
  | case2 u =>
      have := hchar (unpaired u)
      simpa [encode, toScalars] using this
  | case3 u v units h ih =>
      rw [Bool.and_eq_true] at h
      have := length_utf8EncodeChar_paired h.1 h.2
      simp only [encode, toScalars, h.1, h.2, Bool.and_self, if_true, List.flatMap_cons,
        List.length_append, List.length_cons] at ih ⊢
      omega
  | case4 u v units h ih =>
      have := hchar (unpaired u)
      simp only [encode, toScalars, h, Bool.false_eq_true, if_false, List.flatMap_cons,
        List.length_append, List.length_cons] at ih ⊢
      omega

/-! ### Texts without a lone surrogate -/

/-- The code units of a character. -/
def ofChar (c : Char) : CodeUnits :=
  if c.toNat < 0x10000 then [UInt16.ofNat c.toNat]
  else
    [UInt16.ofNat (0xD800 + (c.toNat - 0x10000) / 0x400),
      UInt16.ofNat (0xDC00 + (c.toNat - 0x10000) % 0x400)]

def ofText (s : String) : CodeUnits := s.toList.flatMap ofChar

theorem toScalars_unpaired {u : UInt16} (hu : isHighSurrogate u = false) (units : CodeUnits) :
    toScalars (u :: units) = unpaired u :: toScalars units := by
  cases units with
  | nil => rfl
  | cons v units => simp [toScalars, hu]

/-- The units of a character are read as the character, whatever follows. -/
theorem toScalars_ofChar_append (c : Char) (units : CodeUnits) :
    toScalars (ofChar c ++ units) = c :: toScalars units := by
  have hvalid : c.toNat < 0xD800 ∨ 0xDFFF < c.toNat ∧ c.toNat < 0x110000 := c.valid
  have hback : Char.ofNat c.toNat = c := Char.ofNat_toNat c
  unfold ofChar
  split <;> rename_i hc
  · have htoNat : (UInt16.ofNat c.toNat).toNat = c.toNat := by
      rw [UInt16.toNat_ofNat']
      omega
    have hhigh : isHighSurrogate (UInt16.ofNat c.toNat) = false := by
      rw [isHighSurrogate, htoNat, Bool.and_eq_false_iff]
      simp only [decide_eq_false_iff_not]
      omega
    have hlow : isLowSurrogate (UInt16.ofNat c.toNat) = false := by
      rw [isLowSurrogate, htoNat, Bool.and_eq_false_iff]
      simp only [decide_eq_false_iff_not]
      omega
    rw [List.singleton_append, toScalars_unpaired hhigh, unpaired, hhigh, hlow, htoNat, hback]
    rfl
  · set n := c.toNat - 0x10000 with hn
    have hhighNat : (UInt16.ofNat (0xD800 + n / 0x400)).toNat = 0xD800 + n / 0x400 := by
      rw [UInt16.toNat_ofNat']
      omega
    have hlowNat : (UInt16.ofNat (0xDC00 + n % 0x400)).toNat = 0xDC00 + n % 0x400 := by
      rw [UInt16.toNat_ofNat']
      omega
    have hhigh : isHighSurrogate (UInt16.ofNat (0xD800 + n / 0x400)) = true := by
      rw [isHighSurrogate, hhighNat, Bool.and_eq_true]
      simp only [decide_eq_true_eq]
      omega
    have hlow : isLowSurrogate (UInt16.ofNat (0xDC00 + n % 0x400)) = true := by
      rw [isLowSurrogate, hlowNat, Bool.and_eq_true]
      simp only [decide_eq_true_eq]
      omega
    have hpaired : paired (UInt16.ofNat (0xD800 + n / 0x400))
        (UInt16.ofNat (0xDC00 + n % 0x400)) = c := by
      rw [paired, hhighNat, hlowNat, ← hback]
      refine congrArg Char.ofNat ?_
      omega
    simp only [List.cons_append, List.nil_append, toScalars, hhigh, hlow, Bool.and_self, if_true,
      hpaired]

/-- A text is encoded as the UTF-8 of its characters. -/
theorem encode_ofText (s : String) :
    (ofText s).encode = s.toList.flatMap String.utf8EncodeChar := by
  have hscalars : ∀ cs : List Char, toScalars (cs.flatMap ofChar) = cs := by
    intro cs
    induction cs with
    | nil => rfl
    | cons c cs ih => rw [List.flatMap_cons, toScalars_ofChar_append, ih]
  rw [encode, ofText, hscalars]

end CodeUnits

end VcalmStatus.Js
