import VcalmStatus.Js.Text

/-!
Case mapping and collation, which follow Unicode tables the service does not carry. On ASCII text
the mappings go character by character.
-/

namespace VcalmStatus

namespace Js

def isAscii (s : String) : Bool := s.toList.all fun c => c.toNat < 128

def mapChars (f : Char → Char) (s : String) : String := String.ofList (s.toList.map f)

@[simp] theorem toList_mapChars (f : Char → Char) (s : String) :
    (mapChars f s).toList = s.toList.map f := by
  simp [mapChars]

end Js

/-- `toLowerCase`, `toUpperCase` and `localeCompare` of strings. -/
structure Locale where
  toLowerCase : String → String
  toUpperCase : String → String
  localeCompare : String → String → Ordering
  toLowerCase_ascii : ∀ {s}, Js.isAscii s = true → toLowerCase s = Js.mapChars Char.toLower s
  toUpperCase_ascii : ∀ {s}, Js.isAscii s = true → toUpperCase s = Js.mapChars Char.toUpper s

namespace Js

/-- The locale that knows of ASCII letters alone. -/
def asciiLocale : Locale where
  toLowerCase := mapChars Char.toLower
  toUpperCase := mapChars Char.toUpper
  localeCompare s t := compareOfLessAndEq s t
  toLowerCase_ascii _ := rfl
  toUpperCase_ascii _ := rfl

/-! ### Names -/

/-- `[A-Za-z0-9_]`. -/
def isNameChar (c : Char) : Bool := c.isAlphanum || c = '_'

/-- `[a-z0-9_]`. -/
def isLowerNameChar (c : Char) : Bool := c.isLower || c.isDigit || c = '_'

theorem toNat_lt_of_isNameChar {c : Char} (h : isNameChar c = true) : c.toNat < 128 := by
  have hupper : c.isUpper = true → c.toNat ≤ 90 := fun h =>
    UInt32.le_iff_toNat_le.mp (of_decide_eq_true h : c.val ≥ 65 ∧ c.val ≤ 90).2
  have hlower : c.isLower = true → c.toNat ≤ 122 := fun h =>
    UInt32.le_iff_toNat_le.mp (of_decide_eq_true (Bool.and_eq_true_iff.mp h).2 : c.val ≤ 122)
  have hdigit : c.isDigit = true → c.toNat ≤ 57 := fun h =>
    UInt32.le_iff_toNat_le.mp (of_decide_eq_true (Bool.and_eq_true_iff.mp h).2 : c.val ≤ 57)
  have hchar : ((c.isUpper || c.isLower) || c.isDigit) || decide (c = '_') := h
  simp only [Bool.or_eq_true, decide_eq_true_eq] at hchar
  rcases hchar with ((h | h) | h) | rfl
  · have := hupper h
    omega
  · have := hlower h
    omega
  · have := hdigit h
    omega
  · decide

theorem isAscii_of_isNameChar {s : String} (h : ∀ c ∈ s.toList, isNameChar c = true) :
    isAscii s = true := by
  simpa [isAscii] using fun c hc => toNat_lt_of_isNameChar (h c hc)

theorem isNameChar_of_isLowerNameChar {c : Char} (h : isLowerNameChar c = true) :
    isNameChar c = true := by
  show (((c.isUpper || c.isLower) || c.isDigit) || decide (c = '_')) = true
  rw [Bool.or_assoc, Bool.or_assoc, ← Bool.or_assoc c.isLower]
  exact Bool.or_eq_true_iff.mpr (.inr h)

/-- Names keep to their characters in both cases, and the lower case is what it is made of. -/
theorem name_casing {c : Char} (h : isNameChar c = true) :
    isNameChar c.toUpper = true ∧ isNameChar c.toLower = true ∧
      c.toLower.toUpper.toLower = c.toLower ∧ (isLowerNameChar c = true → c.toLower = c) := by
  have hall : ∀ n : Fin 128, isNameChar (Char.ofNat n) = true →
      isNameChar (Char.ofNat n).toUpper = true ∧ isNameChar (Char.ofNat n).toLower = true ∧
        (Char.ofNat n).toLower.toUpper.toLower = (Char.ofNat n).toLower ∧
        (isLowerNameChar (Char.ofNat n) = true → (Char.ofNat n).toLower = Char.ofNat n) := by
    decide
  have hc := hall ⟨c.toNat, toNat_lt_of_isNameChar h⟩
  rw [Char.ofNat_toNat] at hc
  exact hc h

variable (locale : Locale)

theorem toLowerCase_name {s : String} (h : ∀ c ∈ s.toList, isNameChar c = true) :
    locale.toLowerCase s = mapChars Char.toLower s :=
  locale.toLowerCase_ascii (isAscii_of_isNameChar h)

theorem toUpperCase_name {s : String} (h : ∀ c ∈ s.toList, isNameChar c = true) :
    locale.toUpperCase s = mapChars Char.toUpper s :=
  locale.toUpperCase_ascii (isAscii_of_isNameChar h)

theorem isNameChar_toUpperCase {s : String} (h : ∀ c ∈ s.toList, isNameChar c = true) :
    ∀ c ∈ (locale.toUpperCase s).toList, isNameChar c = true := by
  rw [toUpperCase_name locale h]
  intro c hc
  rw [toList_mapChars, List.mem_map] at hc
  obtain ⟨d, hd, rfl⟩ := hc
  exact (name_casing (h d hd)).1

theorem isNameChar_toLowerCase {s : String} (h : ∀ c ∈ s.toList, isNameChar c = true) :
    ∀ c ∈ (locale.toLowerCase s).toList, isNameChar c = true := by
  rw [toLowerCase_name locale h]
  intro c hc
  rw [toList_mapChars, List.mem_map] at hc
  obtain ⟨d, hd, rfl⟩ := hc
  exact (name_casing (h d hd)).2.1

/-- A name in lower case is its own lower case. -/
theorem toLowerCase_lowerName {s : String} (h : ∀ c ∈ s.toList, isLowerNameChar c = true) :
    locale.toLowerCase s = s := by
  have hname : ∀ c ∈ s.toList, isNameChar c = true :=
    fun c hc => isNameChar_of_isLowerNameChar (h c hc)
  have hmap : s.toList.map Char.toLower = s.toList.map id :=
    List.map_congr_left fun c hc => (name_casing (hname c hc)).2.2.2 (h c hc)
  rw [toLowerCase_name locale hname, mapChars, hmap, List.map_id, String.ofList_toList]

/-- The upper case of a name in lower case gives the name back. -/
theorem toLowerCase_toUpperCase_toLowerCase {s : String}
    (h : ∀ c ∈ s.toList, isNameChar c = true) :
    locale.toLowerCase (locale.toUpperCase (locale.toLowerCase s)) = locale.toLowerCase s := by
  have hlower := isNameChar_toLowerCase locale h
  have hmap : ((s.toList.map Char.toLower).map Char.toUpper).map Char.toLower =
      s.toList.map Char.toLower := by
    rw [List.map_map, List.map_map]
    exact List.map_congr_left fun c hc => (name_casing (h c hc)).2.2.1
  rw [toLowerCase_name locale (isNameChar_toUpperCase locale hlower),
    toUpperCase_name locale hlower, toLowerCase_name locale h]
  simp only [mapChars, String.toList_ofList, hmap]

end Js

end VcalmStatus
