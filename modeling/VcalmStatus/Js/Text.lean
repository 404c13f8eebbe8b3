import Mathlib.Data.List.Basic

/-!
The string functions of the platform the service calls: splitting, trimming, percent coding, and
the test a header value has to pass. Strings are sequences of Unicode scalar values.
-/

namespace VcalmStatus.Js

/-- `s.split(sep)` for a one-character separator. -/
def split (s : String) (sep : Char) : List String := (s.toList.splitOn sep).map String.ofList

theorem not_mem_of_mem_splitOn {α : Type} [DecidableEq α] {sep : α} {xs : List α} :
    ∀ piece ∈ xs.splitOn sep, sep ∉ piece := by
  induction xs with
  | nil => simp
  | cons x xs ih =>
      rw [List.splitOn_cons_eq_if_modifyHead]
      split <;> rename_i hx
      · simpa using ih
      · cases hpieces : xs.splitOn sep with
        | nil => exact absurd hpieces (List.splitOn_ne_nil sep xs)
        | cons p ps =>
            rw [hpieces] at ih
            have hne : sep ≠ x := fun h => hx (by simp [h])
            simpa [hne] using ih

/-- A text splits into exactly these pieces when it is they with separators between them and none
of them has a separator in it. -/
theorem split_eq_iff {s : String} {sep : Char} {pieces : List String} (hne : pieces ≠ []) :
    split s sep = pieces ↔ s.toList = [sep].intercalate (pieces.map String.toList) ∧
      ∀ piece ∈ pieces, sep ∉ piece.toList := by
  constructor
  · rintro rfl
    refine ⟨?_, fun piece hpiece => ?_⟩
    · simp [split, Function.comp_def, List.intercalate_splitOn]
    · obtain ⟨cs, hcs, rfl⟩ := List.mem_map.mp hpiece
      simpa using not_mem_of_mem_splitOn cs hcs
  · rintro ⟨hs, hpieces⟩
    rw [split, hs, List.splitOn_intercalate sep (by simpa using hpieces) (by simpa using hne)]
    simp [Function.comp_def]

/-- The last piece of a text is what follows its last separator. -/
theorem split_append {s t : List Char} {sep : Char} (h : sep ∉ t) :
    split (String.ofList (s ++ sep :: t)) sep =
      split (String.ofList s) sep ++ [String.ofList t] := by
  simp [split, List.splitOn_append_cons_self, List.splitOn_eq_singleton h]

/-- The characters `trim` removes: ECMAScript's white space and line terminators. -/
def isWhitespace (c : Char) : Bool :=
  (9 ≤ c.toNat && c.toNat ≤ 13) || c.toNat = 0x20 || c.toNat = 0xA0 || c.toNat = 0x1680 ||
    (0x2000 ≤ c.toNat && c.toNat ≤ 0x200A) || c.toNat = 0x2028 || c.toNat = 0x2029 ||
    c.toNat = 0x202F || c.toNat = 0x205F || c.toNat = 0x3000 || c.toNat = 0xFEFF

/-- Drops the characters satisfying `p` at both ends. -/
def trimBy (p : Char → Bool) (s : String) : String :=
  String.ofList ((s.toList.dropWhile p).reverse.dropWhile p).reverse

/-- `s.trim()`. -/
def trim (s : String) : String := trimBy isWhitespace s

/-! ### Percent coding of a URI component -/

/-- What `encodeURIComponent` leaves as it is. -/
def isUnreserved (c : Char) : Bool :=
  c.isAlphanum || c ∈ "-_.!~*'()".toList

def hexDigit (n : Nat) : Char := if n < 10 then Char.ofNat (48 + n) else Char.ofNat (55 + n)

def hexValue? (c : Char) : Option Nat :=
  if '0' ≤ c ∧ c ≤ '9' then some (c.toNat - 48)
  else if 'A' ≤ c ∧ c ≤ 'F' then some (c.toNat - 55)
  else if 'a' ≤ c ∧ c ≤ 'f' then some (c.toNat - 87)
  else none

def percentByte (b : UInt8) : List Char :=
  ['%', hexDigit (b.toNat / 16), hexDigit (b.toNat % 16)]

def encodeURIComponent (s : String) : String :=
  String.ofList (s.toList.flatMap fun c =>
    if isUnreserved c then [c] else (String.utf8EncodeChar c).flatMap percentByte)

/-- The bytes a percent-coded text stands for; `none` when an escape is not `%` and two hex
digits. -/
def percentDecode : List Char → Option (List UInt8)
  | [] => some []
  | '%' :: a :: b :: cs => do
      let hi ← hexValue? a
      let lo ← hexValue? b
      let bs ← percentDecode cs
      some (UInt8.ofNat (16 * hi + lo) :: bs)
  | '%' :: _ => none
  | c :: cs => (percentDecode cs).map (String.utf8EncodeChar c ++ ·)

/-- `decodeURIComponent`, `none` for a `URIError`: a malformed escape, or escapes that are not
well-formed UTF-8. -/
def decodeURIComponent (s : String) : Option String := do
  let bs ← percentDecode s.toList
  let cs ← bs.toByteArray.utf8Decode?
  some (String.ofList cs.toList)

theorem hexValue?_hexDigit {n : Nat} (h : n < 16) : hexValue? (hexDigit n) = some n := by
  have : ∀ m : Fin 16, hexValue? (hexDigit m) = some m.val := by decide
  exact this ⟨n, h⟩

theorem isUnreserved_percent : isUnreserved '%' = false := by decide

/-- One escaped byte decodes to itself. -/
theorem percentDecode_percentByte (b : UInt8) (cs : List Char) :
    percentDecode (percentByte b ++ cs) = (percentDecode cs).map (b :: ·) := by
  have hb : b.toNat < 256 := b.toNat_lt
  have hhi := hexValue?_hexDigit (n := b.toNat / 16) (by omega)
  have hlo := hexValue?_hexDigit (n := b.toNat % 16) (by omega)
  have hbyte : UInt8.ofNat (16 * (b.toNat / 16) + b.toNat % 16) = b := by
    rw [Nat.div_add_mod, UInt8.ofNat_toNat]
  simp only [percentByte, List.cons_append, List.nil_append, percentDecode, hhi, hlo,
    Option.bind_eq_bind, Option.bind_some, hbyte]
  cases percentDecode cs <;> rfl

theorem percentDecode_percentBytes (bs : List UInt8) (cs : List Char) :
    percentDecode (bs.flatMap percentByte ++ cs) = (percentDecode cs).map (bs ++ ·) := by
  induction bs with
  | nil => simp
  | cons b bs ih =>
      rw [List.flatMap_cons, List.append_assoc, percentDecode_percentByte, ih, Option.map_map]
      rfl

theorem percentDecode_cons_of_ne {c : Char} (h : c ≠ '%') (cs : List Char) :
    percentDecode (c :: cs) = (percentDecode cs).map (String.utf8EncodeChar c ++ ·) := by
  rw [percentDecode.eq_def]
  split <;> simp_all

/-- The bytes of an encoded text are the UTF-8 bytes of the text. -/
theorem percentDecode_encode (cs : List Char) :
    percentDecode (cs.flatMap fun c =>
      if isUnreserved c then [c] else (String.utf8EncodeChar c).flatMap percentByte) =
      some (cs.flatMap String.utf8EncodeChar) := by
  induction cs with
  | nil => rfl
  | cons c cs ih =>
      rw [List.flatMap_cons, List.flatMap_cons]
      split <;> rename_i hc
      · have hne : c ≠ '%' := by
          rintro rfl
          rw [isUnreserved_percent] at hc
          cases hc
        rw [List.singleton_append, percentDecode_cons_of_ne hne, ih]
        rfl
      · rw [percentDecode_percentBytes, ih]
        rfl

/-- Decoding undoes encoding, for every string. -/
theorem decodeURIComponent_encodeURIComponent (s : String) :
    decodeURIComponent (encodeURIComponent s) = some s := by
  have hutf8 : (s.toList.flatMap String.utf8EncodeChar).toByteArray.utf8Decode? =
      some s.toList.toArray := List.utf8Decode?_utf8Encode
  simp [decodeURIComponent, encodeURIComponent, percentDecode_encode, hutf8]

theorem percentDecode_eq_nil {cs : List Char} (h : percentDecode cs = some []) : cs = [] := by
  unfold percentDecode at h
  split at h
  · rfl
  · rename_i a b cs'
    obtain ⟨hi, -, h⟩ := Option.bind_eq_some_iff.mp h
    obtain ⟨lo, -, h⟩ := Option.bind_eq_some_iff.mp h
    obtain ⟨bs, -, h⟩ := Option.bind_eq_some_iff.mp h
    cases h
  · cases h
  · rename_i c cs' _ _
    obtain ⟨bs, -, hbs⟩ := Option.map_eq_some_iff.mp h
    have hne : String.utf8EncodeChar c ≠ [] := String.utf8EncodeChar_ne_nil
    exact absurd (List.append_eq_nil_iff.mp hbs).1 hne

/-- Nothing but nothing stands for the empty text. -/
theorem decodeURIComponent_eq_empty {s : String} (h : decodeURIComponent s = some "") : s = "" := by
  obtain ⟨bs, hbs, h⟩ := Option.bind_eq_some_iff.mp h
  obtain ⟨cs, hcs, h⟩ := Option.bind_eq_some_iff.mp h
  have hnil : cs.toList = [] := by
    rw [← String.toList_ofList (l := cs.toList), Option.some.inj h]
    rfl
  have hsome : bs.toByteArray.utf8Decode?.isSome = true := by rw [hcs]; rfl
  have hbytes := ByteArray.utf8Encode_get_utf8Decode? (b := bs.toByteArray) (h := hsome)
  simp only [hcs, Option.get_some, hnil] at hbytes
  have hempty : bs = [] := by
    have hdata := congrArg (fun b => b.data.toList) hbytes
    simpa using hdata.symm
  subst hempty
  rw [← String.toList_inj, percentDecode_eq_nil hbs]
  rfl

theorem encodeURIComponent_injective : Function.Injective encodeURIComponent := by
  intro s t h
  have := congrArg decodeURIComponent h
  simpa [decodeURIComponent_encodeURIComponent] using this

/-- What the path of a URL does not keep as a segment, and the segment that is not one. -/
def dotSegments : List String := ["", ".", ".."]

/-- An encoded component has nothing in it that could delimit one. -/
theorem encodeURIComponent_chars {s : String} :
    ∀ c ∈ (encodeURIComponent s).toList, isUnreserved c = true ∨ c = '%' := by
  have hdigit : ∀ n : Fin 16, isUnreserved (hexDigit n) = true := by decide
  intro c hc
  rw [encodeURIComponent, String.toList_ofList, List.mem_flatMap] at hc
  obtain ⟨d, _, hc⟩ := hc
  split at hc <;> rename_i hd
  · rw [List.mem_singleton.mp hc]
    exact .inl hd
  · obtain ⟨b, _, hc⟩ := List.mem_flatMap.mp hc
    have hb : b.toNat < 256 := b.toNat_lt
    simp only [percentByte, List.mem_cons, List.not_mem_nil, or_false] at hc
    obtain rfl | rfl | rfl := hc
    · exact .inr rfl
    · exact .inl (hdigit ⟨b.toNat / 16, by omega⟩)
    · exact .inl (hdigit ⟨b.toNat % 16, by omega⟩)

theorem encodeURIComponent_ne_empty {s : String} (h : s ≠ "") : encodeURIComponent s ≠ "" :=
  fun hempty => h (encodeURIComponent_injective (hempty.trans (by decide)))

/-! ### Decimal text of an index -/

/-- `Number(raw)` for a text of decimal digits. -/
def ofDigits (raw : String) : Nat := raw.toList.foldl (fun n c => 10 * n + (c.toNat - 48)) 0

/-- `/^\d+$/.test(raw)`. -/
def isDigits (raw : String) : Bool := raw ≠ "" && raw.toList.all Char.isDigit

theorem isDigits_toString (n : Nat) : isDigits (toString n) = true := by
  have hne : (toString n).toList ≠ [] := by
    rw [Nat.toString_eq_ofList_toDigits, String.toList_ofList]
    exact Nat.toDigits_ne_nil
  have hd : ∀ c ∈ (toString n).toList, c.isDigit = true := by
    rw [Nat.toString_eq_ofList_toDigits, String.toList_ofList]
    exact fun c hc => Nat.isDigit_of_mem_toDigits (by omega) (by omega) hc
  simp only [isDigits, Bool.and_eq_true, decide_eq_true_eq, List.all_eq_true]
  exact ⟨fun h => hne (by rw [h]; rfl), hd⟩

theorem ofDigits_toString (n : Nat) : ofDigits (toString n) = n := by
  have h : Nat.ofDigitChars 10 (Nat.toDigits 10 n) 0 = n := Nat.ofDigitChars_ten_toDigits
  rw [ofDigits, Nat.toString_eq_ofList_toDigits, String.toList_ofList]
  exact h

/-! ### Header values -/

/-- What a header value may be once the white space around it is dropped: bytes, and of the control
characters only the tab. `Headers.set` throws a `TypeError` on what is no byte and on NUL, CR and LF,
and `writeHead` on the others. -/
@[irreducible] def isHeaderValue (s : String) : Bool :=
  (trimBy (fun c => c = '\t' || c = '\n' || c = '\r' || c = ' ') s).toList.all fun c =>
    c = '\t' || 0x20 ≤ c.toNat && c.toNat ≤ 0x7e || 0x80 ≤ c.toNat && c.toNat ≤ 0xff

end VcalmStatus.Js
