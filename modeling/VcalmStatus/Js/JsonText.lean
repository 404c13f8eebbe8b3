import VcalmStatus.Js.NumberText
import VcalmStatus.Js.Stringify
import VcalmStatus.Js.Utf16
import Mathlib.Data.List.Sort

/-! `JSON.stringify` and `JSON.parse` of whole values. -/

namespace VcalmStatus.Js

/-- Induction over a value: over every element of an array, over every property of an object. -/
@[elab_as_elim]
theorem Json.induction {motive : Json → Prop} (null : motive .null)
    (bool : ∀ b, motive (.bool b)) (num : ∀ n, motive (.num n)) (str : ∀ s, motive (.str s))
    (arr : ∀ xs, (∀ x ∈ xs, motive x) → motive (.arr xs))
    (obj : ∀ o : JsonObject, (∀ kv ∈ o, motive kv.2) → motive (.obj o)) (v : Json) : motive v := by
  refine @Json.rec motive (fun xs => ∀ x ∈ xs, motive x) (fun o => ∀ kv ∈ o, motive kv.2)
    (fun kv => motive kv.2) null bool num str arr obj ?_ ?_ ?_ ?_ ?_ v
  · simp
  · intro x xs hx hxs
    exact List.forall_mem_cons.mpr ⟨hx, hxs⟩
  · simp
  · intro kv o hkv ho
    exact List.forall_mem_cons.mpr ⟨hkv, ho⟩
  · exact fun _ _ hv => hv

/-! ### Writing -/

mutual

def Json.chars : Json → List Char
  | .null => "null".toList
  | .bool true => "true".toList
  | .bool false => "false".toList
  | .num n => n.stringify.toList
  | .str s => (quote s).toList
  | .arr xs => '[' :: [','].intercalate (elementTexts xs) ++ [']']
  | .obj o => '\x7b' :: [','].intercalate (memberTexts o) ++ ['\x7d']

def elementTexts : List Json → List (List Char)
  | [] => []
  | x :: xs => x.chars :: elementTexts xs

def memberTexts : List (String × Json) → List (List Char)
  | [] => []
  | (key, v) :: o => ((quote key).toList ++ ':' :: v.chars) :: memberTexts o

end

/-- `JSON.stringify(v)`. -/
def Json.stringify (v : Json) : String := String.ofList v.chars

theorem elementTexts_eq (xs : List Json) : elementTexts xs = xs.map Json.chars := by
  induction xs with
  | nil => rfl
  | cons x xs ih => rw [elementTexts, ih, List.map_cons]

theorem memberTexts_eq (o : List (String × Json)) :
    memberTexts o = o.map fun kv => (quote kv.1).toList ++ ':' :: kv.2.chars := by
  induction o with
  | nil => rfl
  | cons kv o ih => rw [memberTexts, ih, List.map_cons]

/-! ### The order of an object's keys -/

/-- A key that is an array index: these come first, in ascending order. -/
def isArrayIndex (key : String) : Bool :=
  isDigits key && toString (ofDigits key) = key && ofDigits key < 4294967295

namespace JsonObject

/-- The own properties in the order in which an object lists them. -/
def inOwnOrder (o : JsonObject) : JsonObject :=
  (o.filter fun kv => isArrayIndex kv.1).insertionSort (fun a b => ofDigits a.1 ≤ ofDigits b.1) ++
    o.filter fun kv => !isArrayIndex kv.1

/-- The object of the members of a text: a repeated key keeps its first place and its last
value. -/
def ofMembers (members : List (String × Json)) : JsonObject := (spread [] members).inOwnOrder

end JsonObject

/-! ### Reading -/

def isJsonSpace (c : Char) : Bool := c = ' ' || c = '\t' || c = '\n' || c = '\r'

def skipSpace (cs : List Char) : List Char := cs.dropWhile isJsonSpace

/-- What stands behind a backslash, other than `u`. -/
def simpleEscape? (c : Char) : Option Char :=
  if c = '"' ∨ c = '\\' ∨ c = '/' then some c
  else if c = 'b' then some (Char.ofNat 8)
  else if c = 't' then some '\t'
  else if c = 'n' then some '\n'
  else if c = 'f' then some (Char.ofNat 12)
  else if c = 'r' then some '\r'
  else none

/-- The code unit of four hexadecimal digits. -/
def hexUnit? (a b c d : Char) : Option UInt16 := do
  let a ← hexValue? a
  let b ← hexValue? b
  let c ← hexValue? c
  let d ← hexValue? d
  some (UInt16.ofNat (4096 * a + 256 * b + 16 * c + d))

def prepend (units : CodeUnits) (read : Option (CodeUnits × List Char)) :
    Option (CodeUnits × List Char) :=
  read.map fun (more, rest) => (units ++ more, rest)

/-- The code units of a string up to its closing quote, and what follows. -/
def scanString : List Char → Option (CodeUnits × List Char)
  | [] => none
  | '\\' :: 'u' :: a :: b :: c :: d :: cs =>
      (hexUnit? a b c d).bind fun unit => prepend [unit] (scanString cs)
  | '\\' :: c :: cs =>
      (simpleEscape? c).bind fun e => prepend (CodeUnits.ofChar e) (scanString cs)
  | c :: cs =>
      if c = '"' then some ([], cs)
      else if c.toNat < 32 then none
      else prepend (CodeUnits.ofChar c) (scanString cs)

def CodeUnits.toText (units : CodeUnits) : String := String.ofList units.toScalars

/-- Items with commas between them, up to the closing bracket. Every item takes a character, so the
length of the text bounds their number. -/
def scanItems {α : Type} (item : List Char → Option (α × List Char)) (close : Char) :
    Nat → List Char → Option (List α × List Char)
  | 0, _ => none
  | bound + 1, cs => do
      let (x, cs) ← item cs
      match skipSpace cs with
      | c :: cs =>
          if c = close then some ([x], cs)
          else if c = ',' then do
            let (xs, cs) ← scanItems item close bound cs
            some (x :: xs, cs)
          else none
      | [] => none

/-- No items at all, or some. -/
def scanList {α : Type} (item : List Char → Option (α × List Char)) (close : Char)
    (cs : List Char) : Option (List α × List Char) :=
  match skipSpace cs with
  | c :: rest => if c = close then some ([], rest) else scanItems item close cs.length cs
  | [] => none

def scanMember (value : List Char → Option (Json × List Char)) (cs : List Char) :
    Option ((String × Json) × List Char) :=
  match skipSpace cs with
  | '"' :: cs => do
      let (key, cs) ← scanString cs
      match skipSpace cs with
      | ':' :: cs => do
          let (v, cs) ← value cs
          some ((CodeUnits.toText key, v), cs)
      | _ => none
  | _ => none

def scanWord : List Char → Option (Json × List Char)
  | 'n' :: 'u' :: 'l' :: 'l' :: cs => some (.null, cs)
  | 't' :: 'r' :: 'u' :: 'e' :: cs => some (.bool true, cs)
  | 'f' :: 'a' :: 'l' :: 's' :: 'e' :: cs => some (.bool false, cs)
  | _ => none

/-- A value and what follows it. Each level of nesting takes a character, so the length of the
text bounds their number. -/
def scanValue (N : Numerals) : Nat → List Char → Option (Json × List Char)
  | 0, _ => none
  | depth + 1, cs =>
      match skipSpace cs with
      | c :: cs =>
          if c = '"' then
            (scanString cs).map fun (units, rest) => (.str (CodeUnits.toText units), rest)
          else if c = '[' then
            (scanList (scanValue N depth) ']' cs).map fun (xs, rest) => (.arr xs, rest)
          else if c = '\x7b' then
            (scanList (scanMember (scanValue N depth)) '\x7d' cs).map fun (members, rest) =>
              (.obj (JsonObject.ofMembers members), rest)
          else if c = '-' ∨ c.isDigit then
            (scanNumber (c :: cs)).map fun (literal, rest) =>
              (.num (N.value (String.ofList literal)), rest)
          else scanWord (c :: cs)
      | [] => none

/-- `JSON.parse(text)`, `none` for a `SyntaxError`. A surrogate that stands alone is read as
U+FFFD. -/
def Json.parse (N : Numerals) (text : String) : Option Json := do
  let (v, rest) ← scanValue N (text.length + 1) text.toList
  if skipSpace rest = [] then some v else none

end VcalmStatus.Js
