import Mathlib.Data.List.Basic

/-!
JSON values as JavaScript holds them, and the two operations on objects everything else is made
of: reading a property and the property-by-property copy of an object literal with a spread.
-/

namespace VcalmStatus.Js

/-- A JavaScript number, as far as it is ever looked at here: an integer, or anything else (a
fraction, `NaN`, an infinity) kept by its sign and its text. -/
inductive Number
  | int (i : Int)
  | nonInteger (negative : Bool) (text : String)
  deriving DecidableEq, Repr

/-- `String(n)`. -/
def Number.toText : Number → String
  | .int i => toString i
  | .nonInteger _ text => text

/-- `Number.MAX_SAFE_INTEGER`, 2⁵³ − 1. -/
def maxSafeInteger : Nat := 9007199254740991

inductive Json
  | null
  | bool (b : Bool)
  | num (n : Number)
  | str (s : String)
  | arr (xs : List Json)
  | obj (fields : List (String × Json))

/-- The own properties of an object, in order. -/
abbrev JsonObject := List (String × Json)

namespace JsonObject

/-- `o[key]`, `none` for `undefined`. -/
def get? : JsonObject → String → Option Json
  | [], _ => none
  | (k, v) :: o, key => if k = key then some v else get? o key

/-- `key in o`. -/
def has (o : JsonObject) (key : String) : Bool := (o.get? key).isSome

/-- `{ ...o, [key]: v }`: an existing property keeps its place. -/
def set : JsonObject → String → Json → JsonObject
  | [], key, v => [(key, v)]
  | (k, w) :: o, key, v => if k = key then (k, v) :: o else (k, w) :: set o key v

/-- `{ ...o, ...more }`. -/
def spread (o more : JsonObject) : JsonObject := more.foldl (fun o kv => o.set kv.1 kv.2) o

@[simp] theorem get?_nil (key : String) : get? [] key = none := rfl

theorem get?_cons (k : String) (v : Json) (o : JsonObject) (key : String) :
    get? ((k, v) :: o) key = if k = key then some v else get? o key := rfl

@[simp] theorem get?_set_self (o : JsonObject) (key : String) (v : Json) :
    (o.set key v).get? key = some v := by
  induction o with
  | nil => simp [set, get?]
  | cons kw o ih =>
      obtain ⟨k, w⟩ := kw
      simp only [set]
      split <;> rename_i h
      · simp [get?_cons, h]
      · simp [get?_cons, h, ih]

theorem get?_set_of_ne (o : JsonObject) {key key' : String} (v : Json) (h : key ≠ key') :
    (o.set key v).get? key' = o.get? key' := by
  induction o with
  | nil => simp [set, get?, h]
  | cons kw o ih =>
      obtain ⟨k, w⟩ := kw
      simp only [set]
      split <;> rename_i hk
      · subst hk
        simp [get?_cons, h]
      · simp [get?_cons, ih]

end JsonObject

namespace Json

/-- The value as an object, when it is one that is no array. -/
def object? : Json → Option JsonObject
  | .obj o => some o
  | _ => none

def string? : Json → Option String
  | .str s => some s
  | _ => none

def number? : Json → Option Number
  | .num n => some n
  | _ => none

mutual

/-- How deep arrays and objects are nested. -/
def depth : Json → Nat
  | .arr xs => elementDepth xs + 1
  | .obj o => memberDepth o + 1
  | _ => 0

def elementDepth : List Json → Nat
  | [] => 0
  | x :: xs => max x.depth (elementDepth xs)

def memberDepth : List (String × Json) → Nat
  | [] => 0
  | (_, v) :: o => max v.depth (memberDepth o)

end

@[simp] theorem object?_obj (o : JsonObject) : (Json.obj o).object? = some o := rfl

@[simp] theorem string?_str (s : String) : (Json.str s).string? = some s := rfl

end Json

end VcalmStatus.Js
