import Mathlib.Data.List.Nodup

/-!
`Map` and `Set` as JavaScript has them: a key once, in the order in which the keys first came.
-/

namespace VcalmStatus.Js

structure JsMap (K V : Type) where
  entries : List (K × V)
  nodup : (entries.map Prod.fst).Nodup

structure JsSet (A : Type) where
  elements : List A
  nodup : elements.Nodup

namespace JsMap

variable {K V : Type}

def empty : JsMap K V := ⟨[], .nil⟩

def values (m : JsMap K V) : List V := m.entries.map Prod.snd

variable [DecidableEq K]

def get? (m : JsMap K V) (key : K) : Option V :=
  (m.entries.find? fun e => e.1 = key).map Prod.snd

def has (m : JsMap K V) (key : K) : Bool := m.entries.any fun e => e.1 = key

theorem keys_replace (entries : List (K × V)) (key : K) (value : V) :
    (entries.map fun e => if e.1 = key then (key, value) else e).map Prod.fst =
      entries.map Prod.fst := by
  rw [List.map_map]
  apply List.map_congr_left
  intro e he
  show (if e.1 = key then (key, value) else e).1 = e.1
  split <;> simp_all

theorem nodup_append_key {m : JsMap K V} {key : K} (h : m.has key = false) (value : V) :
    ((m.entries ++ [(key, value)]).map Prod.fst).Nodup := by
  rw [List.map_append]
  apply List.Nodup.append m.nodup (List.nodup_singleton _)
  rw [List.disjoint_singleton]
  intro hmem
  obtain ⟨e, he, hkey⟩ := List.mem_map.mp hmem
  have hhas : m.has key = true := List.any_eq_true.mpr ⟨e, he, by simpa using hkey⟩
  rw [h] at hhas
  cases hhas

/-- An existing key keeps its place, a new one goes to the end. -/
def set (m : JsMap K V) (key : K) (value : V) : JsMap K V :=
  if h : m.has key = true then
    ⟨m.entries.map fun e => if e.1 = key then (key, value) else e, by
      rw [keys_replace]
      exact m.nodup⟩
  else
    ⟨m.entries ++ [(key, value)], nodup_append_key (Bool.eq_false_iff.mpr h) value⟩

@[simp] theorem get?_empty (key : K) : (empty : JsMap K V).get? key = none := rfl

theorem has_eq_isSome (m : JsMap K V) (key : K) : m.has key = (m.get? key).isSome := by
  rw [has, get?, Option.isSome_map, List.isSome_find?]

theorem get?_eq_none {m : JsMap K V} {key : K} (h : m.has key = false) : m.get? key = none := by
  rw [has_eq_isSome] at h
  simpa using h

theorem entries_set_of_has {m : JsMap K V} {key : K} (h : m.has key = true) (value : V) :
    (m.set key value).entries = m.entries.map fun e => if e.1 = key then (key, value) else e := by
  rw [set, dif_pos h]

theorem entries_set_of_new {m : JsMap K V} {key : K} (h : m.has key = false) (value : V) :
    (m.set key value).entries = m.entries ++ [(key, value)] := by
  rw [set, dif_neg (by simp [h])]

theorem get?_set_self (m : JsMap K V) (key : K) (value : V) :
    (m.set key value).get? key = some value := by
  rw [get?]
  cases h : m.has key with
  | true =>
      rw [entries_set_of_has h, List.find?_map]
      have hfind : ((m.entries.find? ((fun e => decide (e.1 = key)) ∘
          fun e : K × V => if e.1 = key then (key, value) else e)).isSome) = true := by
        rw [List.isSome_find?]
        obtain ⟨e, he, hkey⟩ := List.any_eq_true.mp h
        exact List.any_eq_true.mpr ⟨e, he, by simp [of_decide_eq_true hkey]⟩
      obtain ⟨e, he⟩ := Option.isSome_iff_exists.mp hfind
      rw [he, Option.map_some, Option.map_some]
      have hkey := List.find?_some he
      by_cases hek : e.1 = key
      · rw [if_pos hek]
      · simp [hek] at hkey
  | false =>
      rw [entries_set_of_new h, List.find?_append]
      have hnone : m.entries.find? (fun e => decide (e.1 = key)) = none := by
        exact Option.map_eq_none_iff.mp (get?_eq_none h)
      simp [hnone]

theorem get?_set_of_ne (m : JsMap K V) {key key' : K} (value : V) (hne : key ≠ key') :
    (m.set key value).get? key' = m.get? key' := by
  rw [get?, get?]
  cases h : m.has key with
  | true =>
      rw [entries_set_of_has h, List.find?_map, Option.map_map]
      have hsame : ((fun e => decide (e.1 = key')) ∘
          fun e : K × V => if e.1 = key then (key, value) else e) =
            fun e => decide (e.1 = key') := by
        funext e
        by_cases hek : e.1 = key <;> simp [hek, hne]
      rw [hsame]
      cases hf : m.entries.find? (fun e => decide (e.1 = key')) with
      | none => rfl
      | some e =>
          have hkey : e.1 = key' := by simpa using List.find?_some hf
          simp [hkey, Ne.symm hne]
  | false =>
      rw [entries_set_of_new h, List.find?_append]
      simp [hne]

theorem get?_set (m : JsMap K V) (key key' : K) (value : V) :
    (m.set key value).get? key' = if key = key' then some value else m.get? key' := by
  split <;> rename_i h
  · rw [h, get?_set_self]
  · exact get?_set_of_ne m value h

end JsMap

namespace JsSet

variable {A : Type}

def empty : JsSet A := ⟨[], .nil⟩

def size (s : JsSet A) : Nat := s.elements.length

variable [DecidableEq A]

def has (s : JsSet A) (a : A) : Bool := s.elements.contains a

theorem nodup_append {s : JsSet A} {a : A} (h : s.has a = false) : (s.elements ++ [a]).Nodup := by
  apply List.Nodup.append s.nodup (List.nodup_singleton _)
  rw [List.disjoint_singleton]
  intro hmem
  rw [has, List.contains_iff_mem.mpr hmem] at h
  cases h

def add (s : JsSet A) (a : A) : JsSet A :=
  if h : s.has a = true then s else ⟨s.elements ++ [a], nodup_append (Bool.eq_false_iff.mpr h)⟩

theorem elements_add_of_new {s : JsSet A} {a : A} (h : s.has a = false) :
    (s.add a).elements = s.elements ++ [a] := by
  rw [add, dif_neg (by simp [h])]

end JsSet

end VcalmStatus.Js
