import VcalmStatus.Js.JsonRoundTrip

/-!
What `JSON.parse` accepts. Every number of a value that was read is the value of a literal, and
every object lists distinct keys in order; but for an infinity, which a literal may be too large
not to be, such a value can be written and read again.
-/

namespace VcalmStatus.Js

/-- A value as it is read. -/
inductive Json.Read (N : Numerals) : Json → Prop
  | null : Read N .null
  | bool (b : Bool) : Read N (.bool b)
  | num {literal : String} (h : isNumberLiteral literal = true) : Read N (.num (N.value literal))
  | str (s : String) : Read N (.str s)
  | arr {xs : List Json} (h : ∀ x ∈ xs, Read N x) : Read N (.arr xs)
  | obj {o : JsonObject} (hkeys : (o.map Prod.fst).Nodup) (horder : o.inOwnOrder = o)
      (h : ∀ kv ∈ o, Read N kv.2) : Read N (.obj o)

section Items

variable {α : Type} {item : List Char → Option (α × List Char)} {close : Char} {P : α → Prop}

theorem scanItems_all (hitem : ∀ {cs x rest}, item cs = some (x, rest) → P x) {bound : Nat}
    {cs rest : List Char} {xs : List α} (h : scanItems item close bound cs = some (xs, rest)) :
    ∀ x ∈ xs, P x := by
  induction bound generalizing cs xs rest with
  | zero => cases h
  | succ bound ih =>
      rw [scanItems] at h
      obtain ⟨⟨y, cs'⟩, hy, h⟩ := Option.bind_eq_some_iff.mp h
      dsimp only at h
      split at h
      · split at h
        · cases h
          intro x hx
          rw [List.mem_singleton.mp hx]
          exact hitem hy
        · split at h
          · obtain ⟨⟨ys, cs''⟩, hys, h⟩ := Option.bind_eq_some_iff.mp h
            cases h
            exact List.forall_mem_cons.mpr ⟨hitem hy, ih hys⟩
          · cases h
      · cases h

theorem scanList_all (hitem : ∀ {cs x rest}, item cs = some (x, rest) → P x)
    {cs rest : List Char} {xs : List α} (h : scanList item close cs = some (xs, rest)) :
    ∀ x ∈ xs, P x := by
  rw [scanList] at h
  split at h
  · split at h
    · cases h
      exact List.forall_mem_nil _
    · exact scanItems_all hitem h
  · cases h

end Items

theorem scanMember_value {value : List Char → Option (Json × List Char)} {P : Json → Prop}
    (hvalue : ∀ {cs v rest}, value cs = some (v, rest) → P v) {cs rest : List Char}
    {kv : String × Json} (h : scanMember value cs = some (kv, rest)) : P kv.2 := by
  rw [scanMember] at h
  split at h
  · obtain ⟨⟨key, cs'⟩, hkey, h⟩ := Option.bind_eq_some_iff.mp h
    dsimp only at h
    split at h
    · obtain ⟨⟨v, cs''⟩, hv, h⟩ := Option.bind_eq_some_iff.mp h
      cases h
      exact hvalue hv
    · cases h
  · cases h

theorem JsonObject.mem_set {o : JsonObject} {key : String} {v : Json} {kv : String × Json}
    (h : kv ∈ o.set key v) : kv ∈ o ∨ kv = (key, v) := by
  induction o with
  | nil => exact .inr (List.mem_singleton.mp h)
  | cons kw o ih =>
      obtain ⟨k, w⟩ := kw
      rw [JsonObject.set] at h
      split at h <;> rename_i hk
      · obtain rfl | h := List.mem_cons.mp h
        · exact .inr (by rw [hk])
        · exact .inl (List.mem_cons_of_mem _ h)
      · obtain rfl | h := List.mem_cons.mp h
        · exact .inl List.mem_cons_self
        · exact (ih h).imp_left (List.mem_cons_of_mem _)

theorem JsonObject.set_append {a b : JsonObject} {key : String} (h : key ∉ a.map Prod.fst)
    (v : Json) : JsonObject.set (a ++ b) key v = a ++ b.set key v := by
  induction a with
  | nil => rfl
  | cons kw a ih =>
      obtain ⟨k, w⟩ := kw
      have hk : k ≠ key := fun hk => h (List.mem_map.mpr ⟨(k, w), List.mem_cons_self, hk⟩)
      have ha : key ∉ a.map Prod.fst := fun hmem => h (List.mem_cons_of_mem _ hmem)
      rw [List.cons_append, JsonObject.set, if_neg hk, ih ha]
      rfl

theorem JsonObject.filter_set (p : String → Bool) (o : JsonObject) (key : String) (v : Json) :
    (o.set key v).filter (fun kv => p kv.1) =
      if p key then JsonObject.set (o.filter fun kv => p kv.1) key v
      else o.filter fun kv => p kv.1 := by
  induction o with
  | nil => by_cases hp : p key <;> simp [JsonObject.set, hp]
  | cons kw o ih =>
      obtain ⟨k, w⟩ := kw
      by_cases hk : k = key
      · subst hk
        by_cases hp : p k <;> simp [JsonObject.set, hp]
      · by_cases hp : p key <;> by_cases hpk : p k <;>
          simp_all [JsonObject.set]

/-- A property that is no array index has its place after the ones that are. -/
theorem JsonObject.inOwnOrder_set {o : JsonObject} (h : o.inOwnOrder = o) {key : String}
    (hkey : isArrayIndex key = false) (v : Json) : (o.set key v).inOwnOrder = o.set key v := by
  have hindexes := JsonObject.filter_set isArrayIndex o key v
  have hnames := JsonObject.filter_set (fun k => !isArrayIndex k) o key v
  rw [hkey, if_neg (by decide)] at hindexes
  rw [hkey, if_pos (by decide)] at hnames
  rw [JsonObject.inOwnOrder, hindexes, hnames]
  conv_rhs => rw [← h, JsonObject.inOwnOrder]
  refine (JsonObject.set_append (fun hmem => ?_) v).symm
  obtain ⟨kv, hkv, rfl⟩ := List.mem_map.mp hmem
  have hindex := (List.mem_filter.mp ((List.mem_insertionSort _).mp hkv)).2
  rw [hkey] at hindex
  cases hindex

theorem Json.Storable.of_names {N : Numerals} {o : JsonObject}
    (hkeys : (o.map Prod.fst).Nodup) (hnames : ∀ key ∈ o.map Prod.fst, isArrayIndex key = false)
    (h : ∀ v ∈ o.map Prod.snd, v.Storable N) : (Json.obj o).Storable N :=
  .obj hkeys (JsonObject.inOwnOrder_of_names fun _ hkv => hnames _ (List.mem_map_of_mem hkv))
    fun _ hkv => h _ (List.mem_map_of_mem hkv)

/-- What can be stored may be given another property. -/
theorem Json.Storable.set {N : Numerals} {o : JsonObject} (h : (Json.obj o).Storable N)
    {key : String} (hkey : isArrayIndex key = false) {v : Json} (hv : v.Storable N) :
    (Json.obj (o.set key v)).Storable N := by
  cases h with
  | obj hkeys horder hall =>
      refine .obj (JsonObject.keys_nodup_spread hkeys [(key, v)])
        (JsonObject.inOwnOrder_set horder hkey v) fun kv hkv => ?_
      obtain hkv | rfl := JsonObject.mem_set hkv
      · exact hall kv hkv
      · exact hv

theorem JsonObject.mem_spread {o more : JsonObject} {kv : String × Json}
    (h : kv ∈ o.spread more) : kv ∈ o ∨ kv ∈ more := by
  induction more generalizing o with
  | nil => exact .inl h
  | cons kw more ih =>
      obtain h | h := ih h
      · obtain h | rfl := JsonObject.mem_set h
        · exact .inl h
        · exact .inr List.mem_cons_self
      · exact .inr (List.mem_cons_of_mem _ h)

theorem JsonObject.mem_ofMembers {members : List (String × Json)} {kv : String × Json}
    (h : kv ∈ JsonObject.ofMembers members) : kv ∈ members :=
  (JsonObject.mem_spread ((JsonObject.inOwnOrder_perm _).mem_iff.mp h)).resolve_left
    List.not_mem_nil

theorem scanWord_read {N : Numerals} {cs rest : List Char} {v : Json}
    (h : scanWord cs = some (v, rest)) : v.Read N := by
  unfold scanWord at h
  split at h <;> cases h
  · exact .null
  · exact .bool true
  · exact .bool false

theorem scanValue_read {N : Numerals} {depth : Nat} {cs rest : List Char} {v : Json}
    (h : scanValue N depth cs = some (v, rest)) : v.Read N := by
  induction depth generalizing cs v rest with
  | zero => cases h
  | succ depth ih =>
      rw [scanValue] at h
      split at h
      · split at h
        · obtain ⟨⟨units, cs'⟩, -, h⟩ := Option.map_eq_some_iff.mp h
          cases h
          exact .str _
        · split at h
          · obtain ⟨⟨xs, cs'⟩, hxs, h⟩ := Option.map_eq_some_iff.mp h
            cases h
            exact .arr (scanList_all ih hxs)
          · split at h
            · obtain ⟨⟨members, cs'⟩, hmembers, h⟩ := Option.map_eq_some_iff.mp h
              cases h
              obtain ⟨hkeys, horder⟩ := JsonObject.ofMembers_ordered members
              have hall := scanList_all (P := fun kv => Json.Read N kv.2)
                (scanMember_value ih) hmembers
              exact .obj hkeys horder fun kv hkv => hall kv (JsonObject.mem_ofMembers hkv)
            · split at h
              · obtain ⟨⟨literal, cs'⟩, hliteral, h⟩ := Option.map_eq_some_iff.mp h
                cases h
                refine .num ?_
                rw [isNumberLiteral, String.toList_ofList, decide_eq_true_eq]
                exact scans_number.alone hliteral
              · exact scanWord_read h
      · cases h

/-- Whatever is accepted is a value as it is read. -/
theorem Json.parse_read {N : Numerals} {text : String} {v : Json}
    (h : Json.parse N text = some v) : v.Read N := by
  obtain ⟨⟨w, rest⟩, hw, h⟩ := Option.bind_eq_some_iff.mp h
  dsimp only at h
  split at h
  · cases h
    exact scanValue_read hw
  · cases h

/-- An integer that was read is a number there is. -/
theorem Json.Read.isFinite_int {N : Numerals} {i : Int} (h : (Json.num (.int i)).Read N) :
    (Number.int i).IsFinite N := by
  have hdigits := isNumberLiteral_toString i
  have hbounded : (Number.int i).isInfinite = false := by
    rw [Number.isInfinite, Bool.or_eq_false_iff]
    constructor <;>
    · rw [decide_eq_false_iff_not]
      intro htext
      rw [show toString i = _ from htext] at hdigits
      exact absurd hdigits (by decide)
  generalize hn : Number.int i = n at h hbounded
  cases h with
  | @num literal hliteral => exact N.value_text hliteral hbounded

theorem JsonObject.mem_of_get? {o : JsonObject} {key : String} {v : Json}
    (h : o.get? key = some v) : (key, v) ∈ o := by
  induction o with
  | nil => cases h
  | cons kw o ih =>
      obtain ⟨k, w⟩ := kw
      rw [JsonObject.get?_cons] at h
      split at h <;> rename_i hk
      · cases h
        rw [hk]
        exact List.mem_cons_self
      · exact List.mem_cons_of_mem _ (ih h)

/-- What an object that was read has as a property was read too. -/
theorem Json.Read.get? {N : Numerals} {o : JsonObject} {key : String} {v : Json}
    (h : (Json.obj o).Read N) (hv : o.get? key = some v) : v.Read N := by
  cases h with
  | obj hkeys horder hall => exact hall (key, v) (JsonObject.mem_of_get? hv)

end VcalmStatus.Js
