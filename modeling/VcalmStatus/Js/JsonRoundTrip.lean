import VcalmStatus.Js.JsonText

/-!
What `JSON.parse` makes of what `JSON.stringify` wrote. Reading gives back the value itself exactly
when its numbers are finite and the keys of its objects are distinct and in the order in which an
object lists them.
-/

namespace VcalmStatus.Js

mutual

/-- What is left of a value that is written and read: numbers are taken at their text, and an object
lists its keys in order. -/
def Json.readBack (N : Numerals) : Json → Json
  | .null => .null
  | .bool b => .bool b
  | .num n => if isNumberLiteral n.toText then .num (N.value n.toText) else .null
  | .str s => .str s
  | .arr xs => .arr (elementsReadBack N xs)
  | .obj o => .obj (JsonObject.ofMembers (membersReadBack N o))

def elementsReadBack (N : Numerals) : List Json → List Json
  | [] => []
  | x :: xs => x.readBack N :: elementsReadBack N xs

def membersReadBack (N : Numerals) : List (String × Json) → List (String × Json)
  | [] => []
  | (key, v) :: o => (key, v.readBack N) :: membersReadBack N o

end

theorem elementsReadBack_eq (N : Numerals) (xs : List Json) :
    elementsReadBack N xs = xs.map (Json.readBack N) := by
  induction xs with
  | nil => rfl
  | cons x xs ih => rw [elementsReadBack, ih, List.map_cons]

theorem membersReadBack_eq (N : Numerals) (o : List (String × Json)) :
    membersReadBack N o = o.map fun kv => (kv.1, kv.2.readBack N) := by
  induction o with
  | nil => rfl
  | cons kv o ih => rw [membersReadBack, ih, List.map_cons]

theorem skipSpace_of_head {c : Char} {cs : List Char} (h : isJsonSpace c = false) :
    skipSpace (c :: cs) = c :: cs := by
  rw [skipSpace, List.dropWhile_cons, h]
  rfl

/-! ### Strings -/

theorem scanString_control (n : Fin 32) (cs : List Char) :
    scanString (escapeControl n ++ cs) = prepend (CodeUnits.ofChar (Char.ofNat n)) (scanString cs) := by
  fin_cases n <;> rfl

theorem scanString_raw {c : Char} (hquote : c ≠ '"') (hbackslash : c ≠ '\\') (h : ¬c.toNat < 32)
    (cs : List Char) : scanString (c :: cs) = prepend (CodeUnits.ofChar c) (scanString cs) := by
  rw [scanString.eq_def]
  split <;> simp_all

theorem scanString_escapeChar (c : Char) (cs : List Char) :
    scanString (escapeChar c ++ cs) = prepend (CodeUnits.ofChar c) (scanString cs) := by
  unfold escapeChar
  split <;> rename_i hquote
  · rw [hquote]
    rfl
  · split <;> rename_i hbackslash
    · rw [hbackslash]
      rfl
    · split <;> rename_i hcontrol
      · rw [scanString_control ⟨c.toNat, hcontrol⟩, Char.ofNat_toNat]
      · exact scanString_raw hquote hbackslash hcontrol cs

theorem scanString_escaped (cs rest : List Char) :
    scanString (cs.flatMap escapeChar ++ '"' :: rest) = some (cs.flatMap CodeUnits.ofChar, rest) := by
  induction cs with
  | nil => rfl
  | cons c cs ih =>
      rw [List.flatMap_cons, List.append_assoc, scanString_escapeChar, ih]
      rfl

theorem toScalars_flatMap_ofChar (cs : List Char) :
    CodeUnits.toScalars (cs.flatMap CodeUnits.ofChar) = cs := by
  induction cs with
  | nil => rfl
  | cons c cs ih => rw [List.flatMap_cons, CodeUnits.toScalars_ofChar_append, ih]

theorem quote_toList (s : String) :
    (quote s).toList = '"' :: (s.toList.flatMap escapeChar ++ ['"']) := by
  simp [quote]

/-- A quoted string is read back, whatever follows it. -/
theorem scanString_quote (s : String) (rest : List Char) :
    ∃ units, scanString ((quote s).toList.tail ++ rest) = some (units, rest) ∧
      CodeUnits.toText units = s := by
  refine ⟨s.toList.flatMap CodeUnits.ofChar, ?_, ?_⟩
  · rw [quote_toList, List.tail_cons, List.append_assoc, List.singleton_append]
    exact scanString_escaped s.toList rest
  · rw [CodeUnits.toText, toScalars_flatMap_ofChar, String.ofList_toList]

/-! ### Items with commas between them -/

/-- Where a bracket or a comma may stand: it is no space and no part of a number. -/
structure IsDelimiter (c : Char) : Prop where
  not_space : isJsonSpace c = false
  not_number : isNumberChar c = false

theorem skipSpace_delimiter {c : Char} (h : IsDelimiter c) (cs : List Char) :
    skipSpace (c :: cs) = c :: cs := skipSpace_of_head h.not_space

theorem comma_isDelimiter : IsDelimiter ',' := ⟨by decide, by decide⟩

theorem length_le_intercalate (texts : List (List Char)) :
    texts.length ≤ ([','].intercalate texts).length + 1 := by
  induction texts with
  | nil => simp
  | cons t texts ih =>
      cases texts with
      | nil => simp
      | cons t' texts =>
          rw [List.intercalate_cons_cons, List.length_append, List.length_append]
          simp only [List.length_cons, List.length_nil] at ih ⊢
          omega

section Items

variable {α β : Type} {item : List Char → Option (β × List Char)} {close : Char}
  {text : α → List Char} {f : α → β}

theorem scanItems_join (hclose : IsDelimiter close) (hcomma : close ≠ ',') {xs : List α}
    (hne : xs ≠ []) (rest : List Char)
    (hitem : ∀ x ∈ xs, ∀ rest, EndsNumber rest → item (text x ++ rest) = some (f x, rest)) :
    ∀ {bound : Nat}, xs.length ≤ bound →
      scanItems item close bound ([','].intercalate (xs.map text) ++ close :: rest) =
        some (xs.map f, rest) := by
  induction xs with
  | nil => exact absurd rfl hne
  | cons x xs ih =>
      intro bound hbound
      obtain ⟨bound, rfl⟩ : ∃ n, bound = n + 1 := ⟨bound - 1, by simp at hbound; omega⟩
      cases xs with
      | nil =>
          have hx := hitem x List.mem_cons_self (close :: rest) (.cons hclose.not_number rest)
          simp [scanItems, hx, skipSpace_delimiter hclose]
      | cons y ys =>
          have hmore := ih (List.cons_ne_nil y ys)
            (fun z hz => hitem z (List.mem_cons_of_mem x hz)) (by simpa using hbound)
          simp only [List.map_cons] at hmore
          have hx := hitem x List.mem_cons_self
            (',' :: ([','].intercalate ((y :: ys).map text) ++ close :: rest))
            (.cons comma_isDelimiter.not_number _)
          have htext : [','].intercalate ((x :: y :: ys).map text) ++ close :: rest =
              text x ++ ',' :: ([','].intercalate ((y :: ys).map text) ++ close :: rest) := by
            simp only [List.map_cons, List.intercalate_cons_cons, List.append_assoc,
              List.cons_append, List.nil_append]
          rw [htext, scanItems, hx]
          simp only [Option.bind_eq_bind, Option.bind_some,
            skipSpace_delimiter comma_isDelimiter, if_neg hcomma.symm, if_true, hmore,
            List.map_cons]

/-- A list of items is read when each item is, and none begins like the end of the list. -/
theorem scanList_join (hclose : IsDelimiter close) (hcomma : close ≠ ',') {xs : List α}
    (rest : List Char)
    (hhead : ∀ x ∈ xs, ∃ c cs, text x = c :: cs ∧ isJsonSpace c = false ∧ c ≠ close)
    (hitem : ∀ x ∈ xs, ∀ rest, EndsNumber rest → item (text x ++ rest) = some (f x, rest)) :
    scanList item close ([','].intercalate (xs.map text) ++ close :: rest) =
      some (xs.map f, rest) := by
  cases xs with
  | nil => simp [scanList, skipSpace_delimiter hclose]
  | cons x xs =>
      obtain ⟨c, cs, hc, hspace, hne⟩ := hhead x List.mem_cons_self
      obtain ⟨cs', hcs'⟩ : ∃ cs', [','].intercalate ((x :: xs).map text) = c :: cs' := by
        cases xs with
        | nil => exact ⟨cs, by simp [hc]⟩
        | cons y ys =>
            exact ⟨cs ++ ([','] ++ [','].intercalate ((y :: ys).map text)), by
              simp [List.intercalate_cons_cons, hc]⟩
      have hbound : (x :: xs).length ≤
          ([','].intercalate ((x :: xs).map text) ++ close :: rest).length := by
        have hlength := length_le_intercalate ((x :: xs).map text)
        rw [List.length_map] at hlength
        simp only [List.length_append, List.length_cons] at hlength ⊢
        omega
      have hitems := scanItems_join hclose hcomma (List.cons_ne_nil x xs) rest hitem hbound
      rw [hcs', List.cons_append] at hitems ⊢
      rw [scanList, skipSpace_of_head hspace]
      simp only [if_neg hne]
      exact hitems

end Items

/-! ### Values -/

theorem not_isJsonSpace_of_isNumberChar {c : Char} (h : isNumberChar c = true) :
    isJsonSpace c = false := by
  rw [← Bool.not_eq_true]
  intro hspace
  simp only [isJsonSpace, Bool.or_eq_true, decide_eq_true_eq] at hspace
  obtain ((rfl | rfl) | rfl) | rfl := hspace <;> exact absurd h (by decide)

/-- No value begins with a space or like the end of an array. -/
theorem Json.head_chars (v : Json) :
    ∃ c cs, v.chars = c :: cs ∧ isJsonSpace c = false ∧ c ≠ ']' := by
  cases v with
  | null => exact ⟨'n', _, rfl, by decide, by decide⟩
  | bool b =>
      cases b with
      | true => exact ⟨'t', _, rfl, by decide, by decide⟩
      | false => exact ⟨'f', _, rfl, by decide, by decide⟩
  | str s => exact ⟨'"', _, quote_toList s, by decide, by decide⟩
  | arr xs => exact ⟨'[', _, rfl, by decide, by decide⟩
  | obj o => exact ⟨'\x7b', _, rfl, by decide, by decide⟩
  | num n =>
      rw [Json.chars, Number.stringify]
      split <;> rename_i h
      · have hscan : scanNumber n.toText.toList = some (n.toText.toList, []) :=
          of_decide_eq_true h
        cases hcs : n.toText.toList with
        | nil =>
            rw [hcs] at hscan
            exact absurd hscan (by decide)
        | cons c cs =>
            have hc : isNumberChar c = true :=
              scans_number.chars hscan c (hcs ▸ List.mem_cons_self)
            refine ⟨c, cs, rfl, not_isJsonSpace_of_isNumberChar hc, ?_⟩
            rintro rfl
            exact absurd hc (by decide)
      · exact ⟨'n', _, rfl, by decide, by decide⟩

theorem memberText_eq (key : String) (v : Json) (rest : List Char) :
    (quote key).toList ++ ':' :: v.chars ++ rest =
      '"' :: ((quote key).toList.tail ++ ':' :: (v.chars ++ rest)) := by
  rw [quote_toList]
  simp

theorem scanMember_text {value : List Char → Option (Json × List Char)} {key : String} {v w : Json}
    {rest : List Char} (h : value (v.chars ++ rest) = some (w, rest)) :
    scanMember value ((quote key).toList ++ ':' :: v.chars ++ rest) = some ((key, w), rest) := by
  obtain ⟨units, hscan, hkey⟩ := scanString_quote key (':' :: (v.chars ++ rest))
  have hquote : skipSpace ('"' :: ((quote key).toList.tail ++ ':' :: (v.chars ++ rest))) = _ :=
    skipSpace_of_head (by decide)
  have hcolon : skipSpace (':' :: (v.chars ++ rest)) = _ := skipSpace_of_head (by decide)
  rw [memberText_eq, scanMember, hquote]
  simp only [hscan, hcolon, h, hkey, Option.bind_eq_bind, Option.bind_some]

theorem length_le_of_mem_intercalate {texts : List (List Char)} {t : List Char}
    (h : t ∈ texts) : t.length ≤ ([','].intercalate texts).length := by
  induction texts with
  | nil => exact absurd h List.not_mem_nil
  | cons u texts ih =>
      cases texts with
      | nil => simp [List.mem_singleton.mp h]
      | cons u' texts =>
          rw [List.intercalate_cons_cons, List.length_append, List.length_append]
          obtain rfl | h := List.mem_cons.mp h
          · omega
          · have := ih h
            omega

/-- A number literal is read at its text. -/
theorem scanValue_literal {N : Numerals} {text : String} (h : isNumberLiteral text = true)
    (depth : Nat) {rest : List Char} (hrest : EndsNumber rest) :
    scanValue N (depth + 1) (text.toList ++ rest) = some (.num (N.value text), rest) := by
  have hscan : scanNumber text.toList = some (text.toList, []) := of_decide_eq_true h
  cases hcs : text.toList with
  | nil =>
      rw [hcs] at hscan
      exact absurd hscan (by decide)
  | cons c cs =>
      have hchar : isNumberChar c = true := scans_number.chars hscan c (hcs ▸ List.mem_cons_self)
      have hsome : scanNumber (c :: cs) ≠ none := by
        rw [← hcs, hscan]
        exact Option.some_ne_none _
      have hhead := scanNumber_head hsome
      have hother : ∀ d, isNumberChar d = false → c ≠ d := by
        rintro d hd rfl
        rw [hchar] at hd
        cases hd
      have hread : scanNumber (c :: (cs ++ rest)) = some (c :: cs, rest) := by
        rw [← List.cons_append, ← hcs, scans_number.before hscan hrest]
      rw [List.cons_append, scanValue, skipSpace_of_head (not_isJsonSpace_of_isNumberChar hchar)]
      simp only [if_neg (hother '"' (by decide)), if_neg (hother '[' (by decide)),
        if_neg (hother '\x7b' (by decide)), if_pos hhead, hread, Option.map_some, ← hcs,
        String.ofList_toList]

/-- What `stringify` writes is read, before whatever is no part of a number, at every depth that the
length of the text allows. -/
theorem scanValue_chars (N : Numerals) (v : Json) : ∀ {depth : Nat} {rest : List Char},
    v.chars.length ≤ depth → EndsNumber rest →
      scanValue N depth (v.chars ++ rest) = some (v.readBack N, rest) := by
  have hdeeper : ∀ {v : Json} {depth : Nat}, v.chars.length ≤ depth → ∃ n, depth = n + 1 := by
    intro v depth hdepth
    obtain ⟨c, cs, hcs, -⟩ := v.head_chars
    rw [hcs, List.length_cons] at hdepth
    exact ⟨depth - 1, by omega⟩
  induction v using Json.induction with
  | null =>
      intro depth rest hdepth hrest
      obtain ⟨depth, rfl⟩ := hdeeper hdepth
      rfl
  | bool b =>
      intro depth rest hdepth hrest
      obtain ⟨depth, rfl⟩ := hdeeper hdepth
      cases b <;> rfl
  | num n =>
      intro depth rest hdepth hrest
      obtain ⟨depth, rfl⟩ := hdeeper hdepth
      rw [Json.chars, Number.stringify, Json.readBack]
      split <;> rename_i h
      · exact scanValue_literal h depth hrest
      · rfl
  | str s =>
      intro depth rest hdepth hrest
      obtain ⟨depth, rfl⟩ := hdeeper hdepth
      obtain ⟨units, hscan, htext⟩ := scanString_quote s rest
      have hquote : (quote s).toList ++ rest = '"' :: ((quote s).toList.tail ++ rest) := by
        rw [quote_toList]
        rfl
      have hhead : skipSpace ('"' :: ((quote s).toList.tail ++ rest)) = _ :=
        skipSpace_of_head (by decide)
      rw [Json.chars, hquote, scanValue, hhead]
      simp [hscan, htext, Json.readBack]
  | arr xs ih =>
      intro depth rest hdepth hrest
      obtain ⟨depth, rfl⟩ := hdeeper hdepth
      rw [Json.chars, elementTexts_eq] at hdepth ⊢
      simp only [List.length_append, List.length_cons, List.length_nil] at hdepth
      have hlist : scanList (scanValue N depth) ']'
          ([','].intercalate (xs.map Json.chars) ++ ']' :: rest) =
            some (xs.map (Json.readBack N), rest) := by
        refine scanList_join ⟨by decide, by decide⟩ (by decide) rest
          (fun x _ => x.head_chars) (fun x hx rest hrest => ih x hx ?_ hrest)
        have hx := length_le_of_mem_intercalate (List.mem_map_of_mem (f := Json.chars) hx)
        omega
      have hopen : skipSpace ('[' :: ([','].intercalate (xs.map Json.chars) ++ ']' :: rest)) = _ :=
        skipSpace_of_head (by decide)
      simp only [List.cons_append, List.append_assoc, List.nil_append]
      rw [scanValue, hopen]
      simp [hlist, Json.readBack, elementsReadBack_eq]
  | obj o ih =>
      intro depth rest hdepth hrest
      obtain ⟨depth, rfl⟩ := hdeeper hdepth
      rw [Json.chars, memberTexts_eq] at hdepth ⊢
      simp only [List.length_append, List.length_cons, List.length_nil] at hdepth
      have hlist : scanList (scanMember (scanValue N depth)) '\x7d'
          ([','].intercalate (o.map fun kv => (quote kv.1).toList ++ ':' :: kv.2.chars) ++
            '\x7d' :: rest) = some (o.map fun kv => (kv.1, kv.2.readBack N), rest) := by
        refine scanList_join ⟨by decide, by decide⟩ (by decide) rest ?_ ?_
        · intro kv hkv
          exact ⟨'"', _, by rw [quote_toList]; rfl, by decide, by decide⟩
        · intro kv hkv rest hrest
          refine scanMember_text (ih kv hkv ?_ hrest)
          have hx := length_le_of_mem_intercalate
            (List.mem_map_of_mem (f := fun kv => (quote kv.1).toList ++ ':' :: kv.2.chars) hkv)
          rw [List.length_append, List.length_cons] at hx
          omega
      have hopen : skipSpace ('\x7b' :: ([','].intercalate
          (o.map fun kv => (quote kv.1).toList ++ ':' :: kv.2.chars) ++ '\x7d' :: rest)) = _ :=
        skipSpace_of_head (by decide)
      simp only [List.cons_append, List.append_assoc, List.nil_append]
      rw [scanValue, hopen]
      simp [hlist, Json.readBack, membersReadBack_eq]

/-- What `JSON.parse` makes of what `JSON.stringify` wrote. -/
theorem Json.parse_stringify (N : Numerals) (v : Json) :
    Json.parse N v.stringify = some (v.readBack N) := by
  have hread : scanValue N (v.chars.length + 1) (v.chars ++ []) = some (v.readBack N, []) :=
    scanValue_chars N v (Nat.le_succ _) .nil
  rw [List.append_nil] at hread
  rw [Json.parse, Json.stringify, String.toList_ofList, String.length_ofList, hread]
  rfl

/-! ### The values that come back as they are -/

/-- Finite numbers, and objects whose keys are distinct and in the order in which an object lists
them. -/
inductive Json.Storable (N : Numerals) : Json → Prop
  | null : Storable N .null
  | bool (b : Bool) : Storable N (.bool b)
  | num {n : Number} (h : n.IsFinite N) : Storable N (.num n)
  | str (s : String) : Storable N (.str s)
  | arr {xs : List Json} (h : ∀ x ∈ xs, Storable N x) : Storable N (.arr xs)
  | obj {o : JsonObject} (hkeys : (o.map Prod.fst).Nodup) (horder : o.inOwnOrder = o)
      (h : ∀ kv ∈ o, Storable N kv.2) : Storable N (.obj o)

theorem JsonObject.set_of_not_mem {o : JsonObject} {key : String} (h : key ∉ o.map Prod.fst)
    (v : Json) : o.set key v = o ++ [(key, v)] := by
  induction o with
  | nil => rfl
  | cons kw o ih =>
      obtain ⟨k, w⟩ := kw
      simp only [List.map_cons, List.mem_cons, not_or] at h
      rw [JsonObject.set, if_neg (Ne.symm h.1), ih h.2, List.cons_append]

theorem JsonObject.spread_of_nodup {o more : JsonObject}
    (h : ((o ++ more).map Prod.fst).Nodup) : o.spread more = o ++ more := by
  induction more generalizing o with
  | nil => simp [JsonObject.spread]
  | cons kv more ih =>
      have hkey : kv.1 ∉ o.map Prod.fst := by
        rw [List.map_append, List.map_cons, List.nodup_middle, List.nodup_cons] at h
        exact fun hmem => h.1 (List.mem_append_left _ hmem)
      have hstep : o.spread (kv :: more) = (o.set kv.1 kv.2).spread more := rfl
      rw [hstep, JsonObject.set_of_not_mem hkey, ih (by simpa using h), List.append_assoc]
      rfl

theorem JsonObject.inOwnOrder_map (o : JsonObject) (f : Json → Json) :
    JsonObject.inOwnOrder (o.map fun kv => (kv.1, f kv.2)) =
      o.inOwnOrder.map fun kv => (kv.1, f kv.2) := by
  unfold JsonObject.inOwnOrder
  rw [List.map_append, List.filter_map, List.filter_map,
    List.map_insertionSort _ (fun a b : String × Json => ofDigits a.1 ≤ ofDigits b.1)]
  · rfl
  · exact fun _ _ _ _ => Iff.rfl

/-- Keys that are no array indexes stay in the order they were made in. -/
theorem JsonObject.inOwnOrder_of_names {o : JsonObject}
    (h : ∀ kv ∈ o, isArrayIndex kv.1 = false) : o.inOwnOrder = o := by
  have hnone : o.filter (fun kv => isArrayIndex kv.1) = [] :=
    List.filter_eq_nil_iff.mpr fun kv hkv => by simp [h kv hkv]
  have hall : o.filter (fun kv => !isArrayIndex kv.1) = o :=
    List.filter_eq_self.mpr fun kv hkv => by simp [h kv hkv]
  rw [JsonObject.inOwnOrder, hnone, hall]
  rfl

theorem JsonObject.inOwnOrder_perm (o : JsonObject) : o.inOwnOrder.Perm o :=
  ((List.perm_insertionSort _ _).append_right _).trans (List.filter_append_perm _ _)

theorem JsonObject.inOwnOrder_idem (o : JsonObject) : o.inOwnOrder.inOwnOrder = o.inOwnOrder := by
  set indexed := (o.filter fun kv => isArrayIndex kv.1).insertionSort
    fun a b => ofDigits a.1 ≤ ofDigits b.1 with hindexed
  set others := o.filter fun kv => !isArrayIndex kv.1 with hothers
  have hfirst : ∀ kv ∈ indexed, isArrayIndex kv.1 = true := fun kv hkv =>
    (List.mem_filter.mp ((List.mem_insertionSort _).mp hkv)).2
  have hsecond : ∀ kv ∈ others, isArrayIndex kv.1 = false := fun kv hkv => by
    simpa using (List.mem_filter.mp hkv).2
  have hsorted : indexed.insertionSort (fun a b => ofDigits a.1 ≤ ofDigits b.1) = indexed := by
    have htotal : Std.Total fun a b : String × Json => ofDigits a.1 ≤ ofDigits b.1 :=
      ⟨fun a b => Nat.le_total _ _⟩
    have htrans : IsTrans (String × Json) fun a b => ofDigits a.1 ≤ ofDigits b.1 :=
      ⟨fun _ _ _ => Nat.le_trans⟩
    exact (List.pairwise_insertionSort _ _).insertionSort_eq
  have horder : o.inOwnOrder = indexed ++ others := rfl
  have hind : (indexed ++ others).filter (fun kv => isArrayIndex kv.1) = indexed := by
    rw [List.filter_append, List.filter_eq_self.mpr hfirst,
      List.filter_eq_nil_iff.mpr (fun kv hkv => by simp [hsecond kv hkv]), List.append_nil]
  have hoth : (indexed ++ others).filter (fun kv => !isArrayIndex kv.1) = others := by
    rw [List.filter_append, List.filter_eq_nil_iff.mpr (fun kv hkv => by simp [hfirst kv hkv]),
      List.filter_eq_self.mpr (fun kv hkv => by simp [hsecond kv hkv]), List.nil_append]
  rw [horder, JsonObject.inOwnOrder, hind, hoth, hsorted]

theorem JsonObject.set_keys (o : JsonObject) (key : String) (v : Json) :
    (o.set key v).map Prod.fst = if key ∈ o.map Prod.fst then o.map Prod.fst
      else o.map Prod.fst ++ [key] := by
  induction o with
  | nil => rfl
  | cons kw o ih =>
      obtain ⟨k, w⟩ := kw
      rw [JsonObject.set]
      by_cases hk : k = key
      · simp [hk]
      · rw [if_neg hk, List.map_cons, ih]
        by_cases hmem : key ∈ o.map Prod.fst
        · rw [if_pos hmem, if_pos (by simpa using .inr (by simpa using hmem))]
          rfl
        · rw [if_neg hmem, if_neg (by simpa [Ne.symm hk] using hmem)]
          rfl

theorem JsonObject.keys_nodup_spread {o : JsonObject} (h : (o.map Prod.fst).Nodup)
    (more : JsonObject) : ((o.spread more).map Prod.fst).Nodup := by
  induction more generalizing o with
  | nil => exact h
  | cons kv more ih =>
      refine ih ?_
      rw [JsonObject.set_keys]
      split <;> rename_i hmem
      · exact h
      · exact List.nodup_append.mpr ⟨h, List.nodup_singleton _, fun a ha b hb => by
          rw [List.mem_singleton.mp hb]
          rintro rfl
          exact hmem ha⟩

/-- The object of a text has distinct keys in the order in which an object lists them. -/
theorem JsonObject.ofMembers_ordered (members : List (String × Json)) :
    ((JsonObject.ofMembers members).map Prod.fst).Nodup ∧
      (JsonObject.ofMembers members).inOwnOrder = JsonObject.ofMembers members :=
  ⟨((JsonObject.inOwnOrder_perm _).map Prod.fst).nodup_iff.mpr
    (JsonObject.keys_nodup_spread (o := []) List.nodup_nil members), JsonObject.inOwnOrder_idem _⟩

/-- The members of such an object make it again. -/
theorem JsonObject.ofMembers_self {o : JsonObject} (hkeys : (o.map Prod.fst).Nodup)
    (horder : o.inOwnOrder = o) : JsonObject.ofMembers o = o := by
  rw [JsonObject.ofMembers, JsonObject.spread_of_nodup (by simpa using hkeys), List.nil_append,
    horder]

/-- Reading the values of an object changes nothing but them. -/
theorem JsonObject.ofMembers_map {o : JsonObject} (hkeys : (o.map Prod.fst).Nodup)
    (horder : o.inOwnOrder = o) (f : Json → Json) :
    JsonObject.ofMembers (o.map fun kv => (kv.1, f kv.2)) = o.map fun kv => (kv.1, f kv.2) := by
  refine JsonObject.ofMembers_self (by simpa [Function.comp_def] using hkeys) ?_
  rw [JsonObject.inOwnOrder_map, horder]

theorem map_eq_self_iff {α : Type} {f : α → α} {xs : List α} :
    xs.map f = xs ↔ ∀ x ∈ xs, f x = x := by
  have h := List.map_eq_map_iff (f := f) (g := id) (l := xs)
  rwa [List.map_id] at h

/-- The values that come back as they are. -/
theorem Json.readBack_eq_self_iff {N : Numerals} {v : Json} : v.readBack N = v ↔ v.Storable N := by
  induction v using Json.induction with
  | null => exact ⟨fun _ => .null, fun _ => rfl⟩
  | bool b => exact ⟨fun _ => .bool b, fun _ => rfl⟩
  | str s => exact ⟨fun _ => .str s, fun _ => rfl⟩
  | num n =>
      constructor
      · intro h
        rw [Json.readBack] at h
        split at h <;> rename_i hliteral
        · exact .num ⟨hliteral, Json.num.inj h⟩
        · cases h
      · rintro (_ | _ | h | _)
        rw [Json.readBack, if_pos h.1, h.2]
  | arr xs ih =>
      rw [Json.readBack, elementsReadBack_eq, Json.arr.injEq, map_eq_self_iff]
      constructor
      · exact fun h => .arr fun x hx => (ih x hx).mp (h x hx)
      · rintro (_ | _ | _ | _ | h) x hx
        exact (ih x hx).mpr (h x hx)
  | obj o ih =>
      rw [Json.readBack, membersReadBack_eq, Json.obj.injEq]
      constructor
      · intro h
        obtain ⟨hkeys, horder⟩ := JsonObject.ofMembers_ordered
          (o.map fun kv => (kv.1, kv.2.readBack N))
        rw [h] at hkeys horder
        refine .obj hkeys horder fun kv hkv => (ih kv hkv).mp ?_
        rw [JsonObject.ofMembers_map hkeys horder, map_eq_self_iff] at h
        exact congrArg Prod.snd (h kv hkv)
      · rintro (_ | _ | _ | _ | _ | ⟨hkeys, horder, h⟩)
        rw [JsonObject.ofMembers_map hkeys horder, map_eq_self_iff]
        exact fun kv hkv => Prod.ext rfl ((ih kv hkv).mpr (h kv hkv))

end VcalmStatus.Js
