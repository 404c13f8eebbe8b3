import Mathlib.Data.List.Nodup
import VcalmStatus.Js.Lines

/-!
`process.env`: names with their texts, in the order in which they came. Assigning to a name that is
there keeps its place.
-/

namespace VcalmStatus

/-- The variables in order, each name once. -/
structure ProcessEnv where
  entries : List (String × String)
  nodup : (entries.map Prod.fst).Nodup

namespace ProcessEnv

def empty : ProcessEnv := ⟨[], List.nodup_nil⟩

/-- `env[key]`, `none` for `undefined`. -/
def get? (env : ProcessEnv) (key : String) : Option String := env.entries.lookup key

/-- The entries after `env[key] = value`. -/
def setEntry (key value : String) : List (String × String) → List (String × String)
  | [] => [(key, value)]
  | (k, v) :: entries =>
      if k = key then (k, value) :: entries else (k, v) :: setEntry key value entries

theorem map_fst_setEntry (key value : String) (entries : List (String × String)) :
    (setEntry key value entries).map Prod.fst =
      if key ∈ entries.map Prod.fst then entries.map Prod.fst
      else entries.map Prod.fst ++ [key] := by
  induction entries with
  | nil => rfl
  | cons e entries ih =>
      obtain ⟨k, v⟩ := e
      rw [setEntry]
      by_cases hk : k = key
      · simp [hk]
      · have hne : key ≠ k := fun h => hk h.symm
        simp only [if_neg hk, List.map_cons, ih, List.mem_cons, hne, false_or]
        split <;> rfl

/-- `env[key] = value`. -/
def set (env : ProcessEnv) (key value : String) : ProcessEnv where
  entries := setEntry key value env.entries
  nodup := by
    rw [map_fst_setEntry]
    split <;> rename_i hkey
    · exact env.nodup
    · exact List.nodup_append.mpr ⟨env.nodup, List.nodup_singleton key, by
        intro k hk l hl hkl
        exact hkey (List.mem_singleton.mp hl ▸ hkl ▸ hk)⟩

/-- Assignments one after the other. -/
def assign (env : ProcessEnv) (assignments : List (String × String)) : ProcessEnv :=
  assignments.foldl (fun env a => env.set a.1 a.2) env

@[simp] theorem assign_nil (env : ProcessEnv) : env.assign [] = env := rfl

theorem assign_cons (env : ProcessEnv) (a : String × String)
    (assignments : List (String × String)) :
    env.assign (a :: assignments) = (env.set a.1 a.2).assign assignments := rfl

theorem assign_append (env : ProcessEnv) (as bs : List (String × String)) :
    env.assign (as ++ bs) = (env.assign as).assign bs := List.foldl_append

@[simp] theorem get?_empty (key : String) : empty.get? key = none := rfl

theorem lookup_setEntry_self (key value : String) (entries : List (String × String)) :
    (setEntry key value entries).lookup key = some value := by
  induction entries with
  | nil => simp [setEntry]
  | cons e entries ih =>
      obtain ⟨k, v⟩ := e
      rw [setEntry]
      split <;> rename_i hk
      · simp [hk]
      · have hne : (key == k) = false := by simpa using fun h : key = k => hk h.symm
        simp [List.lookup_cons, hne, ih]

theorem lookup_setEntry_of_ne {key key' : String} (value : String) (h : key' ≠ key)
    (entries : List (String × String)) :
    (setEntry key value entries).lookup key' = entries.lookup key' := by
  induction entries with
  | nil => simp [setEntry, h]
  | cons e entries ih =>
      obtain ⟨k, v⟩ := e
      rw [setEntry]
      split <;> rename_i hk
      · subst hk
        have hne : (key' == k) = false := by simpa using h
        simp [List.lookup_cons, hne]
      · simp [List.lookup_cons, ih]

@[simp] theorem get?_set_self (env : ProcessEnv) (key value : String) :
    (env.set key value).get? key = some value := lookup_setEntry_self key value env.entries

theorem get?_set_of_ne (env : ProcessEnv) {key key' : String} (value : String)
    (h : key' ≠ key) : (env.set key value).get? key' = env.get? key' :=
  lookup_setEntry_of_ne value h env.entries

/-- A name that is not assigned to keeps its text. -/
theorem get?_assign_of_not_mem {assignments : List (String × String)} {key : String}
    (h : key ∉ assignments.map Prod.fst) (env : ProcessEnv) :
    (env.assign assignments).get? key = env.get? key := by
  induction assignments generalizing env with
  | nil => rfl
  | cons a assignments ih =>
      rw [List.map_cons, List.mem_cons, not_or] at h
      rw [assign_cons, ih h.2, get?_set_of_ne _ _ h.1]

/-- A name that is assigned to once has the text it was given. -/
theorem get?_assign_of_mem {assignments : List (String × String)} {key value : String}
    (hnodup : (assignments.map Prod.fst).Nodup) (h : (key, value) ∈ assignments)
    (env : ProcessEnv) : (env.assign assignments).get? key = some value := by
  induction assignments generalizing env with
  | nil => simp at h
  | cons a assignments ih =>
      rw [List.map_cons, List.nodup_cons] at hnodup
      rw [assign_cons]
      rcases List.mem_cons.mp h with rfl | h
      · rw [get?_assign_of_not_mem hnodup.1, get?_set_self]
      · exact ih hnodup.2 h _

/-- The last assignment to a name is the one that counts. -/
theorem get?_assign_eq_some_iff {env : ProcessEnv} {assignments : List (String × String)}
    {key value : String} :
    (env.assign assignments).get? key = some value ↔
      (∃ before after, assignments = before ++ (key, value) :: after ∧
        key ∉ after.map Prod.fst) ∨
      (key ∉ assignments.map Prod.fst ∧ env.get? key = some value) := by
  induction assignments generalizing env with
  | nil => simp
  | cons a assignments ih =>
      obtain ⟨k, v⟩ := a
      rw [assign_cons, ih]
      constructor
      · rintro (⟨before, after, rfl, hafter⟩ | ⟨hkey, hget⟩)
        · exact .inl ⟨(k, v) :: before, after, rfl, hafter⟩
        · by_cases hk : key = k
          · subst hk
            rw [get?_set_self] at hget
            cases hget
            exact .inl ⟨[], assignments, rfl, hkey⟩
          · rw [get?_set_of_ne _ _ hk] at hget
            exact .inr ⟨by simp [hk, hkey], hget⟩
      · rintro (⟨before, after, hsplit, hafter⟩ | ⟨hkey, hget⟩)
        · cases before with
          | nil =>
              cases hsplit
              exact .inr ⟨hafter, get?_set_self _ _ _⟩
          | cons b before =>
              cases hsplit
              exact .inl ⟨before, after, rfl, hafter⟩
        · rw [List.map_cons, List.mem_cons, not_or] at hkey
          exact .inr ⟨hkey.2, by rw [get?_set_of_ne _ _ hkey.1]; exact hget⟩

/-- A name that is assigned to has a text. -/
theorem exists_get?_assign {assignments : List (String × String)} {key : String}
    (h : key ∈ assignments.map Prod.fst) (env : ProcessEnv) :
    ∃ value, (env.assign assignments).get? key = some value := by
  induction assignments generalizing env with
  | nil => cases h
  | cons a assignments ih =>
      rw [assign_cons]
      by_cases hlater : key ∈ assignments.map Prod.fst
      · exact ih hlater _
      · rw [List.map_cons, List.mem_cons, or_iff_left hlater] at h
        refine ⟨a.2, ?_⟩
        rw [get?_assign_of_not_mem hlater, h, get?_set_self]

/-- `delete env[key]`. -/
def unset (env : ProcessEnv) (key : String) : ProcessEnv where
  entries := env.entries.filter fun e => e.1 ≠ key
  nodup := env.nodup.sublist (List.filter_sublist.map Prod.fst)

@[simp] theorem get?_unset_self (env : ProcessEnv) (key : String) :
    (env.unset key).get? key = none := by
  refine List.lookup_eq_none_iff.mpr fun e he => ?_
  have hne : e.1 ≠ key := by simpa using (List.mem_filter.mp he).2
  simpa using hne.symm

theorem get?_unset_of_ne (env : ProcessEnv) {key key' : String} (h : key' ≠ key) :
    (env.unset key).get? key' = env.get? key' := by
  change (env.entries.filter _).lookup key' = env.entries.lookup key'
  induction env.entries with
  | nil => rfl
  | cons e entries ih =>
      obtain ⟨k, v⟩ := e
      rw [List.filter_cons]
      by_cases hk : k = key
      · have hne : (key' == k) = false := by simpa [hk] using h
        rw [if_neg (by simpa using hk), ih, List.lookup_cons, hne]
      · rw [if_pos (by simpa using hk), List.lookup_cons, List.lookup_cons, ih]

/-- Entries of other kinds of names stay where they are. -/
theorem filter_unset {p : String × String → Bool} {key : String}
    (h : ∀ value, p (key, value) = false) (env : ProcessEnv) :
    (env.unset key).entries.filter p = env.entries.filter p := by
  change (env.entries.filter _).filter p = _
  rw [List.filter_filter]
  refine List.filter_congr fun e _ => ?_
  obtain ⟨k, v⟩ := e
  by_cases hk : k = key
  · simp [hk, h]
  · simp [hk]

theorem mem_entries_iff {env : ProcessEnv} {key value : String} :
    (key, value) ∈ env.entries ↔ env.get? key = some value := by
  obtain ⟨entries, hnodup⟩ := env
  change (key, value) ∈ entries ↔ entries.lookup key = some value
  induction entries with
  | nil => simp
  | cons e entries ih =>
      obtain ⟨k, v⟩ := e
      rw [List.map_cons, List.nodup_cons] at hnodup
      rw [List.mem_cons, List.lookup_cons, ih hnodup.2]
      by_cases hk : key = k
      · subst hk
        have hnone : entries.lookup key ≠ some value := by
          intro hsome
          exact hnodup.1 (List.mem_map.mpr ⟨(key, value), (ih hnodup.2).mpr hsome, rfl⟩)
        simp [hnone, eq_comm]
      · have hne : (key == k) = false := by simpa using hk
        simp [hk, hne]

theorem mem_keys_of_get? {env : ProcessEnv} {key value : String} (h : env.get? key = some value) :
    key ∈ env.entries.map Prod.fst :=
  List.mem_map_of_mem (mem_entries_iff.mpr h)

theorem mem_setEntry {key value : String} {e : String × String}
    {entries : List (String × String)} (h : e ∈ setEntry key value entries) :
    e ∈ entries ∨ e = (key, value) := by
  induction entries with
  | nil => exact .inr (List.mem_singleton.mp h)
  | cons first entries ih =>
      obtain ⟨k, v⟩ := first
      rw [setEntry] at h
      split at h <;> rename_i hk
      · subst hk
        rcases List.mem_cons.mp h with rfl | h
        · exact .inr rfl
        · exact .inl (List.mem_cons_of_mem _ h)
      · rcases List.mem_cons.mp h with rfl | h
        · exact .inl List.mem_cons_self
        · exact (ih h).imp (List.mem_cons_of_mem _) id

/-- Every entry was there or has been assigned. -/
theorem mem_entries_assign {env : ProcessEnv} {assignments : List (String × String)}
    {e : String × String} (h : e ∈ (env.assign assignments).entries) :
    e ∈ env.entries ∨ e ∈ assignments := by
  induction assignments generalizing env with
  | nil => exact .inl h
  | cons a assignments ih =>
      rcases ih h with h | h
      · rcases mem_setEntry h with h | rfl
        · exact .inl h
        · exact .inr List.mem_cons_self
      · exact .inr (List.mem_cons_of_mem _ h)

/-- Assigning to a name leaves the entries of other kinds of names where they are. -/
theorem filter_setEntry {p : String × String → Bool} {key : String}
    (h : ∀ value, p (key, value) = false) (value : String) (entries : List (String × String)) :
    (setEntry key value entries).filter p = entries.filter p := by
  induction entries with
  | nil => simp [setEntry, h]
  | cons e entries ih =>
      obtain ⟨k, v⟩ := e
      rw [setEntry]
      split <;> rename_i hk
      · subst hk
        simp [h]
      · simp [List.filter_cons, ih]

theorem filter_entries_assign {p : String × String → Bool}
    {assignments : List (String × String)}
    (h : ∀ key ∈ assignments.map Prod.fst, ∀ value, p (key, value) = false) (env : ProcessEnv) :
    (env.assign assignments).entries.filter p = env.entries.filter p := by
  induction assignments generalizing env with
  | nil => rfl
  | cons a assignments ih =>
      rw [assign_cons, ih fun key hkey => h key (List.mem_cons_of_mem _ hkey)]
      exact filter_setEntry (h a.1 List.mem_cons_self) a.2 env.entries

end ProcessEnv

end VcalmStatus
