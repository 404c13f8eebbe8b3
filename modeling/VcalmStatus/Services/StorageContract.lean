import VcalmStatus.Effects.Simulation
import VcalmStatus.Services.SqlStorage

/-!
`StorageService` as its callers see it: what each call answers and what it does to the two tables.

The contract leaves one thing open. An allocation can be refused for more than one reason, and
which reason is reported is the order in which an implementation asks for them.
-/

namespace VcalmStatus

open Js Effects

/-- The calls of the interface; updates result in a `T`. -/
inductive StorageCall (T : Type)
  | createStatusList (record : NewStatusListRecord)
  | getStatusList (id : String)
  | findStatusLists (tenantId : String) (statusPurpose : Option StatusPurpose)
      (issuerInstanceId : Option String)
  | updateStatusList (id : String)
      (mutate : StatusListRecord → Except JsError (StatusListMutationResult T))
  | allocateIndex (allocation : NewIndexAllocation)
  | getAllocation (tenantId credentialId : String) (statusPurpose : StatusPurpose)
  | isIndexAllocated (listId : String) (statusListIndex : Nat)
  | countAllocations (listId : String)

@[reducible] def StorageCall.Answer {T : Type} : StorageCall T → Type
  | .createStatusList _ => Except JsError StatusListRecord
  | .getStatusList _ => Option StatusListRecord
  | .findStatusLists _ _ _ => List StatusListRecord
  | .updateStatusList _ _ => Except JsError T
  | .allocateIndex _ => Except JsError IndexAllocation
  | .getAllocation _ _ _ => Option IndexAllocation
  | .isIndexAllocated _ _ => Bool
  | .countAllocations _ => Nat

/-! ### Why an allocation is refused -/

inductive Refusal
  | unknownList
  | credentialAllocated
  | indexTaken
  deriving DecidableEq, Repr

namespace Refusal

def applies (db : Database) (allocation : NewIndexAllocation) : Refusal → Bool
  | .unknownList => (db.getStatusList allocation.listId).isNone
  | .credentialAllocated =>
      (db.getAllocation allocation.tenantId allocation.credentialId
        allocation.statusPurpose).isSome
  | .indexTaken => db.isIndexAllocated allocation.listId allocation.statusListIndex

def error (allocation : NewIndexAllocation) : Refusal → JsError
  | .unknownList =>
      .storage .listNotFound s!"Status list \"{allocation.listId}\" not found"
  | .credentialAllocated => .storage .credentialAlreadyAllocated
      s!"Credential \"{allocation.credentialId}\" already has a {allocation.statusPurpose.text} index"
  | .indexTaken => .storage .indexTaken
      s!"Index {allocation.statusListIndex} of list \"{allocation.listId}\" is already allocated"

/-- An order in which every reason is asked for. -/
def Complete (order : List Refusal) : Prop := ∀ r, r ∈ order

end Refusal

/-! ### The contract -/

namespace StorageContract

/-- The row of a new list at its first version. -/
def firstVersion (record : NewStatusListRecord) (now : Date) : StatusListRecord :=
  { record with version := 1, createdAt := now, updatedAt := now }

def allocated (allocation : NewIndexAllocation) (now : Date) : IndexAllocation :=
  { allocation with allocatedAt := now }

/-- The next version of a list, as its update writes it. -/
def nextVersion (current : StatusListRecord) (materialization : StatusListMaterialization)
    (now : Date) : RowUpdate :=
  ⟨current.id, materialization, current.version + 1, now⟩

/-- What a call answers at a moment, and the tables after it. -/
def answer {T : Type} (order : List Refusal) (now : Date) :
    Database → (call : StorageCall T) → call.Answer × Database
  | db, .createStatusList record =>
      if (db.getStatusList record.id).isSome then
        (.error (.storage .duplicateList s!"Status list \"{record.id}\" already exists"), db)
      else
        (.ok (firstVersion record now),
          { db with statusLists := db.statusLists ++ [firstVersion record now] })
  | db, .getStatusList id => (db.getStatusList id, db)
  | db, .findStatusLists tenantId statusPurpose issuerInstanceId =>
      (db.findStatusLists tenantId statusPurpose issuerInstanceId, db)
  | db, .updateStatusList id mutate =>
      match db.getStatusList id with
      | none => (.error (.storage .listNotFound s!"Status list \"{id}\" not found"), db)
      | some current =>
          match mutate current with
          | .error e => (.error e, db)
          | .ok outcome =>
              (.ok outcome.result,
                match outcome.materialization with
                | some materialization => db.update (nextVersion current materialization now)
                | none => db)
  | db, .allocateIndex allocation =>
      match order.find? (Refusal.applies db allocation) with
      | some refusal => (.error (refusal.error allocation), db)
      | none =>
          (.ok (allocated allocation now),
            { db with indexAllocations := db.indexAllocations ++ [allocated allocation now] })
  | db, .getAllocation tenantId credentialId statusPurpose =>
      (db.getAllocation tenantId credentialId statusPurpose, db)
  | db, .isIndexAllocated listId statusListIndex =>
      (db.isIndexAllocated listId statusListIndex, db)
  | db, .countAllocations listId => (db.countAllocations listId, db)

/-- No call waits. -/
def step {T : Type} (order : List Refusal) (now : Date) :
    Answers (StorageCall.Answer (T := T)) Database :=
  fun db call => some (answer order now db call)

/-! ### What every call keeps -/

/-- The row goes in exactly where no reason against it applies. -/
theorem admits_eq {order : List Refusal} (horder : Refusal.Complete order) (db : Database)
    (allocation : NewIndexAllocation) (now : Date) :
    db.admits (allocated allocation now) =
      (order.find? (Refusal.applies db allocation)).isNone := by
  rw [Bool.eq_iff_iff, Option.isNone_iff_eq_none, List.find?_eq_none]
  constructor
  · intro hadmits r _
    simp only [Database.admits, allocated, Bool.and_eq_true,
      Bool.not_eq_true'] at hadmits
    obtain ⟨⟨hlist, hindex⟩, hcredential⟩ := hadmits
    cases r with
    | unknownList => simpa [Refusal.applies] using Option.isSome_iff_ne_none.mp hlist
    | credentialAllocated => simpa [Refusal.applies] using hcredential
    | indexTaken => simpa [Refusal.applies] using hindex
  · intro h
    have hlist := h .unknownList (horder _)
    have hcredential := h .credentialAllocated (horder _)
    have hindex := h .indexTaken (horder _)
    simp only [Refusal.applies, Bool.not_eq_true] at hlist hcredential hindex
    simp only [Database.admits, allocated, hindex, Bool.and_eq_true,
      Bool.not_false, and_true]
    exact ⟨by simpa [Option.isSome_iff_ne_none] using hlist, by simpa using hcredential⟩

variable {T : Type} {order : List Refusal} {db : Database} {now : Date}

theorem keyed_createStatusList (h : db.Keyed) {row : StatusListRecord}
    (hfresh : db.getStatusList row.id = none) :
    Database.Keyed { db with statusLists := db.statusLists ++ [row] } where
  ids_nodup := Database.ids_nodup_append h.ids_nodup hfresh
  indexes_nodup := h.indexes_nodup
  credentials_nodup := h.credentials_nodup
  foreign a ha := by
    obtain ⟨old, hold, hid⟩ := h.foreign a ha
    exact ⟨old, List.mem_append_left _ hold, hid⟩

theorem keyed_update (h : db.Keyed) (u : RowUpdate) : (db.update u).Keyed where
  ids_nodup := by
    rw [Database.update_ids]
    exact h.ids_nodup
  indexes_nodup := h.indexes_nodup
  credentials_nodup := h.credentials_nodup
  foreign a ha := by
    obtain ⟨row, hrow, hid⟩ := h.foreign a ha
    exact ⟨u.apply row, Database.mem_update.mpr ⟨row, hrow, rfl⟩, by rw [RowUpdate.apply_id, hid]⟩

/-- A key that no row has keeps the keys distinct. -/
theorem nodup_map_append {K : Type} {f : IndexAllocation → K} {rows : List IndexAllocation}
    {a : IndexAllocation} (h : (rows.map f).Nodup) (hfresh : ∀ b ∈ rows, f b ≠ f a) :
    ((rows ++ [a]).map f).Nodup := by
  rw [List.map_append]
  apply List.Nodup.append h (List.nodup_singleton _)
  rw [List.disjoint_singleton]
  intro hmem
  obtain ⟨b, hb, heq⟩ := List.mem_map.mp hmem
  exact hfresh b hb heq

theorem keyed_allocateIndex (h : db.Keyed) {a : IndexAllocation} (hadmits : db.admits a = true) :
    Database.Keyed { db with indexAllocations := db.indexAllocations ++ [a] } := by
  obtain ⟨hlist, hindex, hcredential⟩ := Database.admits_iff.mp hadmits
  refine ⟨h.ids_nodup, nodup_map_append h.indexes_nodup ?_,
    nodup_map_append h.credentials_nodup ?_, fun b hb => ?_⟩
  · intro b hb heq
    exact hindex b hb (by simpa using heq)
  · intro b hb heq
    exact hcredential b hb (by simpa using heq)
  · rcases List.mem_append.mp hb with hb | hb
    · exact h.foreign b hb
    · rw [List.mem_singleton.mp hb]
      exact hlist

/-- Whatever is called, the tables keep their keys. -/
theorem keyed_answer (horder : Refusal.Complete order) (h : db.Keyed) (call : StorageCall T) :
    (answer order now db call).2.Keyed := by
  cases call with
  | createStatusList record =>
      simp only [answer]
      split <;> rename_i hfound
      · exact h
      · exact keyed_createStatusList h (by simpa [firstVersion] using hfound)
  | updateStatusList id mutate =>
      simp only [answer]
      split
      · exact h
      · split
        · exact h
        · dsimp only
          split
          · exact keyed_update h _
          · exact h
  | allocateIndex allocation =>
      have hadmits := admits_eq horder db allocation now
      simp only [answer]
      split <;> rename_i hrefusal
      · exact h
      · exact keyed_allocateIndex h (by rw [hadmits, hrefusal]; rfl)
  | getStatusList id => exact h
  | findStatusLists t p n => exact h
  | getAllocation t c p => exact h
  | isIndexAllocated listId n => exact h
  | countAllocations listId => exact h

end StorageContract

end VcalmStatus
