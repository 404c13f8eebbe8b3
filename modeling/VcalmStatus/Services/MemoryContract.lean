import VcalmStatus.Services.StorageMemory
import Mathlib.Data.List.Find

/-!
`MemoryStorage` keeps the contract.

Its maps are the two tables: the lists in the order of their creation, the allocations in the order
they were made, and for each list the set of its taken indexes. Allocations are found by a text in
which the tenant id, the credential id and the purpose stand one after the other with a NUL
between. That text tells them apart as long as no tenant id has a NUL in it.
-/

namespace VcalmStatus

open Js Effects

/-! ### The keys of allocations -/

theorem append_separator_inj {A : Type} {sep : A} {s t x y : List A} (hs : sep ∉ s) (ht : sep ∉ t)
    (h : s ++ sep :: x = t ++ sep :: y) : s = t ∧ x = y := by
  induction s generalizing t with
  | nil =>
      cases t with
      | nil => exact ⟨rfl, (List.cons.inj h).2⟩
      | cons b t => exact absurd (List.cons.inj h).1.symm (List.ne_of_not_mem_cons ht).symm
  | cons a s ih =>
      cases t with
      | nil => exact absurd (List.cons.inj h).1 (List.ne_of_not_mem_cons hs).symm
      | cons b t =>
          obtain ⟨hab, hrest⟩ := List.cons.inj h
          obtain ⟨hst, hxy⟩ := ih (List.not_mem_of_not_mem_cons hs)
            (List.not_mem_of_not_mem_cons ht) hrest
          exact ⟨by rw [hab, hst], hxy⟩

theorem StatusPurpose.text_injective : Function.Injective StatusPurpose.text := by
  intro a b h
  cases a <;> cases b <;> first | rfl | exact absurd h (by decide)

/-- Purposes have no NUL, so what stands after the last one of a key is its purpose. -/
theorem StatusPurpose.nul_not_mem (p : StatusPurpose) : nul ∉ p.text.toList := by
  cases p <;> decide

theorem allocationKey_toList (t c : String) (p : StatusPurpose) :
    (allocationKey t c p).toList = t.toList ++ nul :: (c.toList ++ nul :: p.text.toList) := by
  simp [allocationKey, ToString.toString]

/-- Two keys are one exactly where purpose and the text of tenant and credential are. -/
theorem allocationKey_eq_iff {t t' c c' : String} {p p' : StatusPurpose} :
    allocationKey t c p = allocationKey t' c' p' ↔ t ++ "\x00" ++ c = t' ++ "\x00" ++ c' ∧ p = p' := by
  constructor
  · intro h
    have hlist := congrArg (fun s : String => s.toList.reverse) h
    simp only [allocationKey_toList, List.reverse_append, List.reverse_cons, List.append_assoc,
      List.singleton_append] at hlist
    obtain ⟨hp, hrest⟩ := append_separator_inj
      (by simpa using p.nul_not_mem) (by simpa using p'.nul_not_mem) hlist
    refine ⟨?_, StatusPurpose.text_injective (String.toList_inj.mp (List.reverse_injective hp))⟩
    apply String.toList_inj.mp
    apply List.reverse_injective
    simpa using hrest
  · rintro ⟨h, rfl⟩
    have hlist := congrArg String.toList h
    apply String.toList_inj.mp
    simp only [String.toList_append, List.append_assoc] at hlist
    simp only [allocationKey_toList]
    have hnul : ("\x00" : String).toList = [nul] := rfl
    rw [hnul] at hlist
    have happend := congrArg (· ++ nul :: p.text.toList) hlist
    simpa using happend

/-- Without a NUL in the tenant ids a key is one credential's. -/
theorem allocationKey_inj {t t' c c' : String} {p p' : StatusPurpose} (ht : nul ∉ t.toList)
    (ht' : nul ∉ t'.toList) :
    allocationKey t c p = allocationKey t' c' p' ↔ t = t' ∧ c = c' ∧ p = p' := by
  constructor
  · intro h
    have hlist := congrArg String.toList h
    rw [allocationKey_toList, allocationKey_toList] at hlist
    obtain ⟨htenant, hrest⟩ := append_separator_inj ht ht' hlist
    obtain ⟨htc, hp⟩ := allocationKey_eq_iff.mp h
    rw [String.toList_inj.mp htenant, String.append_assoc, String.append_assoc,
      String.append_right_inj, String.append_right_inj] at htc
    exact ⟨String.toList_inj.mp htenant, htc, hp⟩
  · rintro ⟨rfl, rfl, rfl⟩
    rfl

/-! ### The maps as tables -/

def IndexAllocation.key (a : IndexAllocation) : String :=
  allocationKey a.tenantId a.credentialId a.statusPurpose

/-- No tenant id in the table has a NUL in it. -/
def Database.NulFree (db : Database) : Prop :=
  ∀ a ∈ db.indexAllocations, nul ∉ a.tenantId.toList

namespace MemoryStorage

/-- The maps hold exactly the rows of the tables, in their order. -/
structure Represents (db : Database) (m : MemoryStorage) : Prop where
  lists : m.lists.entries = db.statusLists.map fun row => (row.id, row)
  allocations : m.allocations.entries = db.indexAllocations.map fun a => (a.key, a)
  usedIndexes : ∀ listId, ((m.usedIndexes.get? listId).getD .empty).elements =
    (db.indexAllocations.filter fun a => a.listId = listId).map (·.statusListIndex)
  nulFree : db.NulFree

theorem represents_empty : Represents Database.empty empty where
  lists := rfl
  allocations := rfl
  usedIndexes := fun _ => rfl
  nulFree := nofun

namespace Represents

variable {db : Database} {m : MemoryStorage}

theorem get?_lists (h : Represents db m) (id : String) :
    m.lists.get? id = db.getStatusList id := by
  rw [JsMap.get?, h.lists, List.find?_map, Option.map_map]
  exact Option.map_id'

theorem has_lists (h : Represents db m) (id : String) :
    m.lists.has id = (db.getStatusList id).isSome := by
  rw [JsMap.has_eq_isSome, h.get?_lists]

theorem values_lists (h : Represents db m) : m.lists.values = db.statusLists := by
  rw [JsMap.values, h.lists, List.map_map]
  exact List.map_id' _

theorem values_allocations (h : Represents db m) :
    m.allocations.values = db.indexAllocations := by
  rw [JsMap.values, h.allocations, List.map_map]
  exact List.map_id' _

/-- A map has a key once. -/
theorem ids_nodup (h : Represents db m) : (db.statusLists.map (·.id)).Nodup := by
  have hnodup := m.lists.nodup
  rw [h.lists, List.map_map] at hnodup
  exact hnodup

/-- A key finds the row of its credential, when its tenant id has no NUL either. -/
theorem get?_allocations (h : Represents db m) {t : String} (ht : nul ∉ t.toList) (c : String)
    (p : StatusPurpose) : m.allocations.get? (allocationKey t c p) = db.getAllocation t c p := by
  rw [JsMap.get?, h.allocations, List.find?_map, Option.map_map, Database.getAllocation]
  have hsame : ∀ a ∈ db.indexAllocations,
      ((fun e : String × IndexAllocation => decide (e.1 = allocationKey t c p)) ∘
        fun a => (a.key, a)) a =
      decide (a.tenantId = t ∧ a.credentialId = c ∧ a.statusPurpose = p) := by
    intro a ha
    exact decide_eq_decide.mpr (allocationKey_inj (h.nulFree a ha) ht)
  rw [List.find?_congr hsame]
  exact Option.map_id'

theorem has_allocations (h : Represents db m) {t : String} (ht : nul ∉ t.toList) (c : String)
    (p : StatusPurpose) :
    m.allocations.has (allocationKey t c p) = (db.getAllocation t c p).isSome := by
  rw [JsMap.has_eq_isSome, h.get?_allocations ht]

theorem has_usedIndexes (h : Represents db m) (listId : String) (n : Nat) :
    ((m.usedIndexes.get? listId).getD .empty).has n = db.isIndexAllocated listId n := by
  rw [JsSet.has, h.usedIndexes, Bool.eq_iff_iff, Database.isIndexAllocated_iff,
    List.contains_iff_mem]
  simp only [List.mem_map, List.mem_filter, decide_eq_true_eq, and_assoc]

theorem isIndexAllocated (h : Represents db m) (listId : String) (n : Nat) :
    m.isIndexAllocated listId n = db.isIndexAllocated listId n := by
  rw [← h.has_usedIndexes, MemoryStorage.isIndexAllocated]
  cases m.usedIndexes.get? listId <;> rfl

theorem countAllocations (h : Represents db m) (listId : String) :
    m.countAllocations listId = db.countAllocations listId := by
  have hsize := congrArg List.length (h.usedIndexes listId)
  rw [List.length_map, ← List.countP_eq_length_filter] at hsize
  rw [Database.countAllocations, ← hsize, MemoryStorage.countAllocations]
  cases m.usedIndexes.get? listId <;> rfl

/-! ### Writing -/

theorem createStatusList (h : Represents db m) {row : StatusListRecord}
    (hfresh : db.getStatusList row.id = none) :
    Represents { db with statusLists := db.statusLists ++ [row] }
      { m with lists := m.lists.set row.id row } where
  lists := by
    have hnew : m.lists.has row.id = false := by rw [h.has_lists, hfresh]; rfl
    rw [JsMap.entries_set_of_new hnew, h.lists, List.map_append]
    rfl
  allocations := h.allocations
  usedIndexes := h.usedIndexes
  nulFree := h.nulFree

theorem materialize (h : Represents db m) {id : String} {current : StatusListRecord}
    (hcurrent : db.getStatusList id = some current)
    (materialization : StatusListMaterialization) (now : Date) :
    Represents (db.update (StorageContract.nextVersion current materialization now))
      (m.materialize now id current materialization) where
  lists := by
    obtain ⟨hmem, rfl⟩ := Database.mem_of_getStatusList hcurrent
    have hhas : m.lists.has current.id = true := by rw [h.has_lists, hcurrent]; rfl
    rw [MemoryStorage.materialize, JsMap.entries_set_of_has hhas, h.lists, Database.update,
      List.map_map, List.map_map]
    apply List.map_congr_left
    intro row hrow
    simp only [Function.comp_apply, RowUpdate.apply_id]
    by_cases hid : row.id = current.id
    · -- ids are distinct, so the row that is replaced is the one that was read
      have hrc : row = current := List.inj_on_of_nodup_map h.ids_nodup hrow hmem hid
      rw [if_pos hid, hrc, RowUpdate.apply_of_eq rfl]
      rfl
    · rw [if_neg hid, RowUpdate.apply_of_ne hid]
  allocations := h.allocations
  usedIndexes := h.usedIndexes
  nulFree := h.nulFree

theorem allocateIndex (h : Represents db m) {a : IndexAllocation} (ha : nul ∉ a.tenantId.toList)
    (hcredential : db.getAllocation a.tenantId a.credentialId a.statusPurpose = none)
    (hindex : db.isIndexAllocated a.listId a.statusListIndex = false) :
    Represents { db with indexAllocations := db.indexAllocations ++ [a] }
      { m with
        allocations := m.allocations.set a.key a
        usedIndexes := m.usedIndexes.set a.listId
          (((m.usedIndexes.get? a.listId).getD .empty).add a.statusListIndex) } where
  lists := h.lists
  allocations := by
    have hnew : m.allocations.has a.key = false := by
      rw [IndexAllocation.key, h.has_allocations ha, hcredential]
      rfl
    rw [JsMap.entries_set_of_new hnew, h.allocations, List.map_append]
    rfl
  usedIndexes := by
    intro listId
    have hnew : ((m.usedIndexes.get? a.listId).getD .empty).has a.statusListIndex = false := by
      rw [h.has_usedIndexes, hindex]
    rw [List.filter_append, List.map_append, JsMap.get?_set]
    by_cases hlist : a.listId = listId
    · rw [if_pos hlist, Option.getD_some, JsSet.elements_add_of_new hnew, h.usedIndexes, hlist]
      simp [hlist]
    · rw [if_neg hlist, h.usedIndexes]
      simp [hlist]
  nulFree := by
    intro b hb
    rcases List.mem_append.mp hb with hb | hb
    · exact h.nulFree b hb
    · rw [List.mem_singleton.mp hb]
      exact ha

end Represents

/-! ### Call by call -/

/-- The order in which `allocateIndex` asks for the reasons of a refusal. -/
def refusalOrder : List Refusal := [.unknownList, .credentialAllocated, .indexTaken]

end MemoryStorage

/-- The call names no tenant id with a NUL in it where allocations are looked up. -/
def StorageCall.NulFree {T : Type} : StorageCall T → Prop
  | .allocateIndex allocation => nul ∉ allocation.tenantId.toList
  | .getAllocation tenantId _ _ => nul ∉ tenantId.toList
  | _ => True

namespace MemoryStorage

variable {T : Type} {db : Database} {m : MemoryStorage}

theorem Represents.findStatusLists (h : Represents db m) (t : String) (p : Option StatusPurpose)
    (n : Option String) : m.findStatusLists t p n = db.findStatusLists t p n := by
  rw [MemoryStorage.findStatusLists, h.values_lists]
  rfl

theorem Represents.answer_createStatusList (h : Represents db m) (now : Date)
    (record : NewStatusListRecord) :
    (m.createStatusList now record).1 =
        (StorageContract.answer (T := T) refusalOrder now db (.createStatusList record)).1 ∧
      Represents (StorageContract.answer (T := T) refusalOrder now db (.createStatusList record)).2
        (m.createStatusList now record).2 := by
  simp only [MemoryStorage.createStatusList, StorageContract.answer, h.has_lists]
  split <;> rename_i hfound
  · exact ⟨rfl, h⟩
  · have hfresh : db.getStatusList (StorageContract.firstVersion record now).id = none := by
      simpa [StorageContract.firstVersion] using hfound
    exact ⟨rfl, h.createStatusList hfresh⟩

theorem Represents.answer_applyUpdate (h : Represents db m) (now : Date) (id : String)
    (mutate : StatusListRecord → Except JsError (StatusListMutationResult T)) :
    (m.applyUpdate now id mutate).1 =
        (StorageContract.answer refusalOrder now db (.updateStatusList id mutate)).1 ∧
      Represents (StorageContract.answer refusalOrder now db (.updateStatusList id mutate)).2
        (m.applyUpdate now id mutate).2 := by
  simp only [MemoryStorage.applyUpdate, StorageContract.answer, h.get?_lists]
  cases hrow : db.getStatusList id with
  | none => exact ⟨rfl, h⟩
  | some current =>
      dsimp only
      cases hm : mutate current with
      | error e => exact ⟨rfl, h⟩
      | ok outcome =>
          dsimp only
          cases hw : outcome.materialization with
          | none => exact ⟨rfl, h⟩
          | some materialization => exact ⟨rfl, h.materialize hrow materialization now⟩

theorem Represents.answer_allocateIndex (h : Represents db m) (now : Date)
    {allocation : NewIndexAllocation} (ht : nul ∉ allocation.tenantId.toList) :
    (m.allocateIndex now allocation).1 =
        (StorageContract.answer (T := T) refusalOrder now db (.allocateIndex allocation)).1 ∧
      Represents (StorageContract.answer (T := T) refusalOrder now db (.allocateIndex allocation)).2
        (m.allocateIndex now allocation).2 := by
  have hlist : Refusal.applies db allocation .unknownList =
      (m.lists.get? allocation.listId).isNone := by
    rw [h.get?_lists]
    rfl
  have hcredential : Refusal.applies db allocation .credentialAllocated =
      m.allocations.has (allocationKey allocation.tenantId allocation.credentialId
        allocation.statusPurpose) := (h.has_allocations ht _ _).symm
  have hindex : Refusal.applies db allocation .indexTaken =
      ((m.usedIndexes.get? allocation.listId).getD .empty).has allocation.statusListIndex :=
    (h.has_usedIndexes _ _).symm
  simp only [MemoryStorage.allocateIndex, StorageContract.answer, refusalOrder, List.find?_cons,
    hlist, hcredential, hindex]
  cases m.lists.get? allocation.listId with
  | none => exact ⟨rfl, h⟩
  | some row =>
      dsimp only [Option.isNone_some]
      cases hc : m.allocations.has (allocationKey allocation.tenantId allocation.credentialId
        allocation.statusPurpose) with
      | true => exact ⟨rfl, h⟩
      | false =>
          cases hi : ((m.usedIndexes.get? allocation.listId).getD .empty).has
            allocation.statusListIndex with
          | true => exact ⟨rfl, h⟩
          | false =>
              have hnone : db.getAllocation allocation.tenantId allocation.credentialId
                  allocation.statusPurpose = none := by
                simpa [Refusal.applies, hc] using hcredential
              exact ⟨rfl, h.allocateIndex (a := StorageContract.allocated allocation now) ht hnone
                (hindex.trans hi)⟩

/-- `MemoryStorage` answers every call as the contract does. -/
theorem Represents.answer (h : Represents db m) (now : Date) {call : StorageCall T}
    (hcall : call.NulFree) :
    (m.answer now call).1 = (StorageContract.answer refusalOrder now db call).1 ∧
      Represents (StorageContract.answer refusalOrder now db call).2 (m.answer now call).2 := by
  cases call with
  | createStatusList record => exact h.answer_createStatusList now record
  | getStatusList id => exact ⟨h.get?_lists id, h⟩
  | findStatusLists t p n => exact ⟨h.findStatusLists t p n, h⟩
  | updateStatusList id mutate => exact h.answer_applyUpdate now id mutate
  | allocateIndex allocation => exact h.answer_allocateIndex now hcall
  | getAllocation t c p => exact ⟨h.get?_allocations hcall c p, h⟩
  | isIndexAllocated listId n => exact ⟨h.isIndexAllocated listId n, h⟩
  | countAllocations listId => exact ⟨h.countAllocations listId, h⟩

theorem follows (now : Date) : Follows Represents (fun _ => StorageCall.NulFree (T := T))
    (StorageContract.step refusalOrder now) (step now) := by
  intro db m call r db' h hcall hstep
  obtain ⟨hanswer, hrest⟩ := h.answer now hcall
  have heq : StorageContract.answer refusalOrder now db call = (r, db') := Option.some.inj hstep
  rw [heq] at hanswer hrest
  exact ⟨_, congrArg some (Prod.ext hanswer rfl), hrest⟩

end MemoryStorage

end VcalmStatus
