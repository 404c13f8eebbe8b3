import VcalmStatus.Effects.Refinement
import VcalmStatus.Services.Effect
import VcalmStatus.Services.Rows

/-!
The database as it is stored. A `RowWorld` holds the columns of the two tables, all texts but for
the integers; every query compares texts, `order by created_at` sorts them, and what it answers is
read from them. `Holds` relates such a state to one of `World`, where the tables hold records.
-/

namespace VcalmStatus

open Js Effects

structure RowDatabase where
  statusLists : List StatusListTable
  indexAllocations : List IndexAllocationTable

/-- The columns `updateStatusList` sets. -/
structure RowWrite where
  id : String
  encodedList : String
  signedCredential : String
  version : Nat
  updatedAt : String

def RowWrite.apply (u : RowWrite) (row : StatusListTable) : StatusListTable :=
  if row.id = u.id then
    { row with
      encodedList := u.encodedList
      signedCredential := u.signedCredential
      version := u.version
      updatedAt := u.updatedAt }
  else row

namespace RowDatabase

def empty : RowDatabase := ⟨[], []⟩

def getStatusList (db : RowDatabase) (id : String) : Option StatusListTable :=
  db.statusLists.find? fun row => row.id = id

def findStatusLists (db : RowDatabase) (tenantId : String) (statusPurpose : Option StatusPurpose)
    (issuerInstanceId : Option String) : List StatusListTable :=
  (db.statusLists.filter fun row =>
    row.tenantId = tenantId ∧ statusPurpose.all (row.statusPurpose = ·.text) ∧
      issuerInstanceId.all (row.issuerInstanceId = ·)).insertionSort
    fun a b => a.createdAt ≤ b.createdAt

def getAllocation (db : RowDatabase) (tenantId credentialId : String)
    (statusPurpose : StatusPurpose) : Option IndexAllocationTable :=
  db.indexAllocations.find? fun a => a.tenantId = tenantId ∧ a.credentialId = credentialId ∧
    a.statusPurpose = statusPurpose.text

def isIndexAllocated (db : RowDatabase) (listId : String) (statusListIndex : Nat) : Bool :=
  db.indexAllocations.any fun a => a.listId = listId ∧ a.statusListIndex = statusListIndex

def countAllocations (db : RowDatabase) (listId : String) : Nat :=
  db.indexAllocations.countP fun a => a.listId = listId

/-- The keys of `index_allocations`, as the migration declares them. -/
def admits (db : RowDatabase) (a : IndexAllocationTable) : Bool :=
  (db.getStatusList a.listId).isSome && !db.isIndexAllocated a.listId a.statusListIndex &&
    !db.indexAllocations.any fun b => b.tenantId = a.tenantId ∧ b.credentialId = a.credentialId ∧
      b.statusPurpose = a.statusPurpose

end RowDatabase

/-- `write` is what the open transaction of a request has staged. -/
structure RowWorld where
  db : RowDatabase
  connection : Option Nat
  holder : String → Option Nat
  write : Nat → Option RowWrite
  tick : Nat

namespace RowWorld

def initial : RowWorld := ⟨RowDatabase.empty, none, fun _ => none, fun _ => none, 0⟩

/-- Ends a transaction; every lock it held is free again. -/
def release (w : RowWorld) (owner : Nat) : RowWorld :=
  { w with
    connection := if w.connection = some owner then none else w.connection
    holder := fun id => if w.holder id = some owner then none else w.holder id
    write := Function.update w.write owner none }

/-- Makes the staged write of a transaction visible. -/
def apply (w : RowWorld) (owner : Nat) : RowWorld :=
  { w with
    db := match w.write owner with
      | some u => { w.db with statusLists := w.db.statusLists.map u.apply }
      | none => w.db }

def commit (w : RowWorld) (owner : Nat) : RowWorld := (w.apply owner).release owner

def advance (w : RowWorld) : RowWorld := { w with tick := w.tick + 1 }

/-- What an operation answers, `none` where what it reads or writes has no meaning: a text that is
no document, a date that has no text. -/
def respond (N : Numerals) (env : Environment) (owner : Nat) (w : RowWorld) :
    (o : Operation) → Option (o.Answer × RowWorld)
  | .getStatusList id =>
      match w.db.getStatusList id with
      | some row => (statusListRecord N row).map fun record => (some record, w)
      | none => some (none, w)
  | .findStatusLists tenantId statusPurpose issuerInstanceId =>
      ((w.db.findStatusLists tenantId statusPurpose issuerInstanceId).mapM
        (statusListRecord N)).map fun records => (records, w)
  | .insertStatusList record => (statusListRow record).map fun row =>
      if (w.db.getStatusList row.id).isSome then (false, w)
      else (true, { w with db := { w.db with statusLists := w.db.statusLists ++ [row] } })
  | .beginTransaction => some
      ((), match env.dialect with
        | .sqlite => { w with connection := some owner }
        | .postgres => w)
  | .lockStatusList id =>
      match w.db.getStatusList id with
      | some row => (statusListRecord N row).map fun record =>
          (some record,
            { w with
              holder := Function.update w.holder row.id (some owner)
              write := Function.update w.write owner none })
      | none => some (none, w)
  | .updateStatusListRow id materialization version updatedAt =>
      (toISOString updatedAt).map fun updatedAt =>
        ((), { w with
          write := Function.update w.write owner (some
            { id
              encodedList := materialization.encodedList
              signedCredential := (Json.obj materialization.signedCredential).stringify
              version
              updatedAt }) })
  | .commit => some ((), w.commit owner)
  | .rollback => some ((), w.release owner)
  | .insertAllocation a => (allocationRow a).map fun row =>
      if w.db.admits row then
        (true, { w with db := { w.db with indexAllocations := w.db.indexAllocations ++ [row] } })
      else (false, w)
  | .getAllocation tenantId credentialId statusPurpose =>
      match w.db.getAllocation tenantId credentialId statusPurpose with
      | some row => (allocationRecord row).map fun a => (some a, w)
      | none => some (none, w)
  | .isIndexAllocated listId statusListIndex =>
      some (w.db.isIndexAllocated listId statusListIndex, w)
  | .countAllocations listId => some (w.db.countAllocations listId, w)
  | .getTenant tenantId => some (env.tenants.getTenant tenantId, w)
  | .getTenantByToken token => some (env.tenants.getTenantByToken token, w)
  | .now => some (env.now w.tick, w.advance)
  | .newDate => some (env.newDate w.tick, w.advance)
  | .randomIndex length => some (env.randomIndex w.tick length, w.advance)
  | .generateId => some (env.generateId w.tick, w.advance)
  | .issuerDid issuerInstance => some (env.signing.issuerDid w.tick issuerInstance, w.advance)
  | .sign issuerInstance unsigned =>
      some (env.signing.sign w.tick issuerInstance unsigned, w.advance)

/-- Whether an operation has to wait: for the row's lock, or for the one connection. -/
def blocked (env : Environment) (owner : Nat) (w : RowWorld) (o : Operation) : Bool :=
  match env.dialect with
  | .sqlite => o.usesDatabase && w.connection.any (· ≠ owner)
  | .postgres =>
      match o with
      | .lockStatusList id => (w.holder id).any (· ≠ owner)
      | _ => false

def step (N : Numerals) (env : Environment) (owner : Nat) (w : RowWorld) (o : Operation) :
    Option (o.Answer × RowWorld) :=
  if w.blocked env owner o then none else w.respond N env owner o

end RowWorld

/-! ### The same database on two levels -/

def RowUpdate.row (u : RowUpdate) : RowWrite where
  id := u.id
  encodedList := u.materialization.encodedList
  signedCredential := (Json.obj u.materialization.signedCredential).stringify
  version := u.version
  updatedAt := isoText u.updatedAt

/-- What a request may ask the database to write and the signing service to sign. -/
def Operation.Writable (N : Numerals) : Operation → Prop
  | .insertStatusList record => record.Writable N
  | .updateStatusListRow _ materialization _ updatedAt =>
      (Json.obj materialization.signedCredential).Storable N ∧ updatedAt < firstOfFiveDigits
  | .insertAllocation a => a.allocatedAt < firstOfFiveDigits
  | .sign _ unsigned => (Json.obj unsigned).Storable N
  | _ => True

/-- The columns hold the rows of the records, all of which they can hold. -/
structure Holds (N : Numerals) (rows : RowWorld) (w : World) : Prop where
  statusLists : rows.db.statusLists = w.db.statusLists.map (·.row)
  indexAllocations : rows.db.indexAllocations = w.db.indexAllocations.map (·.row)
  connection : rows.connection = w.connection
  holder : rows.holder = w.holder
  write : ∀ i, rows.write i = (w.transaction i).write.map (·.row)
  tick : rows.tick = w.tick
  lists_writable : ∀ record ∈ w.db.statusLists, record.Writable N
  allocations_writable : ∀ a ∈ w.db.indexAllocations, a.allocatedAt < firstOfFiveDigits
  writes_writable : ∀ i u, (w.transaction i).write = some u →
    (Json.obj u.materialization.signedCredential).Storable N ∧ u.updatedAt < firstOfFiveDigits

theorem StatusPurpose.text_eq_iff {p q : StatusPurpose} : p.text = q.text ↔ p = q := by
  constructor
  · intro h
    have hread := congrArg StatusPurpose.ofText? h
    rw [StatusPurpose.ofText?_text, StatusPurpose.ofText?_text] at hread
    exact Option.some.inj hread
  · rintro rfl
    rfl

namespace Holds

variable {N : Numerals} {rows : RowWorld} {w : World}

theorem initial (N : Numerals) : Holds N RowWorld.initial World.initial where
  statusLists := rfl
  indexAllocations := rfl
  connection := rfl
  holder := rfl
  write _ := rfl
  tick := rfl
  lists_writable := nofun
  allocations_writable := nofun
  writes_writable := nofun

/-! #### Queries -/

theorem getStatusList (h : Holds N rows w) (id : String) :
    rows.db.getStatusList id = (w.db.getStatusList id).map (·.row) := by
  rw [RowDatabase.getStatusList, h.statusLists, List.find?_map]
  rfl

theorem getStatusList_writable (h : Holds N rows w) {id : String} {record : StatusListRecord}
    (hrecord : w.db.getStatusList id = some record) : record.Writable N :=
  h.lists_writable record (Database.mem_of_getStatusList hrecord).1

theorem getAllocation (h : Holds N rows w) (tenantId credentialId : String)
    (statusPurpose : StatusPurpose) :
    rows.db.getAllocation tenantId credentialId statusPurpose =
      (w.db.getAllocation tenantId credentialId statusPurpose).map (·.row) := by
  have hsame : (fun row : IndexAllocationTable => decide (row.tenantId = tenantId ∧
      row.credentialId = credentialId ∧ row.statusPurpose = statusPurpose.text)) ∘ (·.row) =
      fun a : IndexAllocation => decide (a.tenantId = tenantId ∧ a.credentialId = credentialId ∧
        a.statusPurpose = statusPurpose) := by
    funext a
    simp [IndexAllocation.row, StatusPurpose.text_eq_iff]
  rw [RowDatabase.getAllocation, h.indexAllocations, List.find?_map, hsame]
  rfl

theorem isIndexAllocated (h : Holds N rows w) (listId : String) (n : Nat) :
    rows.db.isIndexAllocated listId n = w.db.isIndexAllocated listId n := by
  rw [RowDatabase.isIndexAllocated, h.indexAllocations, List.any_map]
  rfl

theorem countAllocations (h : Holds N rows w) (listId : String) :
    rows.db.countAllocations listId = w.db.countAllocations listId := by
  rw [RowDatabase.countAllocations, h.indexAllocations, List.countP_map]
  rfl

theorem admits (h : Holds N rows w) (a : IndexAllocation) :
    rows.db.admits a.row = w.db.admits a := by
  have htaken : (rows.db.indexAllocations.any fun b => b.tenantId = a.tenantId ∧
      b.credentialId = a.credentialId ∧ b.statusPurpose = a.statusPurpose.text) =
      (w.db.getAllocation a.tenantId a.credentialId a.statusPurpose).isSome := by
    rw [h.indexAllocations, List.any_map, Database.getAllocation, List.isSome_find?]
    congr 1
    funext b
    simp [IndexAllocation.row, StatusPurpose.text_eq_iff]
  rw [RowDatabase.admits, h.getStatusList, h.isIndexAllocated, Option.isSome_map]
  change (_ && !(rows.db.indexAllocations.any fun b => b.tenantId = a.tenantId ∧
      b.credentialId = a.credentialId ∧ b.statusPurpose = a.statusPurpose.text)) = _
  rw [htaken, Option.not_isSome]
  rfl

/-- The texts of the dates sort the rows as the dates sort the records. -/
theorem findStatusLists (h : Holds N rows w) (tenantId : String)
    (statusPurpose : Option StatusPurpose) (issuerInstanceId : Option String) :
    rows.db.findStatusLists tenantId statusPurpose issuerInstanceId =
      (w.db.findStatusLists tenantId statusPurpose issuerInstanceId).map (·.row) := by
  have hsame : (fun row : StatusListTable => decide (row.tenantId = tenantId ∧
      statusPurpose.all (row.statusPurpose = ·.text) ∧
        issuerInstanceId.all (row.issuerInstanceId = ·))) ∘ (·.row) =
      fun record : StatusListRecord => decide (record.tenantId = tenantId ∧
        statusPurpose.all (record.statusPurpose = ·) ∧
          issuerInstanceId.all (record.issuerInstanceId = ·)) := by
    funext record
    cases statusPurpose <;> simp [StatusListRecord.row, StatusPurpose.text_eq_iff]
  rw [RowDatabase.findStatusLists, h.statusLists, List.filter_map, hsame, Database.findStatusLists,
    List.map_insertionSort _ (fun a b : StatusListTable => a.createdAt ≤ b.createdAt)]
  intro a ha b hb
  have hdate : ∀ record ∈ w.db.statusLists, record.createdAt < firstOfFiveDigits :=
    fun record hrecord => (h.lists_writable record hrecord).createdAt
  exact (isoText_le_iff (hdate a (List.mem_of_mem_filter ha))
    (hdate b (List.mem_of_mem_filter hb))).symm

theorem read_all (records : List StatusListRecord) (h : ∀ record ∈ records, record.Writable N) :
    (records.map (·.row)).mapM (statusListRecord N) = some records := by
  induction records with
  | nil => rfl
  | cons record records ih =>
      obtain ⟨hrecord, hrecords⟩ := List.forall_mem_cons.mp h
      simp [hrecord.read, ih hrecords]

/-! #### Steps -/

theorem quiet (h : Holds N rows w) (tick : Nat) :
    Holds N { rows with tick := tick } { w with tick := tick } :=
  ⟨h.statusLists, h.indexAllocations, h.connection, h.holder, h.write, rfl, h.lists_writable,
    h.allocations_writable, h.writes_writable⟩

theorem advance (h : Holds N rows w) : Holds N rows.advance w.advance := by
  have hquiet := h.quiet (w.tick + 1)
  rwa [RowWorld.advance, World.advance, h.tick]

theorem insertStatusList (h : Holds N rows w) {record : StatusListRecord} (owner : Nat)
    (hrecord : record.Writable N) :
    Holds N { rows with db := { rows.db with
        statusLists := rows.db.statusLists ++ [record.row] } }
      (w.insertStatusList owner record) where
  statusLists := by simp [World.insertStatusList, h.statusLists]
  indexAllocations := h.indexAllocations
  connection := h.connection
  holder := h.holder
  write := h.write
  tick := h.tick
  lists_writable old hold := by
    obtain hold | hold := List.mem_append.mp hold
    · exact h.lists_writable old hold
    · rw [List.mem_singleton.mp hold]
      exact hrecord
  allocations_writable := h.allocations_writable
  writes_writable := h.writes_writable

theorem insertAllocation (h : Holds N rows w) {a : IndexAllocation} (owner : Nat)
    (ha : a.allocatedAt < firstOfFiveDigits) :
    Holds N { rows with db := { rows.db with
        indexAllocations := rows.db.indexAllocations ++ [a.row] } }
      (w.insertAllocation owner a) where
  statusLists := h.statusLists
  indexAllocations := by simp [World.insertAllocation, h.indexAllocations]
  connection := h.connection
  holder := h.holder
  write := h.write
  tick := h.tick
  lists_writable := h.lists_writable
  allocations_writable old hold := by
    obtain hold | hold := List.mem_append.mp hold
    · exact h.allocations_writable old hold
    · rw [List.mem_singleton.mp hold]
      exact ha
  writes_writable := h.writes_writable

theorem lock (h : Holds N rows w) (owner : Nat) (record : StatusListRecord) :
    Holds N { rows with
        holder := Function.update rows.holder record.row.id (some owner)
        write := Function.update rows.write owner none }
      (w.lock owner record) where
  statusLists := h.statusLists
  indexAllocations := h.indexAllocations
  connection := h.connection
  holder := by
    rw [h.holder]
    rfl
  write i := by
    by_cases hi : i = owner
    · subst hi
      simp [World.lock]
    · simp [World.lock, Function.update_of_ne hi, h.write i]
  tick := h.tick
  lists_writable := h.lists_writable
  allocations_writable := h.allocations_writable
  writes_writable i u hu := by
    by_cases hi : i = owner
    · subst hi
      simp [World.lock] at hu
    · simp only [World.lock, Function.update_of_ne hi] at hu
      exact h.writes_writable i u hu

theorem stage (h : Holds N rows w) (owner : Nat) {u : RowUpdate}
    (hu : (Json.obj u.materialization.signedCredential).Storable N ∧
      u.updatedAt < firstOfFiveDigits) :
    Holds N { rows with write := Function.update rows.write owner (some u.row) }
      (w.stage owner u) where
  statusLists := h.statusLists
  indexAllocations := h.indexAllocations
  connection := h.connection
  holder := h.holder
  write i := by
    by_cases hi : i = owner
    · subst hi
      simp [World.stage]
    · simp [World.stage, Function.update_of_ne hi, h.write i]
  tick := h.tick
  lists_writable := h.lists_writable
  allocations_writable := h.allocations_writable
  writes_writable i v hv := by
    by_cases hi : i = owner
    · subst hi
      simp only [World.stage, Function.update_self, Option.some.injEq] at hv
      rwa [← hv]
    · simp only [World.stage, Function.update_of_ne hi] at hv
      exact h.writes_writable i v hv

theorem release (h : Holds N rows w) (owner : Nat) :
    Holds N (rows.release owner) (w.release owner) where
  statusLists := h.statusLists
  indexAllocations := h.indexAllocations
  connection := by rw [RowWorld.release, World.release, h.connection]
  holder := by rw [RowWorld.release, World.release, h.holder]
  write i := by
    by_cases hi : i = owner
    · subst hi
      simp [RowWorld.release, World.release]
    · simp [RowWorld.release, World.release, Function.update_of_ne hi, h.write i]
  tick := h.tick
  lists_writable := h.lists_writable
  allocations_writable := h.allocations_writable
  writes_writable i u hu := by
    by_cases hi : i = owner
    · subst hi
      simp [World.release] at hu
    · simp only [World.release, Function.update_of_ne hi] at hu
      exact h.writes_writable i u hu

theorem row_apply (u : RowUpdate) (record : StatusListRecord) :
    (u.apply record).row = u.row.apply record.row := by
  have hid : u.row.id = u.id ∧ record.row.id = record.id := ⟨rfl, rfl⟩
  unfold RowUpdate.apply RowWrite.apply
  rw [hid.1, hid.2]
  split <;> rfl

theorem writable_apply {u : RowUpdate} {record : StatusListRecord} (h : record.Writable N)
    (hu : (Json.obj u.materialization.signedCredential).Storable N ∧
      u.updatedAt < firstOfFiveDigits) : (u.apply record).Writable N := by
  unfold RowUpdate.apply
  split
  · exact ⟨h.finite, hu.1, h.createdAt, hu.2⟩
  · exact h

theorem apply (h : Holds N rows w) (owner : Nat) : Holds N (rows.apply owner) (w.apply owner) := by
  have hwrite := h.write owner
  cases hu : (w.transaction owner).write with
  | none =>
      rw [hu, Option.map_none] at hwrite
      have hdb : (w.apply owner).db = w.db := by simp only [World.apply, hu]
      have hrows : rows.apply owner = rows := by simp only [RowWorld.apply, hwrite]
      rw [hrows]
      exact ⟨by rw [hdb]; exact h.statusLists, by rw [hdb]; exact h.indexAllocations,
        h.connection, h.holder, h.write, h.tick, by rw [hdb]; exact h.lists_writable,
        by rw [hdb]; exact h.allocations_writable, h.writes_writable⟩
  | some u =>
      rw [hu, Option.map_some] at hwrite
      have hdb : (w.apply owner).db = w.db.update u := by simp only [World.apply, hu]
      have hrows : (rows.apply owner).db =
          { rows.db with statusLists := rows.db.statusLists.map u.row.apply } := by
        simp only [RowWorld.apply, hwrite]
      refine ⟨?_, ?_, h.connection, h.holder, h.write, h.tick, ?_, ?_, h.writes_writable⟩
      · rw [hrows, hdb, Database.update, h.statusLists, List.map_map, List.map_map]
        exact List.map_congr_left fun record _ => (row_apply u record).symm
      · rw [hrows, hdb]
        exact h.indexAllocations
      · rw [hdb]
        intro record hrecord
        obtain ⟨old, hold, rfl⟩ := Database.mem_update.mp hrecord
        exact writable_apply (h.lists_writable old hold) (h.writes_writable owner u hu)
      · rw [hdb]
        exact h.allocations_writable

theorem commit (h : Holds N rows w) (owner : Nat) :
    Holds N (rows.commit owner) (w.commit owner) := (h.apply owner).release owner

variable {env : Environment} {owner : Nat} {o : Operation}

/-- An operation is answered on both levels alike. -/
theorem respond (h : Holds N rows w) (ho : o.Writable N) :
    ∃ rows', rows.respond N env owner o = some ((w.respond env owner o).1, rows') ∧
      Holds N rows' (w.respond env owner o).2 := by
  cases o with
  | getStatusList id =>
      simp only [RowWorld.respond, h.getStatusList, World.respond]
      cases hrecord : w.db.getStatusList id with
      | none => exact ⟨rows, rfl, h⟩
      | some record =>
          refine ⟨rows, ?_, h⟩
          simp only [Option.map_some, (h.getStatusList_writable hrecord).read]
  | findStatusLists t p n =>
      have hread := read_all (w.db.findStatusLists t p n) fun record hrecord =>
        h.lists_writable record (Database.mem_findStatusLists.mp hrecord).1
      simp only [RowWorld.respond, h.findStatusLists, World.respond, hread]
      exact ⟨rows, rfl, h⟩
  | insertStatusList record =>
      have hrow : record.Writable N := ho
      simp only [RowWorld.respond, hrow.written, Option.map_some, World.respond]
      have hfound := h.getStatusList record.id
      rw [show record.row.id = record.id from rfl, hfound, Option.isSome_map]
      split
      · exact ⟨rows, rfl, h⟩
      · exact ⟨_, rfl, h.insertStatusList owner hrow⟩
  | beginTransaction =>
      simp only [RowWorld.respond, World.respond]
      cases env.dialect with
      | sqlite =>
          exact ⟨_, rfl, h.statusLists, h.indexAllocations, rfl, h.holder, h.write, h.tick,
            h.lists_writable, h.allocations_writable, h.writes_writable⟩
      | postgres => exact ⟨_, rfl, h⟩
  | lockStatusList id =>
      simp only [RowWorld.respond, h.getStatusList, World.respond]
      cases hrecord : w.db.getStatusList id with
      | none => exact ⟨rows, rfl, h⟩
      | some record =>
          refine ⟨_, ?_, h.lock owner record⟩
          simp only [Option.map_some, (h.getStatusList_writable hrecord).read]
  | updateStatusListRow id m v u =>
      obtain ⟨hstorable, hdate⟩ : (Json.obj m.signedCredential).Storable N ∧
        u < firstOfFiveDigits := ho
      have htext := toISOString_eq_some.mpr ⟨le_maxDate hdate, rfl⟩
      simp only [RowWorld.respond, htext, Option.map_some, World.respond]
      have hstage := h.stage owner (u := ⟨id, m, v, u⟩) ⟨hstorable, hdate⟩
      exact ⟨_, rfl, hstage⟩
  | commit => exact ⟨_, rfl, h.commit owner⟩
  | rollback => exact ⟨_, rfl, h.release owner⟩
  | insertAllocation a =>
      have hdate : a.allocatedAt < firstOfFiveDigits := ho
      have hrow := allocationRow_eq_some.mpr ⟨le_maxDate hdate, rfl⟩
      simp only [RowWorld.respond, hrow, Option.map_some, World.respond, h.admits]
      split
      · exact ⟨_, rfl, h.insertAllocation owner hdate⟩
      · exact ⟨rows, rfl, h⟩
  | getAllocation t c p =>
      simp only [RowWorld.respond, h.getAllocation, World.respond]
      cases ha : w.db.getAllocation t c p with
      | none => exact ⟨rows, rfl, h⟩
      | some a =>
          refine ⟨rows, ?_, h⟩
          have hdate := h.allocations_writable a (Database.mem_of_getAllocation ha).1
          simp only [Option.map_some, allocationRecord_row (le_maxDate hdate)]
  | isIndexAllocated id n =>
      simp only [RowWorld.respond, h.isIndexAllocated, World.respond]
      exact ⟨rows, rfl, h⟩
  | countAllocations id =>
      simp only [RowWorld.respond, h.countAllocations, World.respond]
      exact ⟨rows, rfl, h⟩
  | getTenant id => exact ⟨rows, rfl, h⟩
  | getTenantByToken token => exact ⟨rows, rfl, h⟩
  | now => exact ⟨_, by simp only [RowWorld.respond, World.respond, h.tick], h.advance⟩
  | newDate => exact ⟨_, by simp only [RowWorld.respond, World.respond, h.tick], h.advance⟩
  | randomIndex n => exact ⟨_, by simp only [RowWorld.respond, World.respond, h.tick], h.advance⟩
  | generateId => exact ⟨_, by simp only [RowWorld.respond, World.respond, h.tick], h.advance⟩
  | issuerDid i => exact ⟨_, by simp only [RowWorld.respond, World.respond, h.tick], h.advance⟩
  | sign i u => exact ⟨_, by simp only [RowWorld.respond, World.respond, h.tick], h.advance⟩

theorem blocked (h : Holds N rows w) : rows.blocked env owner o = w.blocked env owner o := by
  have hconnection : rows.connection.any (· ≠ owner) = w.connection.any (· ≠ owner) := by
    rw [h.connection]
  have hholder : ∀ id, (rows.holder id).any (· ≠ owner) = (w.holder id).any (· ≠ owner) := by
    intro id
    rw [h.holder]
  unfold RowWorld.blocked World.blocked
  cases env.dialect with
  | sqlite => exact congrArg (o.usesDatabase && ·) hconnection
  | postgres =>
      cases o with
      | lockStatusList id => exact hholder id
      | _ => rfl

end Holds

/-- The columns and the records answer every request that writes what columns can hold alike. -/
theorem rows_match (N : Numerals) (env : Environment) :
    Matches (Holds N) (Operation.Writable N) (RowWorld.step N env) (World.step env) := by
  intro owner rows w o h ho
  rw [RowWorld.step, World.step, h.blocked]
  split
  · exact .inl ⟨rfl, rfl⟩
  · obtain ⟨rows', hrespond, hholds⟩ : ∃ rows', rows.respond N env owner o =
        some ((w.respond env owner o).1, rows') ∧ Holds N rows' (w.respond env owner o).2 :=
      h.respond ho
    exact .inr ⟨_, rows', _, hrespond, rfl, hholds⟩

end VcalmStatus
