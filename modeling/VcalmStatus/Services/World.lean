import VcalmStatus.Effects.Interleaving
import VcalmStatus.Js.Text
import VcalmStatus.Services.Tenants
import Mathlib.Data.List.Sort

/-!
What the asynchronous code of the service calls, and what each call does.

Every `await` of the source that reaches a database, the registry, the signing service, the clock
or a random source is one `Operation`; everything between two of them is pure. The database is the
two tables with their declared keys. A transaction reads its row under a lock and stages its
write, so nothing another request can see changes before the commit: on Postgres the lock is on
the row, on SQLite the open transaction keeps the one connection to itself.

Clock, random source, id generator and signing service may answer anything at any moment; an
`Environment` fixes their answers by the moment of the call.
-/

namespace VcalmStatus

open Js Effects

inductive Operation
  | getStatusList (id : String)
  | findStatusLists (tenantId : String) (statusPurpose : Option StatusPurpose)
      (issuerInstanceId : Option String)
  | insertStatusList (row : StatusListRecord)
  | beginTransaction
  | lockStatusList (id : String)
  | updateStatusListRow (id : String) (materialization : StatusListMaterialization)
      (version : Nat) (updatedAt : Date)
  | commit
  | rollback
  | insertAllocation (row : IndexAllocation)
  | getAllocation (tenantId credentialId : String) (statusPurpose : StatusPurpose)
  | isIndexAllocated (listId : String) (statusListIndex : Nat)
  | countAllocations (listId : String)
  | getTenant (tenantId : String)
  | getTenantByToken (token : String)
  | now
  | newDate
  | randomIndex (length : Nat)
  | generateId
  | issuerDid (issuerInstance : IssuerInstance)
  | sign (issuerInstance : IssuerInstance) (unsigned : UnsignedCredential)

/-- The answer to an operation. An insert answers whether its row went in; `false` is a violated
constraint. -/
@[reducible] def Operation.Answer : Operation → Type
  | .getStatusList _ => Option StatusListRecord
  | .findStatusLists _ _ _ => List StatusListRecord
  | .insertStatusList _ => Bool
  | .beginTransaction => Unit
  | .lockStatusList _ => Option StatusListRecord
  | .updateStatusListRow _ _ _ _ => Unit
  | .commit => Unit
  | .rollback => Unit
  | .insertAllocation _ => Bool
  | .getAllocation _ _ _ => Option IndexAllocation
  | .isIndexAllocated _ _ => Bool
  | .countAllocations _ => Nat
  | .getTenant _ => Option TenantRecord
  | .getTenantByToken _ => Option TenantRecord
  | .now => Date
  | .newDate => Date
  | .randomIndex _ => Nat
  | .generateId => String
  | .issuerDid _ => Except JsError String
  | .sign _ _ => Except JsError VerifiableCredential

/-- An asynchronous computation of the service. -/
abbrev Async := Program Operation Operation.Answer JsError

/-- `await` of one operation. -/
abbrev await (o : Operation) : Async o.Answer := Program.perform o

/-! ### The two tables -/

/-- The columns an update of a list sets. -/
structure RowUpdate where
  id : String
  materialization : StatusListMaterialization
  version : Nat
  updatedAt : Date

/-- The row as an update leaves it; only its own row is touched. -/
def RowUpdate.apply (u : RowUpdate) (row : StatusListRecord) : StatusListRecord :=
  if row.id = u.id then
    { row with
      encodedList := u.materialization.encodedList
      signedCredential := u.materialization.signedCredential
      version := u.version
      updatedAt := u.updatedAt }
  else row

structure Database where
  statusLists : List StatusListRecord
  indexAllocations : List IndexAllocation

namespace Database

def empty : Database := ⟨[], []⟩

def getStatusList (db : Database) (id : String) : Option StatusListRecord :=
  db.statusLists.find? fun row => row.id = id

def getAllocation (db : Database) (tenantId credentialId : String)
    (statusPurpose : StatusPurpose) : Option IndexAllocation :=
  db.indexAllocations.find? fun a =>
    a.tenantId = tenantId ∧ a.credentialId = credentialId ∧ a.statusPurpose = statusPurpose

def isIndexAllocated (db : Database) (listId : String) (statusListIndex : Nat) : Bool :=
  db.indexAllocations.any fun a => a.listId = listId ∧ a.statusListIndex = statusListIndex

def countAllocations (db : Database) (listId : String) : Nat :=
  db.indexAllocations.countP fun a => a.listId = listId

/-- The tenant's lists, narrowed by what the query names, in order of creation. -/
def findStatusLists (db : Database) (tenantId : String) (statusPurpose : Option StatusPurpose)
    (issuerInstanceId : Option String) : List StatusListRecord :=
  (db.statusLists.filter fun row =>
    row.tenantId = tenantId ∧ statusPurpose.all (row.statusPurpose = ·) ∧
      issuerInstanceId.all (row.issuerInstanceId = ·)).insertionSort
    fun a b => a.createdAt ≤ b.createdAt

/-- The keys of `index_allocations`: its list exists, its index is free, its credential holds no
index for the purpose. -/
def admits (db : Database) (a : IndexAllocation) : Bool :=
  (db.getStatusList a.listId).isSome && !db.isIndexAllocated a.listId a.statusListIndex &&
    (db.getAllocation a.tenantId a.credentialId a.statusPurpose).isNone

/-- The declared keys: ids of lists, indexes of a list, purposes of a credential, and the list
every allocation refers to. -/
structure Keyed (db : Database) : Prop where
  ids_nodup : (db.statusLists.map (·.id)).Nodup
  indexes_nodup : (db.indexAllocations.map fun a => (a.listId, a.statusListIndex)).Nodup
  credentials_nodup : (db.indexAllocations.map
    fun a => (a.tenantId, a.credentialId, a.statusPurpose)).Nodup
  foreign : ∀ a ∈ db.indexAllocations, ∃ row ∈ db.statusLists, row.id = a.listId

def update (db : Database) (u : RowUpdate) : Database :=
  { db with statusLists := db.statusLists.map u.apply }

end Database

/-! ### The world between two operations -/

/-- An open transaction: the row it read under its lock and the write it has staged. -/
structure Transaction where
  row : Option StatusListRecord := none
  write : Option RowUpdate := none

/-- What happened so far, by the request it happened for. No operation reads it. -/
inductive Event
  | created (owner : Nat) (row : StatusListRecord)
  | allocated (owner : Nat) (row : IndexAllocation)
  | committed (owner : Nat) (before : StatusListRecord) (write : Option RowUpdate)

/-- `connection` is the transaction that holds SQLite's connection, `holder` the transaction that
holds the lock of a row, `tick` the number of calls outside the database so far. -/
structure World where
  db : Database
  connection : Option Nat
  holder : String → Option Nat
  transaction : Nat → Transaction
  tick : Nat
  log : List Event

inductive Dialect
  | sqlite
  | postgres
  deriving DecidableEq, Repr

/-- The signing service at each moment. -/
structure SigningService where
  issuerDid : Nat → IssuerInstance → Except JsError String
  sign : Nat → IssuerInstance → UnsignedCredential → Except JsError VerifiableCredential
  issuerDid_error : ∀ {tick issuerInstance e}, issuerDid tick issuerInstance = .error e →
    e.fromSigner = true
  sign_error : ∀ {tick issuerInstance unsigned e}, sign tick issuerInstance unsigned = .error e →
    e.fromSigner = true

/-- Everything around the service that is not its database. Ids are UUIDs, so each can be a segment
of a path. -/
structure Environment where
  dialect : Dialect
  tenants : TenantRegistry
  signing : SigningService
  now : Nat → Date
  newDate : Nat → Date
  randomIndex : Nat → Nat → Nat
  generateId : Nat → String
  randomIndex_lt : ∀ t {length}, 0 < length → randomIndex t length < length
  generateId_segment : ∀ t, generateId t ∉ dotSegments

namespace World

/-- A service that was just started on an empty database. -/
def initial : World := ⟨Database.empty, none, fun _ => none, fun _ => {}, 0, []⟩

def insertStatusList (w : World) (owner : Nat) (row : StatusListRecord) : World :=
  { w with
    db := { w.db with statusLists := w.db.statusLists ++ [row] }
    log := w.log ++ [.created owner row] }

def insertAllocation (w : World) (owner : Nat) (row : IndexAllocation) : World :=
  { w with
    db := { w.db with indexAllocations := w.db.indexAllocations ++ [row] }
    log := w.log ++ [.allocated owner row] }

def connect (w : World) (owner : Nat) : World := { w with connection := some owner }

def lock (w : World) (owner : Nat) (row : StatusListRecord) : World :=
  { w with
    holder := Function.update w.holder row.id (some owner)
    transaction := Function.update w.transaction owner { row := some row } }

def stage (w : World) (owner : Nat) (u : RowUpdate) : World :=
  { w with
    transaction := Function.update w.transaction owner
      { w.transaction owner with write := some u } }

/-- Ends a transaction without its write: every lock it held is free again. -/
def release (w : World) (owner : Nat) : World :=
  { w with
    connection := if w.connection = some owner then none else w.connection
    holder := fun id => if w.holder id = some owner then none else w.holder id
    transaction := Function.update w.transaction owner {} }

/-- Makes the staged write of a transaction visible. -/
def apply (w : World) (owner : Nat) : World :=
  { w with
    db := match (w.transaction owner).write with
      | some u => w.db.update u
      | none => w.db
    log := match (w.transaction owner).row with
      | some row => w.log ++ [.committed owner row (w.transaction owner).write]
      | none => w.log }

def commit (w : World) (owner : Nat) : World := (w.apply owner).release owner

def advance (w : World) : World := { w with tick := w.tick + 1 }

/-- What an operation that is not blocked answers, and the world after it. -/
def respond (env : Environment) (owner : Nat) (w : World) : (o : Operation) → o.Answer × World
  | .getStatusList id => (w.db.getStatusList id, w)
  | .findStatusLists tenantId statusPurpose issuerInstanceId =>
      (w.db.findStatusLists tenantId statusPurpose issuerInstanceId, w)
  | .insertStatusList row =>
      if (w.db.getStatusList row.id).isSome then (false, w) else (true, w.insertStatusList owner row)
  | .beginTransaction =>
      match env.dialect with
      | .sqlite => ((), w.connect owner)
      | .postgres => ((), w)
  | .lockStatusList id =>
      match w.db.getStatusList id with
      | some row => (some row, w.lock owner row)
      | none => (none, w)
  | .updateStatusListRow id materialization version updatedAt =>
      ((), w.stage owner ⟨id, materialization, version, updatedAt⟩)
  | .commit => ((), w.commit owner)
  | .rollback => ((), w.release owner)
  | .insertAllocation row =>
      if w.db.admits row then (true, w.insertAllocation owner row) else (false, w)
  | .getAllocation tenantId credentialId statusPurpose =>
      (w.db.getAllocation tenantId credentialId statusPurpose, w)
  | .isIndexAllocated listId statusListIndex =>
      (w.db.isIndexAllocated listId statusListIndex, w)
  | .countAllocations listId => (w.db.countAllocations listId, w)
  | .getTenant tenantId => (env.tenants.getTenant tenantId, w)
  | .getTenantByToken token => (env.tenants.getTenantByToken token, w)
  | .now => (env.now w.tick, w.advance)
  | .newDate => (env.newDate w.tick, w.advance)
  | .randomIndex length => (env.randomIndex w.tick length, w.advance)
  | .generateId => (env.generateId w.tick, w.advance)
  | .issuerDid issuerInstance => (env.signing.issuerDid w.tick issuerInstance, w.advance)
  | .sign issuerInstance unsigned => (env.signing.sign w.tick issuerInstance unsigned, w.advance)

end World

/-- The operations that go to the database. -/
def Operation.usesDatabase : Operation → Bool
  | .getStatusList _ | .findStatusLists _ _ _ | .insertStatusList _ | .beginTransaction
  | .lockStatusList _ | .updateStatusListRow _ _ _ _ | .commit | .rollback
  | .insertAllocation _ | .getAllocation _ _ _ | .isIndexAllocated _ _
  | .countAllocations _ => true
  | _ => false

/-- Whether an operation has to wait. On Postgres `for update` waits for the row's lock; on SQLite
every query waits while another transaction has the connection. -/
def World.blocked (env : Environment) (owner : Nat) (w : World) (o : Operation) : Bool :=
  match env.dialect with
  | .sqlite => o.usesDatabase && w.connection.any (· ≠ owner)
  | .postgres =>
      match o with
      | .lockStatusList id => (w.holder id).any (· ≠ owner)
      | _ => false

/-- One operation of one request. -/
def World.step (env : Environment) (owner : Nat) (w : World) (o : Operation) :
    Option (o.Answer × World) :=
  if w.blocked env owner o then none else some (w.respond env owner o)

/-- Without a staged write a commit leaves the tables alone. -/
theorem World.commit_db_of_none {w : World} {owner : Nat}
    (h : (w.transaction owner).write = none) : (w.commit owner).db = w.db := by
  simp [World.commit, World.release, World.apply, h]

theorem World.commit_db_of_some {w : World} {owner : Nat} {u : RowUpdate}
    (h : (w.transaction owner).write = some u) : (w.commit owner).db = w.db.update u := by
  simp [World.commit, World.release, World.apply, h]

theorem World.step_eq_some {env : Environment} {owner : Nat} {w w' : World} {o : Operation}
    {r : o.Answer} :
    w.step env owner o = some (r, w') ↔
      w.blocked env owner o = false ∧ w.respond env owner o = (r, w') := by
  simp [World.step]

/-! ### Reading the tables -/

namespace Database

variable {db : Database}

theorem mem_of_getStatusList {id : String} {row : StatusListRecord}
    (h : db.getStatusList id = some row) : row ∈ db.statusLists ∧ row.id = id :=
  ⟨List.mem_of_find?_eq_some h, by simpa using List.find?_some h⟩

theorem getStatusList_eq_none {id : String} :
    db.getStatusList id = none ↔ ∀ row ∈ db.statusLists, row.id ≠ id := by
  simp [getStatusList]

/-- With distinct ids, a stored row is what its id finds. -/
theorem getStatusList_of_mem {row : StatusListRecord}
    (hn : (db.statusLists.map (·.id)).Nodup) (h : row ∈ db.statusLists) :
    db.getStatusList row.id = some row := by
  cases hf : db.getStatusList row.id with
  | none => exact absurd rfl (getStatusList_eq_none.mp hf row h)
  | some row' =>
      obtain ⟨hm, hid⟩ := mem_of_getStatusList hf
      rw [List.inj_on_of_nodup_map hn hm h hid]

/-- The list under an id, if it is the tenant's. -/
theorem ownList_eq_some {id tenantId : String} {list : StatusListRecord}
    (h : ((db.getStatusList id).filter fun list => list.tenantId = tenantId) = some list) :
    list ∈ db.statusLists ∧ list.id = id ∧ list.tenantId = tenantId := by
  obtain ⟨hfound, htenant⟩ := Option.filter_eq_some_iff.mp h
  obtain ⟨hmem, hid⟩ := mem_of_getStatusList hfound
  exact ⟨hmem, hid, by simpa using htenant⟩

theorem ownList_eq_none {id tenantId : String} (hn : (db.statusLists.map (·.id)).Nodup)
    (h : ((db.getStatusList id).filter fun list => list.tenantId = tenantId) = none) :
    ∀ row ∈ db.statusLists, row.id = id → row.tenantId ≠ tenantId := by
  rintro row hrow rfl htenant
  simp [getStatusList_of_mem hn hrow, htenant] at h

theorem ids_nodup_append {row : StatusListRecord} (hn : (db.statusLists.map (·.id)).Nodup)
    (hfresh : db.getStatusList row.id = none) :
    ((db.statusLists ++ [row]).map (·.id)).Nodup := by
  simp only [List.map_append, List.map_cons, List.map_nil]
  refine List.nodup_append.mpr ⟨hn, List.nodup_singleton _, ?_⟩
  intro id hid id' hid'
  obtain ⟨old, hold, rfl⟩ := List.mem_map.mp hid
  rw [List.mem_singleton.mp hid']
  exact getStatusList_eq_none.mp hfresh old hold

theorem mem_of_getAllocation {t c : String} {p : StatusPurpose} {a : IndexAllocation}
    (h : db.getAllocation t c p = some a) :
    a ∈ db.indexAllocations ∧ a.tenantId = t ∧ a.credentialId = c ∧ a.statusPurpose = p :=
  ⟨List.mem_of_find?_eq_some h, by simpa using List.find?_some h⟩

theorem getAllocation_eq_none {t c : String} {p : StatusPurpose} :
    db.getAllocation t c p = none ↔ ∀ a ∈ db.indexAllocations,
      ¬(a.tenantId = t ∧ a.credentialId = c ∧ a.statusPurpose = p) := by
  simp [getAllocation]

/-- With distinct keys, a stored allocation is what its credential finds. -/
theorem getAllocation_of_nodup {a : IndexAllocation}
    (hn : (db.indexAllocations.map
      fun a => (a.tenantId, a.credentialId, a.statusPurpose)).Nodup)
    (ha : a ∈ db.indexAllocations) :
    db.getAllocation a.tenantId a.credentialId a.statusPurpose = some a := by
  cases hf : db.getAllocation a.tenantId a.credentialId a.statusPurpose with
  | none => exact absurd ⟨rfl, rfl, rfl⟩ (getAllocation_eq_none.mp hf a ha)
  | some b =>
      obtain ⟨hb, ht, hc, hp⟩ := mem_of_getAllocation hf
      rw [List.inj_on_of_nodup_map hn hb ha (by rw [ht, hc, hp])]

theorem isIndexAllocated_iff {id : String} {n : Nat} :
    db.isIndexAllocated id n = true ↔
      ∃ a ∈ db.indexAllocations, a.listId = id ∧ a.statusListIndex = n := by
  simp [isIndexAllocated]

theorem mem_findStatusLists {t : String} {p : Option StatusPurpose} {n : Option String}
    {row : StatusListRecord} :
    row ∈ db.findStatusLists t p n ↔ row ∈ db.statusLists ∧ row.tenantId = t ∧
      p.all (row.statusPurpose = ·) ∧ n.all (row.issuerInstanceId = ·) := by
  simp [findStatusLists, List.mem_insertionSort]

theorem admits_iff {a : IndexAllocation} :
    db.admits a = true ↔ (∃ row ∈ db.statusLists, row.id = a.listId) ∧
      (∀ b ∈ db.indexAllocations,
        ¬(b.listId = a.listId ∧ b.statusListIndex = a.statusListIndex)) ∧
      ∀ b ∈ db.indexAllocations, ¬(b.tenantId = a.tenantId ∧ b.credentialId = a.credentialId ∧
        b.statusPurpose = a.statusPurpose) := by
  simp [admits, isIndexAllocated, getAllocation, getStatusList, and_assoc]

end Database

theorem Database.not_admits {db : Database} {a : IndexAllocation}
    (hlist : ∃ row ∈ db.statusLists, row.id = a.listId) (h : db.admits a = false) :
    (∃ b ∈ db.indexAllocations, b.listId = a.listId ∧ b.statusListIndex = a.statusListIndex) ∨
      ∃ b ∈ db.indexAllocations, b.tenantId = a.tenantId ∧ b.credentialId = a.credentialId ∧
        b.statusPurpose = a.statusPurpose := by
  by_contra hfree
  rw [not_or] at hfree
  refine absurd (Database.admits_iff.mpr ⟨hlist, ?_, ?_⟩) (by simp [h])
  · exact fun b hb hab => hfree.1 ⟨b, hb, hab⟩
  · exact fun b hb hab => hfree.2 ⟨b, hb, hab⟩

/-! ### Updating one row -/

@[simp] theorem RowUpdate.apply_id (u : RowUpdate) (row : StatusListRecord) :
    (u.apply row).id = row.id := by
  unfold RowUpdate.apply
  split <;> rfl

theorem RowUpdate.apply_of_ne {u : RowUpdate} {row : StatusListRecord} (h : row.id ≠ u.id) :
    u.apply row = row := if_neg h

theorem RowUpdate.apply_of_eq {u : RowUpdate} {row : StatusListRecord} (h : row.id = u.id) :
    u.apply row =
      { row with
        encodedList := u.materialization.encodedList
        signedCredential := u.materialization.signedCredential
        version := u.version
        updatedAt := u.updatedAt } := if_pos h

namespace Database

theorem update_ids (db : Database) (u : RowUpdate) :
    (db.update u).statusLists.map (·.id) = db.statusLists.map (·.id) := by
  simp [update, Function.comp_def]

theorem getStatusList_update (db : Database) (u : RowUpdate) (id : String) :
    (db.update u).getStatusList id = (db.getStatusList id).map u.apply := by
  have hsame : (fun row => decide (row.id = id)) ∘ u.apply = fun row => decide (row.id = id) := by
    funext row
    simp
  simp only [update, getStatusList, List.find?_map, hsame]

theorem getStatusList_update_of_ne (db : Database) (u : RowUpdate) {id : String}
    (h : id ≠ u.id) : (db.update u).getStatusList id = db.getStatusList id := by
  rw [getStatusList_update]
  cases hf : db.getStatusList id with
  | none => rfl
  | some row =>
      have hid := (mem_of_getStatusList hf).2
      rw [Option.map_some, RowUpdate.apply_of_ne (hid ▸ h)]

theorem mem_update {db : Database} {u : RowUpdate} {row : StatusListRecord} :
    row ∈ (db.update u).statusLists ↔ ∃ old ∈ db.statusLists, u.apply old = row :=
  List.mem_map

end Database

end VcalmStatus
