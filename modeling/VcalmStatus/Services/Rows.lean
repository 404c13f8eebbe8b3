import VcalmStatus.Js.IsoText
import VcalmStatus.Js.JsonRoundTrip
import VcalmStatus.Services.World
import VcalmStatus.TestFixtures

/-!
The SQL shape behind `SqlStorage`, written once for both dialects: documents are JSON in `text`
columns and timestamps are ISO-8601 strings. The tables here hold what the columns hold; the
queries filter, compare and sort these texts.
-/

namespace VcalmStatus

open Js

structure StatusListTable where
  id : String
  tenantId : String
  issuerInstanceId : String
  statusPurpose : String
  characteristics : String
  encodedList : String
  signedCredential : String
  version : Nat
  createdAt : String
  updatedAt : String
  deriving DecidableEq, Repr

structure IndexAllocationTable where
  listId : String
  tenantId : String
  credentialId : String
  statusPurpose : String
  statusListIndex : Nat
  allocatedAt : String
  deriving DecidableEq, Repr

/-! ### Characteristics as a document -/

def StatusMessage.toJson (m : StatusMessage) : Json :=
  .obj [("status", .str m.status), ("message", .str m.message)]

def StatusListCharacteristics.toJson (c : StatusListCharacteristics) : Json :=
  .obj ([("length", .num (.int c.length)), ("statusSize", .num (.int c.statusSize))] ++
    (c.statusMessage.map fun ms =>
      ("statusMessage", Json.arr (ms.map StatusMessage.toJson))).toList ++
    (c.ttl.map fun ttl : Nat => ("ttl", Json.num (.int ttl))).toList)

/-- A property that is read as a number. -/
def natOf (o : JsonObject) (key : String) : Option Nat :=
  match JsonObject.get? o key with
  | some (.num (.int (.ofNat n))) => some n
  | _ => none

def StatusMessage.ofJson : Json → Option StatusMessage
  | .obj o => do
      let status ← (JsonObject.get? o "status").bind Json.string?
      let message ← (JsonObject.get? o "message").bind Json.string?
      some ⟨status, message⟩
  | _ => none

/-- `as StatusListCharacteristics`, `none` where the value is not of that type. -/
def StatusListCharacteristics.ofJson : Json → Option StatusListCharacteristics
  | .obj o => do
      let length ← natOf o "length"
      let statusSize ← natOf o "statusSize"
      let statusMessage ← match JsonObject.get? o "statusMessage" with
        | none => some none
        | some (.arr ms) => (ms.mapM StatusMessage.ofJson).map some
        | some _ => none
      let ttl ← match JsonObject.get? o "ttl" with
        | none => some none
        | some _ => (natOf o "ttl").map some
      some { length, statusSize, statusMessage, ttl }
  | _ => none

def StatusPurpose.ofText? (s : String) : Option StatusPurpose :=
  if s = StatusPurpose.revocation.text then some .revocation
  else if s = StatusPurpose.suspension.text then some .suspension
  else none

@[simp] theorem StatusPurpose.ofText?_text (p : StatusPurpose) :
    StatusPurpose.ofText? p.text = some p := by
  cases p <;> rfl

/-! ### Rows and records -/

/-- `statusListRow`, `none` where a date has no text. -/
def statusListRow (record : StatusListRecord) : Option StatusListTable := do
  let createdAt ← toISOString record.createdAt
  let updatedAt ← toISOString record.updatedAt
  some
    { id := record.id
      tenantId := record.tenantId
      issuerInstanceId := record.issuerInstanceId
      statusPurpose := record.statusPurpose.text
      characteristics := record.characteristics.toJson.stringify
      encodedList := record.encodedList
      signedCredential := (Json.obj record.signedCredential).stringify
      version := record.version
      createdAt
      updatedAt }

/-- `statusListRecord`, `none` where a text is no document or no value of its type. -/
def statusListRecord (N : Numerals) (row : StatusListTable) : Option StatusListRecord := do
  let statusPurpose ← StatusPurpose.ofText? row.statusPurpose
  let characteristics ← StatusListCharacteristics.ofJson (← Json.parse N row.characteristics)
  let signedCredential ← (← Json.parse N row.signedCredential).object?
  let createdAt ← parseISO row.createdAt
  let updatedAt ← parseISO row.updatedAt
  some
    { id := row.id
      tenantId := row.tenantId
      issuerInstanceId := row.issuerInstanceId
      statusPurpose
      characteristics
      encodedList := row.encodedList
      signedCredential
      version := row.version
      createdAt
      updatedAt }

/-- The values `allocateIndex` inserts. -/
def allocationRow (a : IndexAllocation) : Option IndexAllocationTable := do
  let allocatedAt ← toISOString a.allocatedAt
  some
    { listId := a.listId
      tenantId := a.tenantId
      credentialId := a.credentialId
      statusPurpose := a.statusPurpose.text
      statusListIndex := a.statusListIndex
      allocatedAt }

def allocationRecord (row : IndexAllocationTable) : Option IndexAllocation := do
  let statusPurpose ← StatusPurpose.ofText? row.statusPurpose
  let allocatedAt ← parseISO row.allocatedAt
  some
    { credentialId := row.credentialId
      tenantId := row.tenantId
      listId := row.listId
      statusPurpose
      statusListIndex := row.statusListIndex
      allocatedAt }

/-! ### What is read back -/

/-- The numbers are ones there are. -/
structure StatusListCharacteristics.Finite (N : Numerals) (c : StatusListCharacteristics) :
    Prop where
  length : (Number.int c.length).IsFinite N
  statusSize : (Number.int c.statusSize).IsFinite N
  ttl : ∀ ttl ∈ c.ttl, (Number.int ttl).IsFinite N

theorem StatusMessage.ofJson_toJson (m : StatusMessage) :
    StatusMessage.ofJson m.toJson = some m := by
  simp [StatusMessage.ofJson, StatusMessage.toJson, JsonObject.get?_cons]

theorem StatusListCharacteristics.ofJson_toJson (c : StatusListCharacteristics) :
    StatusListCharacteristics.ofJson c.toJson = some c := by
  obtain ⟨length, statusSize, statusMessage, ttl⟩ := c
  have hmessages : ∀ ms : List StatusMessage,
      (ms.map StatusMessage.toJson).mapM StatusMessage.ofJson = some ms := by
    intro ms
    induction ms with
    | nil => rfl
    | cons m ms ih => simp [StatusMessage.ofJson_toJson, ih]
  cases statusMessage <;> cases ttl <;>
    simp [StatusListCharacteristics.ofJson, StatusListCharacteristics.toJson, natOf,
      JsonObject.get?_cons, hmessages]

/-- The keys of the two documents are names. -/
theorem isArrayIndex_name : ∀ name ∈ ["status", "message", "length", "statusSize",
    "statusMessage", "ttl"], isArrayIndex name = false := by
  decide

theorem StatusMessage.toJson_storable (N : Numerals) (m : StatusMessage) :
    m.toJson.Storable N := by
  refine .obj (by simp) (JsonObject.inOwnOrder_of_names ?_) ?_
  · intro kv hkv
    simp only [List.mem_cons, List.not_mem_nil, or_false] at hkv
    obtain rfl | rfl := hkv <;> exact isArrayIndex_name _ (by simp)
  · intro kv hkv
    simp only [List.mem_cons, List.not_mem_nil, or_false] at hkv
    obtain rfl | rfl := hkv <;> exact .str _

theorem StatusListCharacteristics.Finite.toJson_storable {N : Numerals}
    {c : StatusListCharacteristics} (h : c.Finite N) : c.toJson.Storable N := by
  have hmem : ∀ kv ∈ ([("length", Json.num (.int c.length)),
        ("statusSize", Json.num (.int c.statusSize))] ++
      (c.statusMessage.map fun ms =>
        ("statusMessage", Json.arr (ms.map StatusMessage.toJson))).toList ++
      (c.ttl.map fun ttl : Nat => ("ttl", Json.num (.int ttl))).toList),
      isArrayIndex kv.1 = false ∧ kv.2.Storable N := by
    intro kv hkv
    simp only [List.mem_append, List.mem_cons, List.not_mem_nil, or_false, Option.mem_toList,
      Option.map_eq_some_iff] at hkv
    obtain ((rfl | rfl) | ⟨ms, -, rfl⟩) | ⟨ttl, httl, rfl⟩ := hkv
    · exact ⟨isArrayIndex_name _ (by simp), .num h.length⟩
    · exact ⟨isArrayIndex_name _ (by simp), .num h.statusSize⟩
    · refine ⟨isArrayIndex_name _ (by simp), .arr fun x hx => ?_⟩
      obtain ⟨m, -, rfl⟩ := List.mem_map.mp hx
      exact m.toJson_storable N
    · exact ⟨isArrayIndex_name _ (by simp), .num (h.ttl ttl httl)⟩
  refine .obj ?_ (JsonObject.inOwnOrder_of_names fun kv hkv => (hmem kv hkv).1)
    fun kv hkv => (hmem kv hkv).2
  cases c.statusMessage <;> cases c.ttl <;> simp

theorem StatusListCharacteristics.Finite.read {N : Numerals} {c : StatusListCharacteristics}
    (h : c.Finite N) :
    (Json.parse N c.toJson.stringify).bind StatusListCharacteristics.ofJson = some c := by
  rw [Json.parse_stringify, Json.readBack_eq_self_iff.mpr h.toJson_storable, Option.bind_some,
    StatusListCharacteristics.ofJson_toJson]

theorem toISOString_eq_some {date : Nat} {text : String} :
    toISOString date = some text ↔ date ≤ maxDate ∧ isoText date = text := by
  unfold toISOString
  split <;> rename_i h
  · simp [h]
  · simp [h]

/-- The row of a record whose dates have a text. -/
def StatusListRecord.row (record : StatusListRecord) : StatusListTable where
  id := record.id
  tenantId := record.tenantId
  issuerInstanceId := record.issuerInstanceId
  statusPurpose := record.statusPurpose.text
  characteristics := record.characteristics.toJson.stringify
  encodedList := record.encodedList
  signedCredential := (Json.obj record.signedCredential).stringify
  version := record.version
  createdAt := isoText record.createdAt
  updatedAt := isoText record.updatedAt

theorem statusListRow_eq_some {record : StatusListRecord} {row : StatusListTable} :
    statusListRow record = some row ↔
      record.createdAt ≤ maxDate ∧ record.updatedAt ≤ maxDate ∧ row = record.row := by
  simp only [statusListRow, Option.bind_eq_bind, Option.bind_eq_some_iff, toISOString_eq_some,
    Option.some.injEq]
  constructor
  · rintro ⟨_, ⟨hcreated, rfl⟩, _, ⟨hupdated, rfl⟩, rfl⟩
    exact ⟨hcreated, hupdated, rfl⟩
  · rintro ⟨hcreated, hupdated, rfl⟩
    exact ⟨_, ⟨hcreated, rfl⟩, _, ⟨hupdated, rfl⟩, rfl⟩

/-- What a row is read as. -/
theorem statusListRecord_statusListRow {N : Numerals} {record : StatusListRecord}
    {row : StatusListTable} (hfinite : record.characteristics.Finite N)
    (h : statusListRow record = some row) :
    statusListRecord N row =
      ((Json.obj record.signedCredential).readBack N).object?.map fun signedCredential =>
        { record with signedCredential } := by
  obtain ⟨hcreated, hupdated, rfl⟩ := statusListRow_eq_some.mp h
  have hread := hfinite.read
  have hcreatedAt := parseISO_toISOString (toISOString_eq_some.mpr ⟨hcreated, rfl⟩)
  have hupdatedAt := parseISO_toISOString (toISOString_eq_some.mpr ⟨hupdated, rfl⟩)
  simp only [Option.bind_eq_some_iff] at hread
  obtain ⟨json, hjson, hcharacteristics⟩ := hread
  simp only [statusListRecord, StatusListRecord.row, StatusPurpose.ofText?_text, hjson,
    hcharacteristics, Json.parse_stringify, hcreatedAt, hupdatedAt, Option.bind_eq_bind,
    Option.bind_some]
  rw [Json.readBack]
  rfl

/-- A record can be stored and comes back as it was exactly when its credential can be written as
JSON and its dates can be written at all. -/
theorem storedRecord_iff {N : Numerals} {record : StatusListRecord}
    (hfinite : record.characteristics.Finite N) :
    (∃ row, statusListRow record = some row ∧ statusListRecord N row = some record) ↔
      (Json.obj record.signedCredential).Storable N ∧ record.createdAt ≤ maxDate ∧
        record.updatedAt ≤ maxDate := by
  constructor
  · rintro ⟨row, hrow, hread⟩
    obtain ⟨hcreated, hupdated, -⟩ := statusListRow_eq_some.mp hrow
    refine ⟨Json.readBack_eq_self_iff.mp ?_, hcreated, hupdated⟩
    rw [statusListRecord_statusListRow hfinite hrow] at hread
    obtain ⟨signedCredential, hsigned, hrecord⟩ := Option.map_eq_some_iff.mp hread
    rw [Json.readBack] at hsigned ⊢
    rw [Option.some.inj hsigned, ← hrecord]
  · rintro ⟨hstorable, hcreated, hupdated⟩
    have hrow := statusListRow_eq_some.mpr ⟨hcreated, hupdated, rfl⟩
    refine ⟨_, hrow, ?_⟩
    rw [statusListRecord_statusListRow hfinite hrow, Json.readBack_eq_self_iff.mpr hstorable]
    rfl

theorem testStatusList_finite : testStatusList.characteristics.Finite plainNumerals := by
  have hlength : (Number.int 131072).IsFinite plainNumerals :=
    Number.isFinite_int plainNumerals (by decide)
  have hsize : (Number.int 1).IsFinite plainNumerals :=
    Number.isFinite_int plainNumerals (by decide)
  exact ⟨hlength, hsize, nofun⟩

theorem storedRecord_iff_testStatusList :
    (∃ row, statusListRow testStatusList = some row ∧
        statusListRecord plainNumerals row = some testStatusList) ↔
      (Json.obj testStatusList.signedCredential).Storable plainNumerals ∧
        testStatusList.createdAt ≤ maxDate ∧ testStatusList.updatedAt ≤ maxDate :=
  storedRecord_iff testStatusList_finite

/-- `order by created_at` sorts texts: of two lists the older comes first, except that a list of a
five-digit year comes before all that were created in years of four. -/
theorem createdAt_sorts_chronologically {older newer : StatusListRecord}
    {row row' : StatusListTable} (hrow : statusListRow older = some row)
    (hrow' : statusListRow newer = some row') (hlt : older.createdAt < newer.createdAt) :
    row.createdAt < row'.createdAt ↔
      ¬(older.createdAt < firstOfFiveDigits ∧ firstOfFiveDigits ≤ newer.createdAt) := by
  obtain ⟨hcreated, -, rfl⟩ := statusListRow_eq_some.mp hrow
  obtain ⟨hcreated', -, rfl⟩ := statusListRow_eq_some.mp hrow'
  exact isoText_lt_iff hcreated hcreated' hlt

/-- The test list, created when the year 10000 began. -/
def lateStatusList : StatusListRecord := { testStatusList with createdAt := firstOfFiveDigits }

theorem createdAt_sorts_late :
    ∃ row row', statusListRow testStatusList = some row ∧ statusListRow lateStatusList = some row' ∧
      (row.createdAt < row'.createdAt ↔
        ¬(testStatusList.createdAt < firstOfFiveDigits ∧
          firstOfFiveDigits ≤ lateStatusList.createdAt)) := by
  have hrow : statusListRow testStatusList = some testStatusList.row :=
    statusListRow_eq_some.mpr ⟨by decide, by decide, rfl⟩
  have hrow' : statusListRow lateStatusList = some lateStatusList.row :=
    statusListRow_eq_some.mpr ⟨by decide, by decide, rfl⟩
  exact ⟨_, _, hrow, hrow', createdAt_sorts_chronologically hrow hrow' (by decide)⟩

/-! ### Allocations -/

def IndexAllocation.row (a : IndexAllocation) : IndexAllocationTable where
  listId := a.listId
  tenantId := a.tenantId
  credentialId := a.credentialId
  statusPurpose := a.statusPurpose.text
  statusListIndex := a.statusListIndex
  allocatedAt := isoText a.allocatedAt

theorem allocationRow_eq_some {a : IndexAllocation} {row : IndexAllocationTable} :
    allocationRow a = some row ↔ a.allocatedAt ≤ maxDate ∧ row = a.row := by
  simp only [allocationRow, Option.bind_eq_bind, Option.bind_eq_some_iff, toISOString_eq_some,
    Option.some.injEq]
  constructor
  · rintro ⟨_, ⟨hallocated, rfl⟩, rfl⟩
    exact ⟨hallocated, rfl⟩
  · rintro ⟨hallocated, rfl⟩
    exact ⟨_, ⟨hallocated, rfl⟩, rfl⟩

theorem allocationRecord_row {a : IndexAllocation} (h : a.allocatedAt ≤ maxDate) :
    allocationRecord a.row = some a := by
  have hallocatedAt := parseISO_toISOString (toISOString_eq_some.mpr ⟨h, rfl⟩)
  simp only [allocationRecord, IndexAllocation.row, StatusPurpose.ofText?_text, hallocatedAt,
    Option.bind_eq_bind, Option.bind_some]

/-! ### Records that rows can hold -/

/-- The numbers are ones there are, the credential can be written as JSON, and the years of the
dates have four digits. -/
structure StatusListRecord.Writable (N : Numerals) (record : StatusListRecord) : Prop where
  finite : record.characteristics.Finite N
  storable : (Json.obj record.signedCredential).Storable N
  createdAt : record.createdAt < firstOfFiveDigits
  updatedAt : record.updatedAt < firstOfFiveDigits

theorem le_maxDate {date : Nat} (h : date < firstOfFiveDigits) : date ≤ maxDate := by
  unfold firstOfFiveDigits at h
  unfold maxDate
  omega

namespace StatusListRecord.Writable

variable {N : Numerals} {record : StatusListRecord}

theorem written (h : record.Writable N) : statusListRow record = some record.row :=
  statusListRow_eq_some.mpr ⟨le_maxDate h.createdAt, le_maxDate h.updatedAt, rfl⟩

theorem read (h : record.Writable N) : statusListRecord N record.row = some record := by
  rw [statusListRecord_statusListRow h.finite h.written, Json.readBack_eq_self_iff.mpr h.storable]
  rfl

end StatusListRecord.Writable

end VcalmStatus
