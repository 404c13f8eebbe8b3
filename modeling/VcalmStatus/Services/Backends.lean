import VcalmStatus.Js.JsonReading
import VcalmStatus.Services.MemoryContract
import VcalmStatus.Services.Rows
import VcalmStatus.Services.SqlContract

/-!
The two backends side by side.

Both keep the contract, so whatever a caller does over the interface comes out alike, with one
exception: they ask for the reasons of a refused allocation in different orders. An index can only
be taken in a list that is there, so the orders tell apart exactly one case, an allocation in an
unknown list for a credential that has an index already. This is said of calls that leave nothing to
the database: what they name and write fits the columns, and no two lists they find were created at
one moment.
-/

namespace VcalmStatus

open Js Effects

/-- An allocation that is refused for two reasons, of which the backends report a different one. -/
def StorageCall.Ambiguous {T : Type} (db : Database) : StorageCall T → Prop
  | .allocateIndex allocation =>
      Refusal.applies db allocation .unknownList = true ∧
        Refusal.applies db allocation .credentialAllocated = true
  | _ => False

/-- The columns of either database hold the text: Postgres refuses a NUL. -/
def fitsText (s : String) : Bool := nul ∉ s.toList

/-- An `integer` of Postgres has four bytes. -/
def fitsInteger (n : Nat) : Bool := n < 2 ^ 31

/-- What the call names and writes fits the columns, and the rows it finds have one order. -/
def StorageCall.Settled {T : Type} (N : Numerals) (now : Date) (db : Database) :
    StorageCall T → Prop
  | .createStatusList record =>
      fitsText record.id ∧ fitsText record.tenantId ∧ fitsText record.issuerInstanceId ∧
        fitsText record.encodedList ∧ (StorageContract.firstVersion record now).Writable N
  | .getStatusList id => fitsText id
  | .findStatusLists tenantId statusPurpose issuerInstanceId =>
      fitsText tenantId ∧ (∀ id ∈ issuerInstanceId, fitsText id) ∧
        ((db.findStatusLists tenantId statusPurpose issuerInstanceId).map (·.createdAt)).Nodup
  | .updateStatusList id mutate =>
      fitsText id ∧ ∀ current outcome materialization, db.getStatusList id = some current →
        mutate current = .ok outcome → outcome.materialization = some materialization →
        fitsText materialization.encodedList ∧ fitsInteger (current.version + 1) ∧
          (Json.obj materialization.signedCredential).Storable N ∧ now < firstOfFiveDigits
  | .allocateIndex allocation =>
      fitsText allocation.listId ∧ fitsText allocation.tenantId ∧
        fitsText allocation.credentialId ∧ fitsInteger allocation.statusListIndex ∧
        now < firstOfFiveDigits
  | .getAllocation tenantId credentialId _ => fitsText tenantId ∧ fitsText credentialId
  | .isIndexAllocated listId statusListIndex => fitsText listId ∧ fitsInteger statusListIndex
  | .countAllocations listId => fitsText listId

theorem StorageCall.Settled.nulFree {T : Type} {N : Numerals} {now : Date} {db : Database}
    {call : StorageCall T} (h : call.Settled N now db) : call.NulFree := by
  cases call with
  | allocateIndex allocation =>
      obtain ⟨-, htenant, -⟩ := h
      show nul ∉ allocation.tenantId.toList
      simpa [fitsText] using htenant
  | getAllocation tenantId credentialId p =>
      obtain ⟨htenant, -⟩ := h
      show nul ∉ tenantId.toList
      simpa [fitsText] using htenant
  | _ => trivial

namespace StorageContract

variable {T : Type} {db : Database}

/-- No index of an unknown list is taken. -/
theorem indexTaken_of_unknownList (h : db.Keyed) {allocation : NewIndexAllocation}
    (hlist : Refusal.applies db allocation .unknownList = true) :
    Refusal.applies db allocation .indexTaken = false := by
  rw [Bool.eq_false_iff]
  intro hindex
  obtain ⟨a, ha, hid, -⟩ := Database.isIndexAllocated_iff.mp hindex
  obtain ⟨row, hrow, hrowid⟩ := h.foreign a ha
  rw [Refusal.applies, Option.isNone_iff_eq_none, Database.getStatusList_eq_none] at hlist
  exact hlist row hrow (hrowid.trans hid)

/-- Outside the ambiguous case one reason applies at most, or both orders find the same first. -/
theorem find?_refusalOrder (h : db.Keyed) {allocation : NewIndexAllocation}
    (hone : ¬StorageCall.Ambiguous db (.allocateIndex allocation : StorageCall T)) :
    MemoryStorage.refusalOrder.find? (Refusal.applies db allocation) =
      SqlStorage.refusalOrder.find? (Refusal.applies db allocation) := by
  have hindex : Refusal.applies db allocation .unknownList = true →
      Refusal.applies db allocation .indexTaken = false := indexTaken_of_unknownList h
  simp only [StorageCall.Ambiguous, not_and, Bool.not_eq_true] at hone
  simp only [MemoryStorage.refusalOrder, SqlStorage.refusalOrder, List.find?_cons, List.find?_nil]
  cases hlist : Refusal.applies db allocation .unknownList with
  | true => rw [hindex hlist, hone hlist]
  | false =>
      cases Refusal.applies db allocation .credentialAllocated <;>
        cases Refusal.applies db allocation .indexTaken <;> rfl

theorem answer_refusalOrder (h : db.Keyed) {call : StorageCall T} (hone : ¬call.Ambiguous db)
    (now : Date) :
    answer MemoryStorage.refusalOrder now db call = answer SqlStorage.refusalOrder now db call := by
  cases call with
  | allocateIndex allocation => simp only [answer, find?_refusalOrder h hone]
  | createStatusList record => rfl
  | updateStatusList id mutate => rfl
  | getStatusList id => rfl
  | findStatusLists t p n => rfl
  | getAllocation t c p => rfl
  | isIndexAllocated listId n => rfl
  | countAllocations listId => rfl

/-- In the ambiguous case each order finds another reason, and both refuse. -/
theorem answer_of_ambiguous {allocation : NewIndexAllocation}
    (h : StorageCall.Ambiguous db (.allocateIndex allocation : StorageCall T)) (now : Date) :
    answer (T := T) MemoryStorage.refusalOrder now db (.allocateIndex allocation) =
        (.error (Refusal.unknownList.error allocation), db) ∧
      answer (T := T) SqlStorage.refusalOrder now db (.allocateIndex allocation) =
        (.error (Refusal.credentialAllocated.error allocation), db) := by
  obtain ⟨hlist, hcredential⟩ := h
  simp only [answer, MemoryStorage.refusalOrder, SqlStorage.refusalOrder, List.find?_cons, hlist,
    hcredential, and_self]

end StorageContract

namespace Backends

variable {T ε α : Type} {env : Environment} {i : Nat} {m : MemoryStorage} {w w' : World}

/-- One state of both backends: a database nobody has a transaction open on, its keys in order, and
the maps that hold its rows. -/
structure Same (w : World) (m : MemoryStorage) : Prop where
  quiet : w.Quiet
  keyed : w.db.Keyed
  represents : m.Represents w.db

theorem same_initial : Same World.initial MemoryStorage.empty :=
  ⟨World.quiet_initial, Database.keyed_empty, MemoryStorage.represents_empty⟩

/-- What the database answers, by the contract. -/
theorem Same.step (h : Same w m) (env : Environment) (i : Nat) (now : Date)
    (call : StorageCall T) :
    ∃ w', SqlStorage.step env i now w call =
        some ((StorageContract.answer SqlStorage.refusalOrder now w.db call).1, w') ∧
      w'.Quiet ∧ w'.db = (StorageContract.answer SqlStorage.refusalOrder now w.db call).2 := by
  obtain ⟨w', hstep, hdb, hquiet⟩ :=
    SqlStorage.follows env i now (s := w.db) (o := call) ⟨rfl, h.quiet⟩ trivial rfl
  exact ⟨w', hstep, hquiet, hdb⟩

/-- The states stay one, and the answers are one exactly outside the ambiguous case. -/
theorem Same.answer_iff (h : Same w m) (env : Environment) (i : Nat) (now : Date)
    {call : StorageCall T} (hcall : call.NulFree) :
    ∃ r w', SqlStorage.step env i now w call = some (r, w') ∧ Same w' (m.answer now call).2 ∧
      ((m.answer now call).1 = r ↔ ¬call.Ambiguous w.db) := by
  obtain ⟨w', hstep, hquiet, hdb⟩ := h.step env i now call
  obtain ⟨hanswer, hrepresents⟩ := h.represents.answer now hcall
  have hkeyed : w'.db.Keyed := by
    rw [hdb]
    exact StorageContract.keyed_answer SqlStorage.complete_refusalOrder h.keyed call
  refine ⟨_, w', hstep, ?_⟩
  by_cases hone : call.Ambiguous w.db
  · cases call with
    | allocateIndex allocation =>
        obtain ⟨hmemory, hsql⟩ := StorageContract.answer_of_ambiguous (T := T) hone now
        rw [hsql] at hdb ⊢
        rw [hmemory] at hanswer hrepresents
        refine ⟨⟨hquiet, hkeyed, by rw [hdb]; exact hrepresents⟩, ?_⟩
        rw [hanswer]
        simp [hone, Refusal.error]
    | _ => exact hone.elim
  · rw [StorageContract.answer_refusalOrder h.keyed hone] at hanswer hrepresents
    exact ⟨⟨hquiet, hkeyed, by rw [hdb]; exact hrepresents⟩, by simp [hone, hanswer]⟩

theorem follows (env : Environment) (i : Nat) (now : Date) :
    Follows Same (fun w (call : StorageCall T) => call.NulFree ∧ ¬call.Ambiguous w.db)
      (SqlStorage.step env i now) (MemoryStorage.step now) := by
  rintro w m call r w' h ⟨hcall, hone⟩ hstep
  obtain ⟨r', w'', hstep', hsame, hanswer⟩ := h.answer_iff env i now hcall
  rw [hstep] at hstep'
  cases hstep'
  exact ⟨_, congrArg some (Prod.ext (hanswer.mpr hone) rfl), hsame⟩

theorem testStatusListCredential_storable (N : Numerals) (id : String) :
    (Json.obj (testStatusListCredential id)).Storable N := by
  have hkeys : (testStatusListCredential id).map Prod.fst =
      ["@context", "id", "type", "issuer", "validFrom", "credentialSubject", "proof"] := rfl
  refine .of_names (hkeys ▸ by decide) (hkeys ▸ by decide +kernel) ?_
  have harr : ∀ texts : List String, (Json.arr (texts.map .str)).Storable N := by
    intro texts
    refine .arr fun x hx => ?_
    obtain ⟨text, -, rfl⟩ := List.mem_map.mp hx
    exact .str text
  have hsubject : (Json.obj [("id", .str (id ++ "#list")), ("type", .str "BitstringStatusList"),
      ("statusPurpose", .str "revocation"),
      ("encodedList", .str PlainList.emptyEncodedList)]).Storable N := by
    refine .of_names (by simp) (by simp only [List.map_cons, List.map_nil]; decide +kernel) ?_
    simpa using ⟨Json.Storable.str _, Json.Storable.str _, Json.Storable.str _, Json.Storable.str _⟩
  have hproof : (Json.obj [("type", .str "FakeProof"), ("proofValue", .str "z0")]).Storable N := by
    refine .of_names (by simp) (by simp only [List.map_cons, List.map_nil]; decide +kernel) ?_
    simpa using ⟨Json.Storable.str _, Json.Storable.str _⟩
  simpa [testStatusListCredential] using ⟨harr ["https://www.w3.org/ns/credentials/v2"],
    Json.Storable.str _, harr ["VerifiableCredential", "BitstringStatusListCredential"],
    Json.Storable.str _, Json.Storable.str _, hsubject, hproof⟩

theorem writable_testStatusList {id : String} {now : Date} (h : now < firstOfFiveDigits) :
    (StorageContract.firstVersion { testStatusList.toNewStatusListRecord with id } now).Writable
      plainNumerals where
  finite := testStatusList_finite
  storable := testStatusListCredential_storable _ _
  createdAt := h
  updatedAt := h

/-- The states that the same calls, none of which leaves anything to the database, have led the two
backends to. -/
inductive Together (N : Numerals) (clock : Nat → Date) (env : Environment) (i : Nat) :
    Nat → World → MemoryStorage → Prop
  | start : Together N clock env i 0 World.initial MemoryStorage.empty
  | call {T : Type} {n : Nat} {w w' : World} {m : MemoryStorage} {call : StorageCall T}
      {r : call.Answer} (h : Together N clock env i n w m)
      (hcall : call.Settled N (clock n) w.db)
      (hstep : SqlStorage.step env i (clock n) w call = some (r, w')) :
      Together N clock env i (n + 1) w' (m.answer (clock n) call).2

theorem Together.same {N : Numerals} {clock : Nat → Date} {n : Nat}
    (h : Together N clock env i n w m) : Same w m := by
  induction h with
  | start => exact same_initial
  | @call T n w w' m call r h hcall hstep ih =>
      obtain ⟨r', w'', hstep', hsame, -⟩ := ih.answer_iff env i (clock n) hcall.nulFree
      rw [hstep] at hstep'
      cases hstep'
      exact hsame

/-- After any calls, the next one is answered alike exactly where it is no ambiguous allocation,
and the backends hold the same rows after it in any case. -/
theorem answers_agree_iff {N : Numerals} {clock : Nat → Date} {n : Nat}
    (h : Together N clock env i n w m) {call : StorageCall T}
    (hcall : call.Settled N (clock n) w.db) :
    ∃ r w', SqlStorage.step env i (clock n) w call = some (r, w') ∧
      ((m.answer (clock n) call).1 = r ↔ ¬call.Ambiguous w.db) ∧
      m.lists.values = w.db.statusLists ∧
      (m.answer (clock n) call).2.lists.values = w'.db.statusLists ∧
      (m.answer (clock n) call).2.allocations.values = w'.db.indexAllocations := by
  obtain ⟨r, w', hstep, hsame, hanswer⟩ := h.same.answer_iff env i (clock n) hcall.nulFree
  exact ⟨r, w', hstep, hanswer, h.same.represents.values_lists, hsame.represents.values_lists,
    hsame.represents.values_allocations⟩

/-- An index for one and the same credential, in this list. -/
def firstIndexIn (listId : String) : StorageCall Unit :=
  .allocateIndex ⟨"urn:uuid:1", "acme", listId, .revocation, 7⟩

theorem firstIndexIn_settled (listId : String) (h : fitsText listId = true) {now : Date}
    (hnow : now < firstOfFiveDigits) (db : Database) :
    (firstIndexIn listId).Settled plainNumerals now db :=
  ⟨h, (by decide : fitsText "acme" = true), (by decide : fitsText "urn:uuid:1" = true),
    (by decide : fitsInteger 7 = true), hnow⟩

theorem createFirst_settled :
    (.createStatusList testStatusList.toNewStatusListRecord : StorageCall Unit).Settled
      plainNumerals 0 World.initial.db :=
  ⟨by decide, by decide, by decide, by decide, writable_testStatusList (by decide)⟩

/-- After a creation and an allocation in the list, the same allocation in another list is answered
with one code by one backend and with another by the other, and both have the rows they had. -/
theorem answers_disagree_unknown_list :
    ∃ w m r w', Together plainNumerals id (testEnvironment .sqlite) 0 2 w m ∧
      w.db.indexAllocations.length = 1 ∧
      SqlStorage.step (testEnvironment .sqlite) 0 2 w (firstIndexIn "list-2") = some (r, w') ∧
      (m.answer 2 (firstIndexIn "list-2")).1 ≠ r ∧
      (m.answer 2 (firstIndexIn "list-2")).2.lists.values = w'.db.statusLists ∧
      (m.answer 2 (firstIndexIn "list-2")).2.allocations.values = w'.db.indexAllocations := by
  have hcomputed : ((SqlStorage.step (T := Unit) (testEnvironment .sqlite) 0 0 World.initial
      (.createStatusList testStatusList.toNewStatusListRecord)).bind fun rs =>
        SqlStorage.step (testEnvironment .sqlite) 0 1 rs.2 (firstIndexIn "list-1")).any
      (fun rs => decide (rs.2.db.indexAllocations.length = 1) &&
        (rs.2.db.getStatusList "list-2").isNone &&
        (rs.2.db.getAllocation "acme" "urn:uuid:1" .revocation).isSome) = true := by decide +kernel
  obtain ⟨⟨_, w⟩, hsteps, hfound⟩ := (Option.any_eq_true _ _).mp hcomputed
  obtain ⟨⟨_, w₁⟩, hcreate, hallocate⟩ := Option.bind_eq_some_iff.mp hsteps
  simp only [Bool.and_eq_true, decide_eq_true_eq] at hfound
  obtain ⟨⟨hlength, hunknown⟩, hallocated⟩ := hfound
  have htogether : Together plainNumerals id (testEnvironment .sqlite) 0 2 w _ :=
    (Together.start.call createFirst_settled hcreate).call
      (firstIndexIn_settled "list-1" (by decide) (by decide) w₁.db) hallocate
  -- Both reasons against it apply, and each backend looks for another one first.
  have hambiguous : (firstIndexIn "list-2").Ambiguous w.db := ⟨hunknown, hallocated⟩
  obtain ⟨r, w', hstep, hagree, -, hlists, hallocations⟩ :=
    answers_agree_iff htogether (firstIndexIn_settled "list-2" (by decide) (by decide) w.db)
  exact ⟨w, _, r, w', htogether, hlength, hstep, fun hsame => hagree.mp hsame hambiguous, hlists,
    hallocations⟩

end Backends

end VcalmStatus
