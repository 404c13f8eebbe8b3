import VcalmStatus.Safety.Rules
import VcalmStatus.StatusLists.Manager

/-!
The specification of `createList`: what a list that was created is, what a creation can be refused
for, and that the program keeps to any policy that allows such lists.
-/

namespace VcalmStatus

open Js Effects Policy

namespace Environment

variable (env : Environment)

/-- The signing service named this DID for the instance at some moment. -/
def IssuerDid (issuerInstance : IssuerInstance) (did : String) : Prop :=
  ∃ tick, env.signing.issuerDid tick issuerInstance = .ok did

/-- The signing service returned this credential at some moment. -/
def Signed (issuerInstance : IssuerInstance) (unsigned : UnsignedCredential)
    (signed : VerifiableCredential) : Prop :=
  ∃ tick, env.signing.sign tick issuerInstance unsigned = .ok signed

/-- The errors the signing service throws for an instance: it is asked for its DID, and then to
sign what names that DID as its issuer. -/
inductive SignerFails (issuerInstance : IssuerInstance) : JsError → Prop
  | issuerDid {tick : Nat} {e : JsError}
      (h : env.signing.issuerDid tick issuerInstance = .error e) : SignerFails issuerInstance e
  | sign {tick : Nat} {unsigned : UnsignedCredential} {did : String} {e : JsError}
      (hdid : env.IssuerDid issuerInstance did)
      (hissuer : credentialIssuerId unsigned = some did)
      (h : env.signing.sign tick issuerInstance unsigned = .error e) : SignerFails issuerInstance e

end Environment

variable {B : Type} (deps : ManagerDeps B) (env : Environment)

/-- What `materialize` produces. -/
def Materialized (url : String) (issuerInstance : IssuerInstance) (statusPurpose : StatusPurpose)
    (list : B) (ttl : Option Nat) (m : StatusListMaterialization) : Prop :=
  m.encodedList = deps.lib.encode list ∧
    ∃ issuer validFrom, env.IssuerDid issuerInstance issuer ∧
      env.Signed issuerInstance
        (buildStatusListCredential deps.lib
          { url, issuer, statusPurpose, list, ttl, validFrom }).unsigned m.signedCredential

theorem characteristicsOf_eq_ok {requested : RequestedCharacteristics}
    {c : StatusListCharacteristics} :
    characteristicsOf requested = .ok c ↔
      minimumListLength ≤ requested.length.getD minimumListLength ∧
      (requested.statusSize.any (· ≠ 1) || requested.statusMessage.isSome) = false ∧
      c = { length := requested.length.getD minimumListLength, statusSize := 1
            ttl := requested.ttl } := by
  simp only [characteristicsOf]
  by_cases hshort : requested.length.getD minimumListLength < minimumListLength
  · simp [hshort]
  · cases hunsupported : requested.statusSize.any (· ≠ 1) || requested.statusMessage.isSome <;>
      simp [hshort, Nat.le_of_not_lt hshort, eq_comm]

theorem characteristicsOf_minimum {requested : RequestedCharacteristics}
    {c : StatusListCharacteristics} (h : characteristicsOf requested = .ok c) :
    minimumListLength ≤ c.length := by
  obtain ⟨hlength, _, rfl⟩ := characteristicsOf_eq_ok.mp h
  exact hlength

/-- The id a list created from `input` has. -/
def CreatedId (input : CreateStatusListInput) (id : String) : Prop :=
  input.id = some id ∨ input.id = none ∧ ∃ tick, id = env.generateId tick

/-- A row as `createList` stores it. -/
structure Created (input : CreateStatusListInput) (row : StatusListRecord) : Prop where
  characteristics :
    characteristicsOf (input.characteristics.getD {}) = .ok row.characteristics
  id : CreatedId env input row.id
  tenantId : row.tenantId = input.tenantId
  issuerInstanceId : row.issuerInstanceId = input.issuerInstance.id
  statusPurpose : row.statusPurpose = input.statusPurpose
  version : row.version = 1
  materialized : ∃ list, deps.lib.createList row.characteristics.length = .ok list ∧
    Materialized deps env (input.url.getD (statusListUrl deps.publicBaseUrl row.id))
      input.issuerInstance input.statusPurpose list row.characteristics.ttl
      ⟨row.encodedList, row.signedCredential⟩

/-- What a creation can fail with, and the world it fails in. -/
inductive CreateRefused (input : CreateStatusListInput) (t : World) : JsError → Prop
  | characteristics {e : JsError}
      (h : characteristicsOf (input.characteristics.getD {}) = .error e) : CreateRefused input t e
  | length {c : StatusListCharacteristics} {e : JsError}
      (hc : characteristicsOf (input.characteristics.getD {}) = .ok c)
      (h : deps.lib.createList c.length = .error e) : CreateRefused input t e
  | signer {e : JsError} (h : env.SignerFails input.issuerInstance e) : CreateRefused input t e
  | duplicate {c : StatusListCharacteristics} {list : B} {old : StatusListRecord}
      (hc : characteristicsOf (input.characteristics.getD {}) = .ok c)
      (hlist : deps.lib.createList c.length = .ok list) (hold : old ∈ t.db.statusLists)
      (hid : CreatedId env input old.id) : CreateRefused input t
        (.storage .duplicateList s!"Status list \"{old.id}\" already exists")

namespace StatusListManager

variable {deps env} {P : Policy} {i : Nat} {s : World}

theorem issuerDid_serves {issuerInstance : IssuerInstance} (hn : s.NotCommitted i) :
    P.Serves env i (issuerDid issuerInstance)
      (Ends (fun did t => P.Interference i s t ∧ env.IssuerDid issuerInstance did)
        (fun e t => P.Interference i s t ∧ env.SignerFails issuerInstance e)) s := by
  refine Serves.quiet (.issuerDid issuerInstance) rfl hn fun t r ht _ hr => ?_
  obtain ⟨tick, rfl⟩ := hr
  refine Safe.ofExcept fun t' ht' _ => ?_
  cases hd : env.signing.issuerDid tick issuerInstance with
  | ok did => exact ⟨ht.trans ht', tick, hd⟩
  | error e => exact ⟨ht.trans ht', .issuerDid hd⟩

theorem sign_serves {issuerInstance : IssuerInstance} {unsigned : UnsignedCredential}
    {did : String} (hdid : env.IssuerDid issuerInstance did)
    (hissuer : credentialIssuerId unsigned = some did) (hn : s.NotCommitted i) :
    P.Serves env i (sign issuerInstance unsigned)
      (Ends (fun c t => P.Interference i s t ∧ env.Signed issuerInstance unsigned c)
        (fun e t => P.Interference i s t ∧ env.SignerFails issuerInstance e)) s := by
  refine Serves.quiet (.sign issuerInstance unsigned) rfl hn fun t r ht _ hr => ?_
  obtain ⟨tick, rfl⟩ := hr
  refine Safe.ofExcept fun t' ht' _ => ?_
  cases hd : env.signing.sign tick issuerInstance unsigned with
  | ok c => exact ⟨ht.trans ht', tick, hd⟩
  | error e => exact ⟨ht.trans ht', .sign hdid hissuer hd⟩

theorem materialize_serves {url : String} {issuerInstance : IssuerInstance}
    {statusPurpose : StatusPurpose} {list : B} {ttl : Option Nat} (hn : s.NotCommitted i) :
    P.Serves env i (materialize deps url issuerInstance statusPurpose list ttl)
      (Ends
        (fun m t => P.Interference i s t ∧
          Materialized deps env url issuerInstance statusPurpose list ttl m)
        (fun e t => P.Interference i s t ∧ env.SignerFails issuerInstance e)) s := by
  refine Serves.seq (issuerDid_serves hn) ?_ fun e t _ h => h
  rintro issuer t _ ⟨ht, hissuer⟩
  refine Serves.quiet .now rfl (ht.notCommitted hn) fun u validFrom hu _ _ => ?_
  refine Serves.seq (sign_serves hissuer build_issuer (hu.notCommitted (ht.notCommitted hn))) ?_
    fun e v _ h => ⟨ht.trans (hu.trans h.1), h.2⟩
  rintro c v _ ⟨hv, hsigned⟩
  exact Serves.ret fun x hx _ =>
    ⟨ht.trans (hu.trans (hv.trans hx)), build_encodedList, issuer, validFrom, hissuer, hsigned⟩

/-- What an own insert leaves to others of the request's state. -/
theorem insertStatusList_idle {row : StatusListRecord} {u : World} (h : u.Idle i) :
    (u.insertStatusList i row).Idle i :=
  ⟨h.transaction, h.connection, h.holder⟩

theorem insertStatusList_notCommitted {row : StatusListRecord} {u : World}
    (h : u.NotCommitted i) : (u.insertStatusList i row).NotCommitted i := by
  intro r w he
  rcases List.mem_append.mp he with he | he
  · exact h r w he
  · cases List.mem_singleton.mp he

theorem createStatusList_serves {record : NewStatusListRecord} (hn : s.NotCommitted i)
    (hidle : s.Idle i)
    (hnew : ∀ row : StatusListRecord, row.toNewStatusListRecord = record → row.version = 1 →
      P.wf row ∧ P.mayCreate i row) :
    P.Serves env i (SqlStorage.createStatusList record)
      (Ends
        (fun row t => row.toNewStatusListRecord = record ∧ row.version = 1 ∧
          Event.created i row ∈ t.log ∧ (∃ row' ∈ t.db.statusLists, P.Same row row') ∧
          t.NotCommitted i ∧ t.Idle i)
        (fun e t => P.Interference i s t ∧ ∃ old ∈ t.db.statusLists, old.id = record.id ∧
          e = .storage .duplicateList s!"Status list \"{old.id}\" already exists")) s := by
  refine Serves.quiet .newDate rfl hn fun t now ht _ _ => ?_
  obtain ⟨hwf, hmay⟩ := hnew
    { record with version := 1, createdAt := now, updatedAt := now } rfl rfl
  refine Serves.insertStatusList (ht.notCommitted hn) hwf hmay (fun u hu _ _ => ?_)
    fun u hu _ hold => ?_
  · refine Serves.ret fun v hv _ => ⟨rfl, rfl, ?_, ?_, ?_, ?_⟩
    · exact hv.mem_log (List.mem_append_right _ (List.mem_singleton_self _))
    · exact hv.lists _ (List.mem_append_right _ (List.mem_singleton_self _))
    · exact hv.notCommitted
        (insertStatusList_notCommitted (hu.notCommitted (ht.notCommitted hn)))
    · exact hv.idle (insertStatusList_idle (hu.idle (ht.idle hidle)))
  -- The id was taken, so it is still there when it is read back.
  · have hnu := hu.notCommitted (ht.notCommitted hn)
    refine Serves.quiet (.getStatusList record.id) rfl hnu fun v r hv hIv hr => ?_
    obtain ⟨old, hmem, hid⟩ := hold
    obtain ⟨row', hrow', _⟩ := hv.getStatusList hIv hmem
    have hid : old.id = record.id := hid
    have hsome : r.isSome = true := by
      rw [hr, ← hid, hrow']
      rfl
    simp only [hsome, if_true]
    refine Serves.fail fun x hx _ => ⟨ht.trans (hu.trans (hv.trans hx)), ?_⟩
    obtain ⟨new, hnew, hsame⟩ := (hv.trans hx).lists old hmem
    have hnewid : new.id = record.id := hsame.binding.id.symm.trans hid
    exact ⟨new, hnew, hnewid, by rw [hnewid]⟩

/-- `createList` under any policy that allows the lists it creates. -/
theorem createList_serves {input : CreateStatusListInput} (hn : s.NotCommitted i)
    (hidle : s.Idle i)
    (hnew : ∀ row, Created deps env input row → P.wf row ∧ P.mayCreate i row) :
    P.Serves env i (createList deps input)
      (Ends
        (fun row t => Created deps env input row ∧ Event.created i row ∈ t.log ∧
          (∃ row' ∈ t.db.statusLists, P.Same row row') ∧ t.NotCommitted i ∧ t.Idle i)
        (fun e t => P.Interference i s t ∧ CreateRefused deps env input t e)) s := by
  rw [createList_eq]
  refine Serves.ofExcept (fun c hc => ?_) fun e t he ht _ => ⟨ht, .characteristics he⟩
  have rest : ∀ (id : String) (t : World), P.Interference i s t →
      CreatedId env input id →
      P.Serves env i (createNamed deps input c id)
        (Ends
          (fun row t => Created deps env input row ∧ Event.created i row ∈ t.log ∧
            (∃ row' ∈ t.db.statusLists, P.Same row row') ∧ t.NotCommitted i ∧ t.Idle i)
          (fun e t => P.Interference i s t ∧ CreateRefused deps env input t e)) t := by
    intro id t ht hid
    refine Serves.ofExcept (fun list hlist => ?_) fun e u he hu _ => ⟨ht.trans hu, .length hc he⟩
    refine Serves.seq (materialize_serves (ht.notCommitted hn)) ?_ fun e u _ h =>
      ⟨ht.trans h.1, .signer h.2⟩
    rintro m u _ ⟨hu, hm⟩
    have created : ∀ row : StatusListRecord, row.toNewStatusListRecord =
        { id, tenantId := input.tenantId, issuerInstanceId := input.issuerInstance.id
          statusPurpose := input.statusPurpose, characteristics := c
          encodedList := m.encodedList, signedCredential := m.signedCredential } →
        row.version = 1 → Created deps env input row := by
      rintro ⟨record, version, createdAt, updatedAt⟩ rfl hversion
      exact ⟨hc, hid, rfl, rfl, rfl, hversion, list, hlist, hm⟩
    refine (createStatusList_serves (hu.notCommitted (ht.notCommitted hn))
      (hu.idle (ht.idle hidle)) fun row hrow hv => hnew row (created row hrow hv)).imp ?_
    rintro (e | row) v _ h
    · obtain ⟨hv, old, hold, rfl, rfl⟩ := h
      exact ⟨ht.trans (hu.trans hv), .duplicate hc hlist hold hid⟩
    · exact ⟨created row h.1 h.2.1, h.2.2⟩
  cases hid : input.id with
  | some id => exact rest id s (Interference.refl i s) (.inl hid)
  | none =>
      refine Serves.quiet .generateId rfl hn fun t id ht _ hr => ?_
      exact rest id t ht (.inr ⟨hid, hr⟩)

end StatusListManager

end VcalmStatus
