import VcalmStatus.Safety.Creation

/-!
The specification of a status update: the transaction, the step inside it, and the two public
calls that reach it. Every outcome names the row that was read under the lock and the write that
was committed for it.
-/

namespace VcalmStatus

open Js Effects Policy

namespace World

variable {i : Nat} {w : World}

theorem release_idle : (w.release i).Idle i where
  transaction := by simp [release]
  connection := by
    simp only [release]
    split <;> simp_all
  holder id := by
    simp only [release]
    split <;> simp_all

theorem commit_idle : (w.commit i).Idle i := release_idle

theorem release_notCommitted (h : w.NotCommitted i) : (w.release i).NotCommitted i := h

/-- The event a commit leaves behind. -/
theorem commit_log {row : StatusListRecord} {write : Option RowUpdate}
    (h : w.transaction i = { row := some row, write := write }) :
    (w.commit i).log = w.log ++ [.committed i row write] := by
  simp [commit, release, apply, h]

theorem begin_db {env : Environment} : (w.begin env i).db = w.db := by
  unfold begin
  split <;> rfl

theorem begin_log {env : Environment} : (w.begin env i).log = w.log := by
  unfold begin
  split <;> rfl

theorem begin_connection {env : Environment} (h : env.dialect = .sqlite) :
    (w.begin env i).connection = some i := by
  unfold begin
  rw [h]
  rfl

end World

/-! ### Transactions -/

section Transaction

variable {P : Policy} {env : Environment} {i : Nat} {s : World} {T : Type}

/-- A transaction commits where its body returns and rolls back where it throws. -/
theorem transaction_serves {body : Async T} {Q : Except JsError T → World → Prop}
    {R : T → World → Prop} {E : JsError → World → Prop} (hn : s.NotCommitted i)
    (hbody : ∀ u, P.Interference i s u → P.Inv env u →
      P.Serves env i body
        (Ends (fun a t => t.NotCommitted i ∧ R a t) (fun e t => t.NotCommitted i ∧ E e t))
        (u.begin env i))
    (hcommit : ∀ a t u v, R a t → P.Interference i t u → P.Interference i (u.commit i) v →
      Q (.ok a) v)
    (hrollback : ∀ e t u v, E e t → P.Interference i t u → P.Interference i (u.release i) v →
      v.NotCommitted i → Q (.error e) v) :
    P.Serves env i (transaction body) Q s := by
  refine Serves.beginTransaction hn fun u hu hI => ?_
  refine Safe.tryCatch ?_
  refine Serves.seq (hbody u hu hI) ?_ ?_
  · rintro a t _ ⟨hn, hok⟩
    exact Serves.commit hn fun u hu _ => Serves.ret fun v hv _ => hcommit a t u v hok hu hv
  · rintro e t _ ⟨hn, herr⟩
    exact Serves.rollback hn fun u hu _ => Serves.fail fun v hv _ =>
      hrollback e t u v herr hu hv
        (hv.notCommitted (World.release_notCommitted (hu.notCommitted hn)))

/-- The write that a mutation's outcome is committed with. -/
def Wrote (id : String) (row : StatusListRecord) (outcome : Option StatusListMaterialization)
    (write : Option RowUpdate) : Prop :=
  match outcome with
  | none => write = none
  | some m => ∃ updatedAt, write = some ⟨id, m, row.version + 1, updatedAt⟩

/-- What a caller of `updateStatusList` learns of the row its mutation was given: it is the
current row of that id, in a state that extends the one the call was made in. -/
structure CurrentRow (P : Policy) (env : Environment) (s : World) (id : String)
    (row : StatusListRecord) : Prop where
  current : ∃ u, P.Extends s u ∧ P.Inv env u ∧ row ∈ u.db.statusLists
  id : row.id = id

theorem CurrentRow.wf {id : String} {row : StatusListRecord} (h : CurrentRow P env s id row) :
    P.wf row := by
  obtain ⟨u, _, hI, hmem⟩ := h.current
  exact hI.wf row hmem

theorem CurrentRow.mono {s' : World} {id : String} {row : StatusListRecord}
    (hs : P.Extends s s') (h : CurrentRow P env s' id row) : CurrentRow P env s id row := by
  obtain ⟨u, hu, hrest⟩ := h.current
  exact ⟨⟨u, hs.trans hu, hrest⟩, h.id⟩

/-- `updateStatusList`, from what its mutation does under the lock. -/
theorem updateStatusList_serves {id : String}
    {mutate : StatusListRecord → Async (StatusListMutationResult T)}
    {R : StatusListRecord → StatusListMutationResult T → Prop}
    {E : StatusListRecord → JsError → Prop} (hn : s.NotCommitted i)
    (hmay : ∀ u, P.Extends s u → P.Inv env u → ∀ row ∈ u.db.statusLists, row.id = id →
      P.mayUpdate i row)
    (hmutate : ∀ row t, CurrentRow P env s id row → t.NotCommitted i →
      P.Serves env i (mutate row)
        (Ends (fun o t' => P.Interference i t t' ∧ R row o)
          (fun e t' => P.Interference i t t' ∧ E row e)) t)
    (hres : ∀ row o m, CurrentRow P env s id row → R row o → o.materialization = some m →
      ∀ updatedAt, P.Resigned row ⟨id, m, row.version + 1, updatedAt⟩) :
    P.Serves env i (SqlStorage.updateStatusList id mutate)
      (Ends
        (fun result t => t.Idle i ∧ ∃ row o write, CurrentRow P env s id row ∧ R row o ∧
          o.result = result ∧ Wrote id row o.materialization write ∧
          Event.committed i row write ∈ t.log)
        (fun e t => t.Idle i ∧ t.NotCommitted i ∧
          ((∃ row, CurrentRow P env s id row ∧ E row e) ∨
            (∃ u, P.Extends s u ∧ ∀ row ∈ u.db.statusLists, row.id ≠ id)))) s := by
  refine transaction_serves
    (R := fun result t => ∃ row o write, CurrentRow P env s id row ∧ R row o ∧
      o.result = result ∧ Wrote id row o.materialization write ∧
      t.transaction i = { row := some row, write := write })
    (E := fun e _ => (∃ row, CurrentRow P env s id row ∧ E row e) ∨
      (∃ u, P.Extends s u ∧ ∀ row ∈ u.db.statusLists, row.id ≠ id))
    hn (fun u hu hI => ?_) ?_ ?_
  · have hbegin : P.Extends u (u.begin env i) := .of_eq World.begin_db World.begin_log
    have hstart : ∀ v, P.Interference i (u.begin env i) v → P.Extends s v := fun v hv =>
      hu.toExtends.trans (hbegin.trans hv.toExtends)
    have hnu : (u.begin env i).NotCommitted i := by
      intro row write he
      rw [World.begin_log] at he
      exact hu.notCommitted hn row write he
    refine Serves.lockStatusList hnu World.begin_connection (fun v hv => hmay v (hstart v hv))
      (fun v row hv hIv hmem hid => ?_)
      fun v hv _ hnone => Serves.fail fun x hx _ =>
        ⟨hx.notCommitted (hv.notCommitted hnu), .inr ⟨v, hstart v hv, hnone⟩⟩
    have hrow : CurrentRow P env s id row := ⟨⟨v, hstart v hv, hIv, hmem⟩, hid⟩
    have hnl : (v.lock i row).NotCommitted i := hv.notCommitted hnu
    refine Serves.seq (hmutate row (v.lock i row) hrow hnl) ?_ ?_
    · rintro o t _ ⟨ht, hR⟩
      have htr : t.transaction i = { row := some row } := by
        rw [ht.transaction]
        simp [World.lock]
      obtain ⟨m | m, result⟩ := o
      · exact Serves.ret fun x hx _ => ⟨hx.notCommitted (ht.notCommitted hnl), row, _, none, hrow,
          hR, rfl, rfl, hx.transaction.trans htr⟩
      · refine Serves.quiet .newDate rfl (ht.notCommitted hnl) fun y updatedAt hy _ _ => ?_
        have hny := hy.notCommitted (ht.notCommitted hnl)
        refine Serves.updateStatusListRow hny (by rw [hy.transaction, htr])
          (hres row _ m hrow hR rfl updatedAt) fun z hz _ => ?_
        refine Serves.ret fun x hx _ => ⟨hx.notCommitted (hz.notCommitted hny), row, _,
          some ⟨id, m, row.version + 1, updatedAt⟩, hrow, hR, rfl, ⟨updatedAt, rfl⟩, ?_⟩
        rw [hx.transaction]
        simp [World.stage, hz.transaction, hy.transaction, htr]
    · rintro e t _ ⟨ht, hE⟩
      exact ⟨ht.notCommitted hnl, .inl ⟨row, hrow, hE⟩⟩
  · rintro result t u v ⟨row, o, write, hrow, hR, hresult, hwrote, htr⟩ hu hv
    refine ⟨hv.idle World.commit_idle, row, o, write, hrow, hR, hresult, hwrote, hv.mem_log ?_⟩
    rw [World.commit_log (hu.transaction.trans htr)]
    exact List.mem_append_right _ (List.mem_singleton_self _)
  · intro e t u v herr _ hv hnv
    exact ⟨hv.idle World.release_idle, hnv, herr⟩

end Transaction

/-! ### Setting a status -/

section SetStatus

variable {B : Type} (deps : ManagerDeps B) (env : Environment)

/-- The instance a list is bound to, in the registry. -/
def BoundInstance (row : StatusListRecord) (issuerInstance : IssuerInstance) : Prop :=
  (env.tenants.getTenant row.tenantId).bind
    (resolveIssuerInstance · (some row.issuerInstanceId)) = some issuerInstance

/-- The materialization of a list with one bit moved to `status`. -/
structure Flipped (row : StatusListRecord) (issuerInstance : IssuerInstance) (index : Nat)
    (status : Bool) (m : StatusListMaterialization) : Prop where
  inRange : index < row.characteristics.length
  flipped : ∃ list list' held, deps.lib.decodeList row.encodedList = .ok list ∧
    deps.lib.getStatus list index = .ok held ∧ held ≠ status ∧
    deps.lib.setStatus list index status = .ok list' ∧
    Materialized deps env (canonicalUrlOf deps.publicBaseUrl row) issuerInstance
      row.statusPurpose list' row.characteristics.ttl m

/-- The two outcomes of `applyStatus` on a row. -/
inductive Applied (row : StatusListRecord) (issuerInstance : IssuerInstance)
    (statusListIndex : Number) (status : Bool) : StatusListMutationResult StatusChange → Prop
  | unchanged {index : Nat}
      (hindex : StatusListManager.indexWithin row.characteristics.length statusListIndex =
        some index)
      (hread : deps.lib.readStatus row.encodedList index = .ok status) :
      Applied row issuerInstance statusListIndex status ⟨none, ⟨false, row, statusListIndex⟩⟩
  | changed {index : Nat} {m : StatusListMaterialization} {updatedAt : Date}
      (hindex : StatusListManager.indexWithin row.characteristics.length statusListIndex =
        some index)
      (hflip : Flipped deps env row issuerInstance index status m) :
      Applied row issuerInstance statusListIndex status
        ⟨some m, ⟨true, { row with
          encodedList := m.encodedList
          signedCredential := m.signedCredential
          version := row.version + 1
          updatedAt := updatedAt }, statusListIndex⟩⟩

/-- What `applyStatus` can fail with on a row. -/
inductive ApplyRefused (row : StatusListRecord) (issuerInstance : IssuerInstance)
    (statusListIndex : Number) : JsError → Prop
  | indexOutOfRange
      (hindex : StatusListManager.indexWithin row.characteristics.length statusListIndex = none) :
      ApplyRefused row issuerInstance statusListIndex (.statusList .indexOutOfRange
        s!"Index {statusListIndex.toText} is outside list \"{row.id}\" (0…{row.characteristics.length - 1})")
  | decode {e : JsError} (h : deps.lib.decodeList row.encodedList = .error e) :
      ApplyRefused row issuerInstance statusListIndex e
  | get {index : Nat} {list : B} {e : JsError} (hindex : index < row.characteristics.length)
      (hlist : deps.lib.decodeList row.encodedList = .ok list)
      (h : deps.lib.getStatus list index = .error e) :
      ApplyRefused row issuerInstance statusListIndex e
  | set {index : Nat} {list : B} {status : Bool} {e : JsError}
      (hindex : index < row.characteristics.length)
      (hlist : deps.lib.decodeList row.encodedList = .ok list)
      (h : deps.lib.setStatus list index status = .error e) :
      ApplyRefused row issuerInstance statusListIndex e
  | signer {e : JsError} (h : env.SignerFails issuerInstance e) :
      ApplyRefused row issuerInstance statusListIndex e

/-- What `setStatus` can fail with, called in a world `s`. -/
inductive SetRefused (P : Policy) (s : World) (listId : String) (statusListIndex : Number) :
    JsError → Prop
  | listNotFound {u : World} (hu : P.Extends s u)
      (hnone : ∀ row ∈ u.db.statusLists, row.id ≠ listId) :
      SetRefused P s listId statusListIndex
        (.statusList .listNotFound s!"Status list \"{listId}\" not found")
  | issuerInstance {row : StatusListRecord} (hrow : CurrentRow P env s listId row)
      (hnone : (env.tenants.getTenant row.tenantId).bind
        (resolveIssuerInstance · (some row.issuerInstanceId)) = none) (message : String) :
      SetRefused P s listId statusListIndex (.statusList .issuerInstanceUnavailable message)
  | apply {row : StatusListRecord} {issuerInstance : IssuerInstance} {e : JsError}
      (hrow : CurrentRow P env s listId row) (hbound : BoundInstance env row issuerInstance)
      (h : ApplyRefused deps env row issuerInstance statusListIndex e) :
      SetRefused P s listId statusListIndex e

/-- A call that returned `change`: the row it read under the lock, what it did with it, and the
event of its commit. -/
def SetCommitted (P : Policy) (i : Nat) (s : World) (listId : String) (statusListIndex : Number)
    (status : Bool) (change : StatusChange) (t : World) : Prop :=
  ∃ row issuerInstance o write, CurrentRow P env s listId row ∧
    BoundInstance env row issuerInstance ∧
    Applied deps env row issuerInstance statusListIndex status o ∧ o.result = change ∧
    Wrote listId row o.materialization write ∧ Event.committed i row write ∈ t.log

/-- An allocation of the credential, in a state that extends `s`. -/
structure HeldFor (P : Policy) (s : World) (tenantId credentialId : String)
    (statusPurpose : StatusPurpose) (a : IndexAllocation) : Prop where
  held : ∃ u, P.Extends s u ∧ P.Inv env u ∧ a ∈ u.db.indexAllocations
  tenantId : a.tenantId = tenantId
  credentialId : a.credentialId = credentialId
  statusPurpose : a.statusPurpose = statusPurpose

theorem HeldFor.mono {env : Environment} {P : Policy} {s s' : World}
    {tenantId credentialId : String} {statusPurpose : StatusPurpose} {a : IndexAllocation}
    (hs : P.Extends s s') (h : HeldFor env P s' tenantId credentialId statusPurpose a) :
    HeldFor env P s tenantId credentialId statusPurpose a := by
  obtain ⟨u, hu, hrest⟩ := h.held
  exact ⟨⟨u, hs.trans hu, hrest⟩, h.tenantId, h.credentialId, h.statusPurpose⟩

/-- What `setCredentialStatus` can fail with, called in a world `s`. -/
inductive CredentialRefused (P : Policy) (s : World) (tenantId credentialId : String)
    (statusPurpose : StatusPurpose) : JsError → Prop
  | notAllocated {u : World} (hu : P.Extends s u)
      (hnone : ∀ a ∈ u.db.indexAllocations, ¬(a.tenantId = tenantId ∧
        a.credentialId = credentialId ∧ a.statusPurpose = statusPurpose)) :
      CredentialRefused P s tenantId credentialId statusPurpose
        (.statusList .credentialNotAllocated
          s!"Credential \"{credentialId}\" has no {statusPurpose.text} entry")
  | set {a : IndexAllocation} {e : JsError}
      (ha : HeldFor env P s tenantId credentialId statusPurpose a)
      (h : SetRefused deps env P s a.listId (.int a.statusListIndex) e) :
      CredentialRefused P s tenantId credentialId statusPurpose e

/-- The policy accepts what a flip makes of a list. -/
def Policy.Resigns (P : Policy) : Prop :=
  ∀ row issuerInstance index status m, P.wf row → BoundInstance env row issuerInstance →
    Flipped deps env row issuerInstance index status m →
    ∀ updatedAt, P.Resigned row ⟨row.id, m, row.version + 1, updatedAt⟩

namespace StatusListManager

variable {deps env} {P : Policy} {i : Nat} {s : World}

theorem indexWithin_eq_some {length : Nat} {statusListIndex : Number} {index : Nat} :
    indexWithin length statusListIndex = some index ↔
      statusListIndex = .int index ∧ index < length := by
  unfold indexWithin
  split
  · rename_i n
    constructor
    · intro h
      split at h
      · cases h
        exact ⟨rfl, by assumption⟩
      · cases h
    · rintro ⟨h, hlt⟩
      cases h
      exact if_pos hlt
  · rename_i hne
    constructor
    · intro h
      cases h
    · rintro ⟨h, _⟩
      exact absurd h (hne index)

theorem applyStatus_serves {row : StatusListRecord} {issuerInstance : IssuerInstance}
    {statusListIndex : Number} {status : Bool} (hn : s.NotCommitted i) :
    P.Serves env i (applyStatus deps row issuerInstance statusListIndex status)
      (Ends
        (fun o t => P.Interference i s t ∧
          Applied deps env row issuerInstance statusListIndex status o)
        (fun e t => P.Interference i s t ∧
          ApplyRefused deps env row issuerInstance statusListIndex e)) s := by
  unfold applyStatus
  cases hindex : indexWithin row.characteristics.length statusListIndex with
  | none => exact Serves.fail fun t ht _ => ⟨ht, .indexOutOfRange hindex⟩
  | some index =>
      have hlt := (indexWithin_eq_some.mp hindex).2
      refine Serves.ofExcept (fun list hlist => ?_) fun e t he ht _ => ⟨ht, .decode he⟩
      refine Serves.ofExcept (fun held hheld => ?_) fun e t he ht _ => ⟨ht, .get hlt hlist he⟩
      by_cases hsame : held = status
      · rw [if_pos hsame]
        refine Serves.ret fun t ht _ => ⟨ht, .unchanged hindex ?_⟩
        rw [BitstringLibrary.readStatus, hlist, ← hsame]
        exact hheld
      · rw [if_neg hsame]
        refine Serves.ofExcept (fun list' hlist' => ?_) fun e t he ht _ => ⟨ht, .set hlt hlist he⟩
        refine Serves.seq (materialize_serves hn) ?_ fun e t _ h => ⟨h.1, .signer h.2⟩
        rintro m t _ ⟨ht, hm⟩
        refine Serves.quiet .now rfl (ht.notCommitted hn) fun u updatedAt hu _ _ => ?_
        exact Serves.ret fun v hv _ => ⟨ht.trans (hu.trans hv),
          .changed hindex ⟨hlt, list, list', held, hlist, hheld, hsame, hlist', hm⟩⟩

theorem instanceFor_serves {row : StatusListRecord} (hn : s.NotCommitted i) :
    P.Serves env i (instanceFor row)
      (Ends (fun issuerInstance t => P.Interference i s t ∧ BoundInstance env row issuerInstance)
        (fun e t => P.Interference i s t ∧ (env.tenants.getTenant row.tenantId).bind
          (resolveIssuerInstance · (some row.issuerInstanceId)) = none ∧
          ∃ message, e = .statusList .issuerInstanceUnavailable message)) s := by
  refine Serves.quiet (.getTenant row.tenantId) rfl hn fun t tenant ht _ htenant => ?_
  have hr : tenant = env.tenants.getTenant row.tenantId := htenant
  subst hr
  cases hfound : (env.tenants.getTenant row.tenantId).bind
      (resolveIssuerInstance · (some row.issuerInstanceId)) with
  | none => exact Serves.fail fun u hu _ => ⟨ht.trans hu, rfl, _, rfl⟩
  | some found => exact Serves.ret fun u hu _ => ⟨ht.trans hu, hfound⟩

/-- `setStatus` under any policy that lets the request write the list and accepts flips. -/
theorem setStatus_serves {listId : String} {statusListIndex : Number} {status : Bool}
    (hn : s.NotCommitted i) (hidle : s.Idle i)
    (hmay : ∀ u, P.Extends s u → P.Inv env u → ∀ row ∈ u.db.statusLists, row.id = listId →
      P.mayUpdate i row)
    (hres : P.Resigns deps env) :
    P.Serves env i (setStatus deps listId statusListIndex status)
      (Ends
        (fun change t => t.Idle i ∧
          SetCommitted deps env P i s listId statusListIndex status change t)
        (fun e t => t.Idle i ∧ t.NotCommitted i ∧
          SetRefused deps env P s listId statusListIndex e)) s := by
  refine Serves.quiet (.getStatusList listId) rfl hn fun t r ht hI hr => ?_
  have hr : r = t.db.getStatusList listId := hr
  subst hr
  have hnt := ht.notCommitted hn
  cases hlist : t.db.getStatusList listId with
  | none =>
      exact Serves.fail fun u hu _ => ⟨hu.idle (ht.idle hidle), hu.notCommitted hnt,
        .listNotFound ht.toExtends (Database.getStatusList_eq_none.mp hlist)⟩
  | some list =>
      obtain ⟨hmem, hid⟩ := Database.mem_of_getStatusList hlist
      refine Serves.seq (instanceFor_serves hnt) ?_ ?_
      · rintro issuerInstance u _ ⟨hu, hinstance⟩
        have hsu : P.Extends s u := ht.toExtends.trans hu.toExtends
        -- The list that was read without the lock is the one the transaction finds.
        have hbound : ∀ v row, P.Extends u v → P.Inv env v → row ∈ v.db.statusLists →
            row.id = listId → BoundInstance env row issuerInstance := by
          intro v row hv hIv hrow hrid
          obtain ⟨row', hrow', hsame⟩ := (hu.toExtends.trans hv).lists list hmem
          rw [hIv.eq_of_id hrow hrow' (by rw [hrid, ← hsame.binding.id, hid])]
          rw [BoundInstance, ← hsame.binding.tenantId, ← hsame.binding.issuerInstanceId]
          exact hinstance
        refine (updateStatusList_serves (R := fun row o => BoundInstance env row issuerInstance ∧
            Applied deps env row issuerInstance statusListIndex status o)
          (E := fun row e => BoundInstance env row issuerInstance ∧
            ApplyRefused deps env row issuerInstance statusListIndex e)
          (hu.notCommitted hnt) (fun v hv => hmay v (hsu.trans hv)) ?_ ?_).imp ?_
        · intro row v hrow hnv
          obtain ⟨x, hx, hIx, hrowx⟩ := hrow.current
          have hb := hbound x row hx hIx hrowx hrow.id
          refine (applyStatus_serves hnv).imp ?_
          rintro (e | o) y _ h
          · exact ⟨h.1, hb, h.2⟩
          · exact ⟨h.1, hb, h.2⟩
        · rintro row o m hrow ⟨hb, happ⟩ hm updatedAt
          cases happ with
          | unchanged hindex hread => cases hm
          | changed hindex hflip =>
              cases hm
              rw [← hrow.id]
              exact hres row issuerInstance _ status m hrow.wf hb hflip updatedAt
        · rintro (e | change) v hIv h
          · obtain ⟨hidle', hnv, ⟨row, hrow, hb, happ⟩ | ⟨x, hx, hnone⟩⟩ := h
            · exact ⟨hidle', hnv, .apply (hrow.mono hsu) hb happ⟩
            · obtain ⟨row', hrow', hsame⟩ := (hu.toExtends.trans hx).lists list hmem
              exact absurd (hsame.binding.id.symm.trans hid) (hnone row' hrow')
          · obtain ⟨hidle', row, o, write, hrow, ⟨hb, happ⟩, hresult, hwrote, hlog⟩ := h
            exact ⟨hidle', row, issuerInstance, o, write, hrow.mono hsu, hb, happ, hresult,
              hwrote, hlog⟩
      · rintro e u _ ⟨hu, hnone, message, rfl⟩
        exact ⟨hu.idle (ht.idle hidle), hu.notCommitted hnt,
          .issuerInstance ⟨⟨t, ht.toExtends, hI, hmem⟩, hid⟩ hnone message⟩

theorem SetCommitted.mono {s' t : World} {listId : String} {statusListIndex : Number}
    {status : Bool} {change : StatusChange} (hs : P.Extends s s')
    (h : SetCommitted deps env P i s' listId statusListIndex status change t) :
    SetCommitted deps env P i s listId statusListIndex status change t := by
  obtain ⟨row, issuerInstance, o, write, hrow, hrest⟩ := h
  exact ⟨row, issuerInstance, o, write, hrow.mono hs, hrest⟩

theorem SetRefused.mono {s' : World} {listId : String} {statusListIndex : Number} {e : JsError}
    (hs : P.Extends s s') (h : SetRefused deps env P s' listId statusListIndex e) :
    SetRefused deps env P s listId statusListIndex e := by
  cases h with
  | listNotFound hu hnone => exact .listNotFound (hs.trans hu) hnone
  | issuerInstance hrow hnone message => exact .issuerInstance (hrow.mono hs) hnone message
  | apply hrow hbound h => exact .apply (hrow.mono hs) hbound h

/-- `setCredentialStatus`: the allocation is looked up first, under the caller's own tenant. -/
theorem setCredentialStatus_serves {tenantId credentialId : String}
    {statusPurpose : StatusPurpose} {status : Bool} (hn : s.NotCommitted i) (hidle : s.Idle i)
    (hmay : ∀ a, HeldFor env P s tenantId credentialId statusPurpose a →
      ∀ u, P.Extends s u → P.Inv env u → a ∈ u.db.indexAllocations →
      ∀ row ∈ u.db.statusLists, row.id = a.listId → P.mayUpdate i row)
    (hres : P.Resigns deps env) :
    P.Serves env i (setCredentialStatus deps tenantId credentialId statusPurpose status)
      (Ends
        (fun change t => t.Idle i ∧ ∃ a, HeldFor env P s tenantId credentialId statusPurpose a ∧
          SetCommitted deps env P i s a.listId (.int a.statusListIndex) status change t)
        (fun e t => t.Idle i ∧ t.NotCommitted i ∧
          CredentialRefused deps env P s tenantId credentialId statusPurpose e)) s := by
  refine Serves.quiet (.getAllocation tenantId credentialId statusPurpose) rfl hn
    fun t r ht hI hr => ?_
  have hr : r = t.db.getAllocation tenantId credentialId statusPurpose := hr
  subst hr
  cases hfound : t.db.getAllocation tenantId credentialId statusPurpose with
  | none =>
      exact Serves.fail fun u hu _ => ⟨hu.idle (ht.idle hidle),
        hu.notCommitted (ht.notCommitted hn),
        .notAllocated ht.toExtends (Database.getAllocation_eq_none.mp hfound)⟩
  | some a =>
      obtain ⟨hmem, htenant, hcredential, hpurpose⟩ := Database.mem_of_getAllocation hfound
      have hheld : HeldFor env P s tenantId credentialId statusPurpose a :=
        ⟨⟨t, ht.toExtends, hI, hmem⟩, htenant, hcredential, hpurpose⟩
      refine (setStatus_serves (ht.notCommitted hn) (ht.idle hidle) (fun u hu hIu =>
        hmay a hheld u (ht.toExtends.trans hu) hIu (hu.allocations a hmem)) hres).imp ?_
      rintro (e | change) u _ h
      · exact ⟨h.1, h.2.1, .set hheld (SetRefused.mono ht.toExtends h.2.2)⟩
      · exact ⟨h.1, a, hheld, SetCommitted.mono ht.toExtends h.2⟩

end StatusListManager

end SetStatus

end VcalmStatus
