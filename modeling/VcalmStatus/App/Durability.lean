import VcalmStatus.App.Runs
import VcalmStatus.App.Selectors
import VcalmStatus.Safety.Restarts

/-!
What was answered stays. An entry that an allocation returned, and a status that an update was
answered for, are what the tables say after any number of restarts, whatever the service was
stopped in the middle of.
-/

namespace VcalmStatus

open Js Effects Policy

/-! ### What a history keeps of a list -/

section Histories

variable {P : Policy} {db₀ db : Database} {log : List Event} {e : Event} {row : StatusListRecord}

theorem Event.Allowed.same (hn : (db.statusLists.map (·.id)).Nodup) (he : e.Allowed P db)
    (hrow : row ∈ db.statusLists) : ∃ row' ∈ (e.apply db).statusLists, P.Same row row' := by
  cases e with
  | created i new => exact ⟨row, List.mem_append_left _ hrow, .refl row⟩
  | allocated i a => exact ⟨row, hrow, .refl row⟩
  | committed i before write =>
      cases write with
      | none => exact ⟨row, hrow, .refl row⟩
      | some u =>
          obtain ⟨hbefore, _, hresigned⟩ := he
          have hresigned := hresigned u rfl
          refine ⟨u.apply row, Database.mem_update.mpr ⟨row, hrow, rfl⟩,
            SameBinding.apply u row, ?_⟩
          by_cases hid : row.id = u.id
          · have hsame : row = before :=
              List.inj_on_of_nodup_map hn hrow hbefore (hid.trans hresigned.id)
            rw [hsame]
            exact hresigned.keeps
          · rw [RowUpdate.apply_of_ne hid]
            exact P.keeps_refl row

theorem History.same (hn : (db₀.statusLists.map (·.id)).Nodup) (h : History P db₀ log db)
    (hrow : row ∈ db₀.statusLists) : ∃ row' ∈ db.statusLists, P.Same row row' := by
  induction h with
  | start => exact ⟨row, hrow, .refl row⟩
  | snoc h he ih =>
      obtain ⟨row₁, hrow₁, hsame₁⟩ := ih
      obtain ⟨row₂, hrow₂, hsame₂⟩ := he.same (h.ids_nodup hn) hrow₁
      exact ⟨row₂, hrow₂, hsame₁.trans hsame₂⟩

end Histories

/-! ### The commit behind an answer -/

section Updates

variable {B : Type} {deps : AppDeps B} {env : Environment} {i : Nat} {s t : World} {e : JsError}
  {tenantId : String} {body : UpdateCredentialStatusBody}

/-- A bit of a stored list is not moved for a reason that is answered as one. -/
theorem setRefused_fails {listId : String} {n : Number} {platform : Platform}
    (h : SetRefused deps.manager env (lastingPolicy deps.manager.lib) s listId n e) :
    400 ≤ e.status platform := by
  have hcode : ∀ (code : StatusListErrorCode) message,
      400 ≤ (JsError.statusList code message).status platform := by
    intro code message
    show 400 ≤ code.status
    cases code <;> decide
  cases h with
  | listNotFound hu hnone => exact hcode _ _
  | issuerInstance hrow hnone message => exact hcode _ _
  | apply hrow hbound happly =>
      have hlasting : Lasting deps.manager.lib _ := hrow.wf
      obtain ⟨held, hheld, hlength⟩ := hlasting.decoded
      cases happly with
      | indexOutOfRange hindex => exact hcode _ _
      | decode h =>
          rw [hheld] at h
          cases h
      | get hindex hlist h =>
          rw [hheld, Except.ok.injEq] at hlist
          subst hlist
          obtain ⟨v, hv⟩ := deps.manager.lib.getStatus_ok (Nat.lt_of_lt_of_le hindex hlength)
          rw [hv] at h
          cases h
      | @set index _ status _ hindex hlist h =>
          rw [hheld, Except.ok.injEq] at hlist
          subst hlist
          obtain ⟨_, hset, _⟩ :=
            deps.manager.lib.setStatus_ok status (Nat.lt_of_lt_of_le hindex hlength)
          rw [hset] at h
          cases h
      | signer h =>
          have hsigner : 500 ≤ e.status platform := status_of_fromSigner h.fromSigner
          omega

/-- Whatever a request does, it takes nothing away. -/
theorem Serves.extends {P : Policy} {α : Type} {p : Async α} {Q : Except JsError α → World → Prop}
    (h : P.Serves env i p Q s) : P.Serves env i p (fun r t => Q r t ∧ P.Extends s t) s := by
  induction p generalizing s with
  | ret a => exact fun t ht hI => ⟨h t ht hI, ht.toExtends⟩
  | fail e => exact fun t ht hI => ⟨h t ht hI, ht.toExtends⟩
  | call o k ih =>
      intro t ht hI
      obtain ⟨hG, hk⟩ := h t ht hI
      refine ⟨hG, fun r t' hstep => (ih r (hk r t' hstep)).imp fun _ u _ hu => ⟨hu.1, ?_⟩⟩
      have hstep := extends_effect hI (World.effect_of_step hstep)
      exact ht.toExtends.trans (hstep.trans hu.2)

/-- The entry of the tenant's credential that a body without a selector is about. -/
structure OwnEntry (tenantId : String) (body : UpdateCredentialStatusBody) (listId : String)
    (n : Number) (a : IndexAllocation) : Prop where
  tenantId : a.tenantId = tenantId
  credentialId : a.credentialId = body.credentialId
  statusPurpose : a.statusPurpose = body.credentialStatus.statusPurpose
  listId : a.listId = listId
  index : n = .int a.statusListIndex

/-- What is known of a change that a body was answered for: it was committed, and for the
credential's own entry where the body has no selector. -/
def Updated (deps : AppDeps B) (env : Environment) (i : Nat) (s : World) (tenantId : String)
    (body : UpdateCredentialStatusBody) (change : StatusChange) (t : World) : Prop :=
  ∃ listId n, SetCommitted deps.manager env (lastingPolicy deps.manager.lib) i s listId n
      body.status change t ∧
    (body.credentialStatus.statusListIndex = none →
      body.credentialStatus.statusListCredential = none →
      ∃ a ∈ t.db.indexAllocations, OwnEntry tenantId body listId n a)

theorem Updated.mono {change : StatusChange} {u : World}
    (h : Updated deps env i s tenantId body change t)
    (hu : (lastingPolicy deps.manager.lib).Interference i t u) :
    Updated deps env i s tenantId body change u := by
  obtain ⟨listId, n, ⟨row, issuerInstance, o, write, hrow, hbound, happlied, hresult, hwrote, hlog⟩,
    hown⟩ := h
  refine ⟨listId, n, ⟨row, issuerInstance, o, write, hrow, hbound, happlied, hresult, hwrote,
    hu.mem_log hlog⟩, fun hindex hurl => ?_⟩
  obtain ⟨a, ha, hentry⟩ := hown hindex hurl
  exact ⟨a, hu.allocations a ha, hentry⟩

theorem setByExplicitSelector_updates (hagrees : env.signing.Agrees) (hn : s.NotCommitted i)
    (hidle : s.Idle i)
    (hselector : ¬(body.credentialStatus.statusListIndex = none ∧
      body.credentialStatus.statusListCredential = none)) :
    (lastingPolicy deps.manager.lib).Serves env i (setByExplicitSelector deps tenantId body)
      (Ends (fun change t => t.Idle i ∧ Updated deps env i s tenantId body change t)
        (fun e t => t.Idle i ∧ 400 ≤ e.status deps.platform)) s := by
  have hproblem : ∀ {status : Nat} {message : String}, 400 ≤ status →
      400 ≤ (problem status message).status deps.platform := fun h => h
  have hlist : ∀ url, (lastingPolicy deps.manager.lib).Serves env i (listFromUrl deps url)
      (Ends (fun _ t => (lastingPolicy deps.manager.lib).Interference i s t)
        (fun e t => t.Idle i ∧ 400 ≤ e.status deps.platform)) s := by
    intro url
    refine Serves.ofExcept (fun id _ => ?_) fun e t he ht _ => ⟨ht.idle hidle, ?_⟩
    · refine Serves.quiet (.getStatusList id) rfl hn fun t record ht _ _ => ?_
      split
      · exact Serves.fail fun u hu _ => ⟨hu.idle (ht.idle hidle), hproblem (by decide)⟩
      · exact Serves.ret fun u hu _ => ht.trans hu
    · obtain hbad | hescape := listIdFromUrl_error he
      · omega
      · rw [listIdFromUrl_of_badEscape hescape, Except.error.injEq] at he
        rw [← he]
        show 400 ≤ 500
        omega
  unfold setByExplicitSelector
  split
  · refine Serves.seq (hlist _) ?_ fun e t _ h => h
    intro row t _ ht
    split
    · exact Serves.fail fun u hu _ => ⟨hu.idle (ht.idle hidle), hproblem (by decide)⟩
    · split
      · exact Serves.fail fun u hu _ => ⟨hu.idle (ht.idle hidle), hproblem (by decide)⟩
      · refine Serves.ofExcept (fun n _ => ?_) fun e u he hu _ =>
          ⟨hu.idle (ht.idle hidle), (parseIndex_error he).ge⟩
        refine (StatusListManager.setStatus_serves (ht.notCommitted hn) (ht.idle hidle)
          (fun _ _ _ _ _ _ => trivial) (lastingPolicy_resigns hagrees)).imp ?_
        rintro (e | change) u _ h
        · exact ⟨h.1, setRefused_fails h.2.2⟩
        · exact ⟨h.1, _, _, StatusListManager.SetCommitted.mono ht.toExtends h.2,
            fun hindex hurl => absurd ⟨hindex, hurl⟩ hselector⟩
  · exact Serves.fail fun t ht _ => ⟨ht.idle hidle, hproblem (by decide)⟩

theorem changeStatus_updates (hagrees : env.signing.Agrees) (hn : s.NotCommitted i)
    (hidle : s.Idle i) :
    (lastingPolicy deps.manager.lib).Serves env i (changeStatus deps tenantId body)
      (Ends (fun change t => t.Idle i ∧ Updated deps env i s tenantId body change t)
        (fun e t => t.Idle i ∧ 400 ≤ e.status deps.platform)) s := by
  unfold changeStatus
  split
  · rename_i hselector
    refine setByExplicitSelector_updates hagrees hn hidle ?_
    rintro ⟨hindex, hurl⟩
    simp [hindex, hurl] at hselector
  · refine Serves.quiet (.getAllocation tenantId body.credentialId
      body.credentialStatus.statusPurpose) rfl hn fun t r ht _ hr => ?_
    have hr : r = t.db.getAllocation tenantId body.credentialId
      body.credentialStatus.statusPurpose := hr
    subst hr
    split
    · refine Serves.fail fun u hu _ => ⟨hu.idle (ht.idle hidle), ?_⟩
      show 400 ≤ StatusListErrorCode.status .credentialNotAllocated
      decide
    · rename_i a hfound
      obtain ⟨hmem, htenant, hcredential, hpurpose⟩ := Database.mem_of_getAllocation hfound
      refine Safe.imp (Serves.extends (StatusListManager.setStatus_serves (ht.notCommitted hn)
        (ht.idle hidle) (fun _ _ _ _ _ _ => trivial) (lastingPolicy_resigns hagrees))) ?_
      rintro (e | change) u _ ⟨h, hu⟩
      · exact ⟨h.1, setRefused_fails h.2.2⟩
      · exact ⟨h.1, _, _, StatusListManager.SetCommitted.mono ht.toExtends h.2, fun _ _ =>
          ⟨a, hu.allocations a hmem, htenant, hcredential, hpurpose, rfl, rfl⟩⟩

/-- How a request for an update of this body comes out. -/
def UpdateOutcome (deps : AppDeps B) (env : Environment) (i : Nat) (s : World) (tenantId : String)
    (body : UpdateCredentialStatusBody) (response : Response) (t : World) : Prop :=
  response.status = 200 → ∃ change, response = updateResponse deps body change ∧
    ∃ u, (lastingPolicy deps.manager.lib).Interference i s u ∧
      Updated deps env i u tenantId body change t

theorem serve_updates (hagrees : env.signing.Agrees) {request : Request} {tenant : TenantRecord}
    (hmethod : request.method = "POST") (hpath : request.path = "/credentials/status")
    (hcaller : deps.caller env.tenants request = some tenant)
    (hbody : updateBody deps request = .ok body) (hn : s.NotCommitted i) (hidle : s.Idle i) :
    (lastingPolicy deps.manager.lib).Serves env i (serve deps (some request))
      (Ends (fun response t => ∃ answer, response = some answer ∧
        UpdateOutcome deps env i s tenant.tenantId body answer t) (fun _ _ => True)) s := by
  have hhandler : ∀ found u, deps.caller env.tenants request = some found →
      u.NotCommitted i → u.Idle i →
      (lastingPolicy deps.manager.lib).Serves env i
        (updateCredentialStatusHandler deps request found)
        (fun r t => t.Idle i ∧ Ends
          (fun response t => ∃ change, response = updateResponse deps body change ∧
            Updated deps env i u found.tenantId body change t)
          (fun e _ => 400 ≤ e.status deps.platform) r t) u := by
    intro found u _ hnu hiu
    rw [updateCredentialStatusHandler, hbody, Program.ofExcept_ok, Program.ret_bind]
    refine Serves.seq (changeStatus_updates hagrees hnu hiu) ?_ fun e t _ h => h
    rintro change t _ ⟨hit, hupdated⟩
    exact Serves.ret fun v hv _ => ⟨hv.idle hit, change, rfl, hupdated.mono hv⟩
  have hdispatch := authenticated_serves hn hidle hhandler
  rw [← dispatch_update hmethod hpath] at hdispatch
  have hhandle : (lastingPolicy deps.manager.lib).Serves env i (handle deps request)
      (Ends (fun answer t => UpdateOutcome deps env i s tenant.tenantId body answer t)
        (fun _ _ => True)) s := by
    refine Safe.recover hdispatch ?_ ?_
    · rintro response t ⟨_, hends⟩ _
      rw [Authenticated, hcaller] at hends
      obtain ⟨u, hu, change, hchange, hupdated⟩ := hends
      exact ⟨change, hchange, u, hu, hupdated⟩
    · rintro e t ⟨_, hends⟩ hstatus
      rw [Authenticated, hcaller] at hends
      obtain ⟨u, _, hends⟩ := hends
      have hends : 400 ≤ e.status deps.platform := hends
      have hstatus : e.status deps.platform = 200 := hstatus
      omega
  refine Safe.map hhandle ?_
  rintro (e | answer) t h
  · trivial
  · exact ⟨answer, rfl, h⟩

/-! ### What a commit leaves -/

/-- A list as a commit left it. -/
def rowAfter (before : StatusListRecord) (write : Option RowUpdate) : StatusListRecord :=
  write.elim before fun u => u.apply before

theorem Event.Allowed.rowAfter_mem {P : Policy} {db : Database} {before : StatusListRecord}
    {write : Option RowUpdate} (h : Event.Allowed P db (.committed i before write)) :
    rowAfter before write ∈ (Event.apply db (.committed i before write)).statusLists := by
  cases write with
  | none => exact h.1
  | some u => exact Database.mem_update.mpr ⟨before, h.1, rfl⟩

/-- The list that is reported is the one that was committed, and has the bit that was asked for. -/
theorem SetCommitted.leaves {P : Policy} {manager : ManagerDeps B} {listId : String} {n : Number}
    {status : Bool} {change : StatusChange}
    (h : SetCommitted manager env P i s listId n status change t) :
    ∃ before write, ∃ index : Nat, Event.committed i before write ∈ t.log ∧ n = .int index ∧
      change.statusListIndex = .int index ∧ before.id = listId ∧ change.record.id = listId ∧
      (rowAfter before write).id = listId ∧
      change.record.signedCredential = (rowAfter before write).signedCredential ∧
      manager.lib.Holds (rowAfter before write) index status := by
  obtain ⟨row, _, o, write, hrow, _, happlied, rfl, hwrote, hlog⟩ := h
  have hid := hrow.id
  cases happlied with
  | @unchanged index hindex hread =>
      obtain ⟨hn, hlt⟩ := StatusListManager.indexWithin_eq_some.mp hindex
      obtain rfl : write = none := hwrote
      exact ⟨row, none, index, hlog, hn, hn, hid, hid, hid, rfl, hlt, hread⟩
  | @changed index m updatedAt hindex hflip =>
      obtain ⟨hn, hlt⟩ := StatusListManager.indexWithin_eq_some.mp hindex
      obtain ⟨storedAt, rfl⟩ := hwrote
      obtain ⟨list, list', held, hlist, hheld, _, hset, hmaterialized⟩ := hflip.flipped
      have hread : manager.lib.readStatus row.encodedList index = .ok held :=
        (BitstringLibrary.readStatus_eq hlist).trans hheld
      have hafter := BitstringLibrary.readStatus_encode_setStatus hlist hheld hset hread
      rw [if_pos rfl, ← hmaterialized.1] at hafter
      refine ⟨row, _, index, hlog, hn, hn, hid, hid, (RowUpdate.apply_id _ _).trans hid, ?_⟩
      have happly := RowUpdate.apply_of_eq (u := ⟨listId, m, row.version + 1, storedAt⟩) hid
      rw [rowAfter, Option.elim_some, happly]
      exact ⟨rfl, hlt, hafter⟩

end Updates

/-! ### What an allocation is answered with -/

section Allocations

variable {B : Type} {deps : AppDeps B} {env : Environment} {P : Policy} {s t : World}
  {request : Request} {tenant : TenantRecord}

/-- The entry of a response names the allocation and the list it was made from. -/
theorem AllocatedEntry.names {tenants : TenantRegistry} {credential : JsonObject}
    {a : IndexAllocation} {list : StatusListRecord} {credentialId index url : String}
    {statusPurpose : StatusPurpose} {response : Response}
    (hresponse : allocateResponse deps credential a list = .ok response)
    (h : AllocatedEntry deps tenants tenant request credentialId statusPurpose response index url) :
    toString a.statusListIndex = index ∧ canonicalUrlOf deps.publicBaseUrl list = url := by
  obtain ⟨entry, hentry, hindex, hurl⟩ := h.entry
  obtain ⟨entry', hentry', hindex', hurl'⟩ :=
    returnedEntry_allocateResponse hresponse
  rw [hentry, Option.some.injEq] at hentry'
  subst hentry'
  exact ⟨Option.some.inj (hindex'.symm.trans hindex), Option.some.inj (hurl'.symm.trans hurl)⟩

end Allocations

/-! ### Over restarts -/

section Restarts

variable {B : Type} {lib : BitstringLibrary B} {deps : AppDeps B} {env : Environment}
  {requests : Nat → Option Request} {db db' : Database} {log log' : List Event}
  {q : Pool Operation Operation.Answer JsError (Option Response) World Nat}

/-- `acme` was given an entry, revoked the credential by it, and the service was stopped; another
dialect of the database went on with the tables. -/
theorem lives_revoked {q : Pool Operation Operation.Answer JsError (Option Response) World Nat}
    {sent : Nat → Option Request}
    (h : Reaches testApp (testEnvironment .sqlite) sent q) :
    Pool.Run (World.step (testEnvironment .sqlite)) (startedPool testApp Database.empty sent) q ∧
      Lives plainLibrary Database.empty ([] ++ q.state.log) q.state.db ∧
      Lives plainLibrary q.state.db ([] ++ []) q.state.db := by
  have hrun : Pool.Run (World.step (testEnvironment .sqlite))
      (startedPool testApp Database.empty sent) q := h
  have hagain : Pool.Run (World.step (testEnvironment .postgres))
      (startedPool testApp q.state.db fun _ => none)
      (startedPool testApp q.state.db fun _ => none) := .refl
  exact ⟨hrun, .stopped .start rfl (fakeSigning_agrees _) hrun,
    .stopped .start rfl (fakeSigning_agrees _) hagain⟩

/-- What came of the two requests. -/
theorem revoked_once : ∃ sent q response answer,
    Reaches testApp (testEnvironment .sqlite) sent q ∧
    sent 0 = some (allocateRequest "urn:uuid:1") ∧
    (q.thread 0).outcome? = some (.ok (some response)) ∧
    AllocatedEntry testApp testTenants (testTenant "acme") (allocateRequest "urn:uuid:1")
      "urn:uuid:1" .revocation response "5" firstUrl ∧
    sent 1 = some (updateRequest (updateText "urn:uuid:1")) ∧
    (q.thread 1).outcome? = some (.ok (some answer)) ∧ answer.status = 200 := by
  have hstate : ((handle testApp (allocateRequest "urn:uuid:1")).run
      (World.step (testEnvironment .sqlite) 0) World.initial).any (fun rw =>
        rw.1.toOption.any fun response => response.status = 200 &&
            ((returnedEntry response).any fun entry =>
              textOf entry "statusListIndex" = some "5" &&
                textOf entry "statusListCredential" = some firstUrl) &&
            ((handle testApp (updateRequest (updateText "urn:uuid:1"))).run
              (World.step (testEnvironment .sqlite) 1) rw.2).any fun rw' =>
                rw'.1.toOption.any fun answer => answer.status = 200) = true := by
    decide +kernel
  obtain ⟨⟨r, w⟩, hrun, hcheck⟩ := (Option.any_eq_true _ _).mp hstate
  obtain ⟨response, rfl, hcheck⟩ := exists_ok_of_any hcheck
  simp only [Bool.and_eq_true, decide_eq_true_eq] at hcheck
  obtain ⟨⟨hstatus, hentry⟩, hupdated⟩ := hcheck
  obtain ⟨⟨r', w'⟩, hrun', hcheck⟩ := (Option.any_eq_true _ _).mp hupdated
  obtain ⟨answer, rfl, hanswer⟩ := exists_ok_of_any hcheck
  obtain ⟨entry, hreturned, hfields⟩ := (Option.any_eq_true _ _).mp hentry
  simp only [Bool.and_eq_true, decide_eq_true_eq] at hfields
  have hasked : (allocateInput testApp (allocateRequest "urn:uuid:1")).toOption.any
      (fun input => input.2 = "urn:uuid:1" && input.1.statusPurpose = .revocation) = true := by
    decide +kernel
  obtain ⟨input, hinput, hnames⟩ := exists_ok_of_any hasked
  simp only [Bool.and_eq_true, decide_eq_true_eq] at hnames
  obtain ⟨q, hq, _, hanswered⟩ :=
    (allAnswered_initial.next (i := 0) rfl hrun).next (i := 1) rfl hrun'
  exact ⟨_, q, response, answer, hq, rfl, hanswered 0,
    ⟨rfl, rfl, caller_postRequest _ _, ⟨input, hinput, hnames.1, hnames.2⟩, hstatus, entry,
      hreturned, hfields.1, hfields.2⟩, rfl, hanswered 1, by simpa using hanswer⟩

/-- An allocation that a life left is what its credential finds in every later one. -/
theorem History.getAllocation {P : Policy} {db₀ : Database} (h : History P db₀ log db)
    (hkeyed : db.Keyed) {a : IndexAllocation} (ha : a ∈ db₀.indexAllocations) :
    a ∈ db.indexAllocations ∧
      db.getAllocation a.tenantId a.credentialId a.statusPurpose = some a := by
  have hmem : a ∈ db.indexAllocations := by
    rw [h.indexAllocations]
    exact List.mem_append_left _ ha
  exact ⟨hmem, Database.getAllocation_of_nodup hkeyed.credentials_nodup hmem⟩

/-- **An entry stays.** What `POST /credentials/status/allocate` answered with is, after any number
of restarts, what the credential finds: the same index of a list that is still served under the
same URL, and that no other credential was given. -/
theorem entry_after_restarts (h : Lives lib Database.empty log db)
    (hlib : deps.manager.lib = lib) (hagrees : env.signing.Agrees)
    (hrun : Pool.Run (World.step env) (startedPool deps db requests) q)
    (hlater : Lives lib q.state.db log' db') {i : Nat} {request : Request}
    {tenant : TenantRecord} {response : Response} {credentialId index url : String}
    {statusPurpose : StatusPurpose} (hrequest : requests i = some request)
    (hanswered : (q.thread i).outcome? = some (.ok (some response)))
    (hentry : AllocatedEntry deps env.tenants tenant request credentialId statusPurpose response
      index url) :
    ∃ a row, StoredEntry deps tenant.tenantId credentialId statusPurpose index url db' a row ∧
      credentialId? row.signedCredential = some url ∧
      a.statusListIndex < row.characteristics.length ∧
      ∀ b ∈ db'.indexAllocations, b.listId = a.listId →
        b.statusListIndex = a.statusListIndex → b = a := by
  subst hlib
  obtain ⟨haccepts, _⟩ := h.history (Policy.accepts_empty _)
  have hgood := run_good (startedPool_good requests hagrees haccepts) hrun
  obtain ⟨haccepts', hhistory⟩ := hlater.history hgood.inv.accepts
  have hended := hgood.outcome hanswered
  rw [hrequest] at hended
  obtain ⟨r, hdispatched, hresponse⟩ := hended
  obtain rfl : response = deps.respond r := Option.some.inj (Except.ok.inj hresponse)
  have hends := hdispatched.allocate hentry.method hentry.path
  rw [Authenticated, hentry.caller] at hends
  obtain ⟨u, _, hends⟩ := hends
  obtain ⟨asked, hasked, rfl, rfl⟩ := hentry.input
  cases r with
  | error e =>
      have hrefused : 400 ≤ e.status deps.platform := allocateEnds_fails hasked hends
      have hstatus : e.status deps.platform = 200 := hentry.status
      omega
  | ok answer =>
      obtain ⟨input, a, list, hinput, hlist, ha, hmem, hanswer⟩ := hends
      rw [hasked, Except.ok.injEq] at hinput
      subst hinput
      obtain ⟨hindex, hurl⟩ := AllocatedEntry.names hanswer hentry
      obtain ⟨row₀, hrow₀, hsame₀⟩ := hlist.mem
      obtain ⟨row, hrow, hsame⟩ := hhistory.same hgood.inv.ids_nodup hrow₀
      have hsame := hsame₀.trans hsame
      have hlasting : Lasting deps.manager.lib row := haccepts'.wf row hrow
      obtain ⟨hmem', hfound⟩ := hhistory.getAllocation haccepts'.keyed hmem
      rw [ha.tenantId, ha.credentialId, ha.statusPurpose] at hfound
      have hlt : a.statusListIndex < row.characteristics.length :=
        hsame.binding.characteristics ▸ ha.inRange
      have hid : row.id = a.listId := hsame.binding.id.symm.trans ha.listId.symm
      have hserved : credentialId? row.signedCredential = some url := by
        rw [← hurl, canonicalUrlOf, hsame.keeps, hlasting.canonicalUrl ""]
        rfl
      refine ⟨a, row, ⟨⟨hfound, ?_, ?_, ?_, ?_⟩, ?_⟩, hserved, hlt,
        fun b hb hlistId hindexb => ?_⟩
      · exact hid ▸ Database.getStatusList_of_mem haccepts'.keyed.ids_nodup hrow
      · exact hsame.binding.tenantId.symm.trans hlist.tenantId
      · exact hsame.binding.statusPurpose.symm.trans hlist.statusPurpose
      · rw [← hindex]
        have hsafe := hlasting.safe
        exact parseIndex_toString (by omega)
      · rw [canonicalUrlOf, hserved]
        rfl
      · exact List.inj_on_of_nodup_map haccepts'.keyed.indexes_nodup hb hmem'
          (Prod.ext hlistId hindexb)

/-- The entry of the first credential, after a restart. -/
theorem entry_after_restarts_revoked :
    ∃ db' a row, StoredEntry testApp "acme" "urn:uuid:1" .revocation "5" firstUrl db' a row ∧
      credentialId? row.signedCredential = some firstUrl ∧
      a.statusListIndex < row.characteristics.length ∧
      ∀ b ∈ db'.indexAllocations, b.listId = a.listId →
        b.statusListIndex = a.statusListIndex → b = a := by
  obtain ⟨sent, q, response, _, hq, hsent, hanswered, hentry, _⟩ := revoked_once
  obtain ⟨hrun, _, hlater⟩ := lives_revoked hq
  exact ⟨q.state.db, entry_after_restarts .start rfl (fakeSigning_agrees _) hrun hlater hsent
    hanswered hentry⟩

/-- Since a commit of request `i` in `log`, an event of `log` or `log'` has moved the bit away from
what that commit left it at. -/
def SetBack (lib : BitstringLibrary B) (log log' : List Event) (i : Nat) (id : String)
    (index : Nat) (status : Bool) : Prop :=
  ∃ l₁ before write l₂, log = l₁ ++ .committed i before write :: l₂ ∧ before.id = id ∧
    ∃ e ∈ l₂ ++ log', e.Moves lib id index (!status)

/-- **A status stays.** What `POST /credentials/status` was answered for is, after any number of
restarts, what the list that the answer names says at the index it names, in its bits and in the
credential it is served by, unless the bit was moved back since. -/
theorem update_after_restarts (h : Lives lib Database.empty log db)
    (hlib : deps.manager.lib = lib) (hagrees : env.signing.Agrees)
    (hrun : Pool.Run (World.step env) (startedPool deps db requests) q)
    (hlater : Lives lib q.state.db log' db') {i : Nat} {request : Request}
    {tenant : TenantRecord} {body : UpdateCredentialStatusBody} {response : Response}
    (hrequest : requests i = some request) (hmethod : request.method = "POST")
    (hpath : request.path = "/credentials/status")
    (hcaller : deps.caller env.tenants request = some tenant)
    (hbody : updateBody deps request = .ok body)
    (hanswered : (q.thread i).outcome? = some (.ok (some response)))
    (hstatus : response.status = 200) :
    ∃ change row, ∃ index : Nat, response = updateResponse deps body change ∧
      change.statusListIndex = .int index ∧
      db'.getStatusList change.record.id = some row ∧
      credentialId? row.signedCredential =
        some (canonicalUrlOf deps.publicBaseUrl change.record) ∧
      publishedList? row.signedCredential = some row.encodedList ∧
      (lib.Holds row index body.status ∨
        SetBack lib q.state.log log' i row.id index body.status) ∧
      (body.credentialStatus.statusListIndex = none →
        body.credentialStatus.statusListCredential = none →
        ∃ a, db'.getAllocation tenant.tenantId body.credentialId
            body.credentialStatus.statusPurpose = some a ∧
          a.listId = row.id ∧ a.statusListIndex = index) := by
  subst hlib
  obtain ⟨haccepts, _⟩ := h.history (Policy.accepts_empty _)
  have hstart := startedPool_good requests hagrees haccepts
  have hgood := run_good hstart hrun
  obtain ⟨haccepts', hhistory⟩ := hlater.history hgood.inv.accepts
  obtain ⟨hlog, _⟩ := run_recorded hstart hrun (recorded_of _ db)
  -- The thread's own specification, the others' being of no interest.
  have hupdates : Pool.Good ((lastingPolicy deps.manager.lib).discipline env)
      (fun j r t => j = i → Ends (fun response t => ∃ answer, response = some answer ∧
        UpdateOutcome deps env i (World.of db) tenant.tenantId body answer t)
        (fun _ _ => True) r t) (startedPool deps db requests) := by
    refine good_of haccepts fun j => ?_
    by_cases hj : j = i
    · subst hj
      rw [hrequest]
      exact Safe.imp (serve_updates hagrees hmethod hpath hcaller hbody (notCommitted_of j)
        (idle_of j)) fun _ _ _ hends _ => hends
    · exact Safe.imp (hstart.safe j) fun _ _ _ _ hji => absurd hji hj
  obtain ⟨answer, hanswer, houtcome⟩ := (run_good hupdates hrun).outcome hanswered rfl
  obtain rfl : response = answer := Option.some.inj hanswer
  obtain ⟨change, hchange, u, _, listId, n, hcommitted, hown⟩ := houtcome hstatus
  obtain ⟨before, write, index, hmem, rfl, hindex, hbefore, hrecord, hafter, hsigned, hholds⟩ :=
    hcommitted.leaves
  obtain ⟨l₁, l₂, hsplit⟩ := List.append_of_mem hmem
  rw [hsplit] at hlog
  obtain ⟨db₁, hbeforeLog, hallowed, hafterLog⟩ := hlog.at_event
  have hrest := hafterLog.append hhistory
  have hn := (hbeforeLog.snoc hallowed).ids_nodup haccepts.keyed.ids_nodup
  obtain ⟨row, hrow, hid, hbit⟩ := hrest.holds hn (fun _ hwf hlt => Lasting.reads hwf hlt)
    hallowed.rowAfter_mem hholds
  obtain ⟨row', hrow', hsame⟩ := hrest.same hn hallowed.rowAfter_mem
  obtain rfl : row' = row := List.inj_on_of_nodup_map haccepts'.keyed.ids_nodup hrow' hrow
    (hsame.binding.id.symm.trans hid.symm)
  have hrowId : row'.id = listId := hid.trans hafter
  have hlasting : Lasting deps.manager.lib row' := haccepts'.wf row' hrow'
  refine ⟨change, row', index, hchange, hindex, ?_, ?_, hlasting.published, ?_, ?_⟩
  · rw [hrecord, ← hrowId]
    exact Database.getStatusList_of_mem haccepts'.keyed.ids_nodup hrow'
  · have hkeeps : credentialId? (rowAfter before write).signedCredential =
        credentialId? row'.signedCredential := hsame.keeps
    rw [canonicalUrlOf, hsigned, hkeeps, hlasting.canonicalUrl ""]
    rfl
  · refine hbit.imp_right fun hback => ?_
    rw [hafter, ← hrowId] at hback
    exact ⟨l₁, before, write, l₂, hsplit, hbefore.trans hrowId.symm, hback⟩
  · intro hnoIndex hnoUrl
    obtain ⟨a, ha, hentry⟩ := hown hnoIndex hnoUrl
    obtain ⟨_, hfound⟩ := hhistory.getAllocation haccepts'.keyed ha
    rw [hentry.tenantId, hentry.credentialId, hentry.statusPurpose] at hfound
    have hnumber : index = a.statusListIndex := by simpa using hentry.index
    exact ⟨a, hfound, hentry.listId.trans hrowId.symm, hnumber.symm⟩

/-- The status of the first credential, after a restart. -/
theorem update_after_restarts_revoked :
    ∃ sent q body answer change row, ∃ index : Nat,
      Reaches testApp (testEnvironment .sqlite) sent q ∧
      updateBody testApp (updateRequest (updateText "urn:uuid:1")) = .ok body ∧
      body.status = true ∧ answer = updateResponse testApp body change ∧
      change.statusListIndex = .int index ∧
      q.state.db.getStatusList change.record.id = some row ∧
      credentialId? row.signedCredential = some (canonicalUrlOf testBaseUrl change.record) ∧
      publishedList? row.signedCredential = some row.encodedList ∧
      (plainLibrary.Holds row index body.status ∨
        SetBack plainLibrary q.state.log ([] ++ []) 1 row.id index body.status) ∧
      (body.credentialStatus.statusListIndex = none →
        body.credentialStatus.statusListCredential = none →
        ∃ a, q.state.db.getAllocation "acme" body.credentialId
            body.credentialStatus.statusPurpose = some a ∧
          a.listId = row.id ∧ a.statusListIndex = index) := by
  obtain ⟨sent, q, _, answer, hq, _, _, _, hsent, hanswered, hstatus⟩ := revoked_once
  obtain ⟨hrun, _, hlater⟩ := lives_revoked hq
  have hbody : (updateBody testApp (updateRequest (updateText "urn:uuid:1"))).toOption.any
      (fun body => body.status = true) = true := by decide +kernel
  obtain ⟨body, hbody, htrue⟩ := exists_ok_of_any hbody
  obtain ⟨change, row, index, hkept⟩ := update_after_restarts .start rfl (fakeSigning_agrees _)
    hrun hlater hsent rfl rfl (caller_postRequest _ _) hbody hanswered hstatus
  exact ⟨sent, q, body, answer, change, row, index, hq, hbody, by simpa using htrue, hkept⟩

end Restarts

end VcalmStatus
