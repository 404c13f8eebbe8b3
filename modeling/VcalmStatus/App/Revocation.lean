import VcalmStatus.App.TestRequests
import VcalmStatus.Safety.Asked
import VcalmStatus.Safety.Refusals
import VcalmStatus.StatusLists.Serial

/-!
Revoking one credential moves its bit and no other.

Between requests every stored list is served as it is stored and every allocation is in range of
its list, so the one call finds the allocation, the list, its instance and the bit. What it commits
is one step on the tables (`CallPerforms`), and distinct allocations have distinct places.
-/

namespace VcalmStatus

open Js Effects Policy

/-- The bit that the credential of an allocation's list publishes for it. -/
def BitstringLibrary.publishedBit {B : Type} (lib : BitstringLibrary B) (db : Database)
    (a : IndexAllocation) : Option Bool := do
  let row ← db.getStatusList a.listId
  let encodedList ← publishedList? row.signedCredential
  (lib.readStatus encodedList a.statusListIndex).toOption

/-- One status call between requests: lists are re-signed and nothing else is written. -/
def statusPolicy {B : Type} (deps : AppDeps B) (tenants : TenantRegistry) : Policy where
  wf row := Sound deps tenants row ∧ Served deps row
  keeps _ _ := True
  fits row a := a.statusListIndex < row.characteristics.length
  mayCreate _ _ := False
  mayUpdate _ _ := True
  mayAllocate _ _ := False
  keeps_refl _ := trivial
  keeps_trans _ _ := trivial
  fits_congr h hf := h.characteristics ▸ hf
  mayUpdate_congr _ h := h

section StatusPolicy

variable {B : Type} {deps : AppDeps B} {tenants : TenantRegistry} {env : Environment} {w : World}
  {i : Nat} {a b : IndexAllocation}

theorem statusPolicy_onlyUpdates : (statusPolicy deps tenants).OnlyUpdates :=
  ⟨fun _ _ h => h, fun _ _ h => h⟩

/-- Rows that are served as they are stored stay so when a bit is moved. -/
theorem resigns_of_served {P : Policy} (hagrees : env.signing.Agrees)
    (hwf : ∀ row, P.wf row ↔ Sound deps env.tenants row ∧ Served deps row)
    (hkeeps : ∀ row row', P.keeps row row') : P.Resigns deps.manager env := by
  intro row issuerInstance index status m hrow _ hflip updatedAt
  obtain ⟨hsound, hserved⟩ := (hwf row).mp hrow
  refine ⟨rfl, rfl, ?_, hkeeps _ _⟩
  rw [RowUpdate.apply_of_eq rfl, hwf]
  exact ⟨sound_of_flipped hsound hflip _ _, (served_of_flipped hagrees hserved hflip _ _).1⟩

theorem statusPolicy_resigns (hagrees : env.signing.Agrees) :
    (statusPolicy deps env.tenants).Resigns deps.manager env :=
  resigns_of_served hagrees (fun _ => Iff.rfl) fun _ _ => trivial

/-- The list of an allocation has a bit for it, and publishes the bit it holds. -/
theorem publishedBit_eq_bitOf (hI : (statusPolicy deps tenants).Inv env w)
    (ha : a ∈ w.db.indexAllocations) :
    ∃ held, deps.manager.lib.bitOf w.db a.listId a.statusListIndex = some held ∧
      deps.manager.lib.publishedBit w.db a = some held := by
  obtain ⟨row, hrow, hid, hlt⟩ := hI.fits a ha
  obtain ⟨hsound, hserved⟩ : Sound deps tenants row ∧ Served deps row := hI.wf row hrow
  have hfound : w.db.getStatusList a.listId = some row :=
    hid ▸ Database.getStatusList_of_mem hI.ids_nodup hrow
  obtain ⟨list, hlist, hlength⟩ := hsound.decoded
  obtain ⟨held, hheld⟩ := deps.manager.lib.getStatus_ok (Nat.lt_of_lt_of_le hlt hlength)
  have hread : deps.manager.lib.readStatus row.encodedList a.statusListIndex = .ok held :=
    (BitstringLibrary.readStatus_eq hlist).trans hheld
  refine ⟨held, BitstringLibrary.bitOf_eq_some.mpr ⟨row, hfound, hread⟩, ?_⟩
  simp [BitstringLibrary.publishedBit, hfound, hserved.published, hread, Except.toOption]

/-- A call for an allocation is about the allocation's place. -/
theorem target_of_allocation (hI : (statusPolicy deps tenants).Inv env w)
    (ha : a ∈ w.db.indexAllocations) (status : Bool) :
    (StatusCall.setCredentialStatus a.tenantId a.credentialId a.statusPurpose status).target w.db =
      some (a.listId, .int a.statusListIndex, status) := by
  rw [StatusCall.target, Database.getAllocation_of_nodup hI.credentials_nodup ha]
  rfl

/-- A status call for an allocation, made between requests: one atomic step on the tables, or
nothing. -/
theorem setCredentialStatus_alone (hagrees : env.signing.Agrees)
    (hI : (statusPolicy deps env.tenants).Inv env w) (hidle : ∀ j, w.Idle j)
    (hn : w.NotCommitted i) (ha : a ∈ w.db.indexAllocations) (status : Bool) :
    ∃ r w', (StatusListManager.setCredentialStatus deps.manager a.tenantId a.credentialId
        a.statusPurpose status).run (World.step env i) w = some (r, w') ∧
      (statusPolicy deps env.tenants).Inv env w' ∧
      ((∃ e row issuerInstance, r = .error e ∧ row ∈ w.db.statusLists ∧ row.id = a.listId ∧
          BoundInstance env row issuerInstance ∧ env.SignerFails issuerInstance e ∧
          w'.db = w.db) ∨
        ∃ change, r = .ok change ∧ CallPerforms deps.manager.lib w.db
          (.setCredentialStatus a.tenantId a.credentialId a.statusPurpose status) change w.db
          w'.db) := by
  have hcall : (statusPolicy deps env.tenants).Serves env i
      (StatusListManager.setCredentialStatus deps.manager a.tenantId a.credentialId
        a.statusPurpose status) _ w :=
    StatusListManager.setCredentialStatus_serves hn (hidle i) (fun _ _ _ _ _ _ _ _ _ => trivial)
      (statusPolicy_resigns hagrees)
  have honly : w.OnlyBy i := fun j _ => hidle j
  obtain ⟨r, w', hrun, _⟩ := honly.run_isSome (StatusListManager.setCredentialStatus deps.manager
    a.tenantId a.credentialId a.statusPurpose status)
  obtain ⟨hI', hend, events, halone⟩ := hcall.run_alone hI hrun
  refine ⟨r, w', hrun, hI', ?_⟩
  cases r with
  | error e =>
      obtain ⟨_, hn', hrefused⟩ := hend
      obtain ⟨row, issuerInstance, hrow, hid, hbound, hfails⟩ :=
        signerFails_of_credentialRefused (P := statusPolicy deps env.tenants)
          (fun row hwf => hwf.1) (fun row b hfits => hfits) hI ha hrefused
      exact .inl ⟨e, row, issuerInstance, rfl, hrow, hid, hbound, hfails,
        halone.unchanged statusPolicy_onlyUpdates hn'⟩
  | ok change =>
      obtain ⟨_, b, hb, row, issuerInstance, o, write, hrow, _, happlied, hresult, hwrote,
        hlog⟩ := hend
      have hsame : b = a := HeldFor.eq hb ha
      subst hsame
      obtain ⟨hmem, hdb⟩ := halone.updated statusPolicy_onlyUpdates hn hlog
      have htarget := target_of_allocation hI ha status
      rw [hdb]
      exact .inr ⟨change, rfl, callPerforms_of_committed hI.ids_nodup htarget hrow.id happlied
        hresult hwrote hmem⟩

end StatusPolicy

/-- **Revocation is exact.** Between requests, a status call for any allocation either was refused
by the signing service what it asked for the instance of the list, and changes nothing, or it
returns; then the published bit of the allocation is the one asked for, and that of every other
allocation is the one it was. -/
theorem revocation_exact {B : Type} (deps : AppDeps B) (env env' : Environment)
    (hagrees : env.signing.Agrees) (hagrees' : env'.signing.Agrees)
    (htenants : env'.tenants = env.tenants) (requests : Nat → Option Request)
    (responses : Nat → Option Response) (w : World)
    (hw : AllAnswered deps env requests responses w) (i : Nat) (hi : requests i = none)
    (a : IndexAllocation) (ha : a ∈ w.db.indexAllocations) (status : Bool) :
    ∃ r w', (StatusListManager.setCredentialStatus deps.manager a.tenantId a.credentialId
        a.statusPurpose status).run (World.step env' i) w = some (r, w') ∧
      ((∃ e row issuerInstance, r = .error e ∧ row ∈ w.db.statusLists ∧ row.id = a.listId ∧
          BoundInstance env' row issuerInstance ∧
          SignerRefused ((StatusListManager.setCredentialStatus deps.manager a.tenantId
            a.credentialId a.statusPurpose status).moments (World.step env') i w)
            issuerInstance e ∧
          w'.db = w.db) ∨
        ∃ change, r = .ok change ∧ w'.db.indexAllocations = w.db.indexAllocations ∧
          deps.manager.lib.publishedBit w'.db a = some status ∧
          ∀ b ∈ w.db.indexAllocations, b ≠ a → ∃ held,
            deps.manager.lib.publishedBit w.db b = some held ∧
            deps.manager.lib.publishedBit w'.db b = some held) := by
  have hsettled := hw.settled True (fun _ => True) (fun _ => hagrees) (providesIssuer_true env)
  have honly : w.OnlyBy i := fun j _ => hsettled.idle j
  obtain ⟨r, w', hrun, _⟩ := honly.run_isSome (StatusListManager.setCredentialStatus deps.manager
    a.tenantId a.credentialId a.statusPurpose status)
  -- The run is that of a signing service that fails nowhere but where this run was refused.
  have hrun' := Environment.run_asAsked hrun
  generalize hmoments : (StatusListManager.setCredentialStatus deps.manager a.tenantId
    a.credentialId a.statusPurpose status).moments (World.step env') i w = τ at hrun' ⊢
  have hI : (statusPolicy deps (env'.asAsked τ).tenants).Inv (env'.asAsked τ) w := by
    refine hsettled.inv.restart hsettled.idle (fun row _ hwf => ?_) fun row b hfits => hfits.2.2
    change Sound deps env'.tenants row ∧ Served deps row
    rw [htenants]
    exact ⟨hwf.1, (hwf.2 trivial).1⟩
  have hasked : (env'.asAsked τ).signing.Agrees := hagrees'.asAsked
  obtain ⟨r', w'', hsame, hI', hend⟩ := setCredentialStatus_alone hasked hI hsettled.idle
    (hsettled.notCommitted hi) ha status
  obtain ⟨rfl, rfl⟩ : r = r' ∧ w' = w'' := by
    rw [hrun'] at hsame
    simpa using hsame
  refine ⟨r, w', hrun, hend.imp ?_ ?_⟩
  · rintro ⟨e, row, issuerInstance, rfl, hrow, hid, hbound, hfails, hdb⟩
    subst hmoments
    exact ⟨e, row, issuerInstance, rfl, hrow, hid, hbound, hfails.refused, hdb⟩
  rintro ⟨change, rfl, hperforms⟩
  have hallocations : w'.db.indexAllocations = w.db.indexAllocations := hperforms.allocations
  have htarget := target_of_allocation hI ha status
  -- What is published of an allocation afterwards is what the call makes of its bit.
  have hpublished : ∀ b ∈ w.db.indexAllocations, ∃ held,
      deps.manager.lib.publishedBit w.db b = some held ∧
      deps.manager.lib.publishedBit w'.db b = some
        ((StatusCall.setCredentialStatus a.tenantId a.credentialId a.statusPurpose status).write
          w.db b.listId b.statusListIndex held) := by
    intro b hb
    obtain ⟨held, hbit, hheld⟩ := publishedBit_eq_bitOf hI hb
    obtain ⟨held', hbit', hheld'⟩ := publishedBit_eq_bitOf hI' (hallocations ▸ hb)
    have hbits := hperforms.bits b.listId b.statusListIndex held hbit
    rw [hbit', Option.some.injEq] at hbits
    exact ⟨held, hheld, hbits ▸ hheld'⟩
  refine ⟨change, rfl, hallocations, ?_, fun b hb hne => ?_⟩
  · obtain ⟨held, _, hafter⟩ := hpublished a ha
    simpa [StatusCall.write, htarget] using hafter
  · obtain ⟨held, hbefore, hafter⟩ := hpublished b hb
    have hplace : ¬(a.listId = b.listId ∧ a.statusListIndex = b.statusListIndex) := by
      rintro ⟨hlist, hindex⟩
      exact hne (List.inj_on_of_nodup_map hI.indexes_nodup hb ha (by rw [hlist, hindex]))
    refine ⟨held, hbefore, ?_⟩
    simpa [StatusCall.write, htarget, hplace] using hafter

/-- Two credentials of one list; the first is revoked, the second is not. -/
theorem revocation_exact_two_credentials :
    ∃ (w w' : World) (a b : IndexAllocation) (change : StatusChange),
      a ∈ w.db.indexAllocations ∧ b ∈ w.db.indexAllocations ∧ b ≠ a ∧ a.listId = b.listId ∧
      (StatusListManager.setCredentialStatus testDeps a.tenantId a.credentialId a.statusPurpose
        true).run (World.step (testEnvironment .sqlite) 2) w = some (.ok change, w') ∧
      plainLibrary.publishedBit w'.db a = some true ∧ ∃ held,
        plainLibrary.publishedBit w.db b = some held ∧
        plainLibrary.publishedBit w'.db b = some held := by
  have hstate : (handled (testEnvironment .sqlite) World.initial 0
      [allocateRequest "urn:uuid:1", allocateRequest "urn:uuid:2"]).any (fun w =>
        w.db.indexAllocations.any fun a => w.db.indexAllocations.any fun b =>
          decide (b ≠ a) && decide (a.listId = b.listId) &&
            ((StatusListManager.setCredentialStatus testDeps a.tenantId a.credentialId
              a.statusPurpose true).run (World.step (testEnvironment .sqlite) 2) w).any
                (fun rw => rw.1.toOption.isSome)) = true := by decide +kernel
  obtain ⟨w, hw, hcheck⟩ := (Option.any_eq_true _ _).mp hstate
  obtain ⟨requests, responses, hanswered, hfree⟩ := allAnswered_of_handled hw
  obtain ⟨a, ha, hcheck⟩ := List.any_eq_true.mp hcheck
  obtain ⟨b, hb, hcheck⟩ := List.any_eq_true.mp hcheck
  simp only [Bool.and_eq_true, decide_eq_true_eq] at hcheck
  obtain ⟨⟨hne, hlist⟩, hreturns⟩ := hcheck
  obtain ⟨r, w', hrun, hend⟩ := revocation_exact testApp (testEnvironment .sqlite)
    (testEnvironment .sqlite) (fakeSigning_agrees _) (fakeSigning_agrees _) rfl requests
    responses w hanswered 2 hfree a ha true
  obtain ⟨e, _, _, rfl, _⟩ | ⟨change, rfl, _, hbit, hothers⟩ := hend
  · have hrun : (StatusListManager.setCredentialStatus testDeps a.tenantId a.credentialId
        a.statusPurpose true).run (World.step (testEnvironment .sqlite) 2) w =
      some (.error e, w') := hrun
    rw [hrun] at hreturns
    cases hreturns
  · exact ⟨w, w', a, b, change, ha, hb, hne, hlist, hrun, hbit, hothers b hb hne⟩

end VcalmStatus
