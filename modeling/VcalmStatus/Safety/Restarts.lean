import VcalmStatus.Safety.Reachable
import VcalmStatus.Safety.Versions

/-!
A service that is stopped and started again. What is left of it when it stops, in order or not, is
what was committed; transactions that were open are not in the tables. Everything else may be
another when it starts again: tenants and their keys, settings, dialect, clock. Only the bitstring
library is the same, since the stored lists are its texts.
-/

namespace VcalmStatus

open Js Effects Policy

/-- A stored list that any later service can go on with: its bits can be read and moved, and its
credential says what it says. -/
structure Lasting {B : Type} (lib : BitstringLibrary B) (row : StatusListRecord) : Prop where
  positive : 0 < row.characteristics.length
  safe : row.characteristics.length ≤ maxSafeInteger
  decoded : ∃ list, lib.decodeList row.encodedList = .ok list ∧
    row.characteristics.length ≤ lib.length list
  published : publishedList? row.signedCredential = some row.encodedList
  statusPurpose : (subjectOf row.signedCredential).get? "statusPurpose" =
    some (.str row.statusPurpose.text)
  ttl : (subjectOf row.signedCredential).get? "ttl" =
    row.characteristics.ttl.map fun t => .num (.int t)
  named : ∃ url, credentialId? row.signedCredential = some url

/-- What holds of the tables whichever service is running. -/
def lastingPolicy {B : Type} (lib : BitstringLibrary B) : Policy where
  wf := Lasting lib
  keeps a b := credentialId? a.signedCredential = credentialId? b.signedCredential
  fits row a := row.tenantId = a.tenantId ∧ row.statusPurpose = a.statusPurpose ∧
    a.statusListIndex < row.characteristics.length
  mayCreate _ row := row.version = 1
  mayUpdate _ _ := True
  mayAllocate _ _ := True
  keeps_refl _ := rfl
  keeps_trans h h' := h.trans h'
  fits_congr h hf := h.fits hf
  mayUpdate_congr _ h := h

section Policies

variable {B : Type} {deps : AppDeps B} {env : Environment} {row : StatusListRecord}

theorem Lasting.of_served {tenants : TenantRegistry} (h : Sound deps tenants row)
    (h' : Served deps row) : Lasting deps.manager.lib row := by
  obtain ⟨url, hurl, _⟩ := h'.named
  exact ⟨h.positive, h.safe, h.decoded, h'.published, h'.statusPurpose, h'.ttl, url, hurl⟩

/-- Every bit of a list that is in range can be read. -/
theorem Lasting.reads {lib : BitstringLibrary B} {index : Nat} (h : Lasting lib row)
    (hlt : index < row.characteristics.length) :
    ∃ v, lib.readStatus row.encodedList index = .ok v := by
  obtain ⟨list, hlist, hlength⟩ := h.decoded
  rw [BitstringLibrary.readStatus_eq hlist]
  exact lib.getStatus_ok (Nat.lt_of_lt_of_le hlt hlength)

/-- A list keeps the URL it is served under, whatever the base URL is by now. -/
theorem Lasting.canonicalUrl {lib : BitstringLibrary B} (h : Lasting lib row) (base : String) :
    credentialId? row.signedCredential = some (canonicalUrlOf base row) := by
  obtain ⟨url, hurl⟩ := h.named
  rw [canonicalUrlOf, hurl]
  rfl

theorem lastingPolicy_resigns (hagrees : env.signing.Agrees) :
    (lastingPolicy deps.manager.lib).Resigns deps.manager env := by
  intro row issuerInstance index status m hwf hbound hflip updatedAt
  have hwf : Lasting deps.manager.lib row := hwf
  have hsound : Sound deps env.tenants row :=
    ⟨hwf.positive, hwf.safe, ⟨issuerInstance, hbound⟩, hwf.decoded⟩
  have hsound := sound_of_flipped hsound hflip (row.version + 1) updatedAt
  obtain ⟨_, _, _, _, _, _, _, hmaterialized⟩ := hflip.flipped
  have hpublishes := publishes_of_materialized hagrees hmaterialized
  refine ⟨rfl, rfl, ?_, ?_⟩
  · rw [RowUpdate.apply_of_eq rfl]
    exact ⟨hwf.positive, hwf.safe, hsound.decoded, hpublishes.published,
      hpublishes.statusPurpose, hpublishes.ttl, _, hpublishes.id⟩
  · rw [RowUpdate.apply_of_eq rfl]
    exact (hwf.canonicalUrl _).trans hpublishes.id.symm

theorem lastingPolicy_grants (hagrees : env.signing.Agrees) {i : Nat} {request : Request}
    {tenant : TenantRecord} (hcaller : deps.caller env.tenants request = some tenant) :
    (lastingPolicy deps.manager.lib).Grants deps env i request tenant where
  creates _ _ hinput hrow :=
    ⟨.of_served (sound_of_created (getTenant_of_callerOf hcaller) hinput hrow)
      (served_of_created hagrees hinput hrow).1, hrow.version⟩
  resigns := lastingPolicy_resigns hagrees
  owns h := h.1
  updates _ := trivial
  allocates _ _ _ hwf htenant hpurpose :=
    ⟨hwf.positive, fun _ ha => ⟨⟨htenant.trans ha.tenantId.symm,
      hpurpose.trans ha.statusPurpose.symm, ha.inRange⟩, trivial⟩⟩

end Policies

/-! ### One life after the other -/

theorem History.append {P : Policy} {db₀ db₁ db : Database} {l₁ l₂ : List Event}
    (h : History P db₀ l₁ db₁) (h' : History P db₁ l₂ db) : History P db₀ (l₁ ++ l₂) db := by
  induction h' with
  | start => simpa using h
  | snoc _ he ih =>
      rw [← List.append_assoc]
      exact ih.snoc he

/-- Tables that a service kept are tables the next one can start on. -/
theorem Policy.Inv.accepts {P : Policy} {env : Environment} {w : World} (h : P.Inv env w) :
    P.Accepts w.db where
  keyed := ⟨h.ids_nodup, h.indexes_nodup, h.credentials_nodup, fun a ha => by
    obtain ⟨row, hrow, hid, _⟩ := h.fits a ha
    exact ⟨row, hrow, hid⟩⟩
  wf := h.wf
  fits := h.fits

section Lives

variable {B : Type}

/-- A service that was just started on these tables. -/
def startedPool (deps : AppDeps B) (db : Database) (requests : Nat → Option Request) :
    Pool Operation Operation.Answer JsError (Option Response) World Nat :=
  ⟨World.of db, fun i => serve deps (requests i)⟩

/-- Any number of services, one after the other: each is started on the tables the one before it
left, with settings and surroundings of its own, and is stopped at any moment. -/
inductive Lives (lib : BitstringLibrary B) (db₀ : Database) : List Event → Database → Prop
  | start : Lives lib db₀ [] db₀
  | stopped {log : List Event} {db : Database} {deps : AppDeps B} {env : Environment}
      {requests : Nat → Option Request}
      {q : Pool Operation Operation.Answer JsError (Option Response) World Nat}
      (h : Lives lib db₀ log db) (hlib : deps.manager.lib = lib) (hagrees : env.signing.Agrees)
      (hrun : Pool.Run (World.step env) (startedPool deps db requests) q) :
      Lives lib db₀ (log ++ q.state.log) q.state.db

variable {lib : BitstringLibrary B} {deps : AppDeps B} {env : Environment}
  {requests : Nat → Option Request} {db₀ db : Database} {log : List Event}

variable (requests) in
theorem startedPool_good (hagrees : env.signing.Agrees)
    (h : (lastingPolicy deps.manager.lib).Accepts db) :
    Pool.Good ((lastingPolicy deps.manager.lib).discipline env)
      (fun i => Ended deps env (lastingPolicy deps.manager.lib) i (World.of db) (requests i))
      (startedPool deps db requests) :=
  good_of h fun i => serve_serves (fun _ _ _ hcaller => lastingPolicy_grants hagrees hcaller)
    (notCommitted_of i) (idle_of i)

/-- The logs of all lives, one after the other, are one history of the tables. -/
theorem Lives.history (h : Lives lib db₀ log db) (h₀ : (lastingPolicy lib).Accepts db₀) :
    (lastingPolicy lib).Accepts db ∧ History (lastingPolicy lib) db₀ log db := by
  induction h with
  | start => exact ⟨h₀, .start⟩
  | @stopped log db deps env requests q _ hlib hagrees hrun ih =>
      subst hlib
      obtain ⟨haccepts, hhistory⟩ := ih
      have hgood := startedPool_good requests hagrees haccepts
      have hrecorded := run_recorded hgood hrun (recorded_of _ db)
      exact ⟨(run_good hgood hrun).inv.accepts, hhistory.append hrecorded.history⟩

end Lives

end VcalmStatus
