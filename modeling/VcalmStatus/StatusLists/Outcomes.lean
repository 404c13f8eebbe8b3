import VcalmStatus.StatusLists.Calls
import VcalmStatus.StatusLists.Probing

/-!
What an allocation comes to under races.

A violated key is not read from the driver: it is reconstructed by queries after the failed insert,
while others go on inserting. The classes of errors follow from the specification of the call; what
each of them stands for is read off the moments of the run.
-/

namespace VcalmStatus

open Js Effects Policy

/-- A probe that hit: the index it drew was allocated when it was looked at. -/
def HitAllocated (listId : String) (probe : List ServiceMoment) : Prop :=
  ∃ (index length : Nat) (draw : ServiceMoment) (rest : List ServiceMoment),
    probe = draw :: rest ∧ draw.seen = ⟨.randomIndex length, index⟩ ∧
    ∃ m ∈ rest, m.seen = ⟨.isIndexAllocated listId index, true⟩ ∧
      ∃ a ∈ m.state.db.indexAllocations, a.listId = listId ∧ a.statusListIndex = index

/-- What an `allocateIndex` call of thread `i` came to, in a run with the moments `τ` that has led
to `w`. The four ways exclude each other. -/
inductive AllocationOutcome (i : Nat) (tenantId credentialId : String)
    (statusPurpose : StatusPurpose) (listId : String) (τ : List ServiceMoment) (w : World) :
    Except JsError ManagerResult → Prop
  | success {a : IndexAllocation} (hmem : a ∈ w.db.indexAllocations)
      (hkey : (a.tenantId, a.credentialId, a.statusPurpose, a.listId) =
        (tenantId, credentialId, statusPurpose, listId))
      (halone : ∀ b ∈ w.db.indexAllocations, b.listId = a.listId →
        b.statusListIndex = a.statusListIndex → b = a) :
      AllocationOutcome i tenantId credentialId statusPurpose listId τ w (.ok (.allocation a))
  | alreadyAllocated {a : IndexAllocation} (hmem : a ∈ w.db.indexAllocations)
      (hkey : (a.tenantId, a.credentialId, a.statusPurpose) =
        (tenantId, credentialId, statusPurpose)) (message : String) :
      AllocationOutcome i tenantId credentialId statusPurpose listId τ w
        (.error (.storage .credentialAlreadyAllocated message))
  | listNotFound {m : ServiceMoment} (hm : m ∈ τ) (hi : m.thread = i)
      (hnone : ∀ row ∈ m.state.db.statusLists, row.id = listId → row.tenantId ≠ tenantId)
      (message : String) :
      AllocationOutcome i tenantId credentialId statusPurpose listId τ w
        (.error (.statusList .listNotFound message))
  | exhausted {first : ServiceMoment} {probes : List (List ServiceMoment)}
      (hown : (τ.filter fun m => m.thread = i) = first :: probes.flatten)
      (hlength : probes.length = allocationAttempts)
      (hhits : ∀ probe ∈ probes, HitAllocated listId probe) (message : String) :
      AllocationOutcome i tenantId credentialId statusPurpose listId τ w
        (.error (.statusList .listExhausted message))

/-- Segments of what was seen are what segments of the moments saw. -/
theorem segments_of_map {α β : Type} {f : α → β} {l : List α} {ys : List (List β)}
    (h : l.map f = ys.flatten) : ∃ xs : List (List α), l = xs.flatten ∧ ys = xs.map (·.map f) := by
  induction ys generalizing l with
  | nil => exact ⟨[], by simpa using h, rfl⟩
  | cons y ys ih =>
      rw [List.flatten_cons] at h
      obtain ⟨l₁, l₂, rfl, rfl, h₂⟩ := List.map_eq_append_iff.mp h
      obtain ⟨xs, rfl, rfl⟩ := ih h₂
      exact ⟨l₁ :: xs, rfl, rfl⟩

section Outcomes

variable {B : Type} {deps : ManagerDeps B} {env : Environment} {calls : Nat → ManagerCall}
  {q : Pool Operation Operation.Answer JsError ManagerResult World Nat} {τ : List ServiceMoment}
  {Q : Nat → Except JsError ManagerResult → World → Prop} {i : Nat}
  {tenantId credentialId listId : String} {statusPurpose : StatusPurpose}

/-- A probe that saw its index allocated saw it in the table. -/
theorem hitAllocated_of_hit (h : Pool.Traced (World.step env) (managerPool deps calls) τ q)
    {length : Nat} {probe : List ServiceMoment} (hsub : ∀ m ∈ probe, m ∈ τ)
    (hhit : Hit listId length (probe.map (·.seen))) : HitAllocated listId probe := by
  obtain ⟨index, rest, hprobe, htrue⟩ := hhit
  obtain ⟨draw, moments, rfl, hdraw, rfl⟩ := List.map_eq_cons_iff.mp hprobe
  obtain ⟨m, hm, hseen⟩ := List.mem_map.mp htrue
  have hans := h.answers (hsub m (List.mem_cons_of_mem _ hm)) hseen rfl
  exact ⟨index, length, draw, moments, rfl, hdraw, m, hm, hseen,
    Database.isIndexAllocated_iff.mp (Eq.symm hans)⟩

/-- What an `allocateIndex` call has seen when it fails. -/
theorem allocateIndex_seen (h : Pool.Traced (World.step env) (managerPool deps calls) τ q)
    (hcall : calls i = .allocateIndex tenantId credentialId statusPurpose listId) {e : JsError}
    (he : (q.thread i).outcome? = some (.error e)) :
    StatusListManager.RefusalSeen tenantId credentialId statusPurpose listId (own i τ) e := by
  have hthread : (managerPool deps calls).thread i =
      (do let a ← StatusListManager.allocateIndex tenantId credentialId statusPurpose listId
          pure (.allocation a)) := by
    rw [show (managerPool deps calls).thread i = (calls i).program deps from rfl, hcall]
    rfl
  have hwatched : Watched (fun _ _ => True) (fun _ _ => True)
      (StatusListManager.RefusalSeen tenantId credentialId statusPurpose listId)
      ((managerPool deps calls).thread i) [] := by
    rw [hthread]
    refine Watched.bind (StatusListManager.allocateIndex_watched (.const True)
      (fun _ _ _ _ => trivial) trivial) (fun _ _ _ => trivial) ?_
    rintro l e ⟨new, rfl, _, h⟩
    exact h
  exact h.failed hwatched he

/-- The refusals, and what each of them says about the tables. -/
theorem allocationOutcome_of_error
    (h : Pool.Traced (World.step env) (managerPool deps calls) τ q)
    (hgood : Pool.Good ((callsPolicy False calls).discipline env) Q (managerPool deps calls))
    (hcall : calls i = .allocateIndex tenantId credentialId statusPurpose listId) {e : JsError}
    (he : (q.thread i).outcome? = some (.error e))
    (hrefused : AllocateRefused env (callsPolicy False calls) World.initial tenantId credentialId
      statusPurpose listId e) :
    AllocationOutcome i tenantId credentialId statusPurpose listId τ q.state (.error e) := by
  have hseen := allocateIndex_seen h hcall he
  generalize hl : own i τ = l at hseen
  cases hrefused with
  | listNotFound hu hnone =>
      cases hseen with
      | @listNotFound list hlist message =>
          obtain ⟨m, hm, hi, hms⟩ := mem_own.mp (hl ▸ List.mem_singleton_self _)
          refine .listNotFound hm hi (fun row hrow hid => ?_) _
          have hans : list = m.state.db.getStatusList listId := h.answers hm hms rfl
          refine hlist row ?_
          rw [hans, ← hid]
          exact Database.getStatusList_of_mem (h.extends hgood hm).1.ids_nodup hrow
      | gaveUp hgave => exact absurd (hgave.hits _ _ rfl).1 (by simp)
  | exhausted =>
      cases hseen with
      | gaveUp hgave =>
          obtain ⟨_, probes, hlength, rfl, hhits⟩ := hgave.hits _ _ rfl
          obtain ⟨first, rest, hown, _, hrest⟩ := List.map_eq_cons_iff.mp hl
          obtain ⟨xs, rfl, rfl⟩ := segments_of_map hrest
          refine .exhausted hown (by simpa using hlength) (fun probe hprobe => ?_) _
          refine hitAllocated_of_hit h (fun m hm => ?_) (hhits _ (List.mem_map_of_mem hprobe))
          have hmem : m ∈ τ.filter fun m => m.thread = i := by
            rw [hown]
            exact List.mem_cons_of_mem _ (List.mem_flatten.mpr ⟨probe, hprobe, hm⟩)
          exact (List.mem_filter.mp hmem).1
  | alreadyAllocated ha message =>
      cases hseen with
      | gaveUp hgave =>
          obtain ⟨a, ha⟩ := hgave.held message rfl
          obtain ⟨m, hm, _, hms⟩ := mem_own.mp (hl ▸ List.mem_cons_of_mem _ ha)
          have hans : some a = m.state.db.getAllocation tenantId credentialId statusPurpose :=
            h.answers hm hms rfl
          obtain ⟨hmem, ht, hc, hp⟩ := Database.mem_of_getAllocation hans.symm
          exact .alreadyAllocated ((h.extends hgood hm).2.allocations a hmem)
            (by rw [ht, hc, hp]) message

/-- What is known of a call that has ended, and of an `allocateIndex` call in particular. -/
def CallEnds (env : Environment) (calls : Nat → ManagerCall) (i : Nat)
    (r : Except JsError ManagerResult) (t : World) : Prop :=
  t.Idle i ∧ ∀ tenantId credentialId statusPurpose listId,
    calls i = .allocateIndex tenantId credentialId statusPurpose listId →
    Ends
      (fun result t => ∃ a, result = .allocation a ∧ a ∈ t.db.indexAllocations ∧
        (a.tenantId, a.credentialId, a.statusPurpose, a.listId) =
          (tenantId, credentialId, statusPurpose, listId))
      (fun e t => (callsPolicy False calls).Interference i World.initial t ∧
        AllocateRefused env (callsPolicy False calls) World.initial tenantId credentialId
          statusPurpose listId e) r t

theorem managerCalls_end (i : Nat) :
    (callsPolicy False calls).Serves env i ((calls i).program deps) (CallEnds env calls i)
      World.initial := by
  by_cases hcall : ∃ tenantId credentialId statusPurpose listId,
      calls i = .allocateIndex tenantId credentialId statusPurpose listId
  · obtain ⟨tenantId, credentialId, statusPurpose, listId, hcall⟩ := hcall
    unfold CallEnds
    simp only [hcall]
    refine (StatusListManager.allocateIndex_serves (notCommitted_of i) (idle_of i)
      fun row hrow htenant => callsPolicy_fits hrow.wf htenant False.elim).map ?_
    rintro (e | a) t h
    · refine ⟨h.1.idle (idle_of i), ?_⟩
      rintro _ _ _ _ ⟨⟩
      exact h
    · obtain ⟨row, _, _, ha, hstored, _, hidle⟩ := h
      refine ⟨hidle, ?_⟩
      rintro _ _ _ _ ⟨⟩
      exact ⟨a, rfl, hstored.mem, by rw [ha.tenantId, ha.credentialId, ha.statusPurpose, ha.listId]⟩
  · refine (managerCall_serves (notCommitted_of i) (idle_of i) False.elim).imp ?_
    rintro (e | r) t _ h
    · exact ⟨h, fun _ _ _ _ hc => absurd ⟨_, _, _, _, hc⟩ hcall⟩
    · exact ⟨h.2, fun _ _ _ _ hc => absurd ⟨_, _, _, _, hc⟩ hcall⟩

variable (deps calls) in
theorem managerPool_good :
    Pool.Good ((callsPolicy False calls).discipline env) (CallEnds env calls)
      (managerPool deps calls) :=
  good_of (callsPolicy False calls).accepts_empty managerCalls_end

end Outcomes

/-- **Allocation outcomes are classified correctly.** In every interleaving of manager calls, an
`allocateIndex` call that has ended has come to one of the four outcomes; `index-taken` and the
driver's error never get out; a call that failed has put no row into the table, which holds what
was allocated and nothing else; and a call waits only for one that has not ended. -/
theorem allocation_outcomes {B : Type} (deps : ManagerDeps B) (env : Environment)
    (calls : Nat → ManagerCall) (τ : List ServiceMoment)
    (q : Pool Operation Operation.Answer JsError ManagerResult World Nat)
    (hrun : Pool.Traced (World.step env) (managerPool deps calls) τ q) :
    (∀ i tenantId credentialId statusPurpose listId,
      calls i = .allocateIndex tenantId credentialId statusPurpose listId →
      (∀ r, (q.thread i).outcome? = some r →
        AllocationOutcome i tenantId credentialId statusPurpose listId τ q.state r) ∧
      ∀ e, (q.thread i).outcome? = some (.error e) →
        (∀ message, e ≠ .storage .indexTaken message) ∧ e ≠ driverError ∧
          ∀ a, Event.allocated i a ∉ q.state.log) ∧
    q.state.db.indexAllocations = q.state.log.filterMap Event.allocation? ∧
    ∀ i o, q.state.blocked env i o = true → ∃ j, j ≠ i ∧ (q.thread j).outcome? = none := by
  have hgood := run_good (managerPool_good deps calls) hrun.run
  have hrec := run_recorded (managerPool_good deps calls) hrun.run (recorded_of _ Database.empty)
  have hI : (callsPolicy False calls).Inv env q.state := hgood.inv
  refine ⟨fun i tenantId credentialId statusPurpose listId hcall => ⟨?_, ?_⟩, ?_, ?_⟩
  · rintro (e | result) hr
    · exact allocationOutcome_of_error hrun (managerPool_good deps calls) hcall hr
        ((hgood.outcome hr).2 _ _ _ _ hcall).2
    · obtain ⟨a, rfl, hmem, hkey⟩ := (hgood.outcome hr).2 _ _ _ _ hcall
      refine .success hmem hkey fun b hb hlist hindex => ?_
      exact List.inj_on_of_nodup_map hI.indexes_nodup hb hmem (by rw [hlist, hindex])
  · intro e he
    obtain ⟨hquiet, hrefused⟩ := (hgood.outcome he).2 _ _ _ _ hcall
    refine ⟨?_, ?_, fun a ha => ?_⟩
    · cases hrefused <;> simp
    · cases hrefused <;> simp [driverError]
    · exact absurd (hquiet.own _ ha rfl) (by simp [World.initial])
  · simpa [Database.empty] using hrec.history.indexAllocations
  · intro i o hblocked
    obtain ⟨j, hne, hbusy⟩ := World.exists_of_blocked hblocked
    refine ⟨j, hne, ?_⟩
    cases hend : (q.thread j).outcome? with
    | none => rfl
    | some r => exact absurd (hgood.outcome hend).1 hbusy

/-- The code a refusal carries. -/
def refusalCode? : Except JsError ManagerResult → Option (StatusListErrorCode ⊕ StorageErrorCode)
  | .error (.statusList code _) => some (.inl code)
  | .error (.storage code _) => some (.inr code)
  | _ => none

/-- A random source that has got stuck: every index is the first. -/
def stuckEnvironment : Environment :=
  { testEnvironment .postgres with
    randomIndex := fun _ _ => 0
    randomIndex_lt := fun _ _ h => h }

/-- All four outcomes in one run: of three calls that race for one index the first has it, the
second finds its credential served and the third finds no index, and the fourth finds no list. -/
theorem allocation_outcomes_racing :
    ∃ τ q r₁ r₂ r₃ r₄, Pool.Traced (World.step stuckEnvironment) (managerPool testDeps racingCalls)
        τ q ∧
      ((q.thread 1).outcome? = some r₁ ∧ r₁.isOk ∧
        AllocationOutcome 1 "acme" "urn:uuid:1" .revocation "list-1" τ q.state r₁) ∧
      ((q.thread 2).outcome? = some r₂ ∧
        refusalCode? r₂ = some (.inr .credentialAlreadyAllocated) ∧
        AllocationOutcome 2 "acme" "urn:uuid:1" .revocation "list-1" τ q.state r₂) ∧
      ((q.thread 3).outcome? = some r₃ ∧ refusalCode? r₃ = some (.inl .listExhausted) ∧
        AllocationOutcome 3 "acme" "urn:uuid:2" .revocation "list-1" τ q.state r₃) ∧
      (q.thread 4).outcome? = some r₄ ∧ refusalCode? r₄ = some (.inl .listNotFound) ∧
        AllocationOutcome 4 "acme" "urn:uuid:3" .revocation "list-2" τ q.state r₄ := by
  -- Long enough for the 64 probes of the third call, each of which finds the one index taken.
  obtain ⟨τ, q, hτ, h₁, h₂, h₃, h₄⟩ : ∃ τ q,
      Pool.Traced (World.step stuckEnvironment) (managerPool testDeps racingCalls) τ q ∧
        (q.thread 1).outcome?.any (fun r => r.isOk) ∧
        (q.thread 2).outcome?.any (fun r =>
          decide (refusalCode? r = some (.inr .credentialAlreadyAllocated))) ∧
        (q.thread 3).outcome?.any (fun r =>
          decide (refusalCode? r = some (.inl .listExhausted))) ∧
        (q.thread 4).outcome?.any (fun r =>
          decide (refusalCode? r = some (.inl .listNotFound))) :=
    ⟨_, _, Pool.traced_scheduled
      (List.replicate 5 0 ++ (List.replicate 220 [1, 2, 3, 4]).flatten) _, by decide +kernel⟩
  obtain ⟨r₁, hr₁, hok⟩ := (Option.any_eq_true _ _).mp h₁
  obtain ⟨r₂, hr₂, hserved⟩ := (Option.any_eq_true _ _).mp h₂
  obtain ⟨r₃, hr₃, hexhausted⟩ := (Option.any_eq_true _ _).mp h₃
  obtain ⟨r₄, hr₄, hunknown⟩ := (Option.any_eq_true _ _).mp h₄
  have hends := (allocation_outcomes testDeps stuckEnvironment racingCalls τ q hτ).1
  exact ⟨τ, q, r₁, r₂, r₃, r₄, hτ, ⟨hr₁, hok, (hends 1 _ _ _ _ rfl).1 _ hr₁⟩,
    ⟨hr₂, of_decide_eq_true hserved, (hends 2 _ _ _ _ rfl).1 _ hr₂⟩,
    ⟨hr₃, of_decide_eq_true hexhausted, (hends 3 _ _ _ _ rfl).1 _ hr₃⟩,
    hr₄, of_decide_eq_true hunknown, (hends 4 _ _ _ _ rfl).1 _ hr₄⟩

end VcalmStatus
