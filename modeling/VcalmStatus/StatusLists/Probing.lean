import VcalmStatus.Safety.Moments
import VcalmStatus.StatusLists.Manager

/-!
What an allocation has seen before each of its operations. These are facts about the program text:
which operations the probe loop calls, and what a call that gives up must have been told.
-/

namespace VcalmStatus

open Js Effects

/-- The operations of a probe loop on one list. -/
inductive Probes (listId : String) : Operation → Prop
  | randomIndex (length : Nat) : Probes listId (.randomIndex length)
  | isIndexAllocated (statusListIndex : Nat) :
      Probes listId (.isIndexAllocated listId statusListIndex)
  | newDate : Probes listId .newDate
  | insertAllocation {a : IndexAllocation} (h : a.listId = listId) :
      Probes listId (.insertAllocation a)
  | getAllocation (tenantId credentialId : String) (statusPurpose : StatusPurpose) :
      Probes listId (.getAllocation tenantId credentialId statusPurpose)
  | getStatusList : Probes listId (.getStatusList listId)

/-- What a probe loop on one list sees as long as its allocation has not gone in. -/
def Probing (listId : String) (x : Seen) : Prop :=
  Probes listId x.1 ∧ ∀ a, x ≠ ⟨.insertAllocation a, true⟩

/-- One probe that hit: an index was drawn, and it was allocated already. -/
def Hit (listId : String) (length : Nat) (probe : List Seen) : Prop :=
  ∃ (index : Nat) (rest : List Seen), probe = (⟨.randomIndex length, index⟩ : Seen) :: rest ∧
    (⟨.isIndexAllocated listId index, true⟩ : Seen) ∈ rest

namespace StatusListManager

variable {G : List Seen → Operation → Prop} {H : List Seen → Prop} {listId : String}
  {l : List Seen}

/-- The insert of one probe: a failure leaves `H` as it was, is none of the manager's own errors,
and names the constraint that was seen to be violated. -/
theorem storageAllocateIndex_watched (hH : Kept (Probing listId) H)
    (hG : ∀ l o, H l → Probes listId o → G l o) {allocation : NewIndexAllocation}
    (hlist : allocation.listId = listId) (h : H l) :
    Watched G (fun l' a => l <+: l' ∧ a.listId = listId)
      (fun l' e => ∃ new, l' = l ++ new ∧ H l' ∧ (∀ code message, e ≠ .statusList code message) ∧
        (∀ message, e = .storage .credentialAlreadyAllocated message →
          ∃ a, (⟨.getAllocation allocation.tenantId allocation.credentialId
            allocation.statusPurpose, some a⟩ : Seen) ∈ new) ∧
        ∀ message, e = .storage .indexTaken message →
          (⟨.isIndexAllocated listId allocation.statusListIndex, true⟩ : Seen) ∈ new)
      (SqlStorage.allocateIndex allocation) l := by
  subst hlist
  refine Watched.perform (hG _ _ h .newDate) fun allocatedAt => ?_
  have h₁ := hH _ ⟨.newDate, allocatedAt⟩ ⟨.newDate, by simp⟩ h
  refine Watched.perform (hG _ _ h₁ (.insertAllocation rfl)) fun inserted => ?_
  cases inserted with
  | true => exact ⟨⟨_, (List.append_assoc _ _ _).symm⟩, rfl⟩
  | false =>
      have h₂ := hH _ ⟨.insertAllocation { allocation with allocatedAt := allocatedAt }, false⟩
        ⟨.insertAllocation rfl, by simp⟩ h₁
      refine Watched.perform (hG _ _ h₂ (.getAllocation _ _ _)) fun existing => ?_
      have h₃ := hH _ ⟨.getAllocation allocation.tenantId allocation.credentialId
        allocation.statusPurpose, existing⟩ ⟨.getAllocation _ _ _, by simp⟩ h₂
      cases existing with
      | some a =>
          exact ⟨_, by rw [List.append_assoc, List.append_assoc], h₃, by simp,
            fun _ _ => ⟨a, by simp⟩, by simp⟩
      | none =>
          refine Watched.perform (hG _ _ h₃ (.isIndexAllocated _)) fun taken => ?_
          have h₄ := hH _ ⟨.isIndexAllocated allocation.listId allocation.statusListIndex, taken⟩
            ⟨.isIndexAllocated _, by simp⟩ h₃
          cases taken with
          | true =>
              exact ⟨_, by rw [List.append_assoc, List.append_assoc, List.append_assoc], h₄,
                by simp, by simp, by simp⟩
          | false =>
              refine Watched.perform (hG _ _ h₄ .getStatusList) fun list => ?_
              have h₅ := hH _ ⟨.getStatusList allocation.listId, list⟩
                ⟨.getStatusList, by simp⟩ h₄
              cases list <;>
                exact ⟨_, by rw [List.append_assoc, List.append_assoc, List.append_assoc,
                  List.append_assoc], h₅, by simp [driverError], by simp [driverError],
                  by simp [driverError]⟩

/-- What a probe loop has seen that failed: the credential's other allocation, or an allocated
index at every attempt. -/
structure GaveUp (tenantId credentialId : String) (statusPurpose : StatusPurpose) (listId : String)
    (length attempts : Nat) (new : List Seen) (e : JsError) : Prop where
  held : ∀ message, e = .storage .credentialAlreadyAllocated message →
    ∃ a, (⟨.getAllocation tenantId credentialId statusPurpose, some a⟩ : Seen) ∈ new
  hits : ∀ code message, e = .statusList code message → code = .listExhausted ∧
    ∃ probes : List (List Seen), probes.length = attempts ∧ new = probes.flatten ∧
      ∀ probe ∈ probes, Hit listId length probe

theorem GaveUp.retry {tenantId credentialId : String} {statusPurpose : StatusPurpose}
    {length attempts : Nat} {probe new : List Seen} {e : JsError} (hhit : Hit listId length probe)
    (h : GaveUp tenantId credentialId statusPurpose listId length attempts new e) :
    GaveUp tenantId credentialId statusPurpose listId length (attempts + 1) (probe ++ new) e where
  held message he := by
    obtain ⟨a, ha⟩ := h.held message he
    exact ⟨a, List.mem_append_right _ ha⟩
  hits code message he := by
    obtain ⟨hcode, probes, hlength, rfl, hhits⟩ := h.hits code message he
    exact ⟨hcode, probe :: probes, by rw [List.length_cons, hlength], List.flatten_cons.symm,
      List.forall_mem_cons.mpr ⟨hhit, hhits⟩⟩

/-- The probe loop, by induction on the attempts that are left. -/
theorem probe_watched (hH : Kept (Probing listId) H) (hG : ∀ l o, H l → Probes listId o → G l o)
    {tenantId credentialId : String} {statusPurpose : StatusPurpose} {length : Nat}
    (attempts : Nat) (h : H l) :
    Watched G (fun l' a => l <+: l' ∧ a.listId = listId)
      (fun l' e => ∃ new, l' = l ++ new ∧ H l' ∧
        GaveUp tenantId credentialId statusPurpose listId length attempts new e)
      (probe (fun statusListIndex =>
          { tenantId, credentialId, statusPurpose, listId, statusListIndex })
        listId length attempts) l := by
  induction attempts generalizing l with
  | zero =>
      refine ⟨[], by simp, h, by simp, ?_⟩
      rintro code message ⟨⟩
      exact ⟨rfl, [], rfl, rfl, by simp⟩
  | succ attempts ih =>
      -- What the loop goes on with after a probe that hit.
      have retry : ∀ probe : List Seen, Hit listId length probe → H (l ++ probe) →
          Watched G (fun l' a => l <+: l' ∧ a.listId = listId)
            (fun l' e => ∃ new, l' = l ++ new ∧ H l' ∧
              GaveUp tenantId credentialId statusPurpose listId length (attempts + 1) new e)
            (StatusListManager.probe (fun statusListIndex =>
                { tenantId, credentialId, statusPurpose, listId, statusListIndex })
              listId length attempts) (l ++ probe) := by
        intro probe hhit hprobe
        refine (ih hprobe).imp
          (fun _ _ h => ⟨(List.prefix_append _ _).trans h.1, h.2⟩) ?_
        rintro l' e ⟨new, rfl, hH', hnew⟩
        exact ⟨probe ++ new, List.append_assoc _ _ _, hH', hnew.retry hhit⟩
      refine Watched.perform (hG _ _ h (.randomIndex _)) fun index => ?_
      have h₁ := hH _ ⟨.randomIndex length, index⟩ ⟨.randomIndex _, by simp⟩ h
      refine Watched.perform (hG _ _ h₁ (.isIndexAllocated _)) fun taken => ?_
      have h₂ := hH _ ⟨.isIndexAllocated listId index, taken⟩ ⟨.isIndexAllocated _, by simp⟩ h₁
      rw [List.append_assoc] at h₂ ⊢
      cases taken with
      | true => exact retry _ ⟨index, _, rfl, List.mem_singleton_self _⟩ h₂
      | false =>
          refine Watched.bind
            (R := fun l' outcome => (∀ a, outcome = some a → l <+: l' ∧ a.listId = listId) ∧
              (outcome = none → ∃ probe, l' = l ++ probe ∧ Hit listId length probe ∧ H l'))
            (E := fun l' e => (∀ code message, e ≠ .statusList code message) ∧ H l' ∧
              ∃ new, l' = l ++ new ∧
                ∀ message, e = .storage .credentialAlreadyAllocated message →
                  ∃ a, (⟨.getAllocation tenantId credentialId statusPurpose, some a⟩ : Seen) ∈ new)
            ?_ ?_ ?_
          · refine Watched.tryCatch (Watched.bind
              (S := fun l' outcome => ∃ a, outcome = some a ∧ l <+: l' ∧ a.listId = listId)
              (storageAllocateIndex_watched hH hG rfl h₂)
              (fun _ a ha => ⟨a, rfl, (List.prefix_append _ _).trans ha.1, ha.2⟩)
              fun _ _ h => h) ?_ ?_
            · rintro l' outcome ⟨a, rfl, ha⟩
              exact ⟨fun b hb => by cases hb; exact ha, by simp⟩
            · rintro l' e ⟨new, rfl, hH', hne, hheld, htaken⟩
              split
              · exact ⟨by simp, fun _ => ⟨⟨.randomIndex length, index⟩ ::
                  ⟨.isIndexAllocated listId index, false⟩ :: new, by simp,
                  ⟨index, _, rfl, List.mem_cons_of_mem _ (htaken _ rfl)⟩, hH'⟩⟩
              · refine ⟨hne, hH', _, List.append_assoc _ _ _, fun message he => ?_⟩
                obtain ⟨a, ha⟩ := hheld message he
                exact ⟨a, List.mem_append_right _ ha⟩
          · rintro l' outcome ⟨hok, hnone⟩
            cases outcome with
            | some a => exact hok a rfl
            | none =>
                obtain ⟨probe, rfl, hhit, hH'⟩ := hnone rfl
                exact retry probe hhit hH'
          · rintro l' e ⟨hne, hH', new, rfl, hheld⟩
            exact ⟨new, rfl, hH', hheld, fun code message he => absurd he (hne code message)⟩

/-- What an `allocateIndex` call has seen that failed: a list that is not the tenant's, or its own
list and then what the probe loop saw. -/
inductive RefusalSeen (tenantId credentialId : String) (statusPurpose : StatusPurpose)
    (listId : String) : List Seen → JsError → Prop
  | listNotFound {list : Option StatusListRecord}
      (hlist : ∀ row, list = some row → row.tenantId ≠ tenantId) (message : String) :
      RefusalSeen tenantId credentialId statusPurpose listId [⟨.getStatusList listId, list⟩]
        (.statusList .listNotFound message)
  | gaveUp {list : StatusListRecord} {new : List Seen} {e : JsError}
      (h : GaveUp tenantId credentialId statusPurpose listId list.characteristics.length
        allocationAttempts new e) :
      RefusalSeen tenantId credentialId statusPurpose listId
        (⟨.getStatusList listId, some list⟩ :: new) e

theorem allocateIndex_watched (hH : Kept (Probing listId) H) (hG : ∀ l o, H l → Probes listId o → G l o)
    {tenantId credentialId : String} {statusPurpose : StatusPurpose} (h : H l) :
    Watched G (fun l' a => l <+: l' ∧ a.listId = listId)
      (fun l' e => ∃ new, l' = l ++ new ∧ H l' ∧
        RefusalSeen tenantId credentialId statusPurpose listId new e)
      (allocateIndex tenantId credentialId statusPurpose listId) l := by
  refine Watched.perform (hG _ _ h .getStatusList) fun list => ?_
  have h₁ := hH _ ⟨.getStatusList listId, list⟩ ⟨.getStatusList, by simp⟩ h
  cases hlist : list.filter fun list => list.tenantId = tenantId with
  | none =>
      refine ⟨_, rfl, h₁, .listNotFound ?_ _⟩
      rintro row rfl
      simpa using hlist
  | some found =>
      obtain ⟨rfl, _⟩ := Option.filter_eq_some_iff.mp hlist
      refine (probe_watched hH hG allocationAttempts h₁).imp
        (fun _ _ h => ⟨(List.prefix_append _ _).trans h.1, h.2⟩) ?_
      rintro l' e ⟨new, rfl, hH', hnew⟩
      exact ⟨_, List.append_assoc _ _ _, hH', .gaveUp hnew⟩

end StatusListManager

end VcalmStatus
