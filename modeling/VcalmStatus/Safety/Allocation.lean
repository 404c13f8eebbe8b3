import VcalmStatus.Safety.Update

/-!
The specification of allocation: the insert and the classification of its failure, the probe loop,
and the two public calls. A refused insert is always explained, because neither lists nor
allocations ever go away.
-/

namespace VcalmStatus

open Js Effects Policy

/-- An allocation of these names, in range of a list of this length. -/
structure AllocationFor (tenantId credentialId : String) (statusPurpose : StatusPurpose)
    (listId : String) (length : Nat) (a : IndexAllocation) : Prop where
  tenantId : a.tenantId = tenantId
  credentialId : a.credentialId = credentialId
  statusPurpose : a.statusPurpose = statusPurpose
  listId : a.listId = listId
  inRange : a.statusListIndex < length

/-- The allocation was stored for this request, by a call made in a world `s`. -/
structure Stored (P : Policy) (i : Nat) (s : World) (a : IndexAllocation) (t : World) :
    Prop where
  later : P.Extends s t
  mem : a ∈ t.db.indexAllocations
  log : Event.allocated i a ∈ t.log

theorem Stored.mono {P : Policy} {i : Nat} {a : IndexAllocation} {s s' t t' : World}
    (h : Stored P i s' a t) (hs : P.Extends s s') (ht : P.Interference i t t') :
    Stored P i s a t' :=
  ⟨hs.trans (h.later.trans ht.toExtends), ht.allocations a h.mem, ht.mem_log h.log⟩

section Specification

variable {B : Type} (deps : ManagerDeps B) (env : Environment) (P : Policy)

/-- What `allocateIndex` can fail with, called in a world `s`. -/
inductive AllocateRefused (s : World) (tenantId credentialId : String)
    (statusPurpose : StatusPurpose) (listId : String) : JsError → Prop
  | listNotFound {u : World} (hu : P.Extends s u)
      (hnone : ∀ row ∈ u.db.statusLists, row.id = listId → row.tenantId ≠ tenantId) :
      AllocateRefused s tenantId credentialId statusPurpose listId
        (.statusList .listNotFound s!"Status list \"{listId}\" not found")
  | exhausted : AllocateRefused s tenantId credentialId statusPurpose listId
      (.statusList .listExhausted s!"Status list \"{listId}\" has no free index left to allocate")
  | alreadyAllocated {a : IndexAllocation}
      (ha : HeldFor env P s tenantId credentialId statusPurpose a) (message : String) :
      AllocateRefused s tenantId credentialId statusPurpose listId
        (.storage .credentialAlreadyAllocated message)

/-- The instance a list created without being asked for gets. -/
def DefaultInstance (tenantId : String) (issuerInstance : IssuerInstance) : Prop :=
  (env.tenants.getTenant tenantId).bind (resolveIssuerInstance ·) = some issuerInstance

/-- What the choice of a list can fail with. -/
inductive ChoiceRefused (s : World) (tenantId : String) (statusPurpose : StatusPurpose) :
    Option String → JsError → Prop
  | listNotFound {listId : String} {u : World} (hu : P.Extends s u)
      (hnone : ∀ row ∈ u.db.statusLists, row.id = listId → row.tenantId ≠ tenantId) :
      ChoiceRefused s tenantId statusPurpose (some listId)
        (.statusList .listNotFound s!"Status list \"{listId}\" not found")
  | purposeMismatch {listId : String} {row : StatusListRecord}
      (hrow : CurrentRow P env s listId row) (htenant : row.tenantId = tenantId)
      (hne : row.statusPurpose ≠ statusPurpose) :
      ChoiceRefused s tenantId statusPurpose (some listId)
        (.statusList .listPurposeMismatch
          s!"Status list \"{listId}\" is a {row.statusPurpose.text} list, not {statusPurpose.text}")
  | noInstance
      (hnone : (env.tenants.getTenant tenantId).bind (resolveIssuerInstance ·) = none)
      (message : String) :
      ChoiceRefused s tenantId statusPurpose none
        (.statusList .issuerInstanceUnavailable message)
  | create {issuerInstance : IssuerInstance} {t : World} {e : JsError}
      (hinstance : DefaultInstance env tenantId issuerInstance)
      (h : CreateRefused deps env { tenantId, issuerInstance, statusPurpose } t e) :
      ChoiceRefused s tenantId statusPurpose none e

/-- The list an allocation of the tenant may go into. -/
structure Chosen (tenantId : String) (statusPurpose : StatusPurpose) (list : StatusListRecord)
    (t : World) : Prop where
  tenantId : list.tenantId = tenantId
  statusPurpose : list.statusPurpose = statusPurpose
  mem : ∃ row ∈ t.db.statusLists, P.Same list row

/-- What `allocateForCredential` can fail with, called in a world `s`. -/
inductive ForCredentialRefused (s : World) (tenantId credentialId : String)
    (statusPurpose : StatusPurpose) (listId : Option String) : JsError → Prop
  | choice {e : JsError} (h : ChoiceRefused deps env P s tenantId statusPurpose listId e) :
      ForCredentialRefused s tenantId credentialId statusPurpose listId e
  | allocate {t : World} {list : StatusListRecord} {e : JsError}
      (hlist : Chosen P tenantId statusPurpose list t)
      (h : AllocateRefused env P t tenantId credentialId statusPurpose list.id e) :
      ForCredentialRefused s tenantId credentialId statusPurpose listId e

end Specification

/-- A chosen list is the one its id finds from then on. -/
theorem Chosen.current {env : Environment} {P : Policy} {s : World} {tenantId : String}
    {statusPurpose : StatusPurpose} {list row : StatusListRecord}
    (h : Chosen P tenantId statusPurpose list s) (hrow : CurrentRow P env s list.id row) : P.Same list row := by
  obtain ⟨u, hu, hI, hmem⟩ := hrow.current
  obtain ⟨row₁, hrow₁, hsame₁⟩ := h.mem
  obtain ⟨row₂, hrow₂, hsame₂⟩ := hu.lists row₁ hrow₁
  have hsame := hsame₁.trans hsame₂
  rw [hI.eq_of_id hmem hrow₂ (hrow.id.trans hsame.binding.id)]
  exact hsame

theorem AllocateRefused.mono {env : Environment} {P : Policy} {s s' : World}
    {tenantId credentialId : String} {statusPurpose : StatusPurpose} {listId : String}
    {e : JsError} (hs : P.Extends s s')
    (h : AllocateRefused env P s' tenantId credentialId statusPurpose listId e) :
    AllocateRefused env P s tenantId credentialId statusPurpose listId e := by
  cases h with
  | listNotFound hu hnone => exact .listNotFound (hs.trans hu) hnone
  | exhausted => exact .exhausted
  | alreadyAllocated ha message => exact .alreadyAllocated (ha.mono hs) message

namespace StatusListManager

variable {B : Type} {deps : ManagerDeps B} {env : Environment} {P : Policy} {i : Nat} {s : World}

theorem insertAllocation_idle {a : IndexAllocation} {u : World} (h : u.Idle i) :
    (u.insertAllocation i a).Idle i :=
  ⟨h.transaction, h.connection, h.holder⟩

theorem insertAllocation_notCommitted {a : IndexAllocation} {u : World} (h : u.NotCommitted i) :
    (u.insertAllocation i a).NotCommitted i := by
  intro r w he
  rcases List.mem_append.mp he with he | he
  · exact h r w he
  · cases List.mem_singleton.mp he

/-- A refused insert is classified by what refused it, which is still there. -/
theorem classifyAllocationFailure_serves {allocation : NewIndexAllocation} {cause : JsError}
    (hn : s.NotCommitted i)
    (htaken : (∃ b ∈ s.db.indexAllocations, b.listId = allocation.listId ∧
        b.statusListIndex = allocation.statusListIndex) ∨
      ∃ b ∈ s.db.indexAllocations, b.tenantId = allocation.tenantId ∧
        b.credentialId = allocation.credentialId ∧ b.statusPurpose = allocation.statusPurpose) :
    P.Serves env i (SqlStorage.classifyAllocationFailure allocation cause)
      (Ends
        (fun e t => P.Interference i s t ∧
          ((∃ message a, e = .storage .credentialAlreadyAllocated message ∧
              HeldFor env P s allocation.tenantId allocation.credentialId
                allocation.statusPurpose a) ∨
            ∃ message, e = .storage .indexTaken message))
        (fun _ _ => False)) s := by
  refine Serves.quiet (.getAllocation allocation.tenantId allocation.credentialId
    allocation.statusPurpose) rfl hn fun t r ht hIt hr => ?_
  have hr : r = t.db.getAllocation allocation.tenantId allocation.credentialId
    allocation.statusPurpose := hr
  subst hr
  cases hheld : t.db.getAllocation allocation.tenantId allocation.credentialId
      allocation.statusPurpose with
  | some a =>
      obtain ⟨hmem, hkeys⟩ := Database.mem_of_getAllocation hheld
      exact Serves.ret fun u hu _ => ⟨ht.trans hu, .inl ⟨_, a, rfl,
        ⟨t, ht.toExtends, hIt, hmem⟩, hkeys.1, hkeys.2.1, hkeys.2.2⟩⟩
  | none =>
      have hnone := Database.getAllocation_eq_none.mp hheld
      obtain ⟨b, hb, hindex⟩ := htaken.resolve_right fun ⟨b, hb, hkeys⟩ =>
        hnone b (ht.allocations b hb) hkeys
      refine Serves.quiet (.isIndexAllocated allocation.listId allocation.statusListIndex) rfl
        (ht.notCommitted hn) fun u taken hu _ htaken => ?_
      have htrue : taken = true := by
        have hu' : taken = u.db.isIndexAllocated allocation.listId allocation.statusListIndex :=
          htaken
        rw [hu']
        exact Database.isIndexAllocated_iff.mpr ⟨b, hu.allocations b (ht.allocations b hb), hindex⟩
      simp only [htrue, if_true]
      exact Serves.ret fun v hv _ => ⟨ht.trans (hu.trans hv), .inr ⟨_, rfl⟩⟩

/-- `SqlStorage.allocateIndex` into a list that exists. -/
theorem storageAllocateIndex_serves {allocation : NewIndexAllocation} (hn : s.NotCommitted i)
    (hidle : s.Idle i)
    (hlist : ∃ row ∈ s.db.statusLists, row.id = allocation.listId ∧
      ∀ a : IndexAllocation, a.toNewIndexAllocation = allocation →
        P.fits row a ∧ P.mayAllocate i a) :
    P.Serves env i (SqlStorage.allocateIndex allocation)
      (Ends
        (fun a t => a.toNewIndexAllocation = allocation ∧ Stored P i s a t ∧ t.NotCommitted i ∧
          t.Idle i)
        (fun e t => P.Interference i s t ∧
          ((∃ message a, e = .storage .credentialAlreadyAllocated message ∧
              HeldFor env P s allocation.tenantId allocation.credentialId
                allocation.statusPurpose a) ∨
            ∃ message, e = .storage .indexTaken message))) s := by
  refine Serves.quiet .newDate rfl hn fun t allocatedAt ht _ _ => ?_
  obtain ⟨row, hrow, hid, hfits⟩ := hlist
  obtain ⟨row', hrow', hsame⟩ := ht.lists row hrow
  obtain ⟨hfit, hmay⟩ := hfits { allocation with allocatedAt := allocatedAt } rfl
  have hnt := ht.notCommitted hn
  refine Serves.insertAllocation hnt hmay
    ⟨row', hrow', hsame.binding.id.symm.trans hid, P.fits_congr hsame.binding hfit⟩
    (fun u hu hIu hadmits => ?_) fun u hu _ hrefused => ?_
  · refine Serves.ret fun v hv _ => ⟨rfl, ⟨?_, ?_, ?_⟩, ?_, ?_⟩
    · exact (ht.trans hu).toExtends.trans
        ((extends_effect hIu (.allocated hadmits)).trans hv.toExtends)
    · exact hv.allocations _ (List.mem_append_right _ (List.mem_singleton_self _))
    · exact hv.mem_log (List.mem_append_right _ (List.mem_singleton_self _))
    · exact hv.notCommitted (insertAllocation_notCommitted (hu.notCommitted hnt))
    · exact hv.idle (insertAllocation_idle (hu.idle (ht.idle hidle)))
  · have hsu : P.Interference i s u := ht.trans hu
    obtain ⟨row'', hrow'', hsame'⟩ := hsu.lists row hrow
    refine Serves.seq (classifyAllocationFailure_serves (hsu.notCommitted hn)
      (Database.not_admits ⟨row'', hrow'', hsame'.binding.id.symm.trans hid⟩ hrefused)) ?_
      fun e v _ h => h.elim
    rintro e v _ ⟨hv, hclass⟩
    refine Serves.fail fun x hx _ => ⟨hsu.trans (hv.trans hx), ?_⟩
    obtain ⟨message, a, he, ha⟩ | htaken := hclass
    · exact .inl ⟨message, a, he, ha.mono hsu.toExtends⟩
    · exact .inr htaken

/-- The probe loop, by induction on the attempts that are left. -/
theorem probe_serves {tenantId credentialId : String} {statusPurpose : StatusPurpose}
    {listId : String} {row : StatusListRecord} (hlength : 0 < row.characteristics.length)
    (hid : row.id = listId)
    (hfits : ∀ a, AllocationFor tenantId credentialId statusPurpose listId
      row.characteristics.length a → P.fits row a ∧ P.mayAllocate i a)
    (attempts : Nat) (hn : s.NotCommitted i) (hidle : s.Idle i)
    (hrow : ∃ row' ∈ s.db.statusLists, P.Same row row') :
    P.Serves env i
      (probe (fun statusListIndex =>
          { tenantId, credentialId, statusPurpose, listId, statusListIndex })
        listId row.characteristics.length attempts)
      (Ends
        (fun a t => AllocationFor tenantId credentialId statusPurpose listId
          row.characteristics.length a ∧ Stored P i s a t ∧ t.NotCommitted i ∧ t.Idle i)
        (fun e t => P.Interference i s t ∧
          AllocateRefused env P s tenantId credentialId statusPurpose listId e)) s := by
  induction attempts generalizing s with
  | zero => exact Serves.fail fun t ht _ => ⟨ht, .exhausted⟩
  | succ attempts ih =>
      -- A retry starts over in a later state, with the same row behind the list.
      have retry : ∀ t, P.Interference i s t →
          P.Serves env i
            (probe (fun statusListIndex =>
                { tenantId, credentialId, statusPurpose, listId, statusListIndex })
              listId row.characteristics.length attempts)
            (Ends
              (fun a t => AllocationFor tenantId credentialId statusPurpose listId
                row.characteristics.length a ∧ Stored P i s a t ∧ t.NotCommitted i ∧ t.Idle i)
              (fun e t => P.Interference i s t ∧
                AllocateRefused env P s tenantId credentialId statusPurpose listId e)) t := by
        intro t ht
        obtain ⟨row₁, hrow₁, hsame₁⟩ := hrow
        obtain ⟨row₂, hrow₂, hsame₂⟩ := ht.lists row₁ hrow₁
        refine (ih (ht.notCommitted hn) (ht.idle hidle)
          ⟨row₂, hrow₂, hsame₁.trans hsame₂⟩).imp ?_
        rintro (e | a) u _ h
        · exact ⟨ht.trans h.1, AllocateRefused.mono ht.toExtends h.2⟩
        · exact ⟨h.1, h.2.1.mono ht.toExtends (Interference.refl i u), h.2.2⟩
      refine Serves.quiet (.randomIndex row.characteristics.length) rfl hn
        fun t statusListIndex ht _ hindex => ?_
      obtain ⟨tick, rfl⟩ := hindex
      have hlt := env.randomIndex_lt tick hlength
      refine Serves.quiet (.isIndexAllocated listId _) rfl (ht.notCommitted hn)
        fun u taken hu _ _ => ?_
      have hsu := ht.trans hu
      cases taken with
      | true => exact retry u hsu
      | false =>
          obtain ⟨row₁, hrow₁, hsame₁⟩ := hrow
          obtain ⟨row₂, hrow₂, hsame₂⟩ := hsu.lists row₁ hrow₁
          have hsame := hsame₁.trans hsame₂
          have hallocation : ∀ a : IndexAllocation, a.toNewIndexAllocation =
              { tenantId, credentialId, statusPurpose, listId
                statusListIndex := env.randomIndex tick row.characteristics.length } →
              AllocationFor tenantId credentialId statusPurpose listId
                row.characteristics.length a := by
            rintro ⟨allocation, allocatedAt⟩ rfl
            exact ⟨rfl, rfl, rfl, rfl, hlt⟩
          refine Serves.seq
            (R := fun outcome t => outcome.elim (P.Interference i s t) fun a =>
              AllocationFor tenantId credentialId statusPurpose listId row.characteristics.length
                a ∧ Stored P i s a t ∧ t.NotCommitted i ∧ t.Idle i)
            (E := fun e t => P.Interference i s t ∧
              AllocateRefused env P s tenantId credentialId statusPurpose listId e)
            (Serves.tryCatch (Serves.seq
              (storageAllocateIndex_serves (hsu.notCommitted hn) (hsu.idle hidle)
                ⟨row₂, hrow₂, hsame.binding.id.symm.trans hid, fun a ha =>
                  (hfits a (hallocation a ha)).imp_left (P.fits_congr hsame.binding)⟩)
              ?_ fun e v _ h => h) (fun _ v _ h => h) ?_) ?_ fun e v _ h => h
          · rintro a v _ ⟨ha, hstored, hnv, hiv⟩
            exact Serves.ret fun x hx _ => ⟨hallocation a ha, hstored.mono hsu.toExtends hx,
              hx.notCommitted hnv, hx.idle hiv⟩
          · rintro e v _ ⟨hv, ⟨message, a, rfl, ha⟩ | ⟨message, rfl⟩⟩
            · exact Serves.fail fun x hx _ => ⟨hsu.trans (hv.trans hx),
                .alreadyAllocated (ha.mono hsu.toExtends) message⟩
            · exact Serves.ret fun x hx _ => hsu.trans (hv.trans hx)
          · rintro (_ | a) v _ h
            · exact retry v h
            · obtain ⟨ha, hstored, hnv, hiv⟩ := h
              exact Serves.ret fun x hx _ => ⟨ha, hstored.mono (Extends.refl s) hx,
                hx.notCommitted hnv, hx.idle hiv⟩

/-- `allocateIndex` under any policy that lets the request allocate in the tenant's list. -/
theorem allocateIndex_serves {tenantId credentialId : String} {statusPurpose : StatusPurpose}
    {listId : String} (hn : s.NotCommitted i) (hidle : s.Idle i)
    (hfits : ∀ row, CurrentRow P env s listId row → row.tenantId = tenantId →
      0 < row.characteristics.length ∧ ∀ a, AllocationFor tenantId credentialId statusPurpose
        listId row.characteristics.length a → P.fits row a ∧ P.mayAllocate i a) :
    P.Serves env i (allocateIndex tenantId credentialId statusPurpose listId)
      (Ends
        (fun a t => ∃ row, CurrentRow P env s listId row ∧ row.tenantId = tenantId ∧
          AllocationFor tenantId credentialId statusPurpose listId row.characteristics.length a ∧
          Stored P i s a t ∧ t.NotCommitted i ∧ t.Idle i)
        (fun e t => P.Interference i s t ∧
          AllocateRefused env P s tenantId credentialId statusPurpose listId e)) s := by
  refine Serves.quiet (.getStatusList listId) rfl hn fun t r ht hI hr => ?_
  have hr : r = t.db.getStatusList listId := hr
  subst hr
  cases hlist : (t.db.getStatusList listId).filter fun list => list.tenantId = tenantId with
  | none =>
      exact Serves.fail fun u hu _ => ⟨ht.trans hu,
        .listNotFound ht.toExtends (Database.ownList_eq_none hI.ids_nodup hlist)⟩
  | some list =>
      obtain ⟨hmem, hid, htenant⟩ := Database.ownList_eq_some hlist
      have hrow : CurrentRow P env s listId list := ⟨⟨t, ht.toExtends, hI, hmem⟩, hid⟩
      obtain ⟨hlength, hfit⟩ := hfits list hrow htenant
      refine (probe_serves hlength hid hfit allocationAttempts (ht.notCommitted hn)
        (ht.idle hidle) ⟨list, hmem, Same.refl list⟩).imp ?_
      rintro (e | a) u _ h
      · exact ⟨ht.trans h.1, AllocateRefused.mono ht.toExtends h.2⟩
      · exact ⟨list, hrow, htenant, h.1, h.2.1.mono ht.toExtends (Interference.refl i u), h.2.2⟩

theorem chosenList_serves {tenantId listId : String} {statusPurpose : StatusPurpose}
    (hn : s.NotCommitted i) :
    P.Serves env i (chosenList tenantId listId statusPurpose)
      (Ends
        (fun list t => P.Interference i s t ∧ Chosen P tenantId statusPurpose list t)
        (fun e t => P.Interference i s t ∧
          ChoiceRefused deps env P s tenantId statusPurpose (some listId) e)) s := by
  refine Serves.quiet (.getStatusList listId) rfl hn fun t r ht hI hr => ?_
  have hr : r = t.db.getStatusList listId := hr
  subst hr
  cases hlist : (t.db.getStatusList listId).filter fun list => list.tenantId = tenantId with
  | none =>
      exact Serves.fail fun u hu _ => ⟨ht.trans hu,
        .listNotFound ht.toExtends (Database.ownList_eq_none hI.ids_nodup hlist)⟩
  | some list =>
      obtain ⟨hmem, hid, htenant⟩ := Database.ownList_eq_some hlist
      by_cases hpurpose : list.statusPurpose = statusPurpose
      · simp only [hpurpose, ne_eq, not_true_eq_false, if_false]
        exact Serves.ret fun u hu _ => ⟨ht.trans hu, htenant, hpurpose, hu.lists list hmem⟩
      · simp only [ne_eq, hpurpose, not_false_eq_true, if_true]
        exact Serves.fail fun u hu _ => ⟨ht.trans hu,
          .purposeMismatch ⟨⟨t, ht.toExtends, hI, hmem⟩, hid⟩ htenant hpurpose⟩

theorem firstUnderThreshold_serves (candidates : List StatusListRecord)
    (hn : s.NotCommitted i) :
    P.Serves env i (firstUnderThreshold deps candidates)
      (Ends
        (fun found t => P.Interference i s t ∧ ∀ candidate, found = some candidate →
          candidate ∈ candidates)
        (fun _ _ => False)) s := by
  induction candidates generalizing s with
  | nil => exact Serves.ret fun t ht _ => ⟨ht, fun candidate h => by cases h⟩
  | cons candidate rest ih =>
      refine Serves.quiet (.countAllocations candidate.id) rfl hn fun t used ht _ _ => ?_
      by_cases hused : (used : ℚ) < deps.threshold candidate.characteristics.length
      · rw [if_pos hused]
        exact Serves.ret fun u hu _ => ⟨ht.trans hu, fun c h => by
          cases h
          exact List.mem_cons_self⟩
      · rw [if_neg hused]
        refine (ih (ht.notCommitted hn)).imp ?_
        rintro (e | found) u _ h
        · exact h
        · exact ⟨ht.trans h.1, fun c hc => List.mem_cons_of_mem _ (h.2 c hc)⟩

theorem defaultInstanceFor_serves {tenantId : String} (hn : s.NotCommitted i) :
    P.Serves env i (defaultInstanceFor tenantId)
      (Ends
        (fun issuerInstance t => P.Interference i s t ∧
          DefaultInstance env tenantId issuerInstance)
        (fun e t => P.Interference i s t ∧
          (env.tenants.getTenant tenantId).bind (resolveIssuerInstance ·) = none ∧
          ∃ message, e = .statusList .issuerInstanceUnavailable message)) s := by
  refine Serves.quiet (.getTenant tenantId) rfl hn fun t tenant ht _ htenant => ?_
  have hr : tenant = env.tenants.getTenant tenantId := htenant
  subst hr
  cases hfound : (env.tenants.getTenant tenantId).bind (resolveIssuerInstance ·) with
  | none => exact Serves.fail fun u hu _ => ⟨ht.trans hu, rfl, _, rfl⟩
  | some found => exact Serves.ret fun u hu _ => ⟨ht.trans hu, hfound⟩

/-- `#listForPurpose`: a stored list of the tenant and purpose, or one created for it. -/
theorem listForPurpose_serves {tenantId : String} {statusPurpose : StatusPurpose}
    (hn : s.NotCommitted i) (hidle : s.Idle i)
    (hnew : ∀ issuerInstance row, DefaultInstance env tenantId issuerInstance →
      Created deps env { tenantId, issuerInstance, statusPurpose } row →
      P.wf row ∧ P.mayCreate i row) :
    P.Serves env i (listForPurpose deps tenantId statusPurpose)
      (Ends
        (fun list t => Chosen P tenantId statusPurpose list t ∧ t.NotCommitted i ∧ t.Idle i)
        (fun e t => ChoiceRefused deps env P s tenantId statusPurpose none e ∧
          t.NotCommitted i ∧ t.Idle i)) s := by
  refine Serves.quiet (.findStatusLists tenantId (some statusPurpose) none) rfl hn
    fun t lists ht _ hlists => ?_
  have hr : lists = t.db.findStatusLists tenantId (some statusPurpose) none := hlists
  subst hr
  have hnt := ht.notCommitted hn
  refine Serves.seq (firstUnderThreshold_serves _ hnt) ?_ fun _ _ _ h => h.elim
  rintro found u _ ⟨hu, hfound⟩
  have hnu := hu.notCommitted hnt
  have hiu := hu.idle (ht.idle hidle)
  cases found with
  | some candidate =>
      obtain ⟨hmem, htenant, hpurpose, _⟩ :=
        Database.mem_findStatusLists.mp (List.mem_reverse.mp (hfound candidate rfl))
      exact Serves.ret fun v hv _ => ⟨⟨htenant, by simpa using hpurpose,
        (hu.trans hv).lists candidate hmem⟩, hv.notCommitted hnu, hv.idle hiu⟩
  | none =>
      refine Serves.seq (defaultInstanceFor_serves hnu) ?_ ?_
      · rintro issuerInstance v _ ⟨hv, hinstance⟩
        refine (createList_serves (hv.notCommitted hnu) (hv.idle hiu)
          fun row hrow => hnew issuerInstance row hinstance hrow).imp ?_
        rintro (e | list) x _ h
        · exact ⟨.create hinstance h.2, h.1.notCommitted (hv.notCommitted hnu),
            h.1.idle (hv.idle hiu)⟩
        · obtain ⟨hcreated, _, hmem, hnx, hix⟩ := h
          exact ⟨⟨hcreated.tenantId, hcreated.statusPurpose, hmem⟩, hnx, hix⟩
      · rintro e v _ ⟨hv, hnone, message, rfl⟩
        exact ⟨.noInstance hnone message, hv.notCommitted hnu, hv.idle hiu⟩

/-- `allocateForCredential` under any policy that allows the tenant's lists and allocations. -/
theorem allocateForCredential_serves {tenantId credentialId : String}
    {statusPurpose : StatusPurpose} {listId : Option String} (hn : s.NotCommitted i)
    (hidle : s.Idle i)
    (hnew : ∀ issuerInstance row, DefaultInstance env tenantId issuerInstance →
      Created deps env { tenantId, issuerInstance, statusPurpose } row →
      P.wf row ∧ P.mayCreate i row)
    (hfits : ∀ row, P.wf row → row.tenantId = tenantId → row.statusPurpose = statusPurpose →
      0 < row.characteristics.length ∧ ∀ a, AllocationFor tenantId credentialId statusPurpose
        row.id row.characteristics.length a → P.fits row a ∧ P.mayAllocate i a) :
    P.Serves env i (allocateForCredential deps tenantId credentialId statusPurpose listId)
      (Ends
        (fun r t => Chosen P tenantId statusPurpose r.2 t ∧
          AllocationFor tenantId credentialId statusPurpose r.2.id r.2.characteristics.length r.1 ∧
          r.1 ∈ t.db.indexAllocations ∧ Event.allocated i r.1 ∈ t.log ∧ t.NotCommitted i ∧
          t.Idle i)
        (fun e t => t.NotCommitted i ∧ t.Idle i ∧ ForCredentialRefused deps env P s tenantId
          credentialId statusPurpose listId e)) s := by
  have allocate : ∀ (list : StatusListRecord) (t : World), P.Inv env t →
      Chosen P tenantId statusPurpose list t → t.NotCommitted i → t.Idle i →
      P.Serves env i
        (do
          let allocation ← allocateIndex tenantId credentialId statusPurpose list.id
          pure (allocation, list))
        (Ends
          (fun r t => Chosen P tenantId statusPurpose r.2 t ∧
            AllocationFor tenantId credentialId statusPurpose r.2.id r.2.characteristics.length
              r.1 ∧ r.1 ∈ t.db.indexAllocations ∧ Event.allocated i r.1 ∈ t.log ∧
            t.NotCommitted i ∧ t.Idle i)
          (fun e t => t.NotCommitted i ∧ t.Idle i ∧ ForCredentialRefused deps env P s tenantId
            credentialId statusPurpose listId e)) t := by
    intro list t hI hlist hnt hit
    refine Serves.seq (allocateIndex_serves hnt hit fun row hrow htenant => ?_) ?_ ?_
    · have hsame := hlist.current hrow
      obtain ⟨hlength, hfit⟩ := hfits row hrow.wf htenant
        (hsame.binding.statusPurpose.symm.trans hlist.statusPurpose)
      rw [hrow.id] at hfit
      exact ⟨hlength, hfit⟩
    · rintro a u hIu ⟨row, hrow, htenant, ha, hstored, hnu, hiu⟩
      rw [← (hlist.current hrow).binding.characteristics] at ha
      obtain ⟨row₁, hrow₁, hsame₁⟩ := hlist.mem
      obtain ⟨row₂, hrow₂, hsame₂⟩ := hstored.later.lists row₁ hrow₁
      exact Serves.ret fun v hv _ =>
        ⟨⟨hlist.tenantId, hlist.statusPurpose, by
            obtain ⟨row₃, hrow₃, hsame₃⟩ := hv.lists row₂ hrow₂
            exact ⟨row₃, hrow₃, hsame₁.trans (hsame₂.trans hsame₃)⟩⟩,
          ha, hv.allocations a hstored.mem, hv.mem_log hstored.log, hv.notCommitted hnu,
          hv.idle hiu⟩
    · rintro e u _ ⟨hu, he⟩
      exact ⟨hu.notCommitted hnt, hu.idle hit, .allocate hlist he⟩
  cases listId with
  | none =>
      refine Serves.seq (listForPurpose_serves hn hidle hnew) ?_ fun e t _ h =>
        ⟨h.2.1, h.2.2, .choice h.1⟩
      rintro list t hI ⟨hlist, hnt, hit⟩
      exact allocate list t hI hlist hnt hit
  | some listId =>
      refine Serves.seq (chosenList_serves hn) ?_ fun e t _ h =>
        ⟨h.1.notCommitted hn, h.1.idle hidle, .choice h.2⟩
      rintro list t hI ⟨ht, hlist⟩
      exact allocate list t hI hlist (ht.notCommitted hn) (ht.idle hidle)

end StatusListManager

end VcalmStatus
