import VcalmStatus.Effects.TwoRuns
import VcalmStatus.Safety.OwnView
import VcalmStatus.StatusLists.Manager

/-!
The manager's operations for one tenant, run in two worlds that share what is the tenant's. Where
an operation asks for a list by an id that anyone could have sent, the two answers may differ; it
then goes on the same way, because it takes a list of somebody else for none.
-/

namespace VcalmStatus

open Js Effects Program

variable {tenantId : String} {i : Nat} {env₁ env₂ : Environment} {w₁ w₂ t₁ t₂ u₁ u₂ : World}
  {α β : Type}

/-- Two runs that have come from `w₁` and `w₂` to `t₁` and `t₂` without telling them apart, and
without making a list. -/
structure Still (tenantId : String) (i : Nat) (env₁ env₂ : Environment) (w₁ w₂ t₁ t₂ : World) :
    Prop extends SameView tenantId i env₁ env₂ t₁ t₂ where
  steady₁ : w₁.Steady t₁
  steady₂ : w₂.Steady t₂

namespace Still

theorem refl (h : SameView tenantId i env₁ env₂ w₁ w₂) : Still tenantId i env₁ env₂ w₁ w₂ w₁ w₂ :=
  ⟨h, .refl w₁, .refl w₂⟩

theorem trans (h : Still tenantId i env₁ env₂ w₁ w₂ t₁ t₂)
    (h' : Still tenantId i env₁ env₂ t₁ t₂ u₁ u₂) : Still tenantId i env₁ env₂ w₁ w₂ u₁ u₂ :=
  ⟨h'.toSameView, h.steady₁.trans h'.steady₁, h.steady₂.trans h'.steady₂⟩

end Still

/-- The rule of an operation that the tenant's own tables answer. -/
theorem SameView.await {Q : Except JsError β → World → World → Prop} {o : Operation}
    {f : o.Answer → Async β} (h : SameView tenantId i env₁ env₂ w₁ w₂)
    (ho : o.Within w₁.db tenantId)
    (hf : ∀ t₁ t₂, Still tenantId i env₁ env₂ w₁ w₂ t₁ t₂ →
      Alike (World.step env₁ i) (World.step env₂ i) Q (f (w₁.respond env₁ i o).1)
        (f (w₁.respond env₁ i o).1) t₁ t₂) :
    Alike (World.step env₁ i) (World.step env₂ i) Q (.call o f) (.call o f) w₁ w₂ := by
  refine Alike.call fun a₁ t₁ a₂ t₂ h₁ h₂ => ?_
  obtain ⟨_, hr₁⟩ := World.step_eq_some.mp h₁
  obtain ⟨_, hr₂⟩ := World.step_eq_some.mp h₂
  have hanswer := h.answer_eq ho
  have hafter := h.respond ho
  have hsteady₁ : w₁.Steady (w₁.respond env₁ i o).2 := (World.respond_steady h.owned₁ ho).2
  have hsteady₂ : w₂.Steady (w₂.respond env₂ i o).2 :=
    (World.respond_steady h.owned₂ (h.within ho)).2
  have hnext := hf t₁ t₂
  rw [hr₁] at hanswer hafter hsteady₁ hnext
  rw [hr₂] at hanswer hafter hsteady₂
  obtain rfl : a₁ = a₂ := hanswer
  exact hnext ⟨hafter, hsteady₁, hsteady₂⟩

/-- `p` does the same in both worlds and makes no list. -/
abbrev SameRun (tenantId : String) (i : Nat) (env₁ env₂ : Environment) (w₁ w₂ : World)
    (p : Async α) : Prop :=
  Alike (World.step env₁ i) (World.step env₂ i)
    (fun _ => Still tenantId i env₁ env₂ w₁ w₂) p p w₁ w₂

namespace SameRun

theorem await {o : Operation} (h : SameView tenantId i env₁ env₂ w₁ w₂)
    (ho : o.Within w₁.db tenantId) : SameRun tenantId i env₁ env₂ w₁ w₂ (await o) :=
  h.await ho fun _ _ h' => Alike.ret h'

theorem ret (h : SameView tenantId i env₁ env₂ w₁ w₂) (a : α) :
    SameRun tenantId i env₁ env₂ w₁ w₂ (.ret a) := Alike.ret (.refl h)

theorem fail (h : SameView tenantId i env₁ env₂ w₁ w₂) (e : JsError) :
    SameRun tenantId i env₁ env₂ w₁ w₂ (.fail e : Async α) := Alike.fail (.refl h)

theorem ofExcept (h : SameView tenantId i env₁ env₂ w₁ w₂) (x : Except JsError α) :
    SameRun tenantId i env₁ env₂ w₁ w₂ (Program.ofExcept x) := Alike.ofExcept (.refl h)

/-- Further steps count from the first world. -/
theorem after {p : Async α} (h : Still tenantId i env₁ env₂ w₁ w₂ t₁ t₂)
    (hp : SameRun tenantId i env₁ env₂ t₁ t₂ p) :
    Alike (World.step env₁ i) (World.step env₂ i)
      (fun _ => Still tenantId i env₁ env₂ w₁ w₂) p p t₁ t₂ :=
  hp.imp fun _ _ _ => h.trans

theorem bind {p : Async α} {f : α → Async β} (hp : SameRun tenantId i env₁ env₂ w₁ w₂ p)
    (hf : ∀ a t₁ t₂, Still tenantId i env₁ env₂ w₁ w₂ t₁ t₂ →
      SameRun tenantId i env₁ env₂ t₁ t₂ (f a)) :
    SameRun tenantId i env₁ env₂ w₁ w₂ (p >>= f) :=
  Alike.bind hp (fun a t₁ t₂ h => after h (hf a t₁ t₂ h)) fun _ _ _ h => h

theorem tryCatch {p : Async α} {f : JsError → Async α}
    (hp : SameRun tenantId i env₁ env₂ w₁ w₂ p)
    (hf : ∀ e t₁ t₂, Still tenantId i env₁ env₂ w₁ w₂ t₁ t₂ →
      SameRun tenantId i env₁ env₂ t₁ t₂ (f e)) :
    SameRun tenantId i env₁ env₂ w₁ w₂ (tryCatch p f) :=
  Alike.tryCatch hp (fun _ _ _ h => h) fun e t₁ t₂ h => after h (hf e t₁ t₂ h)

end SameRun

/-- Asked for a list by any id, a program that looks at the tenant's lists only goes on alike. -/
theorem SameView.getStatusList {Q : Except JsError β → World → World → Prop} {listId : String}
    {f : Option StatusListRecord → Async β} (h : SameView tenantId i env₁ env₂ w₁ w₂)
    (hignores : ∀ list, list.tenantId ≠ tenantId → f (some list) = f none)
    (hnone : Alike (World.step env₁ i) (World.step env₂ i) Q (f none) (f none) w₁ w₂)
    (hsome : ∀ list, (w₁.db.ofTenant tenantId).getStatusList listId = some list →
      Alike (World.step env₁ i) (World.step env₂ i) Q (f (some list)) (f (some list)) w₁ w₂) :
    Alike (World.step env₁ i) (World.step env₂ i) Q
      (SqlStorage.getStatusList listId >>= f) (SqlStorage.getStatusList listId >>= f) w₁ w₂ := by
  have hsame : ∀ w : World, w.db.Owned → f (w.db.getStatusList listId) =
      f ((w.db.ofTenant tenantId).getStatusList listId) := fun w hw => by
    rw [Database.getStatusList_ofTenant hw]
    cases hrow : w.db.getStatusList listId with
    | none => rfl
    | some row =>
        by_cases htenant : row.tenantId = tenantId
        · rw [Option.filter_some, if_pos (by simpa using htenant)]
        · rw [Option.filter_some, if_neg (by simpa using htenant), hignores row htenant]
  refine Alike.call fun a₁ t₁ a₂ t₂ h₁ h₂ => ?_
  obtain ⟨_, hr₁⟩ := World.step_eq_some.mp h₁
  obtain ⟨_, hr₂⟩ := World.step_eq_some.mp h₂
  cases hr₁
  cases hr₂
  show Alike _ _ Q (f (w₁.db.getStatusList listId)) (f (w₂.db.getStatusList listId)) w₁ w₂
  rw [hsame w₁ h.owned₁, hsame w₂ h.owned₂, ← h.view]
  cases hfound : (w₁.db.ofTenant tenantId).getStatusList listId with
  | none => exact hnone
  | some list => exact hsome list hfound

/-! ### The manager -/

namespace StatusListManager

variable {B : Type} {deps : ManagerDeps B}

theorem issuerDid_sameRun (h : SameView tenantId i env₁ env₂ w₁ w₂)
    (issuerInstance : IssuerInstance) :
    SameRun tenantId i env₁ env₂ w₁ w₂ (issuerDid issuerInstance) :=
  SameRun.bind (.await h trivial) fun did _ _ h' => .ofExcept h'.toSameView did

theorem sign_sameRun (h : SameView tenantId i env₁ env₂ w₁ w₂) (issuerInstance : IssuerInstance)
    (unsigned : UnsignedCredential) :
    SameRun tenantId i env₁ env₂ w₁ w₂ (sign issuerInstance unsigned) :=
  SameRun.bind (.await h trivial) fun signed _ _ h' => .ofExcept h'.toSameView signed

theorem materialize_sameRun (h : SameView tenantId i env₁ env₂ w₁ w₂) (url : String)
    (issuerInstance : IssuerInstance) (statusPurpose : StatusPurpose) (list : B)
    (ttl : Option Nat) :
    SameRun tenantId i env₁ env₂ w₁ w₂
      (materialize deps url issuerInstance statusPurpose list ttl) := by
  refine SameRun.bind (issuerDid_sameRun h issuerInstance) fun issuer _ _ h₁ => ?_
  refine SameRun.bind (.await h₁.toSameView trivial) fun validFrom _ _ h₂ => ?_
  refine SameRun.bind (sign_sameRun h₂.toSameView issuerInstance _) fun signed _ _ h₃ => ?_
  exact .ret h₃.toSameView _

theorem instanceFor_sameRun (h : SameView tenantId i env₁ env₂ w₁ w₂) (list : StatusListRecord) :
    SameRun tenantId i env₁ env₂ w₁ w₂ (instanceFor list) := by
  refine SameRun.bind (.await h trivial) fun tenant _ _ h₁ => ?_
  split
  · exact .ret h₁.toSameView _
  · exact .fail h₁.toSameView _

theorem defaultInstanceFor_sameRun (h : SameView tenantId i env₁ env₂ w₁ w₂) (ownerId : String) :
    SameRun tenantId i env₁ env₂ w₁ w₂ (defaultInstanceFor ownerId) := by
  refine SameRun.bind (.await h trivial) fun tenant _ _ h₁ => ?_
  split
  · exact .ret h₁.toSameView _
  · exact .fail h₁.toSameView _

theorem applyStatus_sameRun (h : SameView tenantId i env₁ env₂ w₁ w₂) (current : StatusListRecord)
    (issuerInstance : IssuerInstance) (statusListIndex : Number) (status : Bool) :
    SameRun tenantId i env₁ env₂ w₁ w₂
      (applyStatus deps current issuerInstance statusListIndex status) := by
  unfold applyStatus
  split
  · exact .fail h _
  · refine SameRun.bind (.ofExcept h _) fun list _ _ h₁ => ?_
    refine SameRun.bind (.ofExcept h₁.toSameView _) fun held _ _ h₂ => ?_
    split
    · exact .ret h₂.toSameView _
    · refine SameRun.bind (.ofExcept h₂.toSameView _) fun list _ _ h₃ => ?_
      refine SameRun.bind (materialize_sameRun h₃.toSameView _ _ _ _ _) fun _ _ _ h₄ => ?_
      refine SameRun.bind (.await h₄.toSameView trivial) fun _ _ _ h₅ => ?_
      exact .ret h₅.toSameView _

/-- The write of a list that is the tenant's: lock, change, commit. -/
theorem updateStatusList_sameRun {T : Type} (h : SameView tenantId i env₁ env₂ w₁ w₂)
    {id : String} (hid : w₁.db.HasList tenantId id)
    {mutate : StatusListRecord → Async (StatusListMutationResult T)}
    (hmutate : ∀ current t₁ t₂, SameView tenantId i env₁ env₂ t₁ t₂ →
      SameRun tenantId i env₁ env₂ t₁ t₂ (mutate current)) :
    SameRun tenantId i env₁ env₂ w₁ w₂ (SqlStorage.updateStatusList id mutate) := by
  refine SameRun.bind (.await h trivial) fun _ _ _ h₁ => ?_
  refine SameRun.tryCatch ?_ fun error _ _ h₂ => ?_
  · refine SameRun.bind ?_ fun result _ _ h₂ => ?_
    · refine SameRun.bind (.await h₁.toSameView (h₁.steady₁.hasList hid)) fun row _ _ h₂ => ?_
      split
      · exact .fail h₂.toSameView _
      · refine SameRun.bind (hmutate _ _ _ h₂.toSameView) fun outcome _ _ h₃ => ?_
        split
        · refine SameRun.bind (.await h₃.toSameView trivial) fun updatedAt _ _ h₄ => ?_
          refine SameRun.bind (.await h₄.toSameView trivial) fun _ _ _ h₅ => ?_
          exact .ret h₅.toSameView _
        · exact .ret h₃.toSameView _
    · refine SameRun.bind (.await h₂.toSameView trivial) fun _ _ _ h₃ => ?_
      exact .ret h₃.toSameView _
  · refine SameRun.bind (.await h₂.toSameView trivial) fun _ _ _ h₃ => ?_
    exact .fail h₃.toSameView _

theorem setStatus_sameRun (h : SameView tenantId i env₁ env₂ w₁ w₂) {listId : String}
    (hid : w₁.db.HasList tenantId listId) (statusListIndex : Number) (status : Bool) :
    SameRun tenantId i env₁ env₂ w₁ w₂ (setStatus deps listId statusListIndex status) := by
  refine SameRun.bind (.await h hid) fun list _ _ h₁ => ?_
  split
  · exact .fail h₁.toSameView _
  · refine SameRun.bind (instanceFor_sameRun h₁.toSameView _) fun issuerInstance _ _ h₂ => ?_
    exact updateStatusList_sameRun h₂.toSameView (h₂.steady₁.hasList (h₁.steady₁.hasList hid))
      fun current _ _ h₃ => applyStatus_sameRun h₃ current issuerInstance statusListIndex status

/-- What an allocation of the tenant points at is a list of the tenant. -/
theorem hasList_of_getAllocation (h : w₁.db.Owned) {credentialId : String}
    {statusPurpose : StatusPurpose} {a : IndexAllocation}
    (ha : w₁.db.getAllocation tenantId credentialId statusPurpose = some a) :
    w₁.db.HasList tenantId a.listId := by
  obtain ⟨hmem, htenant, _⟩ := Database.mem_of_getAllocation ha
  obtain ⟨row, hrow, hid, howner⟩ := h.allocations a hmem
  refine ⟨row, ?_⟩
  rw [Database.getStatusList_ofTenant h, ← hid, Database.getStatusList_of_mem h.ids_nodup hrow]
  simp [howner.trans htenant]

theorem setCredentialStatus_sameRun (h : SameView tenantId i env₁ env₂ w₁ w₂)
    (credentialId : String) (statusPurpose : StatusPurpose) (status : Bool) :
    SameRun tenantId i env₁ env₂ w₁ w₂
      (setCredentialStatus deps tenantId credentialId statusPurpose status) := by
  refine h.await rfl fun t₁ t₂ h₁ => ?_
  have hanswer : (w₁.respond env₁ i (.getAllocation tenantId credentialId statusPurpose)).1 =
      w₁.db.getAllocation tenantId credentialId statusPurpose := rfl
  rw [hanswer]
  cases hfound : w₁.db.getAllocation tenantId credentialId statusPurpose with
  | none => exact SameRun.after h₁ (.fail h₁.toSameView _)
  | some a =>
      have hid := h₁.steady₁.hasList (hasList_of_getAllocation h.owned₁ hfound)
      exact SameRun.after h₁ (setStatus_sameRun h₁.toSameView hid _ status)

/-! ### Allocation -/

theorem classifyAllocationFailure_sameRun (h : SameView tenantId i env₁ env₂ w₁ w₂)
    {allocation : NewIndexAllocation} (htenant : allocation.tenantId = tenantId)
    (hid : w₁.db.HasList tenantId allocation.listId) (cause : JsError) :
    SameRun tenantId i env₁ env₂ w₁ w₂
      (SqlStorage.classifyAllocationFailure allocation cause) := by
  refine SameRun.bind (.await h htenant) fun existing _ _ h₁ => ?_
  have hid₁ := h₁.steady₁.hasList hid
  split
  · exact .ret h₁.toSameView _
  · refine SameRun.bind (.await h₁.toSameView hid₁) fun taken _ _ h₂ => ?_
    have hid₂ := h₂.steady₁.hasList hid₁
    split
    · exact .ret h₂.toSameView _
    · refine SameRun.bind (.await h₂.toSameView hid₂) fun list _ _ h₃ => ?_
      split <;> exact .ret h₃.toSameView _

theorem storageAllocateIndex_sameRun (h : SameView tenantId i env₁ env₂ w₁ w₂)
    {allocation : NewIndexAllocation} (htenant : allocation.tenantId = tenantId)
    (hid : w₁.db.HasList tenantId allocation.listId) :
    SameRun tenantId i env₁ env₂ w₁ w₂ (SqlStorage.allocateIndex allocation) := by
  refine SameRun.bind (.await h trivial) fun allocatedAt _ _ h₁ => ?_
  have hid₁ := h₁.steady₁.hasList hid
  refine SameRun.bind (.await h₁.toSameView ⟨htenant, hid₁⟩) fun inserted _ _ h₂ => ?_
  split
  · exact .ret h₂.toSameView _
  · refine SameRun.bind (classifyAllocationFailure_sameRun h₂.toSameView htenant
      (h₂.steady₁.hasList hid₁) _) fun error _ _ h₃ => ?_
    exact .fail h₃.toSameView _

/-- By induction on the attempts that are left. -/
theorem probe_sameRun {allocationAt : Nat → NewIndexAllocation} {listId : String} {length : Nat}
    (hat : ∀ n, (allocationAt n).tenantId = tenantId ∧ (allocationAt n).listId = listId)
    (attempts : Nat) (h : SameView tenantId i env₁ env₂ w₁ w₂)
    (hid : w₁.db.HasList tenantId listId) :
    SameRun tenantId i env₁ env₂ w₁ w₂ (probe allocationAt listId length attempts) := by
  induction attempts generalizing w₁ w₂ with
  | zero => exact .fail h _
  | succ attempts ih =>
      refine SameRun.bind (.await h trivial) fun statusListIndex t₁ t₂ h₁ => ?_
      have hid₁ := h₁.steady₁.hasList hid
      refine SameRun.bind (.await h₁.toSameView hid₁) fun taken _ _ h₂ => ?_
      have hid₂ := h₂.steady₁.hasList hid₁
      split
      · exact ih h₂.toSameView hid₂
      · refine SameRun.bind (SameRun.tryCatch (SameRun.bind (storageAllocateIndex_sameRun
          h₂.toSameView (hat _).1 ((hat _).2 ▸ hid₂)) fun _ _ _ h₃ => .ret h₃.toSameView _)
          fun error _ _ h₃ => ?_) fun outcome _ _ h₃ => ?_
        · split
          · exact .ret h₃.toSameView _
          · exact .fail h₃.toSameView _
        · split
          · exact .ret h₃.toSameView _
          · exact ih h₃.toSameView (h₃.steady₁.hasList hid₂)

theorem hasList_of_eq {listId : String} {list : StatusListRecord}
    (hlist : (w₁.db.ofTenant tenantId).getStatusList listId = some list) :
    list.id = listId ∧ list.tenantId = tenantId ∧ w₁.db.HasList tenantId list.id := by
  obtain ⟨hmem, rfl⟩ := Database.mem_of_getStatusList hlist
  exact ⟨rfl, (Database.mem_ofTenant_statusLists.mp hmem).2, list, hlist⟩

theorem filter_own {list : StatusListRecord} (htenant : list.tenantId = tenantId) :
    (some list).filter (fun list => list.tenantId = tenantId) = some list := by
  rw [Option.filter_some, if_pos (by simpa using htenant)]

theorem filter_foreign {list : StatusListRecord} (hne : list.tenantId ≠ tenantId) :
    (some list).filter (fun list => list.tenantId = tenantId) = none := by
  rw [Option.filter_some, if_neg (by simpa using hne)]

/-- Whatever id the list is asked for by, there is one only when it is the tenant's. -/
theorem allocateIndex_sameRun (h : SameView tenantId i env₁ env₂ w₁ w₂) (credentialId : String)
    (statusPurpose : StatusPurpose) (listId : String) :
    SameRun tenantId i env₁ env₂ w₁ w₂
      (allocateIndex tenantId credentialId statusPurpose listId) := by
  refine h.getStatusList (fun list hne => ?_) (.fail (.refl h)) fun list hlist => ?_
  · simp only [filter_foreign hne]
    rfl
  · obtain ⟨rfl, htenant, hid⟩ := hasList_of_eq hlist
    simp only [filter_own htenant]
    refine probe_sameRun (fun n => ?_) allocationAttempts h hid
    exact ⟨rfl, rfl⟩

/-- Where the choice of a list ends: at a list of the tenant. -/
def ChoosesOwn (tenantId : String) (i : Nat) (env₁ env₂ : Environment)
    (r : Except JsError StatusListRecord) (t₁ t₂ : World) : Prop :=
  SameView tenantId i env₁ env₂ t₁ t₂ ∧
    ∀ list, r = .ok list → t₁.db.HasList tenantId list.id

theorem chosenList_alike (h : SameView tenantId i env₁ env₂ w₁ w₂) (listId : String)
    (statusPurpose : StatusPurpose) :
    Alike (World.step env₁ i) (World.step env₂ i) (ChoosesOwn tenantId i env₁ env₂)
      (chosenList tenantId listId statusPurpose) (chosenList tenantId listId statusPurpose)
      w₁ w₂ := by
  refine h.getStatusList (fun list hne => ?_) (.fail ⟨h, nofun⟩) fun list hlist => ?_
  · simp only [filter_foreign hne]
    rfl
  · obtain ⟨rfl, htenant, hid⟩ := hasList_of_eq hlist
    simp only [filter_own htenant]
    split
    · exact .fail ⟨h, nofun⟩
    · exact .ret ⟨h, by rintro _ ⟨⟩; exact hid⟩

/-- By induction on the candidates; the one it takes is one of them. -/
theorem firstUnderThreshold_alike (h : SameView tenantId i env₁ env₂ w₁ w₂)
    {lists : List StatusListRecord} (hids : ∀ list ∈ lists, w₁.db.HasList tenantId list.id) :
    Alike (World.step env₁ i) (World.step env₂ i)
      (fun r t₁ t₂ => Still tenantId i env₁ env₂ w₁ w₂ t₁ t₂ ∧
        ∀ candidate, r = .ok (some candidate) → t₁.db.HasList tenantId candidate.id)
      (firstUnderThreshold deps lists) (firstUnderThreshold deps lists) w₁ w₂ := by
  induction lists generalizing w₁ w₂ with
  | nil => exact .ret ⟨.refl h, nofun⟩
  | cons candidate rest ih =>
      refine h.await (hids candidate (by simp)) fun t₁ t₂ h₁ => ?_
      have hids₁ : ∀ list ∈ candidate :: rest, t₁.db.HasList tenantId list.id :=
        fun list hlist => h₁.steady₁.hasList (hids list hlist)
      show Alike _ _ _ (ite _ _ _) (ite _ _ _) t₁ t₂
      split
      · refine .ret ⟨h₁, ?_⟩
        rintro _ ⟨⟩
        exact hids₁ candidate (by simp)
      · refine (ih h₁.toSameView fun list hlist =>
          hids₁ list (List.mem_cons_of_mem _ hlist)).imp ?_
        rintro r u₁ u₂ ⟨h₂, hcandidate⟩
        exact ⟨h₁.trans h₂, hcandidate⟩

/-- The insert of a list of the tenant, under an id that is new to both worlds. -/
theorem insertStatusList_alike {Q : Except JsError β → World → World → Prop}
    {row : StatusListRecord} {f : Bool → Async β} (h : SameView tenantId i env₁ env₂ w₁ w₂)
    (htenant : row.tenantId = tenantId) (h₁ : w₁.db.getStatusList row.id = none)
    (h₂ : w₂.db.getStatusList row.id = none)
    (hf : ∀ t₁ t₂, SameView tenantId i env₁ env₂ t₁ t₂ → t₁.db.HasList tenantId row.id →
      Alike (World.step env₁ i) (World.step env₂ i) Q (f true) (f true) t₁ t₂) :
    Alike (World.step env₁ i) (World.step env₂ i) Q (.call (.insertStatusList row) f)
      (.call (.insertStatusList row) f) w₁ w₂ := by
  have hrespond : ∀ (env : Environment) (w : World), w.db.getStatusList row.id = none →
      w.respond env i (.insertStatusList row) = (true, w.insertStatusList i row) :=
    fun env w hw => by simp [World.respond, hw]
  refine Alike.call fun a₁ t₁ a₂ t₂ hs₁ hs₂ => ?_
  obtain ⟨_, hr₁⟩ := World.step_eq_some.mp hs₁
  obtain ⟨_, hr₂⟩ := World.step_eq_some.mp hs₂
  rw [hrespond env₁ w₁ h₁] at hr₁
  rw [hrespond env₂ w₂ h₂] at hr₂
  cases hr₁
  cases hr₂
  have hafter := h.insertStatusList htenant h₁ h₂
  refine hf _ _ hafter ⟨row, ?_⟩
  have hmem : row ∈ (w₁.insertStatusList i row).db.statusLists :=
    List.mem_append_right _ (List.mem_singleton_self row)
  rw [Database.getStatusList_ofTenant hafter.owned₁,
    Database.getStatusList_of_mem hafter.owned₁.ids_nodup hmem, filter_own htenant]

/-- A list for a purpose, under an id that the service makes up. -/
theorem createList_alike (h : SameView tenantId i env₁ env₂ w₁ w₂) (hf₁ : w₁.Fresh env₁)
    (hf₂ : w₂.Fresh env₂) (issuerInstance : IssuerInstance) (statusPurpose : StatusPurpose) :
    Alike (World.step env₁ i) (World.step env₂ i) (ChoosesOwn tenantId i env₁ env₂)
      (createList deps { tenantId, issuerInstance, statusPurpose })
      (createList deps { tenantId, issuerInstance, statusPurpose }) w₁ w₂ := by
  have refused : ∀ {e : JsError} {v₁ v₂ t₁ t₂ : World},
      Still tenantId i env₁ env₂ v₁ v₂ t₁ t₂ → ChoosesOwn tenantId i env₁ env₂ (.error e) t₁ t₂ :=
    fun h => ⟨h.toSameView, nofun⟩
  refine Alike.bind (SameRun.ofExcept h _) ?_ fun _ _ _ h => refused h
  intro c t₁ t₂ h₁
  -- The id is new to both worlds, and stays so until the list goes in.
  have hid₁ : t₁.db.getStatusList (env₁.generateId t₁.tick) = none := h₁.steady₁.fresh hf₁ 0
  have hid₂ : t₂.db.getStatusList (env₁.generateId t₁.tick) = none := by
    have hsame : env₁.generateId t₁.tick = env₂.generateId t₂.tick := h₁.outside.generateId 0
    rw [hsame]
    exact h₁.steady₂.fresh hf₂ 0
  refine h₁.toSameView.await trivial fun _ _ h₂ => ?_
  show Alike _ _ _ (Program.ofExcept (deps.lib.createList _) >>= _)
    (Program.ofExcept (deps.lib.createList _) >>= _) _ _
  refine Alike.bind (SameRun.ofExcept h₂.toSameView _) ?_ fun _ _ _ h => refused h
  intro list _ _ h₃
  refine Alike.bind (materialize_sameRun h₃.toSameView _ _ _ _ _) ?_ fun _ _ _ h => refused h
  intro m _ _ h₄
  refine h₄.toSameView.await trivial fun v₁ v₂ h₅ => ?_
  have hsteady := (h₂.trans (h₃.trans (h₄.trans h₅)))
  refine insertStatusList_alike h₅.toSameView rfl (hsteady.steady₁.getStatusList_eq_none hid₁)
    (hsteady.steady₂.getStatusList_eq_none hid₂) fun u₁ u₂ h₆ hlist => ?_
  exact .ret ⟨h₆, by rintro _ ⟨⟩; exact hlist⟩

theorem listForPurpose_alike (h : SameView tenantId i env₁ env₂ w₁ w₂) (hf₁ : w₁.Fresh env₁)
    (hf₂ : w₂.Fresh env₂) (statusPurpose : StatusPurpose) :
    Alike (World.step env₁ i) (World.step env₂ i) (ChoosesOwn tenantId i env₁ env₂)
      (listForPurpose deps tenantId statusPurpose) (listForPurpose deps tenantId statusPurpose)
      w₁ w₂ := by
  refine h.await rfl fun t₁ t₂ h₁ => ?_
  have hids : ∀ list ∈ (w₁.db.findStatusLists tenantId (some statusPurpose) none).reverse,
      t₁.db.HasList tenantId list.id := by
    intro list hlist
    obtain ⟨hmem, htenant, _⟩ := Database.mem_findStatusLists.mp (List.mem_reverse.mp hlist)
    refine h₁.steady₁.hasList ⟨list, ?_⟩
    rw [Database.getStatusList_ofTenant h.owned₁,
      Database.getStatusList_of_mem h.owned₁.ids_nodup hmem, filter_own htenant]
  show Alike _ _ _ (firstUnderThreshold deps _ >>= _) (firstUnderThreshold deps _ >>= _) t₁ t₂
  refine Alike.bind (firstUnderThreshold_alike h₁.toSameView hids) ?_
    fun e _ _ h => ⟨h.1.toSameView, nofun⟩
  rintro candidate u₁ u₂ ⟨h₂, hcandidate⟩
  cases candidate with
  | some candidate =>
      refine .ret ⟨h₂.toSameView, ?_⟩
      rintro _ ⟨⟩
      exact hcandidate candidate rfl
  | none =>
      refine Alike.bind (defaultInstanceFor_sameRun h₂.toSameView tenantId)
        (fun issuerInstance _ _ h₃ => ?_) fun _ _ _ h => ⟨h.toSameView, nofun⟩
      have hstill := h₁.trans (h₂.trans h₃)
      exact createList_alike h₃.toSameView (hstill.steady₁.fresh hf₁) (hstill.steady₂.fresh hf₂)
        issuerInstance statusPurpose

/-- `allocateForCredential` for the tenant, whoever's list the caller names. -/
theorem allocateForCredential_alike (h : SameView tenantId i env₁ env₂ w₁ w₂)
    (hf₁ : w₁.Fresh env₁) (hf₂ : w₂.Fresh env₂) (credentialId : String)
    (statusPurpose : StatusPurpose) (listId : Option String) :
    Alike (World.step env₁ i) (World.step env₂ i)
      (fun _ => SameView tenantId i env₁ env₂)
      (allocateForCredential deps tenantId credentialId statusPurpose listId)
      (allocateForCredential deps tenantId credentialId statusPurpose listId) w₁ w₂ := by
  have hallocate : ∀ (list : StatusListRecord) t₁ t₂, SameView tenantId i env₁ env₂ t₁ t₂ →
      Alike (World.step env₁ i) (World.step env₂ i) (fun _ => SameView tenantId i env₁ env₂)
        (allocateIndex tenantId credentialId statusPurpose list.id >>= fun a =>
          .ret (a, list))
        (allocateIndex tenantId credentialId statusPurpose list.id >>= fun a =>
          .ret (a, list)) t₁ t₂ := fun list t₁ t₂ h₁ =>
    Alike.bind (allocateIndex_sameRun h₁ credentialId statusPurpose list.id)
      (fun a _ _ h₂ => .ret h₂.toSameView) fun _ _ _ h₂ => h₂.toSameView
  cases listId with
  | none =>
      refine Alike.bind (listForPurpose_alike h hf₁ hf₂ statusPurpose) ?_ fun _ _ _ h₁ => h₁.1
      exact fun list t₁ t₂ h₁ => hallocate list t₁ t₂ h₁.1
  | some listId =>
      refine Alike.bind (chosenList_alike h listId statusPurpose) ?_ fun _ _ _ h₁ => h₁.1
      exact fun list t₁ t₂ h₁ => hallocate list t₁ t₂ h₁.1

end StatusListManager

end VcalmStatus
