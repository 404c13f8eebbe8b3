import VcalmStatus.StatusLists.Calls
import VcalmStatus.StatusLists.Probing

/-!
What a call has seen before it goes on with a list, for every manager call: which lists it inserts
allocations into, and for a call without a chosen list why this list and no other.
-/

namespace VcalmStatus

open Js Effects

/-- Nothing of what was seen is an allocation that went in. -/
def Unallocated (l : List Seen) : Prop :=
  ∀ a, (⟨.insertAllocation a, true⟩ : Seen) ∉ l

theorem Unallocated.kept {X : Seen → Prop} (hX : ∀ x, X x → ∀ a, x ≠ ⟨.insertAllocation a, true⟩) :
    Kept X Unallocated := by
  intro l x hx h a hmem
  rcases List.mem_append.mp hmem with hmem | hmem
  · exact h a hmem
  · exact hX x hx a (List.mem_singleton.mp hmem).symm

theorem Unallocated.of_append {l l' : List Seen} (h : Unallocated (l ++ l')) : Unallocated l :=
  fun a ha => h a (List.mem_append_left _ ha)

/-- The list a moment put into the table. -/
def insertedList? : Seen → Option StatusListRecord
  | ⟨.insertStatusList row, true⟩ => some row
  | _ => none

/-- The lists that went in, in order. -/
def newLists (l : List Seen) : List StatusListRecord := l.filterMap insertedList?

theorem insertedList?_eq_some {x : Seen} {row : StatusListRecord} :
    insertedList? x = some row ↔ x = ⟨.insertStatusList row, true⟩ := by
  constructor
  · unfold insertedList?
    split
    · rintro ⟨⟩
      rfl
    · simp
  · rintro rfl
    rfl

theorem newLists_kept {X : Seen → Prop} (hX : ∀ x, X x → ∀ row, x ≠ ⟨.insertStatusList row, true⟩)
    (lists : List StatusListRecord) : Kept X fun l => newLists l = lists := by
  intro l x hx h
  have hnone : insertedList? x = none := Option.eq_none_iff_forall_ne_some.mpr fun row hrow =>
    hX x hx row (insertedList?_eq_some.mp hrow)
  rw [newLists, List.filterMap_append, List.filterMap_cons_none hnone, List.filterMap_nil,
    List.append_nil]
  exact h

namespace StatusListManager

variable {B : Type} (deps : ManagerDeps B)

/-- The list was at or above the threshold when it was counted. -/
def CountedFull (l : List Seen) (list : StatusListRecord) : Prop :=
  ∃ used : Nat, (⟨.countAllocations list.id, used⟩ : Seen) ∈ l ∧
    deps.threshold list.characteristics.length ≤ (used : ℚ)

/-- Why a call goes on with a list: it was counted under the threshold and every newer one was
not, or the call made it itself after it counted all lists full. -/
inductive Selected (tenantId : String) (statusPurpose : StatusPurpose) (l : List Seen) :
    StatusListRecord → Prop
  | chosen {older newer : List StatusListRecord} {list : StatusListRecord} {used : Nat}
      (hseen : (⟨.findStatusLists tenantId (some statusPurpose) none,
        older ++ list :: newer⟩ : Seen) ∈ l)
      (hcount : (⟨.countAllocations list.id, used⟩ : Seen) ∈ l)
      (hunder : (used : ℚ) < deps.threshold list.characteristics.length)
      (hnewer : ∀ other ∈ newer, CountedFull deps l other) :
      Selected tenantId statusPurpose l list
  | minted {lists : List StatusListRecord} {list : StatusListRecord}
      (hseen : (⟨.findStatusLists tenantId (some statusPurpose) none, lists⟩ : Seen) ∈ l)
      (hfull : ∀ other ∈ lists, CountedFull deps l other)
      (hinserted : (⟨.insertStatusList list, true⟩ : Seen) ∈ l)
      (htenant : list.tenantId = tenantId) (hpurpose : list.statusPurpose = statusPurpose) :
      Selected tenantId statusPurpose l list

variable {deps} {G : List Seen → Operation → Prop} {H : List Seen → Prop} {l l' : List Seen}

theorem CountedFull.mono {list : StatusListRecord} (h : CountedFull deps l list) (hl : l ⊆ l') :
    CountedFull deps l' list := by
  obtain ⟨used, hmem, hused⟩ := h
  exact ⟨used, hl hmem, hused⟩

theorem Selected.mono {tenantId : String} {statusPurpose : StatusPurpose} {list : StatusListRecord}
    (h : Selected deps tenantId statusPurpose l list) (hl : l ⊆ l') :
    Selected deps tenantId statusPurpose l' list := by
  cases h with
  | chosen hseen hcount hunder hnewer =>
      exact .chosen (hl hseen) (hl hcount) hunder fun other ho => (hnewer other ho).mono hl
  | minted hseen hfull hinserted htenant hpurpose =>
      exact .minted (hl hseen) (fun other ho => (hfull other ho).mono hl) (hl hinserted) htenant
        hpurpose

/-! ### Creating a list -/

/-- The operations of a creation. -/
inductive Creates (input : CreateStatusListInput) : Operation → Prop
  | outside {o : Operation} (ho : o.usesDatabase = false) : Creates input o
  | insertStatusList {row : StatusListRecord} (htenant : row.tenantId = input.tenantId)
      (hpurpose : row.statusPurpose = input.statusPurpose) :
      Creates input (.insertStatusList row)
  | getStatusList (id : String) : Creates input (.getStatusList id)

/-- What a creation sees as long as its list has not gone in. -/
def Creating (input : CreateStatusListInput) (x : Seen) : Prop :=
  Creates input x.1 ∧ ∀ row, x ≠ ⟨.insertStatusList row, true⟩

theorem creating_of_outside {input : CreateStatusListInput} {x : Seen}
    (hx : x.1.usesDatabase = false) : Creating input x :=
  ⟨.outside hx, fun row hrow => by rw [hrow] at hx; cases hx⟩

theorem materialize_watched (hH : Kept (fun x => x.1.usesDatabase = false) H)
    (hG : ∀ l o, H l → o.usesDatabase = false → G l o) {url : String}
    {issuerInstance : IssuerInstance} {statusPurpose : StatusPurpose} {list : B}
    {ttl : Option Nat} (h : H l) :
    Watched G (fun l' _ => H l') (fun l' _ => H l')
      (materialize deps url issuerInstance statusPurpose list ttl) l := by
  refine Watched.bind (R := fun l' _ => H l') (E := fun l' _ => H l') ?_ ?_ fun _ _ h => h
  · refine Watched.perform (hG _ _ h rfl) fun did => ?_
    have h₁ := hH _ ⟨.issuerDid issuerInstance, did⟩ rfl h
    cases did <;> exact h₁
  · intro l₁ did h₁
    refine Watched.perform (hG _ _ h₁ rfl) fun validFrom => ?_
    have h₂ := hH _ ⟨.now, validFrom⟩ rfl h₁
    refine Watched.bind (R := fun l' _ => H l') (E := fun l' _ => H l') ?_ (fun _ _ h => h)
      fun _ _ h => h
    refine Watched.perform (hG _ _ h₂ rfl) fun signed => ?_
    have h₃ := hH _ ⟨.sign issuerInstance _, signed⟩ rfl h₂
    cases signed <;> exact h₃

/-- Everything a creation sees before its list goes in keeps `H`; what it returns went in last. -/
theorem createList_watched {input : CreateStatusListInput}
    (hH : Kept (Creating input) H)
    (hG : ∀ l o, H l → Creates input o → G l o) (h : H l) :
    Watched G
      (fun l' row => ∃ l₁, l' = l₁ ++ [⟨.insertStatusList row, true⟩] ∧ H l₁ ∧
        row.tenantId = input.tenantId ∧ row.statusPurpose = input.statusPurpose)
      (fun l' _ => H l') (createList deps input) l := by
  have outside := hH.imp fun _ => creating_of_outside
  rw [createList_eq]
  refine Watched.ofExcept (fun c _ => ?_) fun _ _ => h
  have rest : ∀ (id : String) (l : List Seen), H l →
      Watched G
        (fun l' row => ∃ l₁, l' = l₁ ++ [⟨.insertStatusList row, true⟩] ∧ H l₁ ∧
          row.tenantId = input.tenantId ∧ row.statusPurpose = input.statusPurpose)
        (fun l' _ => H l')
        (createNamed deps input c id) l := by
    intro id l₁ h₁
    refine Watched.ofExcept (fun list _ => ?_) fun _ _ => h₁
    refine Watched.bind (materialize_watched outside
      (fun l o h ho => hG l o h (.outside ho)) h₁) ?_ fun _ _ h => h
    intro l₂ m h₂
    refine Watched.perform (hG _ _ h₂ (.outside rfl)) fun now => ?_
    have h₃ := outside _ ⟨.newDate, now⟩ rfl h₂
    have hcreates : Creates input (.insertStatusList
        { id, tenantId := input.tenantId, issuerInstanceId := input.issuerInstance.id
          statusPurpose := input.statusPurpose, characteristics := c
          encodedList := m.encodedList, signedCredential := m.signedCredential
          version := 1, createdAt := now, updatedAt := now }) := .insertStatusList rfl rfl
    refine Watched.perform (hG _ _ h₃ hcreates) fun inserted => ?_
    cases inserted with
    | true => exact ⟨_, rfl, h₃, rfl, rfl⟩
    | false =>
        have h₄ := hH _ ⟨_, false⟩ ⟨hcreates, by simp⟩ h₃
        refine Watched.perform (hG _ _ h₄ (.getStatusList _)) fun existing => ?_
        have h₅ := hH _ ⟨.getStatusList id, existing⟩ ⟨.getStatusList _, by simp⟩ h₄
        cases existing <;> exact h₅
  cases input.id with
  | some id => exact rest id l h
  | none => exact ⟨hG _ _ h (.outside rfl), fun id => rest id _ (outside _ _ rfl h)⟩

/-! ### Choosing one -/

/-- What a call without a chosen list may do, by what it has seen. -/
def Rolls (deps : ManagerDeps B) (tenantId : String) (statusPurpose : StatusPurpose)
    (l : List Seen) : Operation → Prop
  | .insertStatusList row => row.tenantId = tenantId ∧ row.statusPurpose = statusPurpose ∧
      ∃ lists, (⟨.findStatusLists tenantId (some statusPurpose) none, lists⟩ : Seen) ∈ l ∧
        ∀ other ∈ lists, CountedFull deps l other
  | .isIndexAllocated listId _ =>
      ∃ list, list.id = listId ∧ Selected deps tenantId statusPurpose l list
  | .insertAllocation a => Unallocated l ∧
      ∃ list, list.id = a.listId ∧ Selected deps tenantId statusPurpose l list
  | .commit => False
  | _ => True

/-- The walk over the candidates counts each one until it finds one under the threshold. -/
theorem firstUnderThreshold_watched (hH : Kept (fun x => ∃ id, x.1 = .countAllocations id) H)
    (hG : ∀ l id, H l → G l (.countAllocations id)) (candidates : List StatusListRecord)
    (h : H l) :
    Watched G
      (fun l' found => H l' ∧
        (∀ list, found = some list → ∃ newer older, candidates = newer ++ list :: older ∧
          (∀ other ∈ newer, CountedFull deps l' other) ∧
          ∃ used : Nat, (⟨.countAllocations list.id, used⟩ : Seen) ∈ l' ∧
            (used : ℚ) < deps.threshold list.characteristics.length) ∧
        (found = none → ∀ other ∈ candidates, CountedFull deps l' other))
      (fun _ _ => False) (firstUnderThreshold deps candidates) l := by
  induction candidates generalizing l H with
  | nil => exact ⟨h, by simp, by simp⟩
  | cons candidate rest ih =>
      refine Watched.perform (hG _ _ h) fun used => ?_
      have h₁ := hH _ ⟨.countAllocations candidate.id, used⟩ ⟨_, rfl⟩ h
      have hmem : (⟨.countAllocations candidate.id, used⟩ : Seen) ∈
          l ++ [⟨.countAllocations candidate.id, used⟩] :=
        List.mem_append_right _ (List.mem_singleton_self _)
      by_cases hused : (used : ℚ) < deps.threshold candidate.characteristics.length
      · rw [if_pos hused]
        refine ⟨h₁, ?_, by simp⟩
        rintro list ⟨⟩
        exact ⟨[], rest, rfl, by simp, used, hmem, hused⟩
      · rw [if_neg hused]
        refine (ih (hH.and (.of_mono fun hl hx => hl hx)) (fun l id hl => hG l id hl.1)
          (H := fun l => H l ∧ (⟨.countAllocations candidate.id, used⟩ : Seen) ∈ l)
          ⟨h₁, hmem⟩).imp ?_ fun _ _ h => h
        rintro l' found ⟨⟨h', hmem'⟩, hsome, hnone⟩
        have hfull : CountedFull deps l' candidate := ⟨used, hmem', not_lt.mp hused⟩
        refine ⟨h', fun list hlist => ?_, fun hn => List.forall_mem_cons.mpr ⟨hfull, hnone hn⟩⟩
        obtain ⟨newer, older, rfl, hnewer, hcount⟩ := hsome list hlist
        exact ⟨candidate :: newer, older, rfl, List.forall_mem_cons.mpr ⟨hfull, hnewer⟩, hcount⟩

theorem defaultInstanceFor_watched {tenantId : String}
    (hH : Kept (fun x => x.1 = .getTenant tenantId) H) (hG : ∀ l, H l → G l (.getTenant tenantId))
    (h : H l) :
    Watched G (fun l' _ => H l') (fun l' _ => H l') (defaultInstanceFor tenantId) l := by
  refine Watched.perform (hG _ h) fun tenant => ?_
  have h₁ := hH _ ⟨.getTenant tenantId, tenant⟩ rfl h
  cases hinstance : tenant.bind (resolveIssuerInstance ·) <;> exact h₁

/-- The lists of the tenant and purpose were all counted full. -/
def AllFull (deps : ManagerDeps B) (tenantId : String) (statusPurpose : StatusPurpose)
    (l : List Seen) : Prop :=
  ∃ lists, (⟨.findStatusLists tenantId (some statusPurpose) none, lists⟩ : Seen) ∈ l ∧
    ∀ other ∈ lists, CountedFull deps l other

theorem AllFull.mono {tenantId : String} {statusPurpose : StatusPurpose}
    (h : AllFull deps tenantId statusPurpose l) (hl : l ⊆ l') :
    AllFull deps tenantId statusPurpose l' := by
  obtain ⟨lists, hseen, hfull⟩ := h
  exact ⟨lists, hl hseen, fun other ho => (hfull other ho).mono hl⟩

theorem rolls_creates {tenantId : String} {statusPurpose : StatusPurpose}
    {issuerInstance : IssuerInstance} (hfull : AllFull deps tenantId statusPurpose l)
    {o : Operation} (ho : Creates { tenantId, issuerInstance, statusPurpose } o) :
    Rolls deps tenantId statusPurpose l o := by
  cases ho with
  | insertStatusList htenant hpurpose => exact ⟨htenant, hpurpose, hfull⟩
  | getStatusList id => exact trivial
  | outside ho =>
      cases o with
      | isIndexAllocated listId index => cases ho
      | insertAllocation a => cases ho
      | insertStatusList row => cases ho
      | commit => cases ho
      | _ => exact trivial

/-- `#listForPurpose`: the list it returns is one it had reason to, and it made no other. -/
theorem listForPurpose_watched {tenantId : String} {statusPurpose : StatusPurpose}
    (h : Unallocated l) :
    Watched (Rolls deps tenantId statusPurpose)
      (fun l' list => Unallocated l' ∧ Selected deps tenantId statusPurpose l' list ∧
        (newLists l' = newLists l ∨ newLists l' = newLists l ++ [list] ∧
          list.tenantId = tenantId ∧ list.statusPurpose = statusPurpose ∧
          AllFull deps tenantId statusPurpose l'))
      (fun l' _ => Unallocated l' ∧ newLists l' = newLists l)
      (listForPurpose deps tenantId statusPurpose) l := by
  -- Until a list goes in, neither table is written.
  have quiet : ∀ {X : Seen → Prop}, (∀ x, X x → ∀ a, x ≠ ⟨.insertAllocation a, true⟩) →
      (∀ x, X x → ∀ row, x ≠ ⟨.insertStatusList row, true⟩) →
      Kept X fun l' => Unallocated l' ∧ newLists l' = newLists l :=
    fun ha hrow => (Unallocated.kept ha).and (newLists_kept hrow _)
  refine Watched.perform trivial fun lists => ?_
  have h₁ := quiet (X := fun x => x.1 = .findStatusLists tenantId (some statusPurpose) none)
    (by rintro _ hx _ rfl; cases hx) (by rintro _ hx _ rfl; cases hx) l
    ⟨.findStatusLists tenantId (some statusPurpose) none, lists⟩ rfl ⟨h, rfl⟩
  have hseen : (⟨.findStatusLists tenantId (some statusPurpose) none, lists⟩ : Seen) ∈
      l ++ [⟨.findStatusLists tenantId (some statusPurpose) none, lists⟩] :=
    List.mem_append_right _ (List.mem_singleton_self _)
  refine Watched.bind (firstUnderThreshold_watched
    ((quiet (by rintro _ ⟨_, hx⟩ _ rfl; cases hx) (by rintro _ ⟨_, hx⟩ _ rfl; cases hx)).and
      (.of_mono fun hl hx => hl hx)) (fun _ _ _ => trivial) lists.reverse
    (H := fun l' => (Unallocated l' ∧ newLists l' = newLists l) ∧
      (⟨.findStatusLists tenantId (some statusPurpose) none, lists⟩ : Seen) ∈ l')
    ⟨h₁, hseen⟩) ?_ fun _ _ h => h.elim
  rintro l₂ found ⟨⟨h₂, hseen₂⟩, hsome, hnone⟩
  cases found with
  | some candidate =>
      obtain ⟨newer, older, hsplit, hnewer, used, hcount, hunder⟩ := hsome candidate rfl
      have hlists : lists = older.reverse ++ candidate :: newer.reverse := by
        rw [List.reverse_eq_iff.mp hsplit]
        simp
      exact ⟨h₂.1, .chosen (hlists ▸ hseen₂) hcount hunder
        (fun other ho => hnewer other (List.mem_reverse.mp ho)), .inl h₂.2⟩
  | none =>
      have hfull : AllFull deps tenantId statusPurpose l₂ :=
        ⟨lists, hseen₂, fun other ho => hnone rfl other (List.mem_reverse.mpr ho)⟩
      refine Watched.bind (defaultInstanceFor_watched
        ((quiet (by rintro _ hx _ rfl; cases hx) (by rintro _ hx _ rfl; cases hx)).and
          (.of_mono fun hl hx => AllFull.mono hx hl)) (fun _ _ => trivial)
        (H := fun l' => (Unallocated l' ∧ newLists l' = newLists l) ∧
          AllFull deps tenantId statusPurpose l')
        ⟨h₂, hfull⟩) ?_ fun _ _ h => h.1
      intro l₃ issuerInstance h₃
      refine (createList_watched
        ((quiet ?_ fun _ hx => hx.2).and (.of_mono fun hl hx => AllFull.mono hx hl))
        (fun l o hl ho => rolls_creates hl.2 ho) h₃).imp ?_ fun _ _ h => h.1
      · rintro _ ⟨hx, _⟩ _ rfl
        cases hx with
        | outside hx => cases hx
      · rintro l' row ⟨l₄, rfl, ⟨⟨hfree, hnew⟩, hfull⟩, htenant, hpurpose⟩
        have hsub : l₄ ⊆ l₄ ++ [⟨.insertStatusList row, true⟩] := List.subset_append_left _ _
        have hfull' := hfull.mono hsub
        obtain ⟨lists, hseen, hcounted⟩ := hfull'
        refine ⟨?_, .minted hseen hcounted (List.mem_append_right _ (List.mem_singleton_self _))
          htenant hpurpose, .inr ⟨?_, htenant, hpurpose, lists, hseen, hcounted⟩⟩
        · exact Unallocated.kept (X := fun x => x = ⟨.insertStatusList row, true⟩)
            (by rintro _ rfl; simp) _ _ rfl hfree
        · rw [newLists, List.filterMap_append]
          exact congrArg (· ++ [row]) hnew

/-- A call without a chosen list allocates in the one it had reason to. -/
theorem allocateForCredential_watched {tenantId credentialId : String}
    {statusPurpose : StatusPurpose} :
    Watched (Rolls deps tenantId statusPurpose)
      (fun l' r => r.1.listId = r.2.id ∧ Selected deps tenantId statusPurpose l' r.2)
      (fun _ _ => True) (allocateForCredential deps tenantId credentialId statusPurpose none) [] := by
  refine Watched.bind (listForPurpose_watched (by simp [Unallocated])) ?_ fun _ _ _ => trivial
  rintro l list ⟨hfree, hselected, _⟩
  have kept : Kept (Probing list.id) fun l =>
      Unallocated l ∧ Selected deps tenantId statusPurpose l list :=
    (Unallocated.kept fun _ hx => hx.2).and (.of_mono fun hl hs => hs.mono hl)
  refine Watched.bind (allocateIndex_watched kept (fun l o hl ho => ?_) ⟨hfree, hselected⟩) ?_
    fun _ _ _ => trivial
  · cases ho with
    | isIndexAllocated index => exact ⟨list, rfl, hl.2⟩
    | insertAllocation h => exact ⟨hl.1, list, h.symm, hl.2⟩
    | _ => exact trivial
  · rintro l' a ⟨hpre, ha⟩
    exact ⟨ha, hselected.mono hpre.subset⟩

/-! ### The other calls -/

/-- With a chosen list, the call allocates in the list it was shown under that id. -/
theorem allocateForCredential_watched_chosen {tenantId credentialId listId : String}
    {statusPurpose : StatusPurpose} :
    Watched
      (fun l o => ∀ a, o = .insertAllocation a →
        ∃ list, (⟨.getStatusList listId, some list⟩ : Seen) ∈ l ∧ a.listId = list.id)
      (fun _ _ => True) (fun _ _ => True)
      (allocateForCredential deps tenantId credentialId statusPurpose (some listId)) [] := by
  refine Watched.bind
    (R := fun l list => (⟨.getStatusList listId, some list⟩ : Seen) ∈ l) (E := fun _ _ => True)
    ?_ ?_ fun _ _ _ => trivial
  · refine Watched.perform (by simp) fun found => ?_
    cases hlist : found.filter fun list => list.tenantId = tenantId with
    | none => exact trivial
    | some list =>
        obtain ⟨rfl, _⟩ := Option.filter_eq_some_iff.mp hlist
        dsimp only
        split
        · exact trivial
        · exact List.mem_singleton_self _
  · intro l list hseen
    refine Watched.bind (allocateIndex_watched (.of_mono fun hl hx => hl hx)
      (fun l' o hl ho a hoa => ?_) hseen) (fun _ _ _ => trivial) fun _ _ _ => trivial
    subst hoa
    cases ho with
    | insertAllocation h => exact ⟨list, hl, h⟩

/-! A status call does not allocate: whatever allows everything else allows it. -/

theorem applyStatus_watched (hG : ∀ l o, (∀ a, o ≠ .insertAllocation a) → G l o)
    {current : StatusListRecord} {issuerInstance : IssuerInstance} {index : Number}
    {status : Bool} :
    Watched G (fun _ _ => True) (fun _ _ => True)
      (applyStatus deps current issuerInstance index status) l := by
  unfold applyStatus
  split
  · exact trivial
  · refine Watched.ofExcept (fun list _ => ?_) fun _ _ => trivial
    refine Watched.ofExcept (fun held _ => ?_) fun _ _ => trivial
    split
    · exact trivial
    · refine Watched.ofExcept (fun list _ => ?_) fun _ _ => trivial
      refine Watched.bind (materialize_watched (.const True)
        (fun l o _ ho => hG l o fun a hoa => by simp [hoa, Operation.usesDatabase] at ho) trivial)
        (fun l m _ => ?_) fun _ _ h => h
      exact Watched.perform (hG _ _ (by simp)) fun _ => trivial

theorem updateStatusList_watched {T : Type} (hG : ∀ l o, (∀ a, o ≠ .insertAllocation a) → G l o)
    {listId : String} {mutate : StatusListRecord → Async (StatusListMutationResult T)}
    (hmutate : ∀ current l, Watched G (fun _ _ => True) (fun _ _ => True) (mutate current) l) :
    Watched G (fun _ _ => True) (fun _ _ => True) (SqlStorage.updateStatusList listId mutate) l := by
  refine Watched.perform (hG _ _ (by simp)) fun _ => ?_
  refine Watched.tryCatch (R := fun _ _ => True) (E := fun _ _ => True) ?_
    (fun _ _ _ => trivial) fun l e _ => Watched.perform (hG _ _ (by simp)) fun _ => trivial
  refine Watched.bind (R := fun _ _ => True) (E := fun _ _ => True) ?_
    (fun l r _ => Watched.perform (hG _ _ (by simp)) fun _ => trivial) fun _ _ _ => trivial
  refine Watched.perform (hG _ _ (by simp)) fun row => ?_
  cases row with
  | none => exact trivial
  | some current =>
      refine Watched.bind (hmutate current _) (fun l outcome _ => ?_) fun _ _ _ => trivial
      split
      · refine Watched.perform (hG _ _ (by simp)) fun _ => ?_
        exact Watched.perform (hG _ _ (by simp)) fun _ => trivial
      · exact trivial

theorem setStatus_watched (hG : ∀ l o, (∀ a, o ≠ .insertAllocation a) → G l o) {listId : String}
    {index : Number} {status : Bool} :
    Watched G (fun _ _ => True) (fun _ _ => True) (setStatus deps listId index status) l := by
  refine Watched.perform (hG _ _ (by simp)) fun found => ?_
  cases found with
  | none => exact trivial
  | some list =>
      refine Watched.bind (R := fun _ _ => True) (E := fun _ _ => True) ?_
        (fun l issuerInstance _ => updateStatusList_watched hG fun current l =>
          applyStatus_watched hG) fun _ _ _ => trivial
      refine Watched.perform (hG _ _ (by simp)) fun tenant => ?_
      split <;> exact trivial

theorem statusCall_watched (hG : ∀ l o, (∀ a, o ≠ .insertAllocation a) → G l o)
    (call : StatusCall) :
    Watched G (fun _ _ => True) (fun _ _ => True) (call.program deps) l := by
  cases call with
  | setStatus listId index status => exact setStatus_watched hG
  | setCredentialStatus tenantId credentialId statusPurpose status =>
      refine Watched.perform (hG _ _ (by simp)) fun allocation => ?_
      cases allocation with
      | none => exact trivial
      | some a => exact setStatus_watched hG

end StatusListManager

namespace ManagerCall

/-- The allocations a call inserts, by what it has seen. -/
def Aims : ManagerCall → List Seen → IndexAllocation → Prop
  | .createList _, _, _ => False
  | .status _, _, _ => False
  | .allocateIndex _ _ _ listId, _, a => a.listId = listId
  | .allocateForCredential _ _ _ (some listId), l, a =>
      ∃ list, (⟨.getStatusList listId, some list⟩ : Seen) ∈ l ∧ a.listId = list.id
  | .allocateForCredential _ _ _ none, _, _ => True

variable {B : Type} (deps : ManagerDeps B)

/-- What a call does, by what it has seen: it inserts the allocations it aims at, and without a
chosen list it keeps to the rolling. -/
def Allowed (call : ManagerCall) (l : List Seen) (o : Operation) : Prop :=
  (∀ a, o = .insertAllocation a → call.Aims l a) ∧
    ∀ tenantId credentialId statusPurpose,
      call = .allocateForCredential tenantId credentialId statusPurpose none →
      StatusListManager.Rolls deps tenantId statusPurpose l o

/-- What a call without a chosen list has seen when it returns. -/
def ReturnsSelected (call : ManagerCall) (l : List Seen) (result : ManagerResult) : Prop :=
  ∀ tenantId credentialId statusPurpose,
    call = .allocateForCredential tenantId credentialId statusPurpose none →
    ∃ a list, result = .entry a list ∧ a.listId = list.id ∧
      StatusListManager.Selected deps tenantId statusPurpose l list

/-- Every other call returns as it pleases. -/
theorem returnsSelected_of_ne {call : ManagerCall} {l : List Seen} {result : ManagerResult}
    (h : ∀ tenantId credentialId statusPurpose,
      call ≠ .allocateForCredential tenantId credentialId statusPurpose none) :
    call.ReturnsSelected deps l result :=
  fun _ _ _ hc => absurd hc (h _ _ _)

theorem watched (call : ManagerCall) :
    Watched (call.Allowed deps) (call.ReturnsSelected deps) (fun _ _ => True)
      (call.program deps) [] := by
  cases call with
  | createList input =>
      refine Watched.bind (StatusListManager.createList_watched (.const True)
        (fun l o _ ho => ⟨?_, by simp⟩) trivial) (fun _ _ _ => returnsSelected_of_ne deps (by simp))
        fun _ _ h => h
      rintro a rfl
      cases ho with
      | outside ho => cases ho
  | status call =>
      exact Watched.bind (StatusListManager.statusCall_watched
        (fun l o ho => ⟨fun a hoa => absurd hoa (ho a), by simp⟩) call)
        (fun _ _ _ => returnsSelected_of_ne deps (by simp)) fun _ _ h => h
  | allocateIndex tenantId credentialId statusPurpose listId =>
      refine Watched.bind (StatusListManager.allocateIndex_watched (.const True)
        (fun l o _ ho => ⟨?_, by simp⟩) trivial) (fun _ _ _ => returnsSelected_of_ne deps (by simp))
        fun _ _ _ => trivial
      rintro a rfl
      cases ho with
      | insertAllocation h => exact h
  | allocateForCredential tenantId credentialId statusPurpose listId =>
      cases listId with
      | none =>
          refine Watched.bind (StatusListManager.allocateForCredential_watched.mono
            fun l o ho => ⟨fun _ _ => trivial, ?_⟩) ?_ fun _ _ h => h
          · rintro _ _ _ ⟨⟩
            exact ho
          · rintro l r h _ _ _ ⟨⟩
            exact ⟨r.1, r.2, rfl, h⟩
      | some listId =>
          refine Watched.bind (StatusListManager.allocateForCredential_watched_chosen.mono
            fun l o ho => ⟨ho, by simp⟩)
            (fun _ _ _ => returnsSelected_of_ne deps (by simp)) fun _ _ h => h

end ManagerCall

end VcalmStatus
