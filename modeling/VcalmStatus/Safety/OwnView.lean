import VcalmStatus.Safety.Policy

/-!
What a tenant can see of the tables.

`Database.ofTenant` is the part of both tables that is one tenant's. Every query a request of that
tenant makes is answered from that part alone (`Operation.Within` says which queries those are), so
two worlds which share it answer alike, and a write of the tenant leaves them sharing it.
-/

namespace VcalmStatus

open Effects

namespace Database

/-- The lists and allocations of one tenant, in the order they were made. -/
def ofTenant (db : Database) (tenantId : String) : Database where
  statusLists := db.statusLists.filter fun row => row.tenantId = tenantId
  indexAllocations := db.indexAllocations.filter fun a => a.tenantId = tenantId

/-- No two lists share an id, and a tenant allocates in lists of its own. -/
structure Owned (db : Database) : Prop where
  ids_nodup : (db.statusLists.map (·.id)).Nodup
  allocations : ∀ a ∈ db.indexAllocations, ∃ row ∈ db.statusLists,
    row.id = a.listId ∧ row.tenantId = a.tenantId

variable {db : Database} {tenantId : String}

theorem mem_ofTenant_statusLists {row : StatusListRecord} :
    row ∈ (db.ofTenant tenantId).statusLists ↔ row ∈ db.statusLists ∧ row.tenantId = tenantId := by
  simp [ofTenant]

/-- Asked for by its id, a list is seen exactly when it is the tenant's. -/
theorem getStatusList_ofTenant (h : db.Owned) (id : String) :
    (db.ofTenant tenantId).getStatusList id =
      (db.getStatusList id).filter fun row => row.tenantId = tenantId := by
  have hsub : ((db.ofTenant tenantId).statusLists.map (·.id)).Nodup :=
    h.ids_nodup.sublist (List.filter_sublist.map _)
  ext row
  rw [Option.filter_eq_some_iff]
  constructor
  · intro hrow
    obtain ⟨hmem, rfl⟩ := mem_of_getStatusList hrow
    obtain ⟨hmem, htenant⟩ := mem_ofTenant_statusLists.mp hmem
    exact ⟨getStatusList_of_mem h.ids_nodup hmem, by simpa using htenant⟩
  · rintro ⟨hrow, htenant⟩
    obtain ⟨hmem, rfl⟩ := mem_of_getStatusList hrow
    exact getStatusList_of_mem hsub (mem_ofTenant_statusLists.mpr ⟨hmem, by simpa using htenant⟩)

/-- The tenant has a list of this id. -/
def HasList (db : Database) (tenantId id : String) : Prop :=
  ∃ row, (db.ofTenant tenantId).getStatusList id = some row

theorem getStatusList_of_hasList (h : db.Owned) {id : String} (hid : db.HasList tenantId id) :
    db.getStatusList id = (db.ofTenant tenantId).getStatusList id := by
  obtain ⟨row, hrow⟩ := hid
  rw [hrow]
  rw [getStatusList_ofTenant h, Option.filter_eq_some_iff] at hrow
  exact hrow.1

/-- Whatever is allocated in a list of the tenant is the tenant's. -/
theorem tenantId_of_hasList (h : db.Owned) {id : String} (hid : db.HasList tenantId id)
    {a : IndexAllocation} (ha : a ∈ db.indexAllocations) (hlist : a.listId = id) :
    a.tenantId = tenantId := by
  obtain ⟨row, hrow⟩ := hid
  obtain ⟨hmem, hrowid⟩ := mem_of_getStatusList hrow
  obtain ⟨hmem, htenant⟩ := mem_ofTenant_statusLists.mp hmem
  obtain ⟨row', hmem', hid', htenant'⟩ := h.allocations a ha
  have hsame : row' = row :=
    List.inj_on_of_nodup_map h.ids_nodup hmem' hmem (hid'.trans (hlist.trans hrowid.symm))
  rw [← htenant', hsame, htenant]

theorem isIndexAllocated_ofTenant (h : db.Owned) {id : String} (hid : db.HasList tenantId id)
    (n : Nat) : (db.ofTenant tenantId).isIndexAllocated id n = db.isIndexAllocated id n := by
  rw [Bool.eq_iff_iff, isIndexAllocated_iff, isIndexAllocated_iff]
  constructor
  · rintro ⟨a, ha, hlist, hn⟩
    exact ⟨a, (List.mem_filter.mp ha).1, hlist, hn⟩
  · rintro ⟨a, ha, hlist, hn⟩
    have htenant := tenantId_of_hasList h hid ha hlist
    exact ⟨a, List.mem_filter.mpr ⟨ha, by simpa using htenant⟩, hlist, hn⟩

theorem countAllocations_ofTenant (h : db.Owned) {id : String} (hid : db.HasList tenantId id) :
    (db.ofTenant tenantId).countAllocations id = db.countAllocations id := by
  show (db.indexAllocations.filter _).countP _ = db.indexAllocations.countP _
  rw [List.countP_filter]
  refine List.countP_congr fun a ha => ?_
  simp only [Bool.and_eq_true, decide_eq_true_eq, and_iff_left_iff_imp]
  exact fun hlist => tenantId_of_hasList h hid ha hlist

theorem getAllocation_ofTenant (credentialId : String) (statusPurpose : StatusPurpose) :
    (db.ofTenant tenantId).getAllocation tenantId credentialId statusPurpose =
      db.getAllocation tenantId credentialId statusPurpose := by
  show (db.indexAllocations.filter _).find? _ = db.indexAllocations.find? _
  rw [List.find?_filter]
  congr 1
  ext a
  simp

theorem findStatusLists_ofTenant (statusPurpose : Option StatusPurpose)
    (issuerInstanceId : Option String) :
    (db.ofTenant tenantId).findStatusLists tenantId statusPurpose issuerInstanceId =
      db.findStatusLists tenantId statusPurpose issuerInstanceId := by
  unfold findStatusLists
  congr 1
  show (db.statusLists.filter _).filter _ = db.statusLists.filter _
  rw [List.filter_filter]
  congr 1
  ext row
  simp
  tauto

/-- In a list of the tenant, what it may allocate is told by what it can see. -/
theorem admits_ofTenant (h : db.Owned) {a : IndexAllocation} (htenant : a.tenantId = tenantId)
    (hid : db.HasList tenantId a.listId) : (db.ofTenant tenantId).admits a = db.admits a := by
  subst htenant
  rw [admits, admits, isIndexAllocated_ofTenant h hid, getAllocation_ofTenant,
    getStatusList_of_hasList h hid]

/-- An update writes to the lists of a tenant what it writes to all of them. -/
theorem ofTenant_update (u : RowUpdate) :
    (db.update u).ofTenant tenantId = (db.ofTenant tenantId).update u := by
  have htenant : ∀ row, (u.apply row).tenantId = row.tenantId := fun row => by
    unfold RowUpdate.apply
    split <;> rfl
  simp [ofTenant, update, List.filter_map, Function.comp_def, htenant]

end Database

/-- The operations of a tenant's request that its own part of the tables answers. -/
def Operation.Within (db : Database) (tenantId : String) : Operation → Prop
  | .getStatusList id | .lockStatusList id | .isIndexAllocated id _ | .countAllocations id =>
      db.HasList tenantId id
  | .findStatusLists t _ _ | .getAllocation t _ _ => t = tenantId
  | .insertAllocation a => a.tenantId = tenantId ∧ db.HasList tenantId a.listId
  | .insertStatusList _ => False
  | _ => True

/-- From two moments on, everything outside the two databases answers alike. -/
structure Environment.AnswersAlike (env₁ : Environment) (tick₁ : Nat) (env₂ : Environment)
    (tick₂ : Nat) : Prop where
  tenants : env₁.tenants = env₂.tenants
  now : ∀ k, env₁.now (tick₁ + k) = env₂.now (tick₂ + k)
  newDate : ∀ k, env₁.newDate (tick₁ + k) = env₂.newDate (tick₂ + k)
  randomIndex : ∀ k, env₁.randomIndex (tick₁ + k) = env₂.randomIndex (tick₂ + k)
  generateId : ∀ k, env₁.generateId (tick₁ + k) = env₂.generateId (tick₂ + k)
  issuerDid : ∀ k, env₁.signing.issuerDid (tick₁ + k) = env₂.signing.issuerDid (tick₂ + k)
  sign : ∀ k, env₁.signing.sign (tick₁ + k) = env₂.signing.sign (tick₂ + k)

theorem Environment.AnswersAlike.next {env₁ env₂ : Environment} {tick₁ tick₂ : Nat}
    (h : env₁.AnswersAlike tick₁ env₂ tick₂) : env₁.AnswersAlike (tick₁ + 1) env₂ (tick₂ + 1) := by
  have hsucc : ∀ tick k, tick + 1 + k = tick + (k + 1) := fun _ _ => by omega
  refine ⟨h.tenants, ?_, ?_, ?_, ?_, ?_, ?_⟩ <;> intro k <;> rw [hsucc, hsucc]
  · exact h.now _
  · exact h.newDate _
  · exact h.randomIndex _
  · exact h.generateId _
  · exact h.issuerDid _
  · exact h.sign _

/-- The next list ids are new to the tables. -/
def World.Fresh (env : Environment) (w : World) : Prop :=
  ∀ k, w.db.getStatusList (env.generateId (w.tick + k)) = none

/-- Two worlds a request `i` of the tenant cannot tell apart. -/
structure SameView (tenantId : String) (i : Nat) (env₁ env₂ : Environment) (w₁ w₂ : World) :
    Prop where
  view : w₁.db.ofTenant tenantId = w₂.db.ofTenant tenantId
  owned₁ : w₁.db.Owned
  owned₂ : w₂.db.Owned
  transaction : w₁.transaction i = w₂.transaction i
  outside : env₁.AnswersAlike w₁.tick env₂ w₂.tick

/-- Between two worlds no list came or went, and no time was given back. -/
structure World.Steady (w w' : World) : Prop where
  lists : w'.db.statusLists.map (fun row => (row.id, row.tenantId)) =
    w.db.statusLists.map fun row => (row.id, row.tenantId)
  tick : w.tick ≤ w'.tick

namespace World.Steady

variable {w w' w'' : World}

theorem refl (w : World) : w.Steady w := ⟨rfl, le_refl _⟩

theorem trans (h : w.Steady w') (h' : w'.Steady w'') : w.Steady w'' :=
  ⟨h'.lists.trans h.lists, le_trans h.tick h'.tick⟩

theorem ids (h : w.Steady w') :
    w'.db.statusLists.map (·.id) = w.db.statusLists.map (·.id) := by
  have := congrArg (List.map Prod.fst) h.lists
  simpa [Function.comp_def] using this

theorem getStatusList_eq_none (h : w.Steady w') {id : String}
    (hid : w.db.getStatusList id = none) : w'.db.getStatusList id = none := by
  rw [Database.getStatusList_eq_none] at hid ⊢
  intro row hrow hrowid
  have hmem : row.id ∈ w'.db.statusLists.map (·.id) := List.mem_map.mpr ⟨row, hrow, rfl⟩
  rw [h.ids] at hmem
  obtain ⟨old, hold, hid'⟩ := List.mem_map.mp hmem
  exact hid old hold (hid'.trans hrowid)

theorem fresh {env : Environment} (h : w.Steady w') (hf : w.Fresh env) : w'.Fresh env := by
  intro k
  obtain ⟨d, hd⟩ := Nat.exists_eq_add_of_le h.tick
  rw [hd, Nat.add_assoc]
  exact h.getStatusList_eq_none (hf _)

theorem hasList {tenantId id : String} (h : w.Steady w') (hid : w.db.HasList tenantId id) :
    w'.db.HasList tenantId id := by
  obtain ⟨row, hrow⟩ := hid
  obtain ⟨hmem, hrowid⟩ := Database.mem_of_getStatusList hrow
  obtain ⟨hmem, htenant⟩ := Database.mem_ofTenant_statusLists.mp hmem
  have hpair : (row.id, row.tenantId) ∈
      w'.db.statusLists.map fun row => (row.id, row.tenantId) := by
    rw [h.lists]
    exact List.mem_map.mpr ⟨row, hmem, rfl⟩
  obtain ⟨row', hmem', hpair'⟩ := List.mem_map.mp hpair
  rw [Prod.mk.injEq] at hpair'
  -- Some list of that id is still there, so the look-up finds one.
  cases hfound : (w'.db.ofTenant tenantId).getStatusList id with
  | some found => exact ⟨found, hfound⟩
  | none =>
      have hnone := Database.getStatusList_eq_none.mp hfound row'
      exact absurd (hpair'.1.trans hrowid) (hnone (Database.mem_ofTenant_statusLists.mpr
        ⟨hmem', hpair'.2.trans htenant⟩))

end World.Steady

/-! ### One step of both runs -/

namespace World

variable {env : Environment} {i : Nat} {w : World} {o : Operation}

/-- A step that neither adds a list nor adds an allocation to a list of somebody else. -/
theorem respond_steady {tenantId : String} (h : w.db.Owned) (ho : o.Within w.db tenantId) :
    (w.respond env i o).2.db.Owned ∧ w.Steady (w.respond env i o).2 := by
  have same : ∀ w', w'.db = w.db → w.tick ≤ w'.tick → w'.db.Owned ∧ w.Steady w' :=
    fun w' hdb htick => ⟨hdb ▸ h, by rw [hdb], htick⟩
  cases o with
  | insertStatusList row => exact ho.elim
  | insertAllocation a =>
      simp only [respond]
      split
      · obtain ⟨htenant, row, hrow⟩ := ho
        obtain ⟨hmem, hid⟩ := Database.mem_of_getStatusList hrow
        obtain ⟨hmem, hrowtenant⟩ := Database.mem_ofTenant_statusLists.mp hmem
        refine ⟨⟨h.ids_nodup, fun b hb => ?_⟩, rfl, le_refl _⟩
        rcases List.mem_append.mp hb with hb | hb
        · exact h.allocations b hb
        · rw [List.mem_singleton.mp hb]
          exact ⟨row, hmem, hid, hrowtenant.trans htenant.symm⟩
      · exact same w rfl (le_refl _)
  | commit =>
      show (w.commit i).db.Owned ∧ w.Steady (w.commit i)
      cases hu : (w.transaction i).write with
      | none => exact same _ (World.commit_db_of_none hu) (le_refl _)
      | some u =>
          have hdb := World.commit_db_of_some hu
          have hbinding : ∀ row, (u.apply row).id = row.id ∧
              (u.apply row).tenantId = row.tenantId := fun row =>
            ⟨u.apply_id row, (SameBinding.apply u row).tenantId.symm⟩
          refine ⟨⟨?_, fun a ha => ?_⟩, ?_, le_refl _⟩
          · rw [hdb, Database.update_ids]
            exact h.ids_nodup
          · rw [hdb] at ha ⊢
            obtain ⟨row, hrow, hid, htenant⟩ := h.allocations a ha
            exact ⟨u.apply row, Database.mem_update.mpr ⟨row, hrow, rfl⟩,
              (hbinding row).1.trans hid, (hbinding row).2.trans htenant⟩
          · rw [hdb]
            simp [Database.update, hbinding]
  | lockStatusList id =>
      simp only [respond]
      split <;> exact same _ rfl (le_refl _)
  | beginTransaction =>
      simp only [respond]
      split <;> exact same _ rfl (le_refl _)
  | getStatusList id => exact same _ rfl (le_refl _)
  | findStatusLists t p n => exact same _ rfl (le_refl _)
  | updateStatusListRow id m v u => exact same _ rfl (le_refl _)
  | rollback => exact same _ rfl (le_refl _)
  | getAllocation t c p => exact same _ rfl (le_refl _)
  | isIndexAllocated id n => exact same _ rfl (le_refl _)
  | countAllocations id => exact same _ rfl (le_refl _)
  | getTenant id => exact same _ rfl (le_refl _)
  | getTenantByToken token => exact same _ rfl (le_refl _)
  | now => exact same _ rfl (Nat.le_succ _)
  | newDate => exact same _ rfl (Nat.le_succ _)
  | randomIndex n => exact same _ rfl (Nat.le_succ _)
  | generateId => exact same _ rfl (Nat.le_succ _)
  | issuerDid i => exact same _ rfl (Nat.le_succ _)
  | sign i u => exact same _ rfl (Nat.le_succ _)

end World

namespace SameView

variable {tenantId : String} {i : Nat} {env₁ env₂ : Environment} {w₁ w₂ : World} {o : Operation}

theorem hasList (h : SameView tenantId i env₁ env₂ w₁ w₂) {id : String}
    (hid : w₁.db.HasList tenantId id) : w₂.db.HasList tenantId id := by
  unfold Database.HasList
  rw [← h.view]
  exact hid

theorem within (h : SameView tenantId i env₁ env₂ w₁ w₂) (ho : o.Within w₁.db tenantId) :
    o.Within w₂.db tenantId := by
  cases o with
  | getStatusList id => exact h.hasList ho
  | lockStatusList id => exact h.hasList ho
  | isIndexAllocated id n => exact h.hasList ho
  | countAllocations id => exact h.hasList ho
  | insertAllocation a => exact ⟨ho.1, h.hasList ho.2⟩
  | _ => exact ho

/-- A list of the tenant is the same list in both worlds. -/
theorem getStatusList_eq (h : SameView tenantId i env₁ env₂ w₁ w₂) {id : String}
    (hid : w₁.db.HasList tenantId id) : w₁.db.getStatusList id = w₂.db.getStatusList id := by
  rw [Database.getStatusList_of_hasList h.owned₁ hid,
    Database.getStatusList_of_hasList h.owned₂ (h.hasList hid), h.view]

/-- The tenant's queries and writes are answered alike. -/
theorem answer_eq (h : SameView tenantId i env₁ env₂ w₁ w₂) (ho : o.Within w₁.db tenantId) :
    (w₁.respond env₁ i o).1 = (w₂.respond env₂ i o).1 := by
  have ho₂ := h.within ho
  cases o with
  | insertStatusList row => exact ho.elim
  | getStatusList id => exact h.getStatusList_eq ho
  | lockStatusList id =>
      simp only [World.respond, h.getStatusList_eq ho]
      split <;> rfl
  | findStatusLists t p n =>
      cases ho
      show w₁.db.findStatusLists tenantId p n = w₂.db.findStatusLists tenantId p n
      rw [← Database.findStatusLists_ofTenant, h.view, Database.findStatusLists_ofTenant]
  | getAllocation t c p =>
      cases ho
      show w₁.db.getAllocation tenantId c p = w₂.db.getAllocation tenantId c p
      rw [← Database.getAllocation_ofTenant, h.view, Database.getAllocation_ofTenant]
  | isIndexAllocated id n =>
      show w₁.db.isIndexAllocated id n = w₂.db.isIndexAllocated id n
      rw [← Database.isIndexAllocated_ofTenant h.owned₁ ho, h.view,
        Database.isIndexAllocated_ofTenant h.owned₂ ho₂]
  | countAllocations id =>
      show w₁.db.countAllocations id = w₂.db.countAllocations id
      rw [← Database.countAllocations_ofTenant h.owned₁ ho, h.view,
        Database.countAllocations_ofTenant h.owned₂ ho₂]
  | insertAllocation a =>
      simp only [World.respond, ← Database.admits_ofTenant h.owned₁ ho.1 ho.2,
        ← Database.admits_ofTenant h.owned₂ ho₂.1 ho₂.2, h.view]
      split <;> rfl
  | beginTransaction => rfl
  | updateStatusListRow id m v u => rfl
  | commit => rfl
  | rollback => rfl
  | getTenant id =>
      show env₁.tenants.getTenant id = env₂.tenants.getTenant id
      rw [h.outside.tenants]
  | getTenantByToken token =>
      show env₁.tenants.getTenantByToken token = env₂.tenants.getTenantByToken token
      rw [h.outside.tenants]
  | now => exact h.outside.now 0
  | newDate => exact h.outside.newDate 0
  | randomIndex n => exact congrFun (h.outside.randomIndex 0) n
  | generateId => exact h.outside.generateId 0
  | issuerDid issuerInstance => exact congrFun (h.outside.issuerDid 0) issuerInstance
  | sign issuerInstance unsigned =>
      exact congrFun (congrFun (h.outside.sign 0) issuerInstance) unsigned

/-- What both worlds share of the tenant's tables, they still share after the step. -/
theorem view_eq (h : SameView tenantId i env₁ env₂ w₁ w₂) (ho : o.Within w₁.db tenantId) :
    (w₁.respond env₁ i o).2.db.ofTenant tenantId =
      (w₂.respond env₂ i o).2.db.ofTenant tenantId := by
  have ho₂ := h.within ho
  cases o with
  | insertStatusList row => exact ho.elim
  | insertAllocation a =>
      simp only [World.respond, ← Database.admits_ofTenant h.owned₁ ho.1 ho.2,
        ← Database.admits_ofTenant h.owned₂ ho₂.1 ho₂.2, h.view]
      split
      · have happend : ∀ w : World, (w.insertAllocation i a).db.ofTenant tenantId =
            ⟨(w.db.ofTenant tenantId).statusLists,
              (w.db.ofTenant tenantId).indexAllocations ++ [a]⟩ := fun w => by
          simp [World.insertAllocation, Database.ofTenant, ho.1]
        rw [happend, happend, h.view]
      · exact h.view
  | commit =>
      show (w₁.commit i).db.ofTenant tenantId = (w₂.commit i).db.ofTenant tenantId
      cases hu : (w₁.transaction i).write with
      | none =>
          rw [World.commit_db_of_none hu, World.commit_db_of_none (h.transaction ▸ hu), h.view]
      | some u =>
          rw [World.commit_db_of_some hu, World.commit_db_of_some (h.transaction ▸ hu),
            Database.ofTenant_update, Database.ofTenant_update, h.view]
  | lockStatusList id =>
      simp only [World.respond, h.getStatusList_eq ho]
      split <;> exact h.view
  | beginTransaction =>
      simp only [World.respond]
      split <;> split <;> exact h.view
  | _ => exact h.view

/-- The request's own transaction is the same in both. -/
theorem transaction_eq (h : SameView tenantId i env₁ env₂ w₁ w₂) (ho : o.Within w₁.db tenantId) :
    (w₁.respond env₁ i o).2.transaction i = (w₂.respond env₂ i o).2.transaction i := by
  cases o with
  | insertStatusList row => exact ho.elim
  | insertAllocation a =>
      simp only [World.respond]
      split <;> split <;> exact h.transaction
  | lockStatusList id =>
      simp only [World.respond, h.getStatusList_eq ho]
      split
      · simp [World.lock]
      · exact h.transaction
  | updateStatusListRow id m v u =>
      show (w₁.stage i _).transaction i = (w₂.stage i _).transaction i
      simp [World.stage, h.transaction]
  | commit =>
      show (w₁.commit i).transaction i = (w₂.commit i).transaction i
      simp [World.commit, World.release]
  | rollback =>
      show (w₁.release i).transaction i = (w₂.release i).transaction i
      simp [World.release]
  | beginTransaction =>
      simp only [World.respond]
      split <;> split <;> exact h.transaction
  | _ => exact h.transaction

theorem outside_next (h : SameView tenantId i env₁ env₂ w₁ w₂) (ho : o.Within w₁.db tenantId) :
    env₁.AnswersAlike (w₁.respond env₁ i o).2.tick env₂ (w₂.respond env₂ i o).2.tick := by
  cases o with
  | insertStatusList row => exact ho.elim
  | insertAllocation a =>
      simp only [World.respond]
      split <;> split <;> exact h.outside
  | lockStatusList id =>
      simp only [World.respond]
      split <;> split <;> exact h.outside
  | beginTransaction =>
      simp only [World.respond]
      split <;> split <;> exact h.outside
  | now => exact h.outside.next
  | newDate => exact h.outside.next
  | randomIndex n => exact h.outside.next
  | generateId => exact h.outside.next
  | issuerDid issuerInstance => exact h.outside.next
  | sign issuerInstance unsigned => exact h.outside.next
  | _ => exact h.outside

/-- The step lemma: the request is answered alike and goes on being unable to tell. -/
theorem respond (h : SameView tenantId i env₁ env₂ w₁ w₂) (ho : o.Within w₁.db tenantId) :
    SameView tenantId i env₁ env₂ (w₁.respond env₁ i o).2 (w₂.respond env₂ i o).2 where
  view := h.view_eq ho
  owned₁ := (World.respond_steady h.owned₁ ho).1
  owned₂ := (World.respond_steady h.owned₂ (h.within ho)).1
  transaction := h.transaction_eq ho
  outside := h.outside_next ho

/-- A list of the tenant under an id that is new to both goes into both. -/
theorem insertStatusList (h : SameView tenantId i env₁ env₂ w₁ w₂) {row : StatusListRecord}
    (htenant : row.tenantId = tenantId) (h₁ : w₁.db.getStatusList row.id = none)
    (h₂ : w₂.db.getStatusList row.id = none) :
    SameView tenantId i env₁ env₂ (w₁.insertStatusList i row) (w₂.insertStatusList i row) := by
  have hview : ∀ w : World, (w.insertStatusList i row).db.ofTenant tenantId =
      ⟨(w.db.ofTenant tenantId).statusLists ++ [row], (w.db.ofTenant tenantId).indexAllocations⟩ :=
    fun w => by simp [World.insertStatusList, Database.ofTenant, htenant]
  have howned : ∀ w : World, w.db.Owned → w.db.getStatusList row.id = none →
      (w.insertStatusList i row).db.Owned := fun w hw hfresh => by
    refine ⟨Database.ids_nodup_append hw.ids_nodup hfresh, fun a ha => ?_⟩
    obtain ⟨old, hold, hid⟩ := hw.allocations a ha
    exact ⟨old, List.mem_append_left _ hold, hid⟩
  refine ⟨?_, howned w₁ h.owned₁ h₁, howned w₂ h.owned₂ h₂, h.transaction, h.outside⟩
  rw [hview, hview, h.view]

end SameView

end VcalmStatus
