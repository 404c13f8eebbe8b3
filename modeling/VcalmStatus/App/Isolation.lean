import VcalmStatus.App.TestRequests
import VcalmStatus.Effects.Schedule
import VcalmStatus.Safety.Reachable

/-!
Tenant isolation of writes. Ownership is asked at four places of the code and never in `setStatus`;
here it is one property of every step of a request, and so of every request.
-/

namespace VcalmStatus

open Js Effects Policy

/-- Between two states of the tables, only one tenant's lists and allocations differ. -/
structure OnlyTenant (tenantId : String) (before after : Database) : Prop where
  lists : ∀ row, row.tenantId ≠ tenantId → (row ∈ after.statusLists ↔ row ∈ before.statusLists)
  allocations : ∀ a, a.tenantId ≠ tenantId →
    (a ∈ after.indexAllocations ↔ a ∈ before.indexAllocations)
  indexes : ∀ row ∈ after.statusLists, row.tenantId ≠ tenantId → ∀ n,
    after.isIndexAllocated row.id n = before.isIndexAllocated row.id n
  created : ∀ row ∈ after.statusLists, before.getStatusList row.id = none →
    row.tenantId = tenantId
  allocated : ∀ a ∈ after.indexAllocations, a ∉ before.indexAllocations → a.tenantId = tenantId

namespace OnlyTenant

variable {tenantId : String} {db db₁ db₂ db₃ : Database}

theorem refl (tenantId : String) (db : Database) : OnlyTenant tenantId db db where
  lists _ _ := .rfl
  allocations _ _ := .rfl
  indexes _ _ _ _ := rfl
  created row hrow hnone := absurd rfl (Database.getStatusList_eq_none.mp hnone row hrow)
  allocated _ ha hnot := absurd ha hnot

theorem trans (h : OnlyTenant tenantId db₁ db₂) (h' : OnlyTenant tenantId db₂ db₃) :
    OnlyTenant tenantId db₁ db₃ where
  lists row hne := (h'.lists row hne).trans (h.lists row hne)
  allocations a hne := (h'.allocations a hne).trans (h.allocations a hne)
  indexes row hrow hne n :=
    (h'.indexes row hrow hne n).trans (h.indexes row ((h'.lists row hne).mp hrow) hne n)
  created row hrow hnone := by
    by_contra hne
    have hold := (h.lists row hne).mp ((h'.lists row hne).mp hrow)
    exact Database.getStatusList_eq_none.mp hnone row hold rfl
  allocated a ha hnot := by
    by_contra hne
    exact hnot ((h.allocations a hne).mp ((h'.allocations a hne).mp ha))

/-- Whatever is not the tenant's is where it was, so what is new is the tenant's. -/
theorem of_frame
    (hlists : ∀ row, row.tenantId ≠ tenantId → (row ∈ db₂.statusLists ↔ row ∈ db₁.statusLists))
    (hallocations : ∀ a, a.tenantId ≠ tenantId →
      (a ∈ db₂.indexAllocations ↔ a ∈ db₁.indexAllocations))
    (hindexes : ∀ row ∈ db₂.statusLists, row.tenantId ≠ tenantId → ∀ n,
      db₂.isIndexAllocated row.id n = db₁.isIndexAllocated row.id n) :
    OnlyTenant tenantId db₁ db₂ where
  lists := hlists
  allocations := hallocations
  indexes := hindexes
  created row hrow hnone := by
    by_contra hne
    exact Database.getStatusList_eq_none.mp hnone row ((hlists row hne).mp hrow) rfl
  allocated a ha hnot := by
    by_contra hne
    exact hnot ((hallocations a hne).mp ha)

end OnlyTenant

section Events

variable {B : Type} {deps : AppDeps B} {tenants : TenantRegistry} {lawful : Prop}
  {issued : StatusListRecord → Prop} {requests : Nat → Option Request} {tenantId : String}

/-- One event of a request of the tenant. -/
theorem onlyTenant_event {e : Event} {db : Database}
    (hn : (db.statusLists.map (·.id)).Nodup)
    (he : e.Allowed (requestPolicy deps tenants lawful issued requests) db)
    (hacts : ∀ t, ActsFor deps tenants requests e.owner t → t = tenantId) :
    OnlyTenant tenantId db (e.apply db) := by
  have same : ∀ {a b : StatusListRecord}, a ∈ db.statusLists → b ∈ db.statusLists →
      a.id = b.id → a = b := fun ha hb h => List.inj_on_of_nodup_map hn ha hb h
  cases e with
  | created i row =>
      have htenant : row.tenantId = tenantId := hacts _ he.2.2.1
      refine .of_frame (fun other hne => ?_) (fun _ _ => .rfl) fun _ _ _ _ => rfl
      have hother : other ≠ row := fun h => hne (h ▸ htenant)
      simp [Event.apply, hother]
  | allocated i a =>
      obtain ⟨_, hmay, row, hrow, hid, hfits⟩ := he
      have htenant : a.tenantId = tenantId := hacts _ hmay
      refine .of_frame (fun _ _ => .rfl) (fun other hne => ?_) fun other hmem hne n => ?_
      · have hother : other ≠ a := fun h => hne (h ▸ htenant)
        simp [Event.apply, hother]
      · -- The list of the new allocation is the tenant's, so it is not this one.
        have hlist : a.listId ≠ other.id := by
          intro h
          have : row = other := same hrow hmem (hid.trans h)
          exact hne (this ▸ hfits.1.trans htenant)
        simp [Event.apply, Database.isIndexAllocated, hlist]
  | committed i row write =>
      obtain ⟨hrow, hmay, hres⟩ := he
      have htenant : row.tenantId = tenantId := hacts _ hmay
      cases write with
      | none => exact .refl tenantId db
      | some u =>
          have hid : u.id = row.id := (hres u rfl).id
          -- A row that is not the tenant's is not the one that is written.
          have kept : ∀ old ∈ db.statusLists, old.tenantId ≠ tenantId → u.apply old = old := by
            intro old hold hne
            refine RowUpdate.apply_of_ne fun h => hne ?_
            rw [same hold hrow (h.trans hid), htenant]
          refine .of_frame (fun other hne => ?_) (fun _ _ => .rfl) fun _ _ _ _ => rfl
          refine Database.mem_update.trans ⟨?_, fun hold => ⟨other, hold, kept other hold hne⟩⟩
          rintro ⟨old, hold, rfl⟩
          rw [← (SameBinding.apply u old).tenantId] at hne
          rwa [kept old hold hne]

/-- The events of requests of the tenant, one after the other. -/
theorem onlyTenant_history {log : List Event} {db₀ db : Database}
    (hn : (db₀.statusLists.map (·.id)).Nodup)
    (h : History (requestPolicy deps tenants lawful issued requests) db₀ log db)
    (hacts : ∀ e ∈ log, ∀ t, ActsFor deps tenants requests e.owner t → t = tenantId) :
    OnlyTenant tenantId db₀ db := by
  induction h with
  | start => exact .refl tenantId db₀
  | snoc h he ih =>
      refine (ih fun e he => hacts e (List.mem_append_left _ he)).trans ?_
      exact onlyTenant_event (h.ids_nodup hn) he
        (hacts _ (List.mem_append_right _ (List.mem_singleton_self _)))

/-- A request acts for the tenant its token is for, and for no other. -/
theorem eq_of_actsFor {i : Nat} {request : Request} {tenant : TenantRecord} {t : String}
    (hrequest : requests i = some request)
    (hcaller : deps.caller tenants request = some tenant)
    (h : ActsFor deps tenants requests i t) : t = tenant.tenantId := by
  obtain ⟨request', tenant', hrequest', hcaller', rfl⟩ := h
  rw [hrequest, Option.some.injEq] at hrequest'
  subst hrequest'
  rw [hcaller, Option.some.injEq] at hcaller'
  rw [hcaller']

end Events

/-- **Tenant isolation of writes.** In every state that any interleaving of requests reaches, a
step of a request authenticated as a tenant leaves everything of every other tenant as it is; and
so does the whole request, whatever its body and whatever it answers, when it is handled between
the others. -/
theorem tenant_isolation {B : Type} (deps : AppDeps B) (env : Environment)
    (requests : Nat → Option Request) :
    (∀ q, Reaches deps env requests q → ∀ i request tenant, requests i = some request →
      deps.caller env.tenants request = some tenant →
      ∀ o k r w', q.thread i = .call o k → World.step env i q.state o = some (r, w') →
      OnlyTenant tenant.tenantId q.state.db w'.db) ∧
    ∀ responses w, AllAnswered deps env requests responses w →
      ∀ i request tenant, requests i = none → deps.caller env.tenants request = some tenant →
      ∃ response w', (handle deps request).run (World.step env i) w = some (.ok response, w') ∧
        OnlyTenant tenant.tenantId w.db w'.db := by
  constructor
  · intro q hq i request tenant hrequest hcaller o k r w' hthread hstep
    have hgood := hq.good False (fun _ => True) False.elim (providesIssuer_true env)
    have hI := hgood.inv
    have hsafe := hgood.safe i
    rw [hthread] at hsafe
    have hG := (hsafe q.state (Interference.refl i _) hI).1
    obtain ⟨_, hdb⟩ | ⟨e, rfl, hallowed, _, hdb⟩ :=
      event_effect hI hG (World.effect_of_step hstep)
    · exact hdb ▸ .refl _ _
    · rw [hdb]
      exact onlyTenant_event hI.ids_nodup hallowed
        fun t => eq_of_actsFor hrequest hcaller
  · intro responses w hw i request tenant hi hcaller
    have hsettled := hw.settled False (fun _ => True) False.elim (providesIssuer_true env)
    obtain ⟨response, _, w', events, hrun, _, halone, _, _⟩ :=
      hsettled.handle request False.elim rfl hi
    refine ⟨response, w', hrun, onlyTenant_history hsettled.inv.ids_nodup halone.history ?_⟩
    exact fun e he t => eq_of_actsFor rfl hcaller

/-- A list and an entry for `globex`, and a list for `acme`. -/
def twoTenants : Nat → Option Request
  | 0 => some (fromGlobex createRequest)
  | 1 => some (fromGlobex (allocateRequest "urn:uuid:1"))
  | 2 => some createRequest
  | _ => none

/-- Where `globex` has a list with an allocation, `acme` has its list stored, and then asks for an
entry for a credential of the same name: the step that stores the list, and the second request as a
whole, leave what `globex` has. -/
theorem tenant_isolation_two_tenants :
    (∃ q o k r w', Reaches testApp (testEnvironment .postgres) twoTenants q ∧
      (q.state.db.statusLists.map (·.tenantId) = ["globex"] ∧
        q.state.db.indexAllocations.map (·.tenantId) = ["globex"]) ∧
      q.thread 2 = .call o k ∧
      World.step (testEnvironment .postgres) 2 q.state o = some (r, w') ∧
      w'.db.statusLists.map (·.tenantId) = ["globex", "acme"] ∧
      OnlyTenant "acme" q.state.db w'.db) ∧
    ∃ w response w', handled (testEnvironment .postgres) World.initial 0
        [fromGlobex createRequest, fromGlobex (allocateRequest "urn:uuid:1")] = some w ∧
      (handle testApp (allocateRequest "urn:uuid:1")).run
        (World.step (testEnvironment .postgres) 2) w = some (.ok response, w') ∧
      w'.db.indexAllocations.map (·.tenantId) = ["globex", "acme"] ∧
      OnlyTenant "acme" w.db w'.db := by
  have hcaller : ∀ path body, testApp.caller (testEnvironment .postgres).tenants
      (postRequest path body) = some (testTenant "acme") := caller_postRequest
  constructor
  · -- After the two requests of `globex`, six turns lead `acme` to the insert of its list.
    obtain ⟨q, hq, hlists, hallocations, hnext⟩ :
        ∃ q, Reaches testApp (testEnvironment .postgres) twoTenants q ∧
          q.state.db.statusLists.map (·.tenantId) = ["globex"] ∧
          q.state.db.indexAllocations.map (·.tenantId) = ["globex"] ∧
          (q.thread 2).next?.any fun o =>
            (World.step (testEnvironment .postgres) 2 q.state o).any fun rs =>
              rs.2.db.statusLists.map (·.tenantId) = ["globex", "acme"] :=
      ⟨_, (Pool.traced_scheduled
        (List.replicate 7 0 ++ List.replicate 8 1 ++ List.replicate 6 2) _).run, by decide +kernel⟩
    obtain ⟨o, ho, hstep⟩ := (Option.any_eq_true _ _).mp hnext
    obtain ⟨k, hthread⟩ := Program.exists_of_next? ho
    obtain ⟨⟨r, w'⟩, hstep, hstored⟩ := (Option.any_eq_true _ _).mp hstep
    exact ⟨q, o, k, r, w', hq, ⟨hlists, hallocations⟩, hthread, hstep, by simpa using hstored,
      (tenant_isolation testApp (testEnvironment .postgres) twoTenants).1 q hq 2 createRequest
        (testTenant "acme") rfl (hcaller _ _) o k r w' hthread hstep⟩
  · have hcomputed : ((handled (testEnvironment .postgres) World.initial 0
        [fromGlobex createRequest, fromGlobex (allocateRequest "urn:uuid:1")]).any fun w =>
          ((handle testApp (allocateRequest "urn:uuid:1")).run
            (World.step (testEnvironment .postgres) 2) w).any fun rs =>
              rs.2.db.indexAllocations.map (·.tenantId) = ["globex", "acme"]) = true := by
      decide +kernel
    obtain ⟨w, hw, hcomputed⟩ := (Option.any_eq_true _ _).mp hcomputed
    obtain ⟨⟨r, w'⟩, hrun, hstored⟩ := (Option.any_eq_true _ _).mp hcomputed
    obtain ⟨requests, responses, hall, hfree⟩ := allAnswered_of_handled hw
    obtain ⟨response, w'', hrun', honly⟩ := (tenant_isolation testApp (testEnvironment .postgres)
      requests).2 responses w hall 2 (allocateRequest "urn:uuid:1") (testTenant "acme") hfree
        (hcaller _ _)
    rw [hrun', Option.some.injEq, Prod.mk.injEq] at hrun
    obtain ⟨-, rfl⟩ := hrun
    exact ⟨w, response, w'', hw, hrun', by simpa using hstored, honly⟩

end VcalmStatus
