import VcalmStatus.Services.Records

/-!
Tenants and their registry. `TenantRegistry` is the read-only interface the rest of the service
sees, with the one fact everybody relies on: the record found by a token is the record found by
that tenant's id. `MemoryTenantRegistry` is the registry behind both configurations.
-/

namespace VcalmStatus

structure TenantRecord where
  tenantId : String
  tokens : List String
  issuerInstances : List IssuerInstance
  defaultInstanceId : Option String := none
  authorizedDomains : Option (List String) := none
  deriving DecidableEq, Repr

/-- The instance a list should bind to, if there is one. -/
def resolveIssuerInstance (tenant : TenantRecord) (instanceId : Option String := none) :
    Option IssuerInstance :=
  match instanceId <|> tenant.defaultInstanceId with
  | none =>
      match tenant.issuerInstances with
      | [only] => some only
      | _ => none
  | some wanted => tenant.issuerInstances.find? fun candidate => candidate.id = wanted

/-- An instance that was resolved once is what its own id resolves to. -/
theorem resolveIssuerInstance_id {tenant : TenantRecord} {wanted : Option String}
    {found : IssuerInstance} (h : resolveIssuerInstance tenant wanted = some found) :
    resolveIssuerInstance tenant (some found.id) = some found := by
  change tenant.issuerInstances.find? (fun candidate => candidate.id = found.id) = some found
  unfold resolveIssuerInstance at h
  split at h
  · split at h <;> rename_i hone
    · cases h
      simp [hone]
    · cases h
  · rename_i id hid
    have hfound : found.id = id := by simpa using List.find?_some h
    rw [hfound]
    exact h

/-- What callers see of a tenant registry. -/
structure TenantRegistry where
  getTenant : String → Option TenantRecord
  getTenantByToken : String → Option TenantRecord
  tenantId_of_getTenant : ∀ {id t}, getTenant id = some t → t.tenantId = id
  getTenant_of_token : ∀ {token t}, getTenantByToken token = some t →
    getTenant t.tenantId = some t

/-! ### The in-memory registry -/

/-- Two maps: the records by id, and the owner of each token. -/
structure MemoryTenantRegistry where
  tenants : String → Option TenantRecord
  byToken : String → Option String

namespace MemoryTenantRegistry

def empty : MemoryTenantRegistry := ⟨fun _ => none, fun _ => none⟩

/-- Registers a tenant, or throws when one of its tokens is another tenant's. -/
def add (r : MemoryTenantRegistry) (tenant : TenantRecord) :
    Except JsError MemoryTenantRegistry :=
  if tenant.tokens.any fun token =>
      match r.byToken token with
      | some owner => owner ≠ tenant.tenantId
      | none => false
  then .error (.other "Error")
  else .ok
    { tenants := Function.update r.tenants tenant.tenantId (some tenant)
      byToken := tenant.tokens.foldl
        (fun m token => Function.update m token (some tenant.tenantId)) r.byToken }

/-- The constructor: every tenant is added in turn. -/
def ofTenants (tenants : List TenantRecord) : Except JsError MemoryTenantRegistry :=
  tenants.foldlM add empty

def getTenant (r : MemoryTenantRegistry) (tenantId : String) : Option TenantRecord :=
  r.tenants tenantId

def getTenantByToken (r : MemoryTenantRegistry) (token : String) : Option TenantRecord :=
  if token = "" then none else (r.byToken token).bind r.tenants

/-- Every record is filed under its own id. -/
def Filed (r : MemoryTenantRegistry) : Prop := ∀ id t, r.tenants id = some t → t.tenantId = id

theorem filed_add {r r' : MemoryTenantRegistry} {tenant : TenantRecord} (hr : r.Filed)
    (h : r.add tenant = .ok r') : r'.Filed := by
  unfold add at h
  split at h
  · cases h
  · cases h
    intro id t ht
    change Function.update r.tenants tenant.tenantId (some tenant) id = some t at ht
    by_cases hid : id = tenant.tenantId
    · subst hid
      simp only [Function.update_self, Option.some.injEq] at ht
      rw [← ht]
    · rw [Function.update_of_ne hid] at ht
      exact hr id t ht

theorem filed_ofTenants {tenants : List TenantRecord} {r : MemoryTenantRegistry}
    (h : ofTenants tenants = .ok r) : r.Filed := by
  suffices H : ∀ (ts : List TenantRecord) (r₀ : MemoryTenantRegistry), r₀.Filed →
      ts.foldlM add r₀ = .ok r → r.Filed from
    H tenants empty (fun _ _ h => by cases h) h
  intro ts
  induction ts with
  | nil =>
      intro r₀ h₀ h
      cases h
      exact h₀
  | cons t ts ih =>
      intro r₀ h₀ h
      rw [List.foldlM_cons] at h
      cases hadd : r₀.add t with
      | error e =>
          rw [hadd] at h
          cases h
      | ok r₁ =>
          rw [hadd] at h
          exact ih r₁ (filed_add h₀ hadd) h

/-- A registry built by its constructor is one callers can rely on. -/
def toRegistry (r : MemoryTenantRegistry) (hr : r.Filed) : TenantRegistry where
  getTenant := r.getTenant
  getTenantByToken := r.getTenantByToken
  tenantId_of_getTenant h := hr _ _ h
  getTenant_of_token := by
    intro token t h
    unfold getTenantByToken at h
    split at h
    · cases h
    · obtain ⟨id, _, hid⟩ := Option.bind_eq_some_iff.mp h
      rw [← hr _ _ hid] at hid
      exact hid

end MemoryTenantRegistry

end VcalmStatus
