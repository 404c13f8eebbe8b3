import Mathlib.Data.List.Induction
import VcalmStatus.Auth

/-!
`MemoryTenantRegistry` over whole sequences of `add` calls, statement by statement: which tokens
the reverse index answers for, and when these are the tokens of the current records.
-/

namespace VcalmStatus

open Js Effects

namespace MemoryTenantRegistry

/-- The first loop of `add`: the owner of every token is asked for before anything is written. -/
def checkTokens (tenantId : String) :
    List String → MemoryTenantRegistry → Except JsError Unit × MemoryTenantRegistry
  | [], r => (.ok (), r)
  | token :: rest, r =>
      if (r.byToken token).any (· ≠ tenantId) then (.error (.other "Error"), r)
      else checkTokens tenantId rest r

/-- The second loop of `add`. -/
def setTokens (tenantId : String) : List String → MemoryTenantRegistry → MemoryTenantRegistry
  | [], r => r
  | token :: rest, r =>
      setTokens tenantId rest
        { r with byToken := Function.update r.byToken token (some tenantId) }

/-- `add(tenant)`: what the call came to, and the two maps as it leaves them. -/
def addCall (r : MemoryTenantRegistry) (tenant : TenantRecord) :
    Except JsError Unit × MemoryTenantRegistry :=
  match checkTokens tenant.tenantId tenant.tokens r with
  | (.error e, r) => (.error e, r)
  | (.ok _, r) =>
      (.ok (), setTokens tenant.tenantId tenant.tokens
        { r with tenants := Function.update r.tenants tenant.tenantId (some tenant) })

/-- The registry after a call, thrown or not. -/
def after (r : MemoryTenantRegistry) (tenant : TenantRecord) : MemoryTenantRegistry :=
  (r.addCall tenant).2

/-- The registry that a sequence of calls leaves. -/
def registered (tenants : List TenantRecord) : MemoryTenantRegistry := tenants.foldl after empty

variable {r : MemoryTenantRegistry} {tenant : TenantRecord}

/-! ### What one call does -/

/-- One of the tenant's tokens is another tenant's. -/
def Collides (r : MemoryTenantRegistry) (tenant : TenantRecord) : Prop :=
  ∃ token ∈ tenant.tokens, ∃ owner, r.byToken token = some owner ∧ owner ≠ tenant.tenantId

theorem checkTokens_eq (tenantId : String) (tokens : List String) :
    checkTokens tenantId tokens r =
      (if tokens.any fun token => (r.byToken token).any (· ≠ tenantId)
        then .error (.other "Error") else .ok (), r) := by
  induction tokens with
  | nil => rfl
  | cons token rest ih =>
      cases hany : (r.byToken token).any (· ≠ tenantId) with
      | true => simp only [checkTokens, hany, List.any_cons, Bool.true_or, if_true]
      | false =>
          rw [checkTokens, hany, List.any_cons, hany, Bool.false_or]
          exact ih

theorem setTokens_tenants (tenantId : String) (tokens : List String) :
    (setTokens tenantId tokens r).tenants = r.tenants := by
  induction tokens generalizing r with
  | nil => rfl
  | cons token rest ih => exact ih

theorem setTokens_byToken (tenantId : String) (tokens : List String) (token : String) :
    (setTokens tenantId tokens r).byToken token =
      if token ∈ tokens then some tenantId else r.byToken token := by
  induction tokens generalizing r with
  | nil => simp [setTokens]
  | cons first rest ih =>
      rw [setTokens, ih]
      by_cases hrest : token ∈ rest
      · simp [hrest]
      · by_cases hfirst : token = first
        · simp [hfirst]
        · simp [hrest, hfirst]

/-- A call that throws leaves both maps as they were. -/
theorem addCall_of_collides (h : r.Collides tenant) :
    r.addCall tenant = (.error (.other "Error"), r) := by
  obtain ⟨token, htoken, owner, howner, hne⟩ := h
  have hany : (tenant.tokens.any fun token =>
      (r.byToken token).any (· ≠ tenant.tenantId)) = true :=
    List.any_eq_true.mpr ⟨token, htoken, by simp [howner, hne]⟩
  simp only [addCall, checkTokens_eq, hany, if_true]

theorem addCall_of_not_collides (h : ¬r.Collides tenant) :
    r.addCall tenant = (.ok (), setTokens tenant.tenantId tenant.tokens
      { r with tenants := Function.update r.tenants tenant.tenantId (some tenant) }) := by
  have hany : (tenant.tokens.any fun token =>
      (r.byToken token).any (· ≠ tenant.tenantId)) = false := by
    refine List.any_eq_false.mpr fun token htoken hother => h ?_
    obtain ⟨owner, howner, hne⟩ := (Option.any_eq_true _ _).mp hother
    exact ⟨token, htoken, owner, howner, by simpa using hne⟩
  simp only [addCall, checkTokens_eq, hany, Bool.false_eq_true, if_false]

theorem setTokens_eq (tenantId : String) (tokens : List String) :
    setTokens tenantId tokens r = MemoryTenantRegistry.mk r.tenants
      (tokens.foldl (fun m token => Function.update m token (some tenantId)) r.byToken) := by
  induction tokens generalizing r with
  | nil => rfl
  | cons token rest ih => exact ih

/-- The constructor makes these calls, and stops at the first that throws. -/
theorem add_eq :
    r.add tenant = (r.addCall tenant).1.map fun _ => (r.addCall tenant).2 := by
  by_cases h : r.Collides tenant
  · rw [addCall_of_collides h, add, if_pos]
    · rfl
    · obtain ⟨token, htoken, owner, howner, hne⟩ := h
      exact List.any_eq_true.mpr ⟨token, htoken, by simp [howner, hne]⟩
  · rw [addCall_of_not_collides h, add, if_neg, setTokens_eq]
    · rfl
    · intro hany
      obtain ⟨token, htoken, hother⟩ := List.any_eq_true.mp hany
      cases howner : r.byToken token with
      | none => simp [howner] at hother
      | some owner => exact h ⟨token, htoken, owner, howner, by simpa [howner] using hother⟩

/-! ### The reverse index over a run -/

/-- Every token of a current record is filed under its tenant. -/
structure Indexed (r : MemoryTenantRegistry) : Prop where
  filed : r.Filed
  byToken : ∀ id record, r.tenants id = some record → ∀ token ∈ record.tokens,
    r.byToken token = some id
  owned : ∀ token id, r.byToken token = some id → ∃ record, r.tenants id = some record

theorem after_of_collides (h : r.Collides tenant) : r.after tenant = r :=
  congrArg Prod.snd (addCall_of_collides h)

/-- The two maps after a call that was accepted. -/
theorem after_tenants (h : ¬r.Collides tenant) (id : String) :
    (r.after tenant).tenants id = if id = tenant.tenantId then some tenant else r.tenants id := by
  rw [after, addCall_of_not_collides h, setTokens_tenants]
  by_cases hid : id = tenant.tenantId
  · simp [hid]
  · simp [hid]

theorem after_byToken (h : ¬r.Collides tenant) (token : String) :
    (r.after tenant).byToken token =
      if token ∈ tenant.tokens then some tenant.tenantId else r.byToken token := by
  rw [after, addCall_of_not_collides h, setTokens_byToken]

theorem indexed_empty : empty.Indexed :=
  ⟨nofun, nofun, nofun⟩

/-- The step lemma of the index. -/
theorem Indexed.after (hr : r.Indexed) (tenant : TenantRecord) : (r.after tenant).Indexed := by
  by_cases h : r.Collides tenant
  · rw [after_of_collides h]
    exact hr
  · refine ⟨fun id record hid => ?_, fun id record hid token htoken => ?_,
      fun token id hid => ?_⟩
    · rw [after_tenants h] at hid
      split at hid <;> rename_i hsame
      · cases hid
        exact hsame.symm
      · exact hr.filed id record hid
    · rw [after_tenants h] at hid
      rw [after_byToken h]
      split at hid <;> rename_i hsame
      · cases hid
        rw [if_pos htoken, hsame]
      · have howner := hr.byToken id record hid token htoken
        -- A token of another tenant's record is one the call would have thrown at.
        have hnew : token ∉ tenant.tokens := fun hmem => h ⟨token, hmem, id, howner, hsame⟩
        rw [if_neg hnew, howner]
    · rw [after_byToken h] at hid
      rw [after_tenants h]
      split at hid
      · cases hid
        exact ⟨tenant, if_pos rfl⟩
      · obtain ⟨record, hrecord⟩ := hr.owned token id hid
        by_cases hsame : id = tenant.tenantId
        · exact ⟨tenant, if_pos hsame⟩
        · exact ⟨record, by rw [if_neg hsame, hrecord]⟩

/-- The run lemma of the index. -/
theorem indexed_registered (adds : List TenantRecord) : (registered adds).Indexed := by
  suffices H : ∀ r : MemoryTenantRegistry, r.Indexed →
      (adds.foldl MemoryTenantRegistry.after r).Indexed from
    H empty indexed_empty
  induction adds with
  | nil => exact fun r hr => hr
  | cons tenant adds ih => exact fun r hr => ih _ (hr.after tenant)

theorem registered_snoc (adds : List TenantRecord) (tenant : TenantRecord) :
    registered (adds ++ [tenant]) = (registered adds).after tenant := by
  rw [registered, List.foldl_append]
  rfl

/-! ### Current tokens -/

/-- A static token is one that no access token is made of. -/
def Accepts (r : MemoryTenantRegistry) (token : String) (record : TenantRecord) : Prop :=
  ∃ (hr : r.Filed) (platform : Platform) (accessJwtSecret : Option String) (receivedAt : Date)
    (env : Environment) (i : Nat) (w w' : World), env.tenants = r.toRegistry hr ∧
    tenantIdFromAccessToken platform receivedAt token accessJwtSecret = none ∧
    (resolveTenant platform accessJwtSecret receivedAt token).run (World.step env i) w =
      some (.ok (some record), w')

/-- What the registry answers for is exactly the tokens of its current records. -/
structure Current (r : MemoryTenantRegistry) : Prop where
  token : ∀ token record, r.getTenantByToken token = some record ↔
    token ≠ "" ∧ r.getTenant record.tenantId = some record ∧ token ∈ record.tokens
  single : ∀ token a b, r.getTenant a.tenantId = some a → r.getTenant b.tenantId = some b →
    token ∈ a.tokens → token ∈ b.tokens → a = b
  thrown : ∀ tenant e, (r.addCall tenant).1 = .error e → r.after tenant = r
  accepts : ∀ token record, r.Accepts token record →
    r.getTenant record.tenantId = some record ∧ token ∈ record.tokens

/-- If the call is accepted, the tenant keeps every token that its record has so far. -/
def KeepsTokens (r : MemoryTenantRegistry) (tenant : TenantRecord) : Prop :=
  ¬r.Collides tenant → ∀ old, r.getTenant tenant.tenantId = some old →
    ∀ token ∈ old.tokens, token ≠ "" → token ∈ tenant.tokens

/-- The reverse index names no token that its tenant's record does not have. -/
def NoStale (r : MemoryTenantRegistry) : Prop :=
  ∀ token id record, token ≠ "" → r.byToken token = some id → r.tenants id = some record →
    token ∈ record.tokens

theorem NoStale.after (hr : r.NoStale) (hindexed : r.Indexed) (h : r.KeepsTokens tenant) :
    (r.after tenant).NoStale := by
  by_cases hcollides : r.Collides tenant
  · rw [after_of_collides hcollides]
    exact hr
  · intro token id record hne hid hrecord
    rw [after_byToken hcollides] at hid
    rw [after_tenants hcollides] at hrecord
    by_cases hsame : id = tenant.tenantId
    · rw [if_pos hsame] at hrecord
      cases hrecord
      split at hid <;> rename_i hmem
      · exact hmem
      · obtain ⟨old, hold⟩ := hindexed.owned token id hid
        exact h hcollides old (hsame ▸ hold) token (hr token id old hne hid hold) hne
    · rw [if_neg hsame] at hrecord
      split at hid
      · cases hid
        exact absurd rfl hsame
      · exact hr token id record hne hid hrecord

theorem getTenantByToken_eq_some {token : String} {record : TenantRecord} :
    r.getTenantByToken token = some record ↔
      token ≠ "" ∧ ∃ id, r.byToken token = some id ∧ r.tenants id = some record := by
  rw [getTenantByToken]
  split <;> rename_i hempty
  · simp [hempty]
  · simp [hempty, Option.bind_eq_some_iff]

/-- With nothing stale, the two maps are in step. -/
theorem NoStale.current (hr : r.NoStale) (hindexed : r.Indexed) : r.Current := by
  have htoken : ∀ token record, r.getTenantByToken token = some record ↔
      token ≠ "" ∧ r.getTenant record.tenantId = some record ∧ token ∈ record.tokens := by
    intro token record
    rw [getTenantByToken_eq_some]
    constructor
    · rintro ⟨hne, id, hid, hrecord⟩
      have hfiled := hindexed.filed id record hrecord
      exact ⟨hne, by rw [hfiled]; exact hrecord, hr token id record hne hid hrecord⟩
    · rintro ⟨hne, hrecord, hmem⟩
      exact ⟨hne, _, hindexed.byToken _ record hrecord token hmem, hrecord⟩
  refine ⟨htoken, fun token a b ha hb hta htb => ?_, fun tenant e he => ?_,
    fun token record haccepts => ?_⟩
  · have hid : some a.tenantId = some b.tenantId :=
      (hindexed.byToken _ a ha token hta).symm.trans (hindexed.byToken _ b hb token htb)
    rw [Option.some.injEq] at hid
    rw [hid, hb, Option.some.injEq] at ha
    exact ha.symm
  · by_contra hchanged
    have hcollides : ¬r.Collides tenant := fun h => hchanged (after_of_collides h)
    rw [addCall_of_not_collides hcollides] at he
    cases he
  · obtain ⟨hfiled, platform, secret, receivedAt, env, i, w, w', htenants, hstatic, hrun⟩ :=
      haccepts
    rw [resolveTenant, hstatic] at hrun
    obtain ⟨⟨answer, t⟩, hstep, hret⟩ := Option.bind_eq_some_iff.mp hrun
    cases hret
    have hanswer : some record = env.tenants.getTenantByToken token :=
      congrArg Prod.fst (World.step_eq_some.mp hstep).2.symm
    rw [htenants] at hanswer
    exact ((htoken token record).mp hanswer.symm).2

/-- A token that was dropped is still answered for. -/
theorem KeepsTokens.of_current (hindexed : r.Indexed) (h : (r.after tenant).Current) :
    r.KeepsTokens tenant := by
  intro hcollides old hold token hmem hne
  by_contra hdropped
  have hid : (r.after tenant).byToken token = some tenant.tenantId := by
    rw [after_byToken hcollides, if_neg hdropped]
    exact hindexed.byToken _ old hold token hmem
  have hrecord : (r.after tenant).tenants tenant.tenantId = some tenant := by
    rw [after_tenants hcollides, if_pos rfl]
  exact hdropped ((h.token token tenant).mp
    (getTenantByToken_eq_some.mpr ⟨hne, _, hid, hrecord⟩)).2.2

/-- **The registry authenticates exactly the current tokens, throughout a run, if and only if no
accepted call drops a token.** -/
theorem current_iff_keepsTokens (adds : List TenantRecord) :
    (∀ before, before <+: adds → (registered before).Current) ↔
      ∀ before tenant, before ++ [tenant] <+: adds → (registered before).KeepsTokens tenant := by
  constructor
  · intro h before tenant hprefix
    refine KeepsTokens.of_current (indexed_registered before) ?_
    rw [← registered_snoc]
    exact h _ hprefix
  · intro h before hprefix
    refine NoStale.current ?_ (indexed_registered before)
    -- By induction on the calls made so far.
    induction before using List.reverseRec with
    | nil => exact fun token id record _ hid => by cases hid
    | append_singleton before tenant ih =>
        rw [registered_snoc]
        exact (ih ((List.prefix_append before [tenant]).trans hprefix)).after
          (indexed_registered before) (h before tenant hprefix)

/-- `acme` with one token only. -/
def acmeWithToken (token : String) : TenantRecord :=
  { tenantId := "acme", tokens := [token], issuerInstances := [] }

/-- A rotated-out token still authenticates. -/
theorem rotated_out_token :
    ¬∀ before, before <+: [acmeWithToken "old-secret", acmeWithToken "new-secret"] →
      (registered before).Current := by
  intro h
  have hcurrent := h _ (List.prefix_refl _)
  have hfound : (registered [acmeWithToken "old-secret", acmeWithToken "new-secret"]).getTenantByToken
      "old-secret" = some (acmeWithToken "new-secret") := by decide
  exact absurd ((hcurrent.token _ _).mp hfound).2.2 (by decide)

end MemoryTenantRegistry

end VcalmStatus
