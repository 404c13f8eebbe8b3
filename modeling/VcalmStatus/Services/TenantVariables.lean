import VcalmStatus.Effects.Loop
import VcalmStatus.Effects.Traverse
import VcalmStatus.Services.TenantsEnv

/-!
Which variables are whose. A name is made of a stem and a tenant's suffix with nothing to mark where
the one ends, but no stem is the beginning of another, so the name shows both. What is read for a
tenant depends on the variables with its suffix alone.
-/

namespace VcalmStatus

open Js Effects

namespace TenantsEnv

/-- The variables of one tenant. -/
inductive TenantVariable
  | token
  | domains
  | defaultInstance
  | issuer (n : Nat) (field : InstanceField)
  deriving DecidableEq, Repr

def TenantVariable.name (suffix : String) : TenantVariable → String
  | .token => "TENANT_TOKEN_" ++ suffix
  | .domains => "TENANT_DOMAINS_" ++ suffix
  | .defaultInstance => "TENANT_DEFAULT_INSTANCE_" ++ suffix
  | .issuer n field => instanceVariable n field suffix

/-- A number is over where the underscore comes. -/
theorem digits_append_underscore {n n' : Nat} {s s' : List Char}
    (h : Nat.toDigits 10 n ++ '_' :: s = Nat.toDigits 10 n' ++ '_' :: s') : n = n' ∧ s = s' := by
  have htake : ∀ (m : Nat) (t : List Char),
      (Nat.toDigits 10 m ++ '_' :: t).takeWhile Char.isDigit = Nat.toDigits 10 m := by
    intro m t
    rw [List.takeWhile_append_of_pos fun c hc =>
      Nat.isDigit_of_mem_toDigits (by omega) (by omega) hc]
    simp
  have hdigits : Nat.toDigits 10 n = Nat.toDigits 10 n' := by
    rw [← htake n s, h, htake n' s']
  refine ⟨?_, ?_⟩
  · have hvalue : ∀ m, Nat.ofDigitChars 10 (Nat.toDigits 10 m) 0 = m :=
      fun m => Nat.ofDigitChars_ten_toDigits
    rw [← hvalue n, hdigits, hvalue n']
  · rw [hdigits] at h
    simpa using List.append_cancel_left h

/-- Of two beginnings of a text one is the beginning of the other. -/
theorem isPrefixOf_of_append_eq {a b s t : List Char} (h : a ++ s = b ++ t) :
    (a.isPrefixOf b || b.isPrefixOf a) = true := by
  rw [Bool.or_eq_true, List.isPrefixOf_iff_prefix, List.isPrefixOf_iff_prefix]
  exact List.prefix_or_prefix_of_prefix (List.prefix_append a s) (h ▸ List.prefix_append b t)

/-- No field's name with its underscore is the beginning of another's. -/
theorem fieldText_append_underscore {f f' : InstanceField} {s s' : List Char}
    (h : f.text.toList ++ '_' :: s = f'.text.toList ++ '_' :: s') : f = f' ∧ s = s' := by
  have hfree : ∀ f f' : InstanceField,
      ((f.text.toList ++ ['_']).isPrefixOf (f'.text.toList ++ ['_']) ||
        (f'.text.toList ++ ['_']).isPrefixOf (f.text.toList ++ ['_'])) = true → f = f' := by
    intro f f'
    cases f <;> cases f' <;> decide
  have h : (f.text.toList ++ ['_']) ++ s = (f'.text.toList ++ ['_']) ++ s' := by simpa using h
  obtain rfl := hfree f f' (isPrefixOf_of_append_eq h)
  exact ⟨rfl, List.append_cancel_left h⟩

/-- The literal a name begins with, -/
def TenantVariable.kind : TenantVariable → String
  | .token => "TENANT_TOKEN_"
  | .domains => "TENANT_DOMAINS_"
  | .defaultInstance => "TENANT_DEFAULT_INSTANCE_"
  | .issuer _ _ => "TENANT_ISSUER_"

/-- and what follows it. -/
def TenantVariable.rest (suffix : String) : TenantVariable → List Char
  | .issuer n field => Nat.toDigits 10 n ++ '_' :: (field.text.toList ++ '_' :: suffix.toList)
  | _ => suffix.toList

theorem TenantVariable.toList_name (v : TenantVariable) (suffix : String) :
    (v.name suffix).toList = v.kind.toList ++ v.rest suffix := by
  cases v with
  | token => exact String.toList_append
  | domains => exact String.toList_append
  | defaultInstance => exact String.toList_append
  | issuer n field =>
      show ("TENANT_ISSUER_" ++ toString n ++ "_" ++ field.text ++ "_" ++ suffix).toList =
        "TENANT_ISSUER_".toList ++
          (Nat.toDigits 10 n ++ '_' :: (field.text.toList ++ '_' :: suffix.toList))
      simp

/-- None of the literals is the beginning of another. -/
theorem TenantVariable.kind_eq {v v' : TenantVariable}
    (h : (v.kind.toList.isPrefixOf v'.kind.toList || v'.kind.toList.isPrefixOf v.kind.toList) =
      true) : v.kind = v'.kind := by
  let kinds := ["TENANT_TOKEN_", "TENANT_DOMAINS_", "TENANT_DEFAULT_INSTANCE_", "TENANT_ISSUER_"]
  have hfree : ∀ a ∈ kinds, ∀ b ∈ kinds,
      (a.toList.isPrefixOf b.toList || b.toList.isPrefixOf a.toList) = true → a = b := by decide
  have hmem : ∀ w : TenantVariable, w.kind ∈ kinds := by
    intro w
    cases w <;> simp [kind, kinds]
  exact hfree _ (hmem v) _ (hmem v') h

/-- A name shows the variable and the suffix it was made of. -/
theorem TenantVariable.name_inj {v v' : TenantVariable} {s s' : String}
    (h : v.name s = v'.name s') : v = v' ∧ s = s' := by
  rw [← String.toList_inj, toList_name, toList_name] at h
  have hkind := kind_eq (isPrefixOf_of_append_eq h)
  rw [hkind] at h
  have hrest := List.append_cancel_left h
  rcases v with _ | _ | _ | ⟨n, f⟩ <;> rcases v' with _ | _ | _ | ⟨n', f'⟩ <;>
    simp [kind] at hkind
  · exact ⟨rfl, String.toList_inj.mp hrest⟩
  · exact ⟨rfl, String.toList_inj.mp hrest⟩
  · exact ⟨rfl, String.toList_inj.mp hrest⟩
  · obtain ⟨rfl, hfield⟩ := digits_append_underscore hrest
    obtain ⟨rfl, hsuffix⟩ := fieldText_append_underscore hfield
    exact ⟨rfl, String.toList_inj.mp hsuffix⟩

/-- A tenant is defined by its token variable alone. -/
theorem isTokenKey_name {v : TenantVariable} {suffix : String} :
    isTokenKey (v.name suffix) = true ↔ v = .token := by
  rw [isTokenKey, TenantVariable.toList_name, List.isPrefixOf_iff_prefix]
  constructor
  · intro hpre
    obtain ⟨rest, hrest⟩ := hpre
    have hkind := TenantVariable.kind_eq (v := .token) (isPrefixOf_of_append_eq hrest)
    cases v with
    | token => rfl
    | domains => simp [TenantVariable.kind] at hkind
    | defaultInstance => simp [TenantVariable.kind] at hkind
    | issuer n field => simp [TenantVariable.kind] at hkind
  · rintro rfl
    exact List.prefix_append _ _

/-! ### The loop over the instances -/

section

variable {tenantId suffix : String} {n : Nat} {read : InstanceField → Option String}
  {instances : List IssuerInstance}

/-- A turn finds the gap exactly where the instance has no id. -/
theorem readInstance_eq_none_iff :
    readInstance tenantId suffix n read instances = .ok none ↔ read .id = none := by
  unfold readInstance
  split <;> rename_i hid
  · simp [hid]
  · refine iff_of_false ?_ (by simp [hid])
    intro h
    obtain ⟨didMethod, -, h⟩ := bind_eq_ok.mp h
    dsimp only at h
    split at h
    · cases h
    obtain ⟨keyMaterial, -, h⟩ := bind_eq_ok.mp h
    split at h
    · cases h
    obtain ⟨cryptosuite, -, h⟩ := bind_eq_ok.mp h
    cases h

/-- What a turn returns when it returns an instance, and when that is. -/
theorem readInstance_eq_some_iff {found : IssuerInstance} :
    readInstance tenantId suffix n read instances = .ok (some found) ↔
      read .id = some found.id ∧
        parseDidMethod (read .didMethod) s!"TENANT_ISSUER_{n}_*_{suffix}" = .ok found.didMethod ∧
        ¬(found.didMethod = .web ∧ read .didUrl = none) ∧
        parseKeyMaterial (read .seed) (read .publicKey) (read .secretKey)
          s!"TENANT_ISSUER_{n}_*_{suffix}" = .ok found.keyMaterial ∧
        (∀ earlier ∈ instances, earlier.id ≠ found.id) ∧
        parseCryptosuite (read .cryptosuite) s!"TENANT_ISSUER_{n}_*_{suffix}" =
          .ok found.cryptosuite ∧
        found.didUrl = read .didUrl ∧
        found.signingServiceTenant = some ((read .signingTenant).getD tenantId) ∧
        found.signingServiceToken = read .signingToken ∧ found.issuerDid = read .issuerDid := by
  constructor
  · intro h
    unfold readInstance at h
    split at h <;> rename_i hid
    · cases h
    obtain ⟨didMethod, hmethod, h⟩ := bind_eq_ok.mp h
    dsimp only at h
    split at h <;> rename_i hurl
    · cases h
    obtain ⟨keyMaterial, hkeys, h⟩ := bind_eq_ok.mp h
    split at h <;> rename_i hearlier
    · cases h
    obtain ⟨cryptosuite, hsuite, h⟩ := bind_eq_ok.mp h
    cases h
    exact ⟨hid, hmethod, hurl, hkeys, by simpa using hearlier, hsuite, rfl, rfl, rfl, rfl⟩
  · rintro ⟨hid, hmethod, hurl, hkeys, hearlier, hsuite, hdidUrl, htenant, htoken, hdid⟩
    have hany : (instances.any fun issuerInstance => issuerInstance.id = found.id) = false := by
      simpa using hearlier
    unfold readInstance
    rw [hid]
    refine bind_eq_ok.mpr ⟨_, hmethod, ?_⟩
    dsimp only
    rw [if_neg hurl]
    refine bind_eq_ok.mpr ⟨_, hkeys, ?_⟩
    rw [hany]
    refine bind_eq_ok.mpr ⟨_, hsuite, ?_⟩
    rw [← hdidUrl, ← htenant, ← htoken, ← hdid]

end

theorem instancesFrom_succ (env : ProcessEnv) (tenantId suffix : String) (bound n : Nat)
    (instances : List IssuerInstance) :
    instancesFrom env tenantId suffix (bound + 1) n instances =
      readInstance tenantId suffix n (instanceField env suffix n) instances >>= fun found =>
        match found with
        | none => pure instances
        | some issuerInstance =>
            instancesFrom env tenantId suffix bound (n + 1) (instances ++ [issuerInstance]) := rfl

theorem instanceField_eq (env : ProcessEnv) (suffix : String) (n : Nat) (field : InstanceField) :
    instanceField env suffix n field =
      ((env.get? ((TenantVariable.issuer n field).name suffix)).map trim).filter (· ≠ "") := rfl

/-- A field is trimmed and not empty. -/
theorem instanceField_spec {env : ProcessEnv} {suffix value : String} {n : Nat}
    {field : InstanceField}
    (h : instanceField env suffix n field = some value) : trim value = value ∧ value ≠ "" := by
  obtain ⟨hmap, hne⟩ := Option.filter_eq_some_iff.mp h
  obtain ⟨text, -, rfl⟩ := Option.map_eq_some_iff.mp hmap
  exact ⟨trim_trim text, by simpa using hne⟩

theorem filter_instanceField (env : ProcessEnv) (suffix : String) (n : Nat)
    (field : InstanceField) :
    (instanceField env suffix n field).filter (· ≠ "") = instanceField env suffix n field := by
  rw [instanceField, Option.filter_filter]
  simp

theorem map_trim_instanceField (env : ProcessEnv) (suffix : String) (n : Nat)
    (field : InstanceField) :
    (instanceField env suffix n field).map trim = instanceField env suffix n field := by
  cases h : instanceField env suffix n field with
  | none => rfl
  | some value => simp [(instanceField_spec h).1]

theorem mem_keys_of_instanceField {env : ProcessEnv} {suffix value : String} {n : Nat}
    {field : InstanceField} (h : instanceField env suffix n field = some value) :
    instanceVariable n field suffix ∈ env.entries.map Prod.fst := by
  unfold instanceField at h
  cases hget : env.get? (instanceVariable n field suffix) with
  | none => simp [hget] at h
  | some text => exact ProcessEnv.mem_keys_of_get? hget

/-- The numbers before this one have an id each. -/
def Numbered (env : ProcessEnv) (suffix : String) (n : Nat) : Prop :=
  ∀ m, 1 ≤ m → m < n → (instanceField env suffix m .id).isSome

/-- Instances numbered without a gap have a variable each. -/
theorem numbered_le {env : ProcessEnv} {suffix : String} {n : Nat} (h : Numbered env suffix n) :
    n ≤ env.entries.length + 1 := by
  let names := (List.range (n - 1)).map fun i => instanceVariable (i + 1) .id suffix
  have hnodup : names.Nodup := by
    refine List.nodup_range.map ?_
    intro i j hij
    have hname : (TenantVariable.issuer (i + 1) .id).name suffix =
        (TenantVariable.issuer (j + 1) .id).name suffix := hij
    cases (TenantVariable.name_inj hname).1
    rfl
  have hsubset : names ⊆ env.entries.map Prod.fst := by
    intro name hname
    obtain ⟨i, hi, rfl⟩ := List.mem_map.mp hname
    rw [List.mem_range] at hi
    obtain ⟨value, hvalue⟩ := Option.isSome_iff_exists.mp (h (i + 1) (by omega) (by omega))
    exact mem_keys_of_instanceField hvalue
  have hlength := (List.subperm_of_subset hnodup hsubset).length_le
  simp only [names, List.length_map, List.length_range] at hlength
  omega

/-- The body of the source's loop, which has no bound: `n` and the instances so far. -/
def turn (env : ProcessEnv) (tenantId suffix : String) (s : Nat × List IssuerInstance) :
    Except TenantEnvError ((Nat × List IssuerInstance) ⊕ List IssuerInstance) :=
  (readInstance tenantId suffix s.1 (instanceField env suffix s.1) s.2).map fun found =>
    match found with
    | none => .inr s.2
    | some issuerInstance => .inl (s.1 + 1, s.2 ++ [issuerInstance])

section

variable {env : ProcessEnv} {tenantId suffix : String} {s t : Nat × List IssuerInstance}

theorem turn_again (h : turn env tenantId suffix s = .ok (.inl t)) :
    ∃ found, readInstance tenantId suffix s.1 (instanceField env suffix s.1) s.2 =
      .ok (some found) ∧ t = (s.1 + 1, s.2 ++ [found]) := by
  obtain ⟨found, hread, hnext⟩ := map_eq_ok.mp h
  cases found with
  | none => cases hnext
  | some found =>
      cases hnext
      exact ⟨found, hread, rfl⟩

theorem turn_returns {instances : List IssuerInstance}
    (h : turn env tenantId suffix s = .ok (.inr instances)) :
    instanceField env suffix s.1 .id = none ∧ instances = s.2 := by
  obtain ⟨found, hread, hnext⟩ := map_eq_ok.mp h
  cases found with
  | none =>
      cases hnext
      exact ⟨readInstance_eq_none_iff.mp hread, rfl⟩
  | some found => cases hnext

theorem turn_throws {e : TenantEnvError} (h : turn env tenantId suffix s = .error e) :
    readInstance tenantId suffix s.1 (instanceField env suffix s.1) s.2 = .error e :=
  map_eq_error.mp h

theorem numbered_one : Numbered env suffix 1 := by
  intro m hm hm1
  omega

theorem Numbered.succ {n : Nat} (h : Numbered env suffix n)
    (hn : (instanceField env suffix n .id).isSome) : Numbered env suffix (n + 1) := by
  intro m hm hmn
  by_cases hlast : m = n
  · exact hlast ▸ hn
  · exact h m hm (by omega)

theorem numbered_of_turn (hs : Numbered env suffix s.1)
    (h : turn env tenantId suffix s = .ok (.inl t)) : Numbered env suffix t.1 ∧ t.1 = s.1 + 1 := by
  obtain ⟨found, hread, rfl⟩ := turn_again h
  refine ⟨hs.succ ?_, rfl⟩
  rw [(readInstance_eq_some_iff.mp hread).1]
  rfl

/-- The loop ends: each turn but the last finds a variable of its own. -/
theorem exists_loop (env : ProcessEnv) (tenantId suffix : String) :
    ∃ r, Loop (turn env tenantId suffix) (1, []) r := by
  refine Loop.exists_of_rank (I := fun s => Numbered env suffix s.1)
    (fun s => env.entries.length + 2 - s.1) ?_ numbered_one
  intro s t hs h
  obtain ⟨ht, hnext⟩ := numbered_of_turn hs h
  have hle := numbered_le hs
  exact ⟨ht, by omega⟩

/-- A bound that leaves a turn for every variable and one more is not what ends the loop. -/
theorem instancesFrom_eq_of_loop {r : Except TenantEnvError (List IssuerInstance)} {bound : Nat}
    (h : Loop (turn env tenantId suffix) s r) (hs : Numbered env suffix s.1)
    (hbound : env.entries.length + 2 ≤ bound + s.1) :
    instancesFrom env tenantId suffix bound s.1 s.2 = r := by
  induction h generalizing bound with
  | @returns s instances hturn =>
      have hle := numbered_le hs
      obtain ⟨bound, rfl⟩ : ∃ b, bound = b + 1 := ⟨bound - 1, by omega⟩
      obtain ⟨hgap, rfl⟩ := turn_returns hturn
      rw [instancesFrom_succ, readInstance_eq_none_iff.mpr hgap]
      rfl
  | @throws s e hturn =>
      have hle := numbered_le hs
      obtain ⟨bound, rfl⟩ : ∃ b, bound = b + 1 := ⟨bound - 1, by omega⟩
      rw [instancesFrom_succ, turn_throws hturn]
      rfl
  | @again s t r hturn _ ih =>
      have hle := numbered_le hs
      obtain ⟨bound, rfl⟩ : ∃ b, bound = b + 1 := ⟨bound - 1, by omega⟩
      have ht := (numbered_of_turn hs hturn).1
      obtain ⟨found, hread, rfl⟩ := turn_again hturn
      rw [instancesFrom_succ, hread]
      exact ih ht (by dsimp only; omega)

end

/-- What is read is what the loop comes to. -/
theorem parseIssuerInstances_eq_iff {locale : Locale} {env : ProcessEnv} {tenantId : String}
    {r : Except TenantEnvError (List IssuerInstance)} :
    parseIssuerInstances locale env tenantId = r ↔
      Loop (turn env tenantId (locale.toUpperCase tenantId)) (1, []) r := by
  have heq : ∀ {r}, Loop (turn env tenantId (locale.toUpperCase tenantId)) (1, []) r →
      parseIssuerInstances locale env tenantId = r :=
    fun h => instancesFrom_eq_of_loop h numbered_one (by simp)
  constructor
  · rintro rfl
    obtain ⟨r, hr⟩ := exists_loop env tenantId (locale.toUpperCase tenantId)
    rw [heq hr]
    exact hr
  · exact heq

/-- The instances of a tenant depend on the fields of its instances alone. -/
theorem parseIssuerInstances_congr {locale : Locale} {env env' : ProcessEnv} {tenantId : String}
    (h : ∀ n, instanceField env (locale.toUpperCase tenantId) n =
      instanceField env' (locale.toUpperCase tenantId) n) :
    parseIssuerInstances locale env tenantId = parseIssuerInstances locale env' tenantId := by
  have hturn : turn env tenantId (locale.toUpperCase tenantId) =
      turn env' tenantId (locale.toUpperCase tenantId) := by
    funext s
    rw [turn, turn, h s.1]
  rw [parseIssuerInstances_eq_iff, hturn]
  exact parseIssuerInstances_eq_iff.mp rfl

/-- What the loop returns is what it had and the instances of the numbers from there on, each read
after those before it, up to the first number without an id. -/
theorem loop_turn_eq_ok_iff {env : ProcessEnv} {tenantId suffix : String}
    {s : Nat × List IssuerInstance} {result : List IssuerInstance} :
    Loop (turn env tenantId suffix) s (.ok result) ↔
      ∃ rest, result = s.2 ++ rest ∧ instanceField env suffix (s.1 + rest.length) .id = none ∧
        ∀ {i : Nat} {found : IssuerInstance}, rest[i]? = some found →
          readInstance tenantId suffix (s.1 + i) (instanceField env suffix (s.1 + i))
            (s.2 ++ rest.take i) = .ok (some found) := by
  constructor
  · intro h
    generalize hr : Except.ok result = r at h
    induction h with
    | returns hturn =>
        cases hr
        obtain ⟨hgap, rfl⟩ := turn_returns hturn
        exact ⟨[], by simp, hgap, fun h => by simp at h⟩
    | throws hturn => cases hr
    | again hturn _ ih =>
        obtain ⟨first, hfirst, rfl⟩ := turn_again hturn
        obtain ⟨rest, hresult, hgap, heach⟩ := ih hr
        refine ⟨first :: rest, by simpa using hresult, ?_, fun {i found} hi => ?_⟩
        · rw [List.length_cons, Nat.add_comm rest.length, ← Nat.add_assoc]
          exact hgap
        · cases i with
          | zero =>
              cases hi
              simpa using hfirst
          | succ i =>
              have hread := heach hi
              dsimp only at hread
              rw [List.append_assoc, Nat.add_assoc, Nat.add_comm 1 i] at hread
              exact hread
  · rintro ⟨rest, rfl, hgap, heach⟩
    induction rest generalizing s with
    | nil =>
        refine .returns ?_
        have hgap : instanceField env suffix s.1 .id = none := hgap
        rw [turn, readInstance_eq_none_iff.mpr hgap, List.append_nil]
        rfl
    | cons first rest ih =>
        have hfirst := heach (List.getElem?_cons_zero (a := first) (l := rest))
        simp only [Nat.add_zero, List.take_zero, List.append_nil] at hfirst
        have hnext : turn env tenantId suffix s = .ok (.inl (s.1 + 1, s.2 ++ [first])) := by
          rw [turn, hfirst]
          rfl
        have hall : s.2 ++ first :: rest = (s.2 ++ [first]) ++ rest := List.append_cons _ _ _
        rw [hall]
        refine .again hnext (ih (s := (s.1 + 1, s.2 ++ [first])) ?_ fun {i found} hi => ?_)
        · rw [List.length_cons, Nat.add_comm rest.length, ← Nat.add_assoc] at hgap
          exact hgap
        · have hread := heach (List.getElem?_cons_succ.trans hi)
          rw [List.take_succ_cons, List.append_cons, Nat.add_comm i, ← Nat.add_assoc] at hread
          exact hread

/-- The instances of a tenant are those of the numbers up to the first one without an id. -/
theorem parseIssuerInstances_eq_ok_iff {locale : Locale} {env : ProcessEnv} {tenantId : String}
    {instances : List IssuerInstance} :
    parseIssuerInstances locale env tenantId = .ok instances ↔
      instanceField env (locale.toUpperCase tenantId) (1 + instances.length) .id = none ∧
        ∀ {i : Nat} {found : IssuerInstance}, instances[i]? = some found →
          readInstance tenantId (locale.toUpperCase tenantId) (1 + i)
            (instanceField env (locale.toUpperCase tenantId) (1 + i)) (instances.take i) =
            .ok (some found) := by
  rw [parseIssuerInstances_eq_iff, loop_turn_eq_ok_iff]
  constructor
  · rintro ⟨rest, rfl, h⟩
    exact h
  · intro h
    exact ⟨instances, rfl, h⟩

/-- No instance is read where the first has no id. -/
theorem parseIssuerInstances_eq_nil {locale : Locale} {env : ProcessEnv} {tenantId : String}
    (h : instanceField env (locale.toUpperCase tenantId) 1 .id = none) :
    parseIssuerInstances locale env tenantId = .ok [] :=
  parseIssuerInstances_eq_ok_iff.mpr ⟨h, fun h => by simp at h⟩

/-- One instance is read where the second has no id. -/
theorem parseIssuerInstances_eq_singleton_iff {locale : Locale} {env : ProcessEnv}
    {tenantId : String} {only : IssuerInstance} :
    parseIssuerInstances locale env tenantId = .ok [only] ↔
      readInstance tenantId (locale.toUpperCase tenantId) 1
          (instanceField env (locale.toUpperCase tenantId) 1) [] = .ok (some only) ∧
        instanceField env (locale.toUpperCase tenantId) 2 .id = none := by
  rw [parseIssuerInstances_eq_ok_iff, and_comm]
  refine and_congr_left fun _ => ?_
  constructor
  · intro h
    have hread := h (List.getElem?_cons_zero : [only][0]? = some only)
    rw [Nat.add_zero, List.take_zero] at hread
    exact hread
  · intro h i found hi
    cases i with
    | zero =>
        cases hi
        rw [Nat.add_zero, List.take_zero]
        exact h
    | succ i => simp at hi

/-! ### Tenants -/

section

variable {locale : Locale} {env env' : ProcessEnv} {key value : String} {record : TenantRecord}

/-- What `TENANT_DOMAINS_<NAME>` says. -/
def domainsOf (env : ProcessEnv) (suffix : String) : List String :=
  list (env.get? (TenantVariable.domains.name suffix))

/-- What `TENANT_DEFAULT_INSTANCE_<NAME>` says. -/
def defaultOf (env : ProcessEnv) (suffix : String) : Option String :=
  (env.get? (TenantVariable.defaultInstance.name suffix)).map trim

/-- What a token variable gives when it gives a tenant, and when that is. -/
theorem parseTenant_eq_ok_iff :
    parseTenant locale env key value = .ok record ↔
      record.tenantId = tenantIdFromTokenKey locale key ∧
      record.tokens = list (some value) ∧ record.tokens ≠ [] ∧
      parseIssuerInstances locale env record.tenantId = .ok record.issuerInstances ∧
      record.defaultInstanceId = defaultOf env (locale.toUpperCase record.tenantId) ∧
      unknownDefault record.defaultInstanceId record.issuerInstances = none ∧
      record.authorizedDomains =
        if domainsOf env (locale.toUpperCase record.tenantId) = [] then none
        else some (domainsOf env (locale.toUpperCase record.tenantId)) := by
  constructor
  · intro h
    unfold parseTenant at h
    dsimp only at h
    split at h <;> rename_i htokens
    · cases h
    obtain ⟨issuerInstances, hinstances, h⟩ := bind_eq_ok.mp h
    split at h <;> rename_i hdefault
    · cases h
    cases h
    exact ⟨rfl, rfl, htokens, hinstances, rfl, hdefault, rfl⟩
  · rintro ⟨htenantId, htokens, hne, hinstances, hdefault, hknown, hdomains⟩
    obtain ⟨tenantId, tokens, issuerInstances, defaultInstanceId, authorizedDomains⟩ := record
    dsimp only at htenantId htokens hne hinstances hdefault hknown hdomains
    subst htenantId htokens hdefault
    unfold parseTenant
    dsimp only
    rw [if_neg hne, hdomains]
    refine bind_eq_ok.mpr ⟨_, hinstances, ?_⟩
    split <;> rename_i hunknown
    · cases hunknown.symm.trans hknown
    · rfl

theorem tenantId_of_parseTenant (h : parseTenant locale env key value = .ok record) :
    record.tenantId = tenantIdFromTokenKey locale key := (parseTenant_eq_ok_iff.mp h).1

/-- A tenant depends on the variables with its suffix alone. -/
theorem parseTenant_congr
    (h : ∀ v : TenantVariable, v ≠ .token →
      env.get? (v.name (locale.toUpperCase (tenantIdFromTokenKey locale key))) =
        env'.get? (v.name (locale.toUpperCase (tenantIdFromTokenKey locale key)))) :
    parseTenant locale env key value = parseTenant locale env' key value := by
  have hinstances : parseIssuerInstances locale env (tenantIdFromTokenKey locale key) =
      parseIssuerInstances locale env' (tenantIdFromTokenKey locale key) := by
    refine parseIssuerInstances_congr fun n => ?_
    funext field
    rw [instanceField_eq, instanceField_eq, h (.issuer n field) (by simp)]
  have hdefault := h .defaultInstance (by simp)
  have hdomains := h .domains (by simp)
  change env.get? ("TENANT_DEFAULT_INSTANCE_" ++ _) =
    env'.get? ("TENANT_DEFAULT_INSTANCE_" ++ _) at hdefault
  change env.get? ("TENANT_DOMAINS_" ++ _) = env'.get? ("TENANT_DOMAINS_" ++ _) at hdomains
  unfold parseTenant
  dsimp only
  rw [hinstances, hdefault, hdomains]

/-- The variables that define tenants. -/
def tokenEntries (env : ProcessEnv) : List (String × String) :=
  env.entries.filter fun entry => isTokenKey entry.1

theorem parseTenantsFromEnv_eq (locale : Locale) (env : ProcessEnv) :
    parseTenantsFromEnv locale env =
      ((tokenEntries env).mapM fun e => parseTenant locale env e.1 e.2).map
        (List.insertionSort fun a b => inOrder locale a b) := by
  unfold parseTenantsFromEnv
  change ((tokenEntries env).mapM fun e => parseTenant locale env e.1 e.2) >>= _ = _
  cases (tokenEntries env).mapM fun e => parseTenant locale env e.1 e.2 <;> rfl

theorem parseTenantsFromEnv_eq_ok_iff {records : List TenantRecord} :
    parseTenantsFromEnv locale env = .ok records ↔
      ∃ tenants, (tokenEntries env).mapM (fun e => parseTenant locale env e.1 e.2) = .ok tenants ∧
        records = tenants.insertionSort fun a b => inOrder locale a b := by
  rw [parseTenantsFromEnv_eq, map_eq_ok]
  refine exists_congr fun tenants => and_congr_right fun _ => ?_
  exact eq_comm

/-- Every record is what a token variable gives. -/
theorem exists_entry_of_mem {records : List TenantRecord}
    (h : parseTenantsFromEnv locale env = .ok records) (hrecord : record ∈ records) :
    ∃ entry ∈ tokenEntries env, parseTenant locale env entry.1 entry.2 = .ok record := by
  obtain ⟨tenants, htenants, rfl⟩ := parseTenantsFromEnv_eq_ok_iff.mp h
  exact exists_of_mem_mapM htenants ((List.mem_insertionSort _).mp hrecord)

/-- Every token variable gives a record. -/
theorem exists_record_of_mem {records : List TenantRecord} {entry : String × String}
    (h : parseTenantsFromEnv locale env = .ok records) (hentry : entry ∈ tokenEntries env) :
    ∃ record ∈ records, parseTenant locale env entry.1 entry.2 = .ok record := by
  obtain ⟨tenants, htenants, rfl⟩ := parseTenantsFromEnv_eq_ok_iff.mp h
  obtain ⟨record, hmem, hrecord⟩ := exists_mem_of_mapM htenants hentry
  exact ⟨record, (List.mem_insertionSort _).mpr hmem, hrecord⟩

end

end TenantsEnv

end VcalmStatus
