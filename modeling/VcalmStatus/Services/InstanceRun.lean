import Mathlib.Order.Lattice.Nat
import VcalmStatus.Services.TenantVariables

/-!
The loop over the numbered instances of a tenant. It has no bound of its own: it ends because an
environment has finitely many variables. It reads the instances up to the first number without an
id, and it throws exactly where one of these is at fault.
-/

namespace VcalmStatus

open Js Effects

namespace TenantsEnv

variable {env : ProcessEnv} {tenantId suffix : String} {n : Nat}

/-! ### Which key material the fields give -/

/-- One key form or none: a seed, or both halves of a multikey pair. -/
inductive OneKeyForm : (seed publicKey secretKey : Option String) → Option KeyMaterial → Prop
  | seed (seed : String) : OneKeyForm (some seed) none none (some (.ed25519Seed seed))
  | multikey (publicKey secretKey : String) :
      OneKeyForm none (some publicKey) (some secretKey) (some (.multikey publicKey secretKey))
  | none : OneKeyForm none none none none

theorem parseKeyMaterial_eq_ok_iff {seed publicKey secretKey : Option String} {location : String}
    {keyMaterial : Option KeyMaterial} (hseed : seed.filter (· ≠ "") = seed)
    (hpublic : publicKey.filter (· ≠ "") = publicKey)
    (hsecret : secretKey.filter (· ≠ "") = secretKey) :
    parseKeyMaterial seed publicKey secretKey location = .ok keyMaterial ↔
      OneKeyForm seed publicKey secretKey keyMaterial := by
  unfold parseKeyMaterial
  rw [hseed, hpublic, hsecret]
  constructor
  · intro h
    split at h
    · cases h
      exact .seed _
    · cases h
    · cases h
      exact .multikey _ _
    · cases h
      exact .none
    · cases h
  · intro h
    cases h <;> rfl

theorem oneKeyForm_seed_iff {seed : String} {publicKey secretKey : Option String} :
    OneKeyForm (some seed) publicKey secretKey (some (.ed25519Seed seed)) ↔
      publicKey = none ∧ secretKey = none := by
  constructor
  · intro h
    cases h
    exact ⟨rfl, rfl⟩
  · rintro ⟨rfl, rfl⟩
    exact .seed seed

theorem oneKeyForm_multikey_iff {seed : Option String} {publicKey secretKey : String} :
    OneKeyForm seed (some publicKey) (some secretKey) (some (.multikey publicKey secretKey)) ↔
      seed = none := by
  constructor
  · intro h
    cases h
    rfl
  · rintro rfl
    exact .multikey publicKey secretKey

/-- Some key material, or none of it, is given where no seed has a half beside it and no half
stands alone. -/
theorem exists_oneKeyForm_iff {seed publicKey secretKey : Option String} :
    (∃ keyMaterial, OneKeyForm seed publicKey secretKey keyMaterial) ↔
      (seed ≠ none → publicKey = none ∧ secretKey = none) ∧
        (publicKey = none ↔ secretKey = none) := by
  constructor
  · rintro ⟨keyMaterial, h⟩
    cases h <;> simp
  · rintro ⟨hseed, hhalves⟩
    cases seed with
    | some seed =>
        obtain ⟨rfl, rfl⟩ := hseed nofun
        exact ⟨_, .seed seed⟩
    | none =>
        cases publicKey with
        | none =>
            obtain rfl := hhalves.mp rfl
            exact ⟨_, .none⟩
        | some publicKey =>
            cases secretKey with
            | none => exact absurd (hhalves.mpr rfl) nofun
            | some secretKey => exact ⟨_, .multikey publicKey secretKey⟩

/-! ### What an instance is read from -/

/-- The instance says what the fields of its number say. -/
structure ReadFrom (read : InstanceField → Option String) (found : IssuerInstance) : Prop where
  id : read .id = some found.id
  didMethod : found.didMethod.text = (read .didMethod).getD "key"
  didUrl : found.didUrl = read .didUrl
  didUrl_web : found.didMethod = .web → found.didUrl ≠ none
  keyMaterial : OneKeyForm (read .seed) (read .publicKey) (read .secretKey) found.keyMaterial
  cryptosuite : found.cryptosuite.text = (read .cryptosuite).getD "eddsa-rdfc-2022"

/-- What can be wrong with the fields of an instance that has an id. -/
inductive Fault (env : ProcessEnv) (suffix : String) (n : Nat) : Prop
  | duplicateId {m : Nat} (hm : 1 ≤ m) (hmn : m < n)
      (h : instanceField env suffix m .id = instanceField env suffix n .id)
  | unknownCryptosuite {text : String} (h : instanceField env suffix n .cryptosuite = some text)
      (hunknown : ∀ suite ∈ supportedCryptosuites, suite.text ≠ text)
  | unknownDidMethod {text : String} (h : instanceField env suffix n .didMethod = some text)
      (hkey : text ≠ "key") (hweb : text ≠ "web")
  | webWithoutUrl (h : instanceField env suffix n .didMethod = some "web")
      (hurl : instanceField env suffix n .didUrl = none)
  | seedWithHalf (h : instanceField env suffix n .seed ≠ none)
      (hhalf : instanceField env suffix n .publicKey ≠ none ∨
        instanceField env suffix n .secretKey ≠ none)
  | oneHalf (h : ¬(instanceField env suffix n .publicKey = none ↔
      instanceField env suffix n .secretKey = none))

theorem parseDidMethod_eq_ok_iff {raw : Option String} {location : String} {didMethod : DidMethod}
    (hraw : raw.map trim = raw) :
    parseDidMethod raw location = .ok didMethod ↔ didMethod.text = raw.getD "key" := by
  unfold parseDidMethod
  rw [hraw]
  dsimp only
  split <;> rename_i hkey
  · rw [hkey]
    cases didMethod <;> simp [DidMethod.text]
  · split <;> rename_i hweb
    · rw [hweb]
      cases didMethod <;> simp [DidMethod.text]
    · refine iff_of_false nofun fun h => ?_
      cases didMethod with
      | key => exact hkey h.symm
      | web => exact hweb h.symm

theorem parseCryptosuite_eq_ok_iff {raw : Option String} {location : String}
    {cryptosuite : Cryptosuite} (hraw : raw.map trim = raw) :
    parseCryptosuite raw location = .ok cryptosuite ↔
      cryptosuite.text = raw.getD "eddsa-rdfc-2022" := by
  have hall : ∀ suite, suite ∈ supportedCryptosuites := by
    intro suite
    cases suite <;> decide
  unfold parseCryptosuite
  rw [hraw]
  dsimp only
  split
  · rename_i suite hfind
    have htext : suite.text = raw.getD "eddsa-rdfc-2022" := by
      simpa using List.find?_some hfind
    rw [← htext, Except.ok.injEq]
    exact ⟨fun h => h ▸ rfl, fun h => (Cryptosuite.text_injective h).symm⟩
  · rename_i hfind
    refine iff_of_false nofun fun h => ?_
    have := List.find?_eq_none.mp hfind cryptosuite (hall cryptosuite)
    simp [h] at this

/-! ### One turn -/

/-- An instance that a turn returns says what the fields say, and its id is new. -/
theorem readFrom_of_readInstance {instances : List IssuerInstance} {found : IssuerInstance}
    (h : readInstance tenantId suffix n (instanceField env suffix n) instances = .ok (some found)) :
    ReadFrom (instanceField env suffix n) found ∧ ∀ earlier ∈ instances, earlier.id ≠ found.id := by
  obtain ⟨hid, hmethod, hweb, hkeys, hearlier, hsuite, hurl, -⟩ := readInstance_eq_some_iff.mp h
  rw [parseDidMethod_eq_ok_iff (map_trim_instanceField _ _ _ _)] at hmethod
  rw [parseCryptosuite_eq_ok_iff (map_trim_instanceField _ _ _ _)] at hsuite
  rw [parseKeyMaterial_eq_ok_iff (filter_instanceField _ _ _ _) (filter_instanceField _ _ _ _)
    (filter_instanceField _ _ _ _)] at hkeys
  exact ⟨⟨hid, hmethod, hurl, fun hfound hnone => hweb ⟨hfound, hurl ▸ hnone⟩, hkeys, hsuite⟩,
    hearlier⟩

/-- Fields that an instance says what they say have no fault of their own. -/
theorem ReadFrom.duplicateId_of_fault {found : IssuerInstance}
    (h : ReadFrom (instanceField env suffix n) found) (hfault : Fault env suffix n) :
    ∃ m, 1 ≤ m ∧ m < n ∧ instanceField env suffix m .id = instanceField env suffix n .id := by
  obtain ⟨hid, hmethod, hurl, hweb, hkeys, hsuite⟩ := h
  cases hfault with
  | duplicateId hm hmn h => exact ⟨_, hm, hmn, h⟩
  | unknownCryptosuite h hunknown =>
      rw [h] at hsuite
      exact absurd hsuite (hunknown _ (by cases found.cryptosuite <;> decide))
  | unknownDidMethod h hkey hweb =>
      rw [h] at hmethod
      cases hfound : found.didMethod with
      | key => exact absurd (hmethod.symm.trans (hfound ▸ rfl)) hkey
      | web => exact absurd (hmethod.symm.trans (hfound ▸ rfl)) hweb
  | webWithoutUrl h hnone =>
      rw [h] at hmethod
      exact absurd (hurl.trans hnone) (hweb (DidMethod.text_injective hmethod))
  | seedWithHalf h hhalf =>
      obtain ⟨hpublic, hsecret⟩ := (exists_oneKeyForm_iff.mp ⟨_, hkeys⟩).1 h
      exact absurd hhalf (by simp [hpublic, hsecret])
  | oneHalf h => exact absurd (exists_oneKeyForm_iff.mp ⟨_, hkeys⟩).2 h

/-- Where the fields have no fault and the id is new, a turn returns an instance. -/
theorem exists_readInstance {instances : List IssuerInstance} {id : String}
    (hid : instanceField env suffix n .id = some id)
    (hnew : ∀ earlier ∈ instances, earlier.id ≠ id) (hfault : ¬Fault env suffix n) :
    ∃ found, readInstance tenantId suffix n (instanceField env suffix n) instances =
      .ok (some found) := by
  set read := instanceField env suffix n with hread
  have hmethod : ∃ didMethod : DidMethod, didMethod.text = (read .didMethod).getD "key" := by
    cases htext : read .didMethod with
    | none => exact ⟨.key, rfl⟩
    | some text =>
        by_contra hnone
        rw [not_exists] at hnone
        exact hfault (.unknownDidMethod htext (fun h => hnone .key h.symm)
          fun h => hnone .web h.symm)
  have hsuite : ∃ suite : Cryptosuite, suite.text = (read .cryptosuite).getD "eddsa-rdfc-2022" := by
    cases htext : read .cryptosuite with
    | none => exact ⟨.eddsaRdfc2022, rfl⟩
    | some text =>
        by_contra hnone
        rw [not_exists] at hnone
        exact hfault (.unknownCryptosuite htext fun suite _ => hnone suite)
  have hkeys : ∃ keyMaterial, OneKeyForm (read .seed) (read .publicKey) (read .secretKey)
      keyMaterial := by
    refine exists_oneKeyForm_iff.mpr ⟨fun hseed => ?_, ?_⟩
    · by_contra hhalf
      exact hfault (.seedWithHalf hseed (by tauto))
    · by_contra hhalf
      exact hfault (.oneHalf hhalf)
  obtain ⟨didMethod, hmethod⟩ := hmethod
  obtain ⟨cryptosuite, hsuite⟩ := hsuite
  obtain ⟨keyMaterial, hkeys⟩ := hkeys
  refine ⟨⟨id, cryptosuite, didMethod, read .didUrl, keyMaterial,
    some ((read .signingTenant).getD tenantId), read .signingToken, read .issuerDid⟩,
    readInstance_eq_some_iff.mpr ⟨hid, ?_, ?_, ?_, hnew, ?_, rfl, rfl, rfl, rfl⟩⟩
  · exact (parseDidMethod_eq_ok_iff (map_trim_instanceField _ _ _ _)).mpr hmethod
  · rintro ⟨hweb, hnone⟩
    dsimp only at hweb
    subst hweb
    cases htext : read .didMethod with
    | none => simp [htext, DidMethod.text] at hmethod
    | some text =>
        rw [htext] at hmethod
        exact hfault (.webWithoutUrl (htext.trans (congrArg some hmethod.symm)) hnone)
  · exact (parseKeyMaterial_eq_ok_iff (filter_instanceField _ _ _ _) (filter_instanceField _ _ _ _)
      (filter_instanceField _ _ _ _)).mpr hkeys
  · exact (parseCryptosuite_eq_ok_iff (map_trim_instanceField _ _ _ _)).mpr hsuite

/-! ### The run -/

/-- The numbers up to which every instance has an id. -/
def numbered (env : ProcessEnv) (suffix : String) : Set Nat :=
  {k | ∀ n, 1 ≤ n → n ≤ k → (instanceField env suffix n .id).isSome}

theorem mem_numbered_iff {k : Nat} : k ∈ numbered env suffix ↔ Numbered env suffix (k + 1) := by
  refine forall_congr' fun n => ?_
  rw [Nat.lt_succ_iff]

/-- There is a longest run, since every instance in it has a variable. -/
theorem exists_isGreatest_numbered (env : ProcessEnv) (suffix : String) :
    ∃ k, IsGreatest (numbered env suffix) k := by
  have hzero : 0 ∈ numbered env suffix := mem_numbered_iff.mpr numbered_one
  have hbounded : BddAbove (numbered env suffix) := by
    refine ⟨env.entries.length, fun k hk => ?_⟩
    have := numbered_le (mem_numbered_iff.mp hk)
    omega
  exact ⟨sSup (numbered env suffix), Nat.sSup_mem ⟨0, hzero⟩ hbounded,
    fun k hk => le_csSup hbounded hk⟩

/-- What every turn keeps: the instances so far are read from the numbers so far, and no id comes
twice. -/
structure SoFar (env : ProcessEnv) (suffix : String) (s : Nat × List IssuerInstance) : Prop where
  number : s.1 = s.2.length + 1
  each : ∀ {i : Nat} {found : IssuerInstance}, s.2[i]? = some found →
    ReadFrom (instanceField env suffix (i + 1)) found
  nodup : (s.2.map (·.id)).Nodup

theorem soFar_nil : SoFar env suffix (1, []) where
  number := rfl
  each h := nomatch h
  nodup := List.nodup_nil

namespace SoFar

variable {s t : Nat × List IssuerInstance}

theorem again (hs : SoFar env suffix s) (h : turn env tenantId suffix s = .ok (.inl t)) :
    SoFar env suffix t := by
  obtain ⟨found, hread, rfl⟩ := turn_again h
  obtain ⟨hfound, hnew⟩ := readFrom_of_readInstance hread
  refine ⟨by simp [hs.number], fun {i earlier} hi => ?_, ?_⟩
  · dsimp only at hi
    by_cases hlast : i < s.2.length
    · rw [List.getElem?_append_left hlast] at hi
      exact hs.each hi
    · rw [List.getElem?_append_right (by omega), List.getElem?_singleton] at hi
      split at hi
      · cases hi
        rw [show i + 1 = s.1 by rw [hs.number]; omega]
        exact hfound
      · cases hi
  · dsimp only
    rw [List.map_append, List.nodup_append]
    refine ⟨hs.nodup, List.nodup_singleton _, ?_⟩
    intro a ha b hb hab
    obtain ⟨earlier, hmem, rfl⟩ := List.mem_map.mp ha
    exact hnew earlier hmem (hab.trans (List.mem_singleton.mp hb))

/-- Every number so far has an instance. -/
theorem exists_get {n : Nat} (hs : SoFar env suffix s) (hn : 1 ≤ n) (hlt : n < s.1) :
    ∃ found, s.2[n - 1]? = some found ∧ ReadFrom (instanceField env suffix n) found := by
  have hlength : n - 1 < s.2.length := by
    have := hs.number
    omega
  refine ⟨_, List.getElem?_eq_getElem hlength, ?_⟩
  have hread := hs.each (List.getElem?_eq_getElem hlength)
  rwa [Nat.sub_add_cancel hn] at hread

theorem numbered (hs : SoFar env suffix s) : Numbered env suffix s.1 := by
  intro n hn hlt
  obtain ⟨found, -, hread⟩ := hs.exists_get hn hlt
  rw [hread.id]
  rfl

/-- None of the numbers so far is at fault. -/
theorem not_fault {n : Nat} (hs : SoFar env suffix s) (hn : 1 ≤ n) (hlt : n < s.1) :
    ¬Fault env suffix n := by
  intro hfault
  obtain ⟨found, hget, hread⟩ := hs.exists_get hn hlt
  obtain ⟨m, hm, hmn, hsame⟩ := hread.duplicateId_of_fault hfault
  obtain ⟨earlier, hget', hread'⟩ := hs.exists_get hm (hmn.trans hlt)
  rw [hread.id, hread'.id, Option.some.injEq] at hsame
  obtain ⟨hi, hfound⟩ := List.getElem?_eq_some_iff.mp hget
  obtain ⟨hj, hearlier⟩ := List.getElem?_eq_some_iff.mp hget'
  have hindex := (@List.Nodup.getElem_inj_iff _ _ hs.nodup _ (by simpa using hj) _
    (by simpa using hi)).mp (by simpa [hfound, hearlier] using hsame)
  omega

/-- A turn throws only where the number it looks at has an id and is at fault. -/
theorem fault_of_throws {e : TenantEnvError} (hs : SoFar env suffix s)
    (h : turn env tenantId suffix s = .error e) :
    (instanceField env suffix s.1 .id).isSome ∧ Fault env suffix s.1 := by
  have hthrows := turn_throws h
  cases hid : instanceField env suffix s.1 .id with
  | none => rw [readInstance_eq_none_iff.mpr hid] at hthrows; cases hthrows
  | some id =>
      refine ⟨rfl, ?_⟩
      by_contra hfault
      have hnew : ∀ earlier ∈ s.2, earlier.id ≠ id := by
        rintro earlier hmem rfl
        obtain ⟨i, hget⟩ := List.mem_iff_getElem?.mp hmem
        obtain ⟨hi, -⟩ := List.getElem?_eq_some_iff.mp hget
        have hnumber := hs.number
        exact hfault (.duplicateId (Nat.le_add_left 1 i) (by omega)
          ((hs.each hget).id.trans hid.symm))
      obtain ⟨found, hread⟩ := exists_readInstance hid hnew hfault
      rw [hread] at hthrows
      cases hthrows

end SoFar

/-- What a run of `k` comes to: its instances, or an error where one of them is at fault. -/
def RunOutcome (env : ProcessEnv) (suffix : String) (k : Nat) :
    Except TenantEnvError (List IssuerInstance) → Prop
  | .ok instances => SoFar env suffix (k + 1, instances) ∧
      ∀ n, 1 ≤ n → n ≤ k → ¬Fault env suffix n
  | .error _ => ∃ n, 1 ≤ n ∧ n ≤ k ∧ Fault env suffix n

theorem runOutcome_of_loop {k : Nat} {r : Except TenantEnvError (List IssuerInstance)}
    (hk : IsGreatest (numbered env suffix) k) (h : Loop (turn env tenantId suffix) (1, []) r) :
    RunOutcome env suffix k r := by
  refine Loop.invariant (I := SoFar env suffix) (fun hs h => hs.again h) ?_ ?_ h soFar_nil
  · intro s instances hs hturn
    obtain ⟨hgap, rfl⟩ := turn_returns hturn
    have hlength := hs.number
    -- The run goes as far as the instances do: the next number has no id.
    have hgreatest : k = s.2.length := by
      refine hk.unique ⟨?_, fun j hj => ?_⟩
      · rw [mem_numbered_iff, ← hlength]
        exact hs.numbered
      · by_contra hlt
        have hsome := hj s.1 (by omega) (by omega)
        rw [hgap] at hsome
        cases hsome
    have hstate : s = (k + 1, s.2) := Prod.ext (by rw [hlength, hgreatest]) rfl
    exact ⟨hstate ▸ hs, fun n hn hnk => hs.not_fault hn (by omega)⟩
  · intro s e hs hturn
    obtain ⟨hid, hfault⟩ := hs.fault_of_throws hturn
    have hmem : s.1 ∈ numbered env suffix := mem_numbered_iff.mpr (hs.numbered.succ hid)
    exact ⟨s.1, by have := hs.number; omega, hk.2 hmem, hfault⟩

/-- The loop over the instances ends. With `k` the largest number up to which every instance has an
id, it returns `k` instances, each read from its own number, or throws, which it does exactly where
one of the numbers up to `k` is at fault. -/
theorem parseIssuerInstances_maximal_run (locale : Locale) (env : ProcessEnv) (tenantId : String) :
    ∃ k outcome, IsGreatest (numbered env (locale.toUpperCase tenantId)) k ∧
      Loop (turn env tenantId (locale.toUpperCase tenantId)) (1, []) outcome ∧
      parseIssuerInstances locale env tenantId = outcome ∧
      (∀ instances, outcome = .ok instances →
        instances.length = k ∧ (instances.map (·.id)).Nodup ∧
          ∀ n, 1 ≤ n → n ≤ k → ∃ found, instances[n - 1]? = some found ∧
            ReadFrom (instanceField env (locale.toUpperCase tenantId) n) found) ∧
      ((∃ e, outcome = .error e) ↔
        ∃ n, 1 ≤ n ∧ n ≤ k ∧ Fault env (locale.toUpperCase tenantId) n) := by
  obtain ⟨k, hk⟩ := exists_isGreatest_numbered env (locale.toUpperCase tenantId)
  have hloop := parseIssuerInstances_eq_iff.mp
    (rfl : parseIssuerInstances locale env tenantId = parseIssuerInstances locale env tenantId)
  refine ⟨k, _, hk, hloop, rfl, ?_, ?_⟩
  · intro instances hok
    obtain ⟨hs, -⟩ := runOutcome_of_loop hk (hok ▸ hloop)
    refine ⟨?_, hs.nodup, fun n hn hnk => hs.exists_get hn (Nat.lt_succ_of_le hnk)⟩
    have := hs.number
    dsimp only at this
    omega
  · have houtcome := runOutcome_of_loop hk hloop
    cases hr : parseIssuerInstances locale env tenantId with
    | ok instances =>
        rw [hr] at houtcome
        refine iff_of_false nofun ?_
        rintro ⟨n, hn, hnk, hfault⟩
        exact houtcome.2 n hn hnk hfault
    | error e =>
        rw [hr] at houtcome
        exact iff_of_true ⟨e, rfl⟩ houtcome

end TenantsEnv

end VcalmStatus
