import VcalmStatus.Effects.PromiseCache
import VcalmStatus.Js.Stringify
import VcalmStatus.Services.Signing

/-!
The cache of `LocalSigningService`. Its promises are keyed by a digest of what a signer is made of,
so that whoever is answered from it is answered as `LocalSigningService.signerFor` would: two
instances that share an id do not share a key, and a failure is not kept.
-/

namespace VcalmStatus

open Js Effects

/-! ### The key of the cache -/

/-- `JSON.stringify` of key material. -/
def KeyMaterial.stringify : KeyMaterial → String
  | .ed25519Seed seed =>
      "\x7b\"kind\":" ++ quote "ed25519-seed" ++ ",\"seed\":" ++ quote seed ++ "\x7d"
  | .multikey publicKeyMultibase secretKeyMultibase =>
      "\x7b\"kind\":" ++ quote "multikey" ++ ",\"publicKeyMultibase\":" ++
        quote publicKeyMultibase ++ ",\"secretKeyMultibase\":" ++ quote secretKeyMultibase ++
        "\x7d"

/-- The hex digest of a text, which no two texts share. -/
structure Digest where
  sha256 : String → String
  collisionFree : Function.Injective sha256

/-- What is called: one of the three methods of the service. -/
inductive SigningMethod
  | issuerDid
  | sign (unsigned : UnsignedCredential)
  | didDocument

structure SigningCall where
  method : SigningMethod
  issuerInstance : IssuerInstance

/-- A call on an instance that has key material to sign with. -/
structure KeyedCall extends SigningCall where
  keyMaterial : KeyMaterial
  has_keyMaterial : issuerInstance.keyMaterial = some keyMaterial

namespace KeyedCall

/-- The text that is digested: `JSON.stringify` of suite, method, URL and key material. -/
def keyText (call : KeyedCall) : String :=
  "[" ++ quote call.issuerInstance.cryptosuite.text ++ "," ++
    quote call.issuerInstance.didMethod.text ++ "," ++
    call.issuerInstance.didUrl.elim "null" quote ++ "," ++ call.keyMaterial.stringify ++ "]"

/-- `#cacheKey`. -/
def cacheKey (digest : Digest) (call : KeyedCall) : String := digest.sha256 call.keyText

/-- What the signer of a call is created from; an empty `didUrl` counts as none. -/
def config (call : KeyedCall) : SignerConfig where
  keyMaterial := call.keyMaterial
  didMethod := call.issuerInstance.didMethod
  cryptosuite := call.issuerInstance.cryptosuite
  didUrl := call.issuerInstance.didUrl.filter (· ≠ "")

/-- The four configured fields of two calls agree. -/
structure SameFields (a b : KeyedCall) : Prop where
  cryptosuite : a.issuerInstance.cryptosuite = b.issuerInstance.cryptosuite
  didMethod : a.issuerInstance.didMethod = b.issuerInstance.didMethod
  didUrl : a.issuerInstance.didUrl = b.issuerInstance.didUrl
  keyMaterial : a.keyMaterial = b.keyMaterial

end KeyedCall

/-- The kind comes first and decides what follows. -/
theorem KeyMaterial.stringify_append_inj {a b : KeyMaterial} {x y : String}
    (h : a.stringify ++ x = b.stringify ++ y) : a = b := by
  cases a with
  | ed25519Seed seed =>
      cases b with
      | ed25519Seed seed' =>
          simp only [stringify, String.append_assoc] at h
          have hseed := (quote_append_inj ((String.append_right_inj _).mp h)).2
          rw [(quote_append_inj ((String.append_right_inj _).mp hseed)).1]
      | multikey pk sk =>
          simp only [stringify, String.append_assoc] at h
          exact absurd (quote_append_inj ((String.append_right_inj _).mp h)).1 (by decide)
  | multikey pk sk =>
      cases b with
      | ed25519Seed seed =>
          simp only [stringify, String.append_assoc] at h
          exact absurd (quote_append_inj ((String.append_right_inj _).mp h)).1 (by decide)
      | multikey pk' sk' =>
          simp only [stringify, String.append_assoc] at h
          have hpublic := (quote_append_inj ((String.append_right_inj _).mp h)).2
          obtain ⟨rfl, hsecret⟩ := quote_append_inj ((String.append_right_inj _).mp hpublic)
          rw [(quote_append_inj ((String.append_right_inj _).mp hsecret)).1]

/-- A URL can be told from the `null` that stands for none. -/
theorem urlText_append_inj {a b : Option String} {x y : String}
    (h : a.elim "null" quote ++ ("," ++ x) = b.elim "null" quote ++ ("," ++ y)) :
    a = b ∧ x = y := by
  have hnull : ∀ url z z', quote url ++ z ≠ "null" ++ z' := by
    intro url z z' hsame
    have hhead := congrArg (fun s : String => s.toList.head?) hsame
    simp [quote] at hhead
  cases a with
  | none =>
      cases b with
      | none =>
          have h := (String.append_right_inj _).mp h
          exact ⟨rfl, (String.append_right_inj _).mp h⟩
      | some url => exact absurd h.symm (hnull url _ _)
  | some url =>
      cases b with
      | none => exact absurd h (hnull url _ _)
      | some url' =>
          obtain ⟨rfl, hrest⟩ := quote_append_inj h
          exact ⟨rfl, (String.append_right_inj _).mp hrest⟩

/-- The text tells the four fields apart. -/
theorem KeyedCall.sameFields_of_keyText {a b : KeyedCall} (h : a.keyText = b.keyText) :
    a.SameFields b := by
  simp only [keyText, String.append_assoc] at h
  obtain ⟨hsuite, h⟩ := quote_append_inj ((String.append_right_inj _).mp h)
  obtain ⟨hmethod, h⟩ := quote_append_inj ((String.append_right_inj _).mp h)
  obtain ⟨hurl, h⟩ := urlText_append_inj ((String.append_right_inj _).mp h)
  exact ⟨Cryptosuite.text_injective hsuite, DidMethod.text_injective hmethod, hurl,
    KeyMaterial.stringify_append_inj h⟩

theorem KeyedCall.keyText_of_sameFields {a b : KeyedCall} (h : a.SameFields b) :
    a.keyText = b.keyText := by
  rw [keyText, keyText, h.cryptosuite, h.didMethod, h.didUrl, h.keyMaterial]

theorem KeyedCall.config_of_sameFields {a b : KeyedCall} (h : a.SameFields b) :
    a.config = b.config := by
  rw [config, config, h.cryptosuite, h.didMethod, h.didUrl, h.keyMaterial]

/-! ### The service with its cache -/

/-- A derivation may fail for any reason, but what it succeeds with is decided by its
configuration. -/
def signerKeying (lib : SigningLibrary) (digest : Digest) :
    Keying KeyedCall String SignerConfig JsError Signer where
  keyOf := KeyedCall.cacheKey digest
  configOf := KeyedCall.config
  Derives config r := ∀ signer, r = .ok signer → createSigner lib config = .ok signer
  config_of_key h :=
    KeyedCall.config_of_sameFields (KeyedCall.sameFields_of_keyText (digest.collisionFree h))

abbrev SignerCache := PromiseCache KeyedCall String SignerConfig JsError Signer

/-- The service: its cache, and the calls it rejected before it looked at the cache. -/
structure LocalSigningState where
  cache : SignerCache
  rejected : List SigningCall

namespace LocalSigningState

def initial : LocalSigningState := ⟨PromiseCache.empty, []⟩

inductive Step (lib : SigningLibrary) (digest : Digest) (s : LocalSigningState) :
    LocalSigningState → Prop
  | reject {call : SigningCall} (h : call.issuerInstance.keyMaterial = none) :
      Step lib digest s { s with rejected := s.rejected ++ [call] }
  | cache {cache : SignerCache}
      (h : PromiseCache.Step (signerKeying lib digest) s.cache cache) :
      Step lib digest s { s with cache := cache }

abbrev Run (lib : SigningLibrary) (digest : Digest) :
    LocalSigningState → LocalSigningState → Prop :=
  Relation.ReflTransGen (Step lib digest)

variable {lib : SigningLibrary} {digest : Digest} {s s' : LocalSigningState}

theorem Run.cache (h : Run lib digest s s') :
    PromiseCache.Run (signerKeying lib digest) s.cache s'.cache := by
  induction h with
  | refl => exact .refl
  | tail _ hstep ih =>
      cases hstep with
      | reject h => exact ih
      | cache h => exact ih.tail h

end LocalSigningState

/-- Only calls on an instance without key material are rejected outright, as they would be
without a cache. -/
theorem LocalSigningState.Run.rejected {lib : SigningLibrary} {digest : Digest}
    {s : LocalSigningState} (h : LocalSigningState.Run lib digest .initial s) :
    ∀ call ∈ s.rejected, ∃ message, LocalSigningService.signerFor lib call.issuerInstance =
      .error (.signing .invalidKeyMaterial message) := by
  induction h with
  | refl =>
      intro call hmem
      cases hmem
  | tail _ hstep ih =>
      cases hstep with
      | @reject call h =>
          intro call' hmem
          rcases List.mem_append.mp hmem with hmem | hmem
          · exact ih call' hmem
          · rw [List.mem_singleton.mp hmem]
            simp only [LocalSigningService.signerFor, h]
            exact ⟨_, rfl⟩
      | cache h => exact ih

/-! ### What the methods answer -/

inductive SigningResult
  | did (did : String)
  | credential (credential : VerifiableCredential)
  | document (document : JsonObject)

section Methods

variable (lib : SigningLibrary) (documentOf : SignerConfig → JsonObject)

/-- What a method does with the signer it waited for. -/
def SigningMethod.perform (signer : Signer) : SigningMethod → Except JsError SigningResult
  | .issuerDid => .ok (.did signer.did)
  | .sign unsigned => (signer.signCredential lib unsigned).map .credential
  | .didDocument => .ok (.document (documentOf signer.config))

/-- A call of the service as it is without a cache. -/
def LocalSigningService.call (call : SigningCall) : Except JsError SigningResult := do
  let signer ← signerFor lib call.issuerInstance
  call.method.perform lib documentOf signer

/-- What an answered call resolves or rejects with. -/
def resultOf (c : PromiseCache.Call KeyedCall JsError Signer) :
    Option (Except JsError SigningResult) :=
  c.answer.map fun r => r >>= fun signer => c.request.method.perform lib documentOf signer

end Methods

theorem LocalSigningService.call_issuerDid {lib : SigningLibrary}
    {documentOf : SignerConfig → JsonObject} (issuerInstance : IssuerInstance) :
    call lib documentOf ⟨.issuerDid, issuerInstance⟩ =
      (issuerDid lib issuerInstance).map .did := by
  rw [call, issuerDid]
  cases signerFor lib issuerInstance <;> rfl

theorem LocalSigningService.call_sign {lib : SigningLibrary}
    {documentOf : SignerConfig → JsonObject} (issuerInstance : IssuerInstance)
    (unsigned : UnsignedCredential) :
    call lib documentOf ⟨.sign unsigned, issuerInstance⟩ =
      (sign lib issuerInstance unsigned).map .credential := by
  rw [call, sign]
  cases signerFor lib issuerInstance <;> rfl

theorem LocalSigningService.signerFor_eq (lib : SigningLibrary) (call : KeyedCall) :
    signerFor lib call.issuerInstance = createSigner lib call.config := by
  rw [signerFor, call.has_keyMaterial]
  rfl

/-- **No list is signed with another instance's key.** In every state that any interleaving of
calls reaches, a call that was answered with a signer was answered with one created from exactly
its own fields, and with what the service answers without a cache; calls with the same fields share
a derivation until it is reported to fail; after that no later call waits for it, and the next one
starts its own; a derivation that came to a signer stays cached. -/
theorem answered_with_own_signer (lib : SigningLibrary) (digest : Digest)
    (documentOf : SignerConfig → JsonObject) (s : LocalSigningState)
    (hs : LocalSigningState.Run lib digest .initial s) :
    (∀ (i : Nat) c, s.cache.calls[i]? = some c → ∃ d, s.cache.derivations[c.promise]? = some d ∧
      d.config = { keyMaterial := c.request.keyMaterial
                   didMethod := c.request.issuerInstance.didMethod
                   cryptosuite := c.request.issuerInstance.cryptosuite
                   didUrl := c.request.issuerInstance.didUrl.filter (· ≠ "") } ∧
      ∀ r, c.answer = some r → d.phase = .reported r ∧ ∀ signer, r = .ok signer →
        createSigner lib d.config = .ok signer ∧
        resultOf lib documentOf c =
          some (LocalSigningService.call lib documentOf c.request.toSigningCall)) ∧
    (∀ (i j : Nat) c c' d d', s.cache.calls[i]? = some c → s.cache.calls[j]? = some c' →
      c.request.SameFields c'.request → s.cache.derivations[c.promise]? = some d →
      ¬d.phase.Failed → s.cache.derivations[c'.promise]? = some d' → ¬d'.phase.Failed →
      c.promise = c'.promise) ∧
    (∀ s', LocalSigningState.Run lib digest s s' → ∀ (p : Nat) d,
      s.cache.derivations[p]? = some d → d.phase.Failed → ∀ (i : Nat) c,
      s.cache.calls.length ≤ i → s'.cache.calls[i]? = some c → c.promise ≠ p) ∧
    (∀ s' call p, LocalSigningState.Step lib digest s s' →
      s'.cache.calls = s.cache.calls ++ [⟨call, p, none⟩] →
      (∀ (q : Nat) d, s.cache.derivations[q]? = some d → d.key = call.cacheKey digest →
        d.phase.Failed) →
      s'.cache.derivations = s.cache.derivations ++
        [⟨call.cacheKey digest, call.config, .pending⟩] ∧ p = s.cache.derivations.length) ∧
    ∀ s', LocalSigningState.Run lib digest s s' → ∀ (p : Nat) d signer,
      s.cache.derivations[p]? = some d → d.phase.outcome? = some (.ok signer) →
      s'.cache.entries d.key = some p := by
  have hI : PromiseCache.Inv (signerKeying lib digest) s.cache :=
    PromiseCache.inv_empty.run hs.cache
  refine ⟨fun i c hc => ?_, fun i j c c' d d' hc hc' hfields hd hlive hd' hlive' => ?_,
    fun s' hrun p d hd hfailed i c hnew hc => hI.retried hrun.cache hd hfailed hnew hc,
    fun s' call p hstep hcall hfailed => ?_,
    fun s' hrun p d signer hd hok => hI.kept hrun.cache hd hok⟩
  · obtain ⟨d, hd, hconfig, hanswer⟩ := hI.config hc
    refine ⟨d, hd, hconfig, fun r hr => ⟨(hanswer r hr).1, ?_⟩⟩
    rintro signer rfl
    have hcreated : createSigner lib c.request.config = .ok signer := (hanswer _ hr).2 signer rfl
    refine ⟨hconfig ▸ hcreated, ?_⟩
    rw [resultOf, hr, LocalSigningService.call, LocalSigningService.signerFor_eq, hcreated]
    rfl
  · exact hI.shared hc hc' (congrArg digest.sha256 (KeyedCall.keyText_of_sameFields hfields))
      hd hlive hd' hlive'
  · cases hstep with
    | reject h =>
        have hlength := congrArg List.length hcall
        simp at hlength
    | @cache cache h =>
        have hstart := hI.restarted h hcall hfailed
        subst hstart
        have hsame := List.append_cancel_left hcall
        simp only [List.cons.injEq, PromiseCache.Call.mk.injEq] at hsame
        exact ⟨rfl, hsame.1.2.1.symm⟩

/-! ### One key for two callers -/

def testSeed : KeyMaterial := .ed25519Seed "00000000000000000000000000000000"

/-- A call of `issuerDid`, by whichever tenant has an instance of that id. -/
def testCall (id : String) : KeyedCall where
  method := .issuerDid
  issuerInstance :=
    { id := id, cryptosuite := .eddsaRdfc2022, didMethod := .key, keyMaterial := some testSeed }
  keyMaterial := testSeed
  has_keyMaterial := rfl

def testSigner : Signer where
  did := "did:key:z6MkgKA7yrw5kYSiDuQFcye4bMaJpcfHFry3Bx45pdWh3s8i"
  config :=
    { keyMaterial := testSeed, didMethod := .key, cryptosuite := .eddsaRdfc2022, didUrl := none }

/-- Knows one key, and signs nothing. -/
def testSigningLibrary : SigningLibrary where
  deriveDid config :=
    if config = testSigner.config then .ok testSigner.did else .error (.other "Error")
  issue _ _ := .error (.other "Error")
  issue_proof h := by cases h
  issue_other h := by cases h
  deriveDid_error := by
    intro config e h
    split at h
    · cases h
    · cases h
      rfl
  issue_error h := by
    cases h
    rfl

/-- The digest of the one text that is looked up below; other texts are told apart as they are. -/
def testDigest : Digest where
  sha256 text :=
    if text = (testCall "default").keyText
    then "7cece619f6dee29204162d60b70290c5a287e0677bf1087abbb8ae3fc5f1676a"
    else "text " ++ text
  collisionFree := by
    have hhead : ∀ text, "7cece619f6dee29204162d60b70290c5a287e0677bf1087abbb8ae3fc5f1676a" ≠
        "text " ++ text := by
      intro text h
      have := congrArg (fun s : String => s.toList.head?) h
      simp at this
    intro a b h
    dsimp only at h
    split at h <;> rename_i ha <;> split at h <;> rename_i hb
    · rw [ha, hb]
    · exact absurd h (hhead b)
    · exact absurd h.symm (hhead a)
    · exact (String.append_right_inj _).mp h

/-- Two instances with the same key, of two tenants: one derivation answers both. -/
theorem answered_with_shared_signer :
    ∃ s c d, LocalSigningState.Run testSigningLibrary testDigest .initial s ∧
      s.cache.calls[1]? = some c ∧ s.cache.derivations.length = 1 ∧
      s.cache.derivations[c.promise]? = some d ∧ d.config = testSigner.config ∧
      resultOf testSigningLibrary (fun _ => []) c = some (LocalSigningService.call
        testSigningLibrary (fun _ => []) c.request.toSigningCall) := by
  have hrun : LocalSigningState.Run testSigningLibrary testDigest .initial
      ⟨((((((PromiseCache.empty : SignerCache).start (signerKeying testSigningLibrary testDigest)
        (testCall "default")).join (testCall "issuer") 0).setPhase 0
          ⟨(testCall "default").cacheKey testDigest, testSigner.config, .pending⟩
          (.settled (.ok testSigner))).report 0
          ⟨(testCall "default").cacheKey testDigest, testSigner.config,
            .settled (.ok testSigner)⟩ (.ok testSigner)).answer 1
          ⟨testCall "issuer", 0, none⟩ (.ok testSigner)), []⟩ := by
    have hcreated : createSigner testSigningLibrary testSigner.config = .ok testSigner := rfl
    refine .tail (.tail (.tail (.tail (.tail .refl (.cache (.start rfl))) (.cache (.join ?_)))
      (.cache (.settle rfl rfl ?_))) (.cache (.report rfl rfl)))
      (.cache (.answer rfl rfl rfl rfl))
    · have hkey : (testCall "issuer").cacheKey testDigest =
          (testCall "default").cacheKey testDigest :=
        congrArg testDigest.sha256 (KeyedCall.keyText_of_sameFields ⟨rfl, rfl, rfl, rfl⟩)
      exact (congrArg ((PromiseCache.empty : SignerCache).start
        (signerKeying testSigningLibrary testDigest) (testCall "default")).entries hkey).trans
        (PromiseCache.entries_start (testCall "default"))
    · rintro signer ⟨⟩
      exact hcreated
  obtain ⟨d, hd, hconfig, hanswer⟩ :=
    (answered_with_own_signer testSigningLibrary testDigest (fun _ => []) _ hrun).1 1 _ rfl
  exact ⟨_, _, d, hrun, rfl, rfl, hd, hconfig, ((hanswer _ rfl).2 testSigner rfl).2⟩

end VcalmStatus
