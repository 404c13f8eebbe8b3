import VcalmStatus.Services.Signing
import VcalmStatus.Safety.Creation

/-!
The contract of `SigningService.sign`, and which of the three services keep it.

A signature is over the credential it was asked for: the issuer is the instance's own, there is a
proof, and the properties a list is served by are the ones that were handed in. The in-process
service and the fake refuse whatever they cannot sign so. The HTTP service asks nothing of the
credential and takes the remote's answer as it comes, so there the contract is the remote's to
keep.
-/

namespace VcalmStatus

open Js Effects

/-- What a signature leaves alone. -/
def signedProperties : List String := ["id", "type", "issuer", "validFrom", "credentialSubject"]

/-- Only a proof and more contexts set the two apart. -/
structure Repeats (unsigned : UnsignedCredential) (signed : VerifiableCredential) : Prop where
  agrees : ∀ key, key ≠ "proof" → key ≠ "@context" → signed.get? key = unsigned.get? key
  contexts : contextEntries unsigned <+: contextEntries signed

/-- `signed` is `unsigned` with a proof, under the DID of its signer. -/
structure Honours (did : Except JsError String) (unsigned : UnsignedCredential)
    (signed : VerifiableCredential) : Prop extends Repeats unsigned signed where
  issuer : ∃ issuer, did = .ok issuer ∧ credentialIssuerId unsigned = some issuer
  proof : ∃ proof, signed.get? "proof" = some proof ∧ proof ≠ .null

theorem Repeats.signedProperties {unsigned : UnsignedCredential} {signed : VerifiableCredential}
    (h : Repeats unsigned signed) :
    ∀ key ∈ signedProperties, signed.get? key = unsigned.get? key := by
  intro key hkey
  have hne : ∀ key ∈ VcalmStatus.signedProperties, key ≠ "proof" ∧ key ≠ "@context" := by decide
  exact h.agrees key (hne key hkey).1 (hne key hkey).2

/-- Whatever `sign` resolves with honours the request; otherwise it rejects. -/
def SignContract (issuerDid : IssuerInstance → Except JsError String)
    (sign : IssuerInstance → UnsignedCredential → Except JsError VerifiableCredential)
    (issuerInstance : IssuerInstance) (unsigned : UnsignedCredential) : Prop :=
  ∀ signed, sign issuerInstance unsigned = .ok signed →
    Honours (issuerDid issuerInstance) unsigned signed

/-! ### In process -/

theorem assertIssuerMatches_eq_ok {credential : UnsignedCredential} {did : String} :
    assertIssuerMatches credential did = .ok () ↔ credentialIssuerId credential = some did := by
  simp [assertIssuerMatches]

theorem get?_withRequiredContexts {credential : UnsignedCredential} {contexts : List String}
    {key : String} (h : "@context" ≠ key) :
    (withRequiredContexts credential contexts).get? key = credential.get? key :=
  JsonObject.get?_set_of_ne _ _ h

theorem contextEntries_congr {c u : JsonObject} (h : c.get? "@context" = u.get? "@context") :
    contextEntries c = contextEntries u := by
  rw [contextEntries, h]
  rfl

theorem contextEntries_set {key : String} (h : key ≠ "@context") (c : JsonObject) (v : Json) :
    contextEntries (c.set key v) = contextEntries c :=
  contextEntries_congr (JsonObject.get?_set_of_ne _ _ h)

/-- The contexts a suite needs are appended to the ones there are. -/
theorem contextEntries_withRequiredContexts (credential : UnsignedCredential)
    (contexts : List String) :
    contextEntries credential <+: contextEntries (withRequiredContexts credential contexts) := by
  have happend : ∀ (contexts : List String) (entries : List Json), entries <+: contexts.foldl
      (fun merged context =>
        if includesText merged context then merged else merged ++ [.str context]) entries := by
    intro contexts
    induction contexts with
    | nil => exact fun entries => List.prefix_rfl
    | cons context contexts ih =>
        intro entries
        rw [List.foldl_cons]
        refine List.IsPrefix.trans ?_ (ih _)
        split
        · exact List.prefix_rfl
        · exact List.prefix_append _ _
  rw [contextEntries.eq_def (withRequiredContexts credential contexts), withRequiredContexts,
    JsonObject.get?_set_self]
  exact happend contexts _

theorem localSigning_contract (lib : SigningLibrary) (issuerInstance : IssuerInstance)
    (unsigned : UnsignedCredential) :
    SignContract (LocalSigningService.issuerDid lib) (LocalSigningService.sign lib) issuerInstance
      unsigned := by
  intro signed h
  obtain ⟨signer, hsigner, h⟩ := bind_eq_ok.mp h
  obtain ⟨_, hissuer, h⟩ := bind_eq_ok.mp h
  obtain ⟨_, _, hissue⟩ := bind_eq_ok.mp h
  refine ⟨⟨fun key hproof hcontext => ?_, ?_⟩, ⟨signer.did, ?_, assertIssuerMatches_eq_ok.mp hissuer⟩,
    lib.issue_proof hissue⟩
  · rw [lib.issue_other hissue hproof, get?_withRequiredContexts hcontext.symm]
  · rw [contextEntries_congr (lib.issue_other hissue (by decide))]
    exact contextEntries_withRequiredContexts _ _
  · rw [LocalSigningService.issuerDid, hsigner]
    rfl

/-! ### The fake -/

theorem fakeSigning_contract (digest : UnsignedCredential → String)
    (issuerInstance : IssuerInstance) (unsigned : UnsignedCredential) :
    SignContract FakeSigningService.issuerDid (FakeSigningService.sign digest) issuerInstance
      unsigned := by
  intro signed h
  obtain ⟨did, hdid, h⟩ := bind_eq_ok.mp h
  by_cases hissuer : credentialIssuerId unsigned = some did
  · simp only [hissuer, ne_eq, not_true_eq_false, if_false, Except.ok.injEq] at h
    subst h
    refine ⟨⟨fun key hproof _ => ?_, ?_⟩, ⟨did, hdid, hissuer⟩,
      ⟨_, JsonObject.get?_set_self _ _ _, by simp⟩⟩
    · exact JsonObject.get?_set_of_ne _ _ hproof.symm
    · simp [contextEntries_set]
  · simp [hissuer] at h

/-! ### Over HTTP -/

/-- The request of `HttpSigningService.sign` for an instance with a token. -/
def requestTo (url : String) (fetch : Fetch) (token : String) (unsigned : UnsignedCredential) :
    Option HttpResponse :=
  fetch (url ++ "/credentials/issue") ("Bearer " ++ token) (.obj [("credential", .obj unsigned)])

/-- Whatever object with a `proof` the remote answers with, bare or in an envelope, in a body it
sends with a 2xx status to an instance that has a token: its proof is not `null`, it repeats the
credential that was sent, and that one is for the DID recorded on the instance. -/
def RemoteEchoes (url : String) (fetch : Fetch) (issuerInstance : IssuerInstance)
    (unsigned : UnsignedCredential) : Prop :=
  ∀ token response body credential,
    issuerInstance.signingServiceToken = some token → token ≠ "" →
    requestTo url fetch token unsigned = some response →
    200 ≤ response.status → response.status < 300 → response.json = .ok body →
    AnswersWith body credential → credential.has "proof" = true →
    credential.get? "proof" ≠ some .null ∧ Repeats unsigned credential ∧
      ∃ did, issuerInstance.issuerDid = some did ∧ did ≠ "" ∧
        credentialIssuerId unsigned = some did

theorem httpIssuerDid_eq_ok {issuerInstance : IssuerInstance} {did : String} :
    HttpSigningService.issuerDid issuerInstance = .ok did ↔
      issuerInstance.issuerDid = some did ∧ did ≠ "" := by
  unfold HttpSigningService.issuerDid
  split <;> rename_i h
  · rw [Option.filter_eq_some_iff] at h
    constructor
    · intro heq
      cases heq
      exact ⟨h.1, by simpa using h.2⟩
    · rintro ⟨hd, _⟩
      rw [h.1, Option.some.injEq] at hd
      rw [hd]
  · constructor
    · intro heq
      cases heq
    · rintro ⟨hd, hne⟩
      simp [hd, hne] at h

theorem mapError_eq_ok {ε ε' α : Type} {x : Except ε α} {f : ε → ε'} {a : α} :
    x.mapError f = .ok a ↔ x = .ok a := by
  cases x <;> simp [Except.mapError]

/-- What `sign` resolves with is what the remote sent. -/
theorem httpSign_eq_ok {url : String} {fetch : Fetch} {issuerInstance : IssuerInstance}
    {unsigned : UnsignedCredential} {signed : VerifiableCredential} :
    HttpSigningService.sign url fetch issuerInstance unsigned = .ok signed ↔
      ∃ token response body, issuerInstance.signingServiceToken = some token ∧ token ≠ "" ∧
        requestTo url fetch token unsigned = some response ∧ 200 ≤ response.status ∧
        response.status < 300 ∧ response.json = .ok body ∧
        credentialFromResponse body = .ok signed := by
  unfold HttpSigningService.sign
  split <;> rename_i htoken
  · constructor
    · intro h
      cases h
    · rintro ⟨token, _, _, hsome, hne, _⟩
      simp [hsome, hne] at htoken
  · rename_i token
    obtain ⟨hsome, hne⟩ := Option.filter_eq_some_iff.mp htoken
    have hne : token ≠ "" := by simpa using hne
    cases hresponse : requestTo url fetch token unsigned with
    | none =>
        have hfetch : fetch _ _ _ = none := hresponse
        rw [hfetch]
        constructor
        · intro h
          cases h
        · rintro ⟨token', response, _, hsome', _, hresponse', _⟩
          rw [hsome, Option.some.injEq] at hsome'
          rw [← hsome', hresponse] at hresponse'
          cases hresponse'
    | some response =>
        have hfetch : fetch _ _ _ = some response := hresponse
        rw [hfetch]
        dsimp only
        by_cases hstatus : 200 ≤ response.status ∧ response.status < 300
        · simp only [hstatus, and_self, if_true]
          rw [bind_eq_ok]
          simp only [mapError_eq_ok]
          constructor
          · rintro ⟨body, hbody, h⟩
            exact ⟨token, response, body, hsome, hne, hresponse, hstatus.1, hstatus.2, hbody, h⟩
          · rintro ⟨token', response', body, hsome', _, hresponse', _, _, hbody, h⟩
            rw [hsome, Option.some.injEq] at hsome'
            rw [← hsome', hresponse, Option.some.injEq] at hresponse'
            exact ⟨body, hresponse' ▸ hbody, h⟩
        · simp only [hstatus, if_false]
          constructor
          · intro h
            cases h
          · rintro ⟨token', response', _, hsome', _, hresponse', h₁, h₂, _⟩
            rw [hsome, Option.some.injEq] at hsome'
            rw [← hsome', hresponse, Option.some.injEq] at hresponse'
            exact absurd (hresponse' ▸ ⟨h₁, h₂⟩) hstatus

theorem httpSigning_contract_iff (url : String) (fetch : Fetch) (issuerInstance : IssuerInstance)
    (unsigned : UnsignedCredential) :
    SignContract HttpSigningService.issuerDid (HttpSigningService.sign url fetch) issuerInstance
      unsigned ↔ RemoteEchoes url fetch issuerInstance unsigned := by
  constructor
  · intro h token response body credential htoken hne hresponse h₁ h₂ hbody hanswers hhas
    have hok := credentialFromResponse_eq_ok.mpr ⟨hanswers, hhas⟩
    obtain ⟨hrepeats, ⟨did, hdid, hissuer⟩, proof, hproof, hnotNull⟩ := h credential
      (httpSign_eq_ok.mpr ⟨token, response, body, htoken, hne, hresponse, h₁, h₂, hbody, hok⟩)
    obtain ⟨hsome, hdne⟩ := httpIssuerDid_eq_ok.mp hdid
    refine ⟨fun hnull => ?_, hrepeats, did, hsome, hdne, hissuer⟩
    rw [hnull, Option.some.injEq] at hproof
    exact hnotNull hproof.symm
  · intro h signed hsigned
    obtain ⟨token, response, body, htoken, hne, hresponse, h₁, h₂, hbody, hok⟩ :=
      httpSign_eq_ok.mp hsigned
    obtain ⟨hanswers, hhas⟩ := credentialFromResponse_eq_ok.mp hok
    obtain ⟨hnotNull, hrepeats, did, hsome, hdne, hissuer⟩ :=
      h token response body signed htoken hne hresponse h₁ h₂ hbody hanswers hhas
    obtain ⟨proof, hproof⟩ := Option.isSome_iff_exists.mp hhas
    refine ⟨hrepeats, ⟨did, httpIssuerDid_eq_ok.mpr ⟨hsome, hdne⟩, hissuer⟩, proof, hproof, ?_⟩
    rintro rfl
    exact hnotNull hproof

/-! ### The three services -/

/-- Where every signature honours its request, the credential that is stored publishes the bits it
is stored with, under the URL it was made for. -/
theorem materialized_agrees {B : Type} {deps : ManagerDeps B} {env : Environment}
    (h : ∀ tick issuerInstance unsigned, SignContract (env.signing.issuerDid tick)
      (env.signing.sign tick) issuerInstance unsigned)
    {url : String} {issuerInstance : IssuerInstance} {statusPurpose : StatusPurpose} {list : B}
    {ttl : Option Nat} {m : StatusListMaterialization}
    (hm : Materialized deps env url issuerInstance statusPurpose list ttl m) :
    publishedList? m.signedCredential = some m.encodedList ∧
      credentialId? m.signedCredential = some url := by
  obtain ⟨hencoded, issuer, validFrom, _, tick, hsigned⟩ := hm
  have hagrees := (h tick issuerInstance _ _ hsigned).signedProperties
  constructor
  · rw [publishedList?_congr (hagrees _ (by decide)), build_publishedList, hencoded]
  · rw [credentialId?_congr (hagrees _ (by decide)), build_id]

end VcalmStatus
