import VcalmStatus.Safety.Alone
import VcalmStatus.Safety.Requests
import VcalmStatus.Services.SigningContract

/-!
The invariant of the stored lists over runs of requests: the bits of a list can be read and moved,
and the list and the credential it is served by say the same. The second holds only because the
signer leaves its input alone, and is asked for under `lawful`; nothing else depends on it.
-/

namespace VcalmStatus

open Js Effects Policy

/-! ### Signers that leave their input alone -/

/-- What a signing service signs has the properties it was given. -/
def SigningService.Agrees (signing : SigningService) : Prop :=
  ∀ {tick issuerInstance unsigned signed},
    signing.sign tick issuerInstance unsigned = .ok signed →
    ∀ key ∈ signedProperties, signed.get? key = unsigned.get? key

theorem agrees_of_contract {signing : SigningService}
    (h : ∀ tick issuerInstance unsigned,
      SignContract (signing.issuerDid tick) (signing.sign tick) issuerInstance unsigned) :
    signing.Agrees :=
  fun hsign => (h _ _ _ _ hsign).signedProperties

theorem localSigning_agrees (lib : SigningLibrary) :
    (LocalSigningService.toService lib).Agrees :=
  agrees_of_contract fun _ => localSigning_contract lib

theorem fakeSigning_agrees (digest : UnsignedCredential → String) :
    (FakeSigningService.toService digest).Agrees :=
  agrees_of_contract fun _ => fakeSigning_contract digest

section Materialization

variable {B : Type} {deps : ManagerDeps B} {env : Environment} {url : String}
  {issuerInstance : IssuerInstance} {statusPurpose : StatusPurpose} {list : B} {ttl : Option Nat}
  {m : StatusListMaterialization}

/-- What the credential of a materialization says. -/
structure Publishes (url : String) (statusPurpose : StatusPurpose) (ttl : Option Nat)
    (m : StatusListMaterialization) : Prop where
  id : credentialId? m.signedCredential = some url
  published : publishedList? m.signedCredential = some m.encodedList
  statusPurpose : (subjectOf m.signedCredential).get? "statusPurpose" =
    some (.str statusPurpose.text)
  ttl : (subjectOf m.signedCredential).get? "ttl" = ttl.map fun t => .num (.int t)

theorem publishes_of_materialized (hagrees : env.signing.Agrees)
    (h : Materialized deps env url issuerInstance statusPurpose list ttl m) :
    Publishes url statusPurpose ttl m := by
  obtain ⟨hencoded, issuer, validFrom, _, tick, hsign⟩ := h
  have hagrees := hagrees hsign
  have hid := hagrees "id" (by decide)
  have hsubject := hagrees "credentialSubject" (by decide)
  refine ⟨?_, ?_, ?_, ?_⟩
  · rw [credentialId?_congr hid, build_id]
  · rw [publishedList?_congr hsubject, build_publishedList, hencoded]
  · rw [subjectOf_congr hsubject, build_statusPurpose]
  · rw [subjectOf_congr hsubject, build_ttl]

theorem issuer_of_materialized (hagrees : env.signing.Agrees)
    (h : Materialized deps env url issuerInstance statusPurpose list ttl m) :
    ∃ did, env.IssuerDid issuerInstance did ∧ credentialIssuerId m.signedCredential = some did := by
  obtain ⟨_, issuer, validFrom, hissuer, tick, hsign⟩ := h
  refine ⟨issuer, hissuer, ?_⟩
  rw [credentialIssuerId_congr (hagrees hsign "issuer" (by decide)), build_issuer]

end Materialization

/-! ### The policy of requests -/

section Policies

variable {B : Type} (deps : AppDeps B) (tenants : TenantRegistry)

/-- A stored list whose every bit can be read, moved and signed for. -/
structure Sound (row : StatusListRecord) : Prop where
  positive : 0 < row.characteristics.length
  safe : row.characteristics.length ≤ maxSafeInteger
  bound : ∃ issuerInstance, (tenants.getTenant row.tenantId).bind
    (resolveIssuerInstance · (some row.issuerInstanceId)) = some issuerInstance
  decoded : ∃ list, deps.manager.lib.decodeList row.encodedList = .ok list ∧
    row.characteristics.length ≤ deps.manager.lib.length list

/-- A stored list and the credential it is served by. -/
structure Served (row : StatusListRecord) : Prop where
  published : publishedList? row.signedCredential = some row.encodedList
  statusPurpose : (subjectOf row.signedCredential).get? "statusPurpose" =
    some (.str row.statusPurpose.text)
  ttl : (subjectOf row.signedCredential).get? "ttl" =
    row.characteristics.ttl.map fun t => .num (.int t)
  named : ∃ url, credentialId? row.signedCredential = some url ∧
    (url = statusListUrl deps.publicBaseUrl row.id ∧ row.id ∉ dotSegments ∨
      slugFromListUrl deps.platform url = .ok (some row.id))

/-- The URL a list is created under by a request. -/
def createdUrl (request : Request) (id : String) : String :=
  (requestedUrl deps request).getD (statusListUrl deps.publicBaseUrl id)

/-- Request `i` is authenticated as this tenant. -/
def ActsFor (requests : Nat → Option Request) (i : Nat) (tenantId : String) : Prop :=
  ∃ request tenant, requests i = some request ∧ deps.caller tenants request = some tenant ∧
    tenant.tenantId = tenantId

/-- A tenant writes its own lists and allocations, and an allocation fits its list. `issued` is
what is to hold of the issuer of a served credential. -/
def requestPolicy (lawful : Prop) (issued : StatusListRecord → Prop)
    (requests : Nat → Option Request) : Policy where
  wf row := Sound deps tenants row ∧ (lawful → Served deps row ∧ issued row)
  keeps a b := lawful → credentialId? a.signedCredential = credentialId? b.signedCredential
  fits row a := row.tenantId = a.tenantId ∧ row.statusPurpose = a.statusPurpose ∧
    a.statusListIndex < row.characteristics.length
  mayCreate i row := ActsFor deps tenants requests i row.tenantId ∧ row.version = 1 ∧
    (lawful → ∃ request, requests i = some request ∧
      credentialId? row.signedCredential = some (createdUrl deps request row.id))
  mayUpdate i row := ActsFor deps tenants requests i row.tenantId
  mayAllocate i a := ActsFor deps tenants requests i a.tenantId
  keeps_refl _ _ := rfl
  keeps_trans h h' hl := (h hl).trans (h' hl)
  fits_congr h hf := h.fits hf
  mayUpdate_congr h hm := h.tenantId ▸ hm

variable {deps tenants} {env : Environment} {request : Request} {tenant : TenantRecord}

/-- A list as it is created can be read and signed for. -/
theorem sound_of_created (hregistered : env.tenants.getTenant tenant.tenantId = some tenant)
    {input : CreateStatusListInput} {row : StatusListRecord}
    (hinput : AskedFor deps request tenant input) (h : Created deps.manager env input row) :
    Sound deps env.tenants row := by
  obtain ⟨list, hlist, hmaterialized⟩ := h.materialized
  have hencoded : row.encodedList = deps.manager.lib.encode list := hmaterialized.1
  have hminimum := characteristicsOf_minimum h.characteristics
  refine ⟨Nat.lt_of_lt_of_le (by decide) hminimum, deps.manager.lib.createList_safe hlist,
    ⟨input.issuerInstance, ?_⟩, ?_⟩
  · rw [h.tenantId, hinput.tenantId, hregistered, h.issuerInstanceId, Option.bind_some]
    exact hinput.bound
  · obtain ⟨decoded, hdecoded, hle, _⟩ := deps.manager.lib.decodeList_encode list
    rw [deps.manager.lib.length_createList hlist] at hle
    exact ⟨decoded, hencoded ▸ hdecoded, hle⟩

/-- A list as it is created is served as it is stored. -/
theorem served_of_created (hagrees : env.signing.Agrees)
    {input : CreateStatusListInput} {row : StatusListRecord}
    (hinput : AskedFor deps request tenant input) (h : Created deps.manager env input row) :
    Served deps row ∧
      credentialId? row.signedCredential = some (createdUrl deps request row.id) := by
  obtain ⟨list, _, hmaterialized⟩ := h.materialized
  have hpublishes := publishes_of_materialized hagrees hmaterialized
  have hid : credentialId? row.signedCredential =
      some (input.url.getD (statusListUrl deps.publicBaseUrl row.id)) := hpublishes.id
  refine ⟨⟨hpublishes.published, h.statusPurpose ▸ hpublishes.statusPurpose, hpublishes.ttl,
    _, hid, ?_⟩, ?_⟩
  · obtain ⟨hnone, hurl⟩ | ⟨id, url, hid', hurl, hslug, _⟩ := hinput.slug
    · obtain hsame | ⟨_, tick, hgenerated⟩ := h.id
      · rw [hnone] at hsame
        cases hsame
      · rw [hurl, hgenerated]
        exact .inl ⟨rfl, env.generateId_segment tick⟩
    · obtain hsame | ⟨hnone, _⟩ := h.id
      · rw [hid', Option.some.injEq] at hsame
        rw [hurl, ← hsame]
        exact .inr hslug
      · rw [hid'] at hnone
        cases hnone
  · rw [hid, hinput.url]
    rfl

/-- A flip leaves the list as readable as it was. -/
theorem sound_of_flipped {row : StatusListRecord} {issuerInstance : IssuerInstance} {index : Nat}
    {status : Bool} {m : StatusListMaterialization} (hrow : Sound deps env.tenants row)
    (h : Flipped deps.manager env row issuerInstance index status m) (version : Nat)
    (updatedAt : Date) :
    Sound deps env.tenants { row with
      encodedList := m.encodedList, signedCredential := m.signedCredential
      version := version, updatedAt := updatedAt } := by
  obtain ⟨list, list', held, hlist, hheld, _, hset, hmaterialized⟩ := h.flipped
  refine ⟨hrow.positive, hrow.safe, hrow.bound, ?_⟩
  obtain ⟨before, hbefore, hlength⟩ := hrow.decoded
  rw [hlist, Except.ok.injEq] at hbefore
  subst hbefore
  obtain ⟨changed, hchanged, hsame, _⟩ :=
    deps.manager.lib.setStatus_ok status (deps.manager.lib.getStatus_lt hheld)
  rw [hset, Except.ok.injEq] at hchanged
  subst hchanged
  obtain ⟨decoded, hdecoded, hle, _⟩ := deps.manager.lib.decodeList_encode list'
  exact ⟨decoded, hmaterialized.1 ▸ hdecoded, hlength.trans (hsame ▸ hle)⟩

/-- A flip re-signs the list under its own URL, and what is served is again what is stored. -/
theorem served_of_flipped (hagrees : env.signing.Agrees) {row : StatusListRecord}
    {issuerInstance : IssuerInstance} {index : Nat} {status : Bool}
    {m : StatusListMaterialization} (hrow : Served deps row)
    (h : Flipped deps.manager env row issuerInstance index status m) (version : Nat)
    (updatedAt : Date) :
    Served deps { row with
      encodedList := m.encodedList, signedCredential := m.signedCredential
      version := version, updatedAt := updatedAt } ∧
    credentialId? m.signedCredential = credentialId? row.signedCredential := by
  obtain ⟨_, _, _, _, _, _, _, hmaterialized⟩ := h.flipped
  have hpublishes := publishes_of_materialized hagrees hmaterialized
  obtain ⟨url, hurl, hnamed⟩ := hrow.named
  have hcanonical : canonicalUrlOf deps.publicBaseUrl row = url := by
    rw [canonicalUrlOf, hurl]
    rfl
  have hid : credentialId? m.signedCredential = some url := hcanonical ▸ hpublishes.id
  exact ⟨⟨hpublishes.published, hpublishes.statusPurpose, hpublishes.ttl, url, hid, hnamed⟩,
    hid.trans hurl.symm⟩

/-- A bit of a sound list can be moved, unless it is out of range or cannot be signed for. -/
theorem refused_of_sound {row : StatusListRecord} {n : Number} {e : JsError}
    {issuerInstance : IssuerInstance} (hrow : Sound deps tenants row)
    (h : ApplyRefused deps.manager env row issuerInstance n e) :
    StatusListManager.indexWithin row.characteristics.length n = none ∧
        (∃ message, e = .statusList .indexOutOfRange message) ∨
      env.SignerFails issuerInstance e := by
  obtain ⟨list, hlist, hlength⟩ := hrow.decoded
  cases h with
  | indexOutOfRange hindex => exact .inl ⟨hindex, _, rfl⟩
  | decode h =>
      rw [hlist] at h
      cases h
  | get hindex hlist' h =>
      rw [hlist, Except.ok.injEq] at hlist'
      subst hlist'
      obtain ⟨v, hv⟩ := deps.manager.lib.getStatus_ok (Nat.lt_of_lt_of_le hindex hlength)
      rw [hv] at h
      cases h
  | @set index _ status _ hindex hlist' h =>
      rw [hlist, Except.ok.injEq] at hlist'
      subst hlist'
      obtain ⟨_, hset, _⟩ :=
        deps.manager.lib.setStatus_ok status (Nat.lt_of_lt_of_le hindex hlength)
      rw [hset] at h
      cases h
  | signer h => exact .inr h

/-- Whatever a policy is to say of issuers, a signer that agrees provides it. -/
def ProvidesIssuer (env : Environment) (issued : StatusListRecord → Prop) : Prop :=
  ∀ row issuerInstance did, BoundInstance env row issuerInstance →
    env.IssuerDid issuerInstance did → credentialIssuerId row.signedCredential = some did →
    issued row

theorem providesIssuer_true (env : Environment) : ProvidesIssuer env fun _ => True :=
  fun _ _ _ _ _ _ => trivial

variable {lawful : Prop} {issued : StatusListRecord → Prop} {requests : Nat → Option Request}
  {i : Nat}

theorem requestPolicy_resigns (hagrees : lawful → env.signing.Agrees)
    (hissued : ProvidesIssuer env issued) :
    (requestPolicy deps env.tenants lawful issued requests).Resigns deps.manager env := by
  intro row issuerInstance index status m hwf hbound hflip updatedAt
  refine ⟨rfl, rfl, ?_, fun hl => ?_⟩
  · rw [RowUpdate.apply_of_eq rfl]
    refine ⟨sound_of_flipped hwf.1 hflip _ _, fun hl =>
      ⟨(served_of_flipped (hagrees hl) (hwf.2 hl).1 hflip _ _).1, ?_⟩⟩
    obtain ⟨_, _, _, _, _, _, _, hmaterialized⟩ := hflip.flipped
    obtain ⟨did, hdid, hissuer⟩ := issuer_of_materialized (hagrees hl) hmaterialized
    exact hissued _ issuerInstance did hbound hdid hissuer
  · rw [RowUpdate.apply_of_eq rfl]
    exact (served_of_flipped (hagrees hl) (hwf.2 hl).1 hflip 0 0).2.symm

/-- The policy of requests grants each of them what it asks for. -/
theorem requestPolicy_grants (hagrees : lawful → env.signing.Agrees)
    (hissued : ProvidesIssuer env issued) (hrequest : requests i = some request)
    (hcaller : deps.caller env.tenants request = some tenant) :
    (requestPolicy deps env.tenants lawful issued requests).Grants deps env i request tenant where
  creates input row hinput hrow := by
    have hacts : ActsFor deps env.tenants requests i row.tenantId :=
      ⟨request, tenant, hrequest, hcaller, (hrow.tenantId.trans hinput.tenantId).symm⟩
    have hregistered := getTenant_of_callerOf hcaller
    refine ⟨⟨sound_of_created hregistered hinput hrow,
      fun hl => ⟨(served_of_created (hagrees hl) hinput hrow).1, ?_⟩⟩, hacts,
      hrow.version, fun hl => ⟨request, hrequest,
        (served_of_created (hagrees hl) hinput hrow).2⟩⟩
    obtain ⟨list, _, hmaterialized⟩ := hrow.materialized
    obtain ⟨did, hdid, hissuer⟩ := issuer_of_materialized (hagrees hl) hmaterialized
    refine hissued row input.issuerInstance did ?_ hdid hissuer
    rw [BoundInstance, hrow.tenantId, hinput.tenantId, hregistered, hrow.issuerInstanceId,
      Option.bind_some]
    exact hinput.bound
  resigns := requestPolicy_resigns hagrees hissued
  owns h := h.1
  updates h := ⟨request, tenant, hrequest, hcaller, h.symm⟩
  allocates row credentialId statusPurpose hwf htenant hpurpose :=
    ⟨hwf.1.positive, fun a ha => ⟨⟨htenant.trans ha.tenantId.symm,
      hpurpose.trans ha.statusPurpose.symm, ha.inRange⟩, request, tenant, hrequest, hcaller,
      ha.tenantId.symm⟩⟩

end Policies

end VcalmStatus
