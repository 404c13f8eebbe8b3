import VcalmStatus.App.Published

/-!
The signing contract of the three services, and what it means for the lists that are stored: what a
list is served by was signed for it, so it says what the list says.
-/

namespace VcalmStatus

open Js Effects

/-- Every signature of a signing service honours its request. -/
def SigningService.Honest (signing : SigningService) : Prop :=
  ∀ tick issuerInstance unsigned,
    SignContract (signing.issuerDid tick) (signing.sign tick) issuerInstance unsigned

/-- With a signer that honours its requests no list disagrees with its credential, in whatever state
requests are. -/
theorem stored_of_honest {B : Type} {deps : AppDeps B} {env : Environment}
    (h : env.signing.Honest) {requests : Nat → Option Request}
    {q : Pool Operation Operation.Answer JsError (Option Response) World Nat}
    (hq : Reaches deps env requests q) {row : StatusListRecord}
    (hrow : row ∈ q.state.db.statusLists) :
    publishedList? row.signedCredential = some row.encodedList ∧
      ∃ j request new, Event.created j new ∈ q.state.log ∧ requests j = some request ∧
        SameBinding new row ∧
        credentialId? row.signedCredential = some (createdUrl deps request row.id) := by
  have hissued : ProvidesIssuer env (IssuedBy env) := fun row issuerInstance did hbound hdid h =>
    ⟨issuerInstance, did, hbound, hdid, h⟩
  have hagrees : True → env.signing.Agrees := fun _ => agrees_of_contract h
  have hpublished : PublishedAs deps env requests q.state.log row := publishedAs_of_recorded
    (hq.recorded True (IssuedBy env) hagrees hissued) (hq.good True (IssuedBy env) hagrees hissued).inv
    hrow
  exact ⟨hpublished.encodedList, hpublished.created⟩

/-- **The signing contract.** In process and with the fake it always holds; over HTTP it holds for
exactly the requests whose answer from the remote repeats them. Where it holds of every request, no
materialization and no stored list disagrees with the credential that is served for it. -/
theorem signing_contract {B : Type} (deps : AppDeps B) :
    (∀ lib issuerInstance unsigned, SignContract (LocalSigningService.issuerDid lib)
      (LocalSigningService.sign lib) issuerInstance unsigned) ∧
    (∀ digest issuerInstance unsigned, SignContract FakeSigningService.issuerDid
      (FakeSigningService.sign digest) issuerInstance unsigned) ∧
    (∀ url fetch issuerInstance unsigned,
      SignContract HttpSigningService.issuerDid (HttpSigningService.sign url fetch) issuerInstance
        unsigned ↔ RemoteEchoes url fetch issuerInstance unsigned) ∧
    ∀ env : Environment, env.signing.Honest →
      (∀ url issuerInstance statusPurpose list ttl m,
        Materialized deps.manager env url issuerInstance statusPurpose list ttl m →
        publishedList? m.signedCredential = some m.encodedList ∧
          credentialId? m.signedCredential = some url) ∧
      ∀ (requests : Nat → Option Request)
        (q : Pool Operation Operation.Answer JsError (Option Response) World Nat),
        Reaches deps env requests q → ∀ row ∈ q.state.db.statusLists,
          publishedList? row.signedCredential = some row.encodedList ∧
            ∃ j request new, Event.created j new ∈ q.state.log ∧ requests j = some request ∧
              SameBinding new row ∧
              credentialId? row.signedCredential = some (createdUrl deps request row.id) :=
  ⟨localSigning_contract, fakeSigning_contract, httpSigning_contract_iff, fun _ h =>
    ⟨fun _ _ _ _ _ _ hm => materialized_agrees h hm, fun _ _ hq _ hrow => stored_of_honest h hq hrow⟩⟩

/-- The remote answers 200 with `{"proof": null}`, and `sign` resolves with it. -/
theorem httpSigning_resolves_with_null_proof :
    ¬SignContract HttpSigningService.issuerDid
      (HttpSigningService.sign "http://signing:4006" fun _ _ _ =>
        some ⟨200, .ok "", .ok (.obj [("proof", .null)])⟩)
      { id := "default", cryptosuite := .eddsaRdfc2022, didMethod := .key
        signingServiceToken := some "t0ken", issuerDid := some "did:key:z6Mk" }
      [("id", .str "https://status.example/status-lists/1"),
        ("issuer", .str "did:key:z6Mk")] := by
  intro h
  obtain ⟨proof, hproof, hne⟩ := (h [("proof", .null)] rfl).proof
  cases hproof
  exact hne rfl

end VcalmStatus
