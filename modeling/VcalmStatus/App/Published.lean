import VcalmStatus.App.TestRequests

/-!
Bits and published credential agree in every reachable state, however the requests interleave and
wherever they fail. A list is stored and its credential signed by the same materialization, so the
invariant carries both at once; where a list came from and how often it was signed is read from
the log.

That no two lists share a URL takes one thing more. A client may name any URL whose path is that
of a list, and nothing compares it with the URLs that the service has minted itself: as long as
the base URL is an origin these are told apart by their paths, but a query in the base hides the
paths of all of them.
-/

namespace VcalmStatus

open Js Effects Policy

section Published

variable {B : Type} (deps : AppDeps B) (env : Environment) (requests : Nat → Option Request)

/-- The issuer of a list is the DID of the instance it is bound to. -/
def IssuedBy (row : StatusListRecord) : Prop :=
  ∃ issuerInstance did, BoundInstance env row issuerInstance ∧
    env.IssuerDid issuerInstance did ∧ credentialIssuerId row.signedCredential = some did

/-- A stored list agrees with its credential, with the log and with the request that created it. -/
structure PublishedAs (log : List Event) (row : StatusListRecord) : Prop where
  encodedList : publishedList? row.signedCredential = some row.encodedList
  statusPurpose : (subjectOf row.signedCredential).get? "statusPurpose" =
    some (.str row.statusPurpose.text)
  ttl : (subjectOf row.signedCredential).get? "ttl" =
    row.characteristics.ttl.map fun t => .num (.int t)
  issuer : IssuedBy env row
  decoded : ∃ list, deps.manager.lib.decodeList row.encodedList = .ok list ∧
    row.characteristics.length ≤ deps.manager.lib.length list
  version : row.version = 1 + log.countP (Event.flips row.id)
  created : ∃ j request new, Event.created j new ∈ log ∧ requests j = some request ∧
    SameBinding new row ∧
    credentialId? row.signedCredential = some (createdUrl deps request row.id)

variable {deps env requests} {issued : StatusListRecord → Prop}

theorem publishedAs_of_recorded {w : World} {row : StatusListRecord}
    (hrecorded : (requestPolicy deps env.tenants True (IssuedBy env) requests).Recorded
      Database.empty w)
    (hI : (requestPolicy deps env.tenants True (IssuedBy env) requests).Inv env w)
    (hrow : row ∈ w.db.statusLists) : PublishedAs deps env requests w.log row := by
  obtain ⟨hsound, hlawful⟩ := hI.wf row hrow
  obtain ⟨hserved, hissued⟩ := hlawful trivial
  have hfirst : ∀ i new, (requestPolicy deps env.tenants True (IssuedBy env) requests).mayCreate
      i new → new.version = 1 := fun _ _ hmay => hmay.2.1
  refine ⟨hserved.published, hserved.statusPurpose, hserved.ttl, hissued, hsound.decoded,
    hrecorded.history.version rfl hfirst hrow, ?_⟩
  obtain ⟨j, new, hmem, ⟨_, _, hmay⟩, hsame⟩ := hrecorded.history.origin rfl hrow
  obtain ⟨request, hrequest, hurl⟩ := hmay trivial
  exact ⟨j, request, new, hmem, hrequest, hsame.binding,
    (hsame.keeps trivial).symm.trans (hsame.binding.id ▸ hurl)⟩

end Published

end VcalmStatus
