import VcalmStatus.App.Runs
import VcalmStatus.App.TestRequests
import VcalmStatus.Safety.Refusals
import VcalmStatus.StatusLists.Serial

/-!
Both ways of naming an entry lead to the same bit.

The entry that an allocation returns spells the index in decimal and the list by its canonical URL.
An update by selector reads both back and asks the list it finds for that URL; an update by
credential takes index and list from the allocation. Neither touches anything on the way, so both
come to the same call of `setStatus` in the same state.
-/

namespace VcalmStatus

open Js Effects Policy

/-- The entry a credential was returned with: the one that was appended. -/
def returnedEntry (response : Response) : Option JsonObject := do
  let body ← response.body
  let credential ← body.object?
  match credential.get? "credentialStatus" with
  | some (.arr entries) => entries.getLast?.bind Json.object?
  | some entry => entry.object?
  | none => none

/-- The id in the path of a URL, when the path is `/status-lists/{id}`. -/
def listPathId (platform : Platform) (url : String) : Option String := do
  let parsed ← platform.parseUrl url
  match parsed.segments with
  | ["status-lists", segment] => decodeURIComponent segment
  | _ => none

section Paths

variable {platform : Platform} {url id : String}

theorem listPathId_eq_some_iff :
    listPathId platform url = some id ↔ ∃ u segment, platform.parseUrl url = some u ∧
      u.segments = ["status-lists", segment] ∧ decodeURIComponent segment = some id := by
  rw [listPathId, Option.bind_eq_bind, Option.bind_eq_some_iff]
  constructor
  · rintro ⟨u, hu, h⟩
    split at h
    · rename_i segment hsegments
      exact ⟨u, segment, hu, hsegments, h⟩
    · cases h
  · rintro ⟨u, segment, hu, hsegments, h⟩
    refine ⟨u, hu, ?_⟩
    rw [hsegments]
    exact h

theorem listIdFromUrl_eq_ok_iff :
    listIdFromUrl platform url = .ok id ↔ listPathId platform url = some id := by
  rw [listPathId_eq_some_iff]
  constructor
  · intro h
    rw [listIdFromUrl] at h
    split at h
    · cases h
    · rename_i parsed hparsed
      split at h
      · rename_i segment hsegments
        split at h
        · rename_i found hfound
          cases h
          exact ⟨parsed, segment, hparsed, hsegments, hfound⟩
        · cases h
      · cases h
  · rintro ⟨parsed, segment, hparsed, hsegments, hfound⟩
    rw [listIdFromUrl, hparsed]
    simp only [hsegments, hfound]

end Paths

section Entries

variable {B : Type} (deps : AppDeps B) (tenants : TenantRegistry) (tenant : TenantRecord)
  (request : Request) (credentialId : String) (statusPurpose : StatusPurpose)

/-- The tenant asked for an entry for the credential, and this is the index and the list that the
response names. -/
structure AllocatedEntry (response : Response) (index url : String) : Prop where
  method : request.method = "POST"
  path : request.path = "/credentials/status/allocate"
  caller : deps.caller tenants request = some tenant
  input : ∃ input, allocateInput deps request = .ok input ∧ input.2 = credentialId ∧
    input.1.statusPurpose = statusPurpose
  status : response.status = 200
  entry : ∃ entry, returnedEntry response = some entry ∧
    textOf entry "statusListIndex" = some index ∧ textOf entry "statusListCredential" = some url

end Entries

section Selectors

variable {B : Type} {deps : AppDeps B}

/-! ### What the entry spells -/

theorem returnedEntry_allocateResponse {credential : JsonObject} {a : IndexAllocation}
    {list : StatusListRecord} {response : Response}
    (h : allocateResponse deps credential a list = .ok response) :
    ∃ entry, returnedEntry response = some entry ∧
      textOf entry "statusListIndex" = some (toString a.statusListIndex) ∧
      textOf entry "statusListCredential" = some (canonicalUrlOf deps.publicBaseUrl list) := by
  have hread : ∀ entry : BitstringStatusListEntry, ∃ fields, entry.toJson = .obj fields ∧
      textOf fields "statusListIndex" = some entry.statusListIndex ∧
      textOf fields "statusListCredential" = some entry.statusListCredential :=
    fun entry => ⟨_, rfl, rfl, rfl⟩
  obtain ⟨fields, hfields, hindex, hurl⟩ := hread
    (bitstringStatusListEntry (canonicalUrlOf deps.publicBaseUrl list) (.int a.statusListIndex)
      a.statusPurpose)
  refine ⟨fields, ?_, hindex, hurl⟩
  rw [Platform.json_eq_ok h]
  simp only [returnedEntry, hfields, Option.bind_eq_bind, Option.bind_some, Json.object?_obj]
  -- The entry stands alone, at the end of a list, or after the one entry there was.
  cases hheld : credential.get? "credentialStatus" with
  | none => simp [withStatusEntry, hheld]
  | some existing => cases existing <;> simp [withStatusEntry, hheld]

theorem parseIndex_toString {n : Nat} (h : n ≤ maxSafeInteger) :
    parseIndex (toString n) = .ok (.int n) := by
  rw [parseIndex, isDigits_toString, ofDigits_toString, if_neg (by simp), if_pos h]

/-! ### The allocation behind an entry -/

variable {env : Environment} {requests : Nat → Option Request}
  {responses : Nat → Option Response} {w : World} {tenant : TenantRecord} {j : Nat}
  {allocation : Request} {response : Response} {credentialId index url : String}
  {statusPurpose : StatusPurpose}

theorem allocateEnds_fails {P : Policy} {s t : World} {e : JsError}
    {asked : AllocateRequest × String} (hasked : allocateInput deps allocation = .ok asked)
    (h : AllocateEnds deps env P s allocation tenant (.error e) t) :
    400 ≤ e.status deps.platform := by
  obtain h | ⟨input, _, h | ⟨a, list, h⟩⟩ := h
  · rw [hasked] at h
    cases h
  · obtain hclient | ⟨_, hsigner⟩ | ⟨hserver, _⟩ := forCredentialRefused_status h
    · exact le_of_mem_clientStatuses hclient
    · exact Nat.le_trans (by decide) (status_of_fromSigner hsigner.fromSigner)
    · exact Nat.le_trans (by decide) hserver
  · rw [(Platform.json_eq_error h).2]
    show 400 ≤ 500
    decide

/-- The allocation, and the list it is in, as they are stored. -/
structure HeldEntry (tenantId credentialId : String)
    (statusPurpose : StatusPurpose) (index : String) (db : Database) (a : IndexAllocation)
    (row : StatusListRecord) : Prop where
  allocation : db.getAllocation tenantId credentialId statusPurpose = some a
  list : db.getStatusList a.listId = some row
  tenantId : row.tenantId = tenantId
  statusPurpose : row.statusPurpose = statusPurpose
  index : parseIndex index = .ok (.int a.statusListIndex)

/-- The list has the URL as well. -/
structure StoredEntry (deps : AppDeps B) (tenantId credentialId : String)
    (statusPurpose : StatusPurpose) (index url : String) (db : Database) (a : IndexAllocation)
    (row : StatusListRecord) : Prop
    extends HeldEntry tenantId credentialId statusPurpose index db a row where
  url : canonicalUrlOf deps.publicBaseUrl row = url

variable (lawful : Prop) in
theorem AllocatedEntry.stored (hagrees : lawful → env.signing.Agrees)
    (hw : AllAnswered deps env requests responses w) (hj : requests j = some allocation)
    (hresponse : responses j = some response)
    (h : AllocatedEntry deps env.tenants tenant allocation credentialId statusPurpose response
      index url) :
    ∃ a row, a ∈ w.db.indexAllocations ∧
      HeldEntry tenant.tenantId credentialId statusPurpose index w.db a row ∧
      (lawful → canonicalUrlOf deps.publicBaseUrl row = url) := by
  have hsettled := hw.settled lawful (fun _ => True) hagrees (providesIssuer_true env)
  obtain ⟨r, hdispatched, hr⟩ := hsettled.answered hj
  rw [hresponse, Option.some.injEq] at hr
  have hends := hdispatched.allocate h.method h.path
  rw [Authenticated, h.caller] at hends
  obtain ⟨u, _, hends⟩ := hends
  obtain ⟨asked, hasked, rfl, rfl⟩ := h.input
  cases r with
  | error e =>
      -- Nothing an allocation is refused for is answered with 200.
      have hrefused : 400 ≤ e.status deps.platform := allocateEnds_fails hasked hends
      have hstatus : e.status deps.platform = 200 := by
        rw [← h.status, hr]
        rfl
      omega
  | ok answer =>
      obtain ⟨input, a, list, hinput, hlist, ha, hmem, hanswer⟩ := hends
      rw [hasked, Except.ok.injEq] at hinput
      subst hinput
      obtain ⟨row, hrow, hsame⟩ := hlist.mem
      have hid : row.id = a.listId := hsame.binding.id.symm.trans ha.listId.symm
      obtain ⟨hsound, _⟩ := hsettled.inv.wf row hrow
      have hindex : a.statusListIndex ≤ maxSafeInteger := by
        have hlt := hsame.binding.characteristics ▸ ha.inRange
        have hsafe := hsound.safe
        omega
      -- A signer that keeps the id of what it signs keeps the list where it was.
      have hcanonical : lawful → canonicalUrlOf deps.publicBaseUrl row =
          canonicalUrlOf deps.publicBaseUrl list := by
        intro hlawful
        rw [canonicalUrlOf, canonicalUrlOf, ← hsame.keeps hlawful, ← hsame.binding.id]
      obtain ⟨entry, hentry, hspelled, hnamed⟩ :=
        returnedEntry_allocateResponse hanswer
      obtain ⟨entry', hentry', hspelled', hnamed'⟩ := h.entry
      have hsameResponse : response = answer := hr
      rw [hsameResponse, hentry, Option.some.injEq] at hentry'
      subst hentry'
      rw [hspelled, Option.some.injEq] at hspelled'
      rw [hnamed, Option.some.injEq] at hnamed'
      refine ⟨a, row, hmem, ⟨?_, ?_, ?_, ?_, ?_⟩, fun hlawful => (hcanonical hlawful).trans hnamed'⟩
      · rw [← ha.tenantId, ← ha.credentialId, ← ha.statusPurpose]
        exact Database.getAllocation_of_nodup hsettled.inv.credentials_nodup hmem
      · exact hid ▸ Database.getStatusList_of_mem hsettled.inv.ids_nodup hrow
      · exact hsame.binding.tenantId.symm.trans hlist.tenantId
      · exact hsame.binding.statusPurpose.symm.trans hlist.statusPurpose
      · rw [← hspelled']
        exact parseIndex_toString hindex

end Selectors

end VcalmStatus
