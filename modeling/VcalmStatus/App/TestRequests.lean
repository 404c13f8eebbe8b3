import VcalmStatus.PlainPlatform
import VcalmStatus.Safety.Reachable
import VcalmStatus.TestFixtures

/-!
The fixtures of the route tests: the app of tenants `acme` and `globex` at `https://status.example`,
and the requests `acme` sends it.
-/

namespace VcalmStatus

open Js Effects

/-- The body of a creation. -/
def createText : String := "\x7b\"statusPurpose\":\"revocation\"\x7d"

/-- The body of a creation that names its list itself. -/
def namedText (url : String) : String :=
  "\x7b\"statusPurpose\":\"revocation\",\"id\":\"" ++ url ++ "\"\x7d"

/-- A credential to allocate an entry for. -/
def credentialText (id : String) : String := "\x7b\"id\":\"" ++ id ++ "\"\x7d"

/-- An update that names a credential. -/
def updateText (id : String) : String :=
  "\x7b\"credentialId\":\"" ++ id ++ "\",\"credentialStatus\":\x7b\"type\":" ++
    "\"BitstringStatusListEntry\",\"statusPurpose\":\"revocation\"\x7d,\"status\":true\x7d"

/-- An update that copies an entry as well. -/
def selectorText (id index url : String) : String :=
  "\x7b\"credentialId\":\"" ++ id ++ "\",\"credentialStatus\":\x7b\"type\":" ++
    "\"BitstringStatusListEntry\",\"statusPurpose\":\"revocation\",\"statusListIndex\":\"" ++
    index ++ "\",\"statusListCredential\":\"" ++ url ++ "\"\x7d,\"status\":true\x7d"

/-- The URL of the first list that is made for `acme`. -/
def firstUrl : String := "https://status.example/status-lists/list-0"

/-- A URL of a list the way the service mints them. -/
def plainUrl : String := "https://status.example/status-lists/x"

/-- The same two segments with slashes to spare. -/
def slashedUrl : String := "https://status.example//status-lists//x/"

/-- What the first list is minted under where the base URL has a query. -/
def queriedUrl : String := "https://status.example/status-lists/x?y/status-lists/list-0"

/-- What the texts of the requests parse to. -/
def testTexts : List (String × Json) :=
  [(createText, .obj [("statusPurpose", .str "revocation")]),
    (credentialText "urn:uuid:1", .obj [("id", .str "urn:uuid:1")]),
    (credentialText "urn:uuid:2", .obj [("id", .str "urn:uuid:2")]),
    (updateText "urn:uuid:1", .obj
      [("credentialId", .str "urn:uuid:1"),
        ("credentialStatus", .obj
          [("type", .str "BitstringStatusListEntry"), ("statusPurpose", .str "revocation")]),
        ("status", .bool true)]),
    (selectorText "urn:uuid:1" "5" firstUrl, .obj
      [("credentialId", .str "urn:uuid:1"),
        ("credentialStatus", .obj
          [("type", .str "BitstringStatusListEntry"), ("statusPurpose", .str "revocation"),
            ("statusListIndex", .str "5"), ("statusListCredential", .str firstUrl)]),
        ("status", .bool true)]),
    (namedText plainUrl, .obj [("statusPurpose", .str "revocation"), ("id", .str plainUrl)]),
    (namedText slashedUrl, .obj [("statusPurpose", .str "revocation"), ("id", .str slashedUrl)]),
    (namedText queriedUrl, .obj [("statusPurpose", .str "revocation"), ("id", .str queriedUrl)])]

def testApp : AppDeps PlainList := { manager := testDeps, platform := plainPlatform testTexts }

def testHeaders : String → Option String
  | "Authorization" => some "Bearer acme-token"
  | "Host" => some "status.example"
  | _ => none

def postRequest (path body : String) : Request where
  method := "POST"
  url := testBaseUrl ++ path
  path := path
  header := testHeaders
  body := body
  receivedAt := 1786147200000

/-- `acme` asks for a revocation list. -/
def createRequest : Request := postRequest "/status-lists" createText

/-- `acme` asks for a revocation list under this URL. -/
def namedRequest (url : String) : Request := postRequest "/status-lists" (namedText url)

/-- Anybody asks for what is at a path. -/
def getRequest (path : String) : Request where
  method := "GET"
  url := testBaseUrl ++ path
  path := path
  header := testHeaders
  body := ""
  receivedAt := 1786147200000

/-- `acme` asks for an entry for a credential. -/
def allocateRequest (credentialId : String) : Request :=
  postRequest "/credentials/status/allocate" (credentialText credentialId)

/-- `acme` revokes a credential. -/
def updateRequest (text : String) : Request := postRequest "/credentials/status" text

/-- The same request, sent by `globex`. -/
def fromGlobex (request : Request) : Request :=
  { request with
    header := fun name =>
      if name = "Authorization" then some "Bearer globex-token" else testHeaders name }

/-- What a computed result says of the value. -/
theorem exists_ok_of_any {ε α : Type} {x : Except ε α} {p : α → Bool}
    (h : x.toOption.any p = true) : ∃ a, x = .ok a ∧ p a = true := by
  cases x with
  | ok a => exact ⟨a, rfl, h⟩
  | error e => cases h

theorem caller_postRequest (path body : String) :
    testApp.caller testTenants (postRequest path body) = some (testTenant "acme") := by
  have h : testApp.caller testTenants createRequest = some (testTenant "acme") := by
    decide +kernel
  exact h

/-- The state after these requests, handled one after the other from request `n` on. -/
def handled (env : Environment) (w : World) : Nat → List Request → Option World
  | _, [] => some w
  | n, request :: rest =>
      match (handle testApp request).run (World.step env n) w with
      | some (.ok _, w') => handled env w' (n + 1) rest
      | _ => none

theorem allAnswered_handled {env : Environment} (sent : List Request) :
    ∀ {n : Nat} {w w' : World} {requests : Nat → Option Request} {responses},
      AllAnswered testApp env requests responses w → (∀ i, n ≤ i → requests i = none) →
      handled env w n sent = some w' →
      ∃ requests responses, AllAnswered testApp env requests responses w' ∧
        ∀ i, n + sent.length ≤ i → requests i = none := by
  induction sent with
  | nil =>
      intro n w w' requests responses h hfree hw
      cases hw
      exact ⟨requests, responses, h, hfree⟩
  | cons request rest ih =>
      intro n w w' requests responses h hfree hw
      simp only [handled] at hw
      split at hw
      · rename_i response v hrun
        have hnext : ∀ i, n + 1 ≤ i → Function.update requests n (some request) i = none := by
          intro i hi
          rw [Function.update_of_ne (by omega)]
          exact hfree i (by omega)
        obtain ⟨requests', responses', h', hfree'⟩ :=
          ih (h.next (hfree n (Nat.le_refl n)) hrun) hnext hw
        refine ⟨requests', responses', h', fun i hi => hfree' i ?_⟩
        rw [List.length_cons] at hi
        omega
      · cases hw

/-- A state of the service that only these requests have been sent to. -/
theorem allAnswered_of_handled {env : Environment} {sent : List Request} {w : World}
    (h : handled env World.initial 0 sent = some w) :
    ∃ requests responses, AllAnswered testApp env requests responses w ∧
      requests sent.length = none := by
  obtain ⟨requests, responses, hw, hfree⟩ :=
    allAnswered_handled sent allAnswered_initial (fun _ _ => rfl) h
  exact ⟨requests, responses, hw, hfree _ (by omega)⟩

end VcalmStatus
