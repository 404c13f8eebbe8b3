import VcalmStatus.Services.Signing

/-!
`HttpSigningService.sign` as the awaits it makes of the remote: the request, and then the body of the
answer as JSON or, for the log, as text. The remote decides how each of them settles.
-/

namespace VcalmStatus

open Js Effects

/-- The promises `sign` awaits. -/
inductive RemoteCall
  | fetch (url authorization : String) (body : Json)
  | json
  | text

/-- What a promise settles with: a value, or an error by the name of its class. A request is answered
with a status; it is not answered where the deadline passes first. -/
abbrev RemoteCall.Settled : RemoteCall → Type
  | .fetch _ _ _ => Except String Nat
  | .json => Except String Json
  | .text => Except String String

abbrev RemoteProgram := Program RemoteCall RemoteCall.Settled JsError

namespace HttpSigningService

/-- `await`: a rejected promise throws. -/
def fetchStatus (url authorization : String) (body : Json) : RemoteProgram Nat := do
  let settled ← Program.perform (.fetch url authorization body)
  Program.ofExcept (Except.mapError JsError.other settled)

def responseJson : RemoteProgram Json := do
  let settled ← Program.perform .json
  Program.ofExcept (Except.mapError JsError.other settled)

def responseText : RemoteProgram String := do
  let settled ← Program.perform .text
  Program.ofExcept (Except.mapError JsError.other settled)

/-- `response.ok`. -/
def isOk (status : Nat) : Bool := 200 ≤ status ∧ status < 300

/-- The body of `sign`, await by await. -/
def signAwaits (url : String) (issuerInstance : IssuerInstance) (unsigned : UnsignedCredential) :
    RemoteProgram VerifiableCredential :=
  match issuerInstance.signingServiceToken.filter (· ≠ "") with
  | none => throw (.signingService .signingMisconfigured
      s!"Issuer instance \"{issuerInstance.id}\" has no signing-service token, which SIGNING_MODE=http requires")
  | some token => do
      let status ← tryCatch
        (fetchStatus (url ++ "/credentials/issue") ("Bearer " ++ token)
          (.obj [("credential", .obj unsigned)]))
        fun _ => throw (.signingService .signingUnavailable
          s!"The signing service at {url} did not answer")
      if isOk status then do
        let body ← responseJson
        Program.ofExcept (credentialFromResponse body)
      else do
        let detail ← tryCatch responseText fun _ => pure ""
        throw (.signingService
          (if status ≥ 500 then .signingUnavailable else .signingRejected)
          (s!"The signing service refused to sign for instance \"{issuerInstance.id}\" ({status})" ++
            if detail = "" then "" else ": " ++ String.ofList (sliceText 200 detail.toList)))

/-! ### Against a remote -/

/-- How a remote behaves: whether and with which status it answers a request, and how the body reads
as JSON and as text. -/
structure Remote where
  fetch : (url authorization : String) → (body : Json) → Except String Nat
  json : Except String Json
  text : Except String String

/-- The remote settles what is awaited; what was awaited is kept. -/
def Remote.step (remote : Remote) (calls : List RemoteCall) :
    (o : RemoteCall) → Option (o.Settled × List RemoteCall)
  | .fetch url authorization body =>
      some (remote.fetch url authorization body, calls ++ [.fetch url authorization body])
  | .json => some (remote.json, calls ++ [.json])
  | .text => some (remote.text, calls ++ [.text])

section

variable (remote : Remote) (calls : List RemoteCall)

theorem run_fetchStatus (url authorization : String) (body : Json) :
    (fetchStatus url authorization body).run remote.step calls =
      some ((remote.fetch url authorization body).mapError JsError.other,
        calls ++ [.fetch url authorization body]) := by
  show (Program.ofExcept ((remote.fetch url authorization body).mapError JsError.other)).run _ _ = _
  cases remote.fetch url authorization body <;> rfl

theorem run_responseJson : responseJson.run remote.step calls =
    some (remote.json.mapError JsError.other, calls ++ [.json]) := by
  show (Program.ofExcept (remote.json.mapError JsError.other)).run _ _ = _
  cases remote.json <;> rfl

theorem run_responseText : responseText.run remote.step calls =
    some (remote.text.mapError JsError.other, calls ++ [.text]) := by
  show (Program.ofExcept (remote.text.mapError JsError.other)).run _ _ = _
  cases remote.text <;> rfl

end

/-- The remote as one answer a request. -/
def Remote.toFetch (remote : Remote) : Fetch := fun url authorization body =>
  (remote.fetch url authorization body).toOption.map fun status =>
    { status, text := remote.text, json := remote.json }

/-- The one request there is to send. -/
def request (url token : String) (unsigned : UnsignedCredential) : RemoteCall :=
  .fetch (url ++ "/credentials/issue") ("Bearer " ++ token) (.obj [("credential", .obj unsigned)])

/-- What the remote does with it. -/
def answerTo (remote : Remote) (url token : String) (unsigned : UnsignedCredential) :
    Except String Nat :=
  remote.fetch (url ++ "/credentials/issue") ("Bearer " ++ token)
    (.obj [("credential", .obj unsigned)])

theorem toFetch_request (remote : Remote) (url token : String) (unsigned : UnsignedCredential) :
    remote.toFetch (url ++ "/credentials/issue") ("Bearer " ++ token)
        (.obj [("credential", .obj unsigned)]) =
      (answerTo remote url token unsigned).toOption.map fun status =>
        { status, text := remote.text, json := remote.json } := rfl

/-- What is awaited, as far as the remote lets it come. -/
def awaited (remote : Remote) (url : String) (issuerInstance : IssuerInstance)
    (unsigned : UnsignedCredential) : List RemoteCall :=
  match issuerInstance.signingServiceToken.filter (· ≠ "") with
  | none => []
  | some token =>
      match answerTo remote url token unsigned with
      | .error _ => [request url token unsigned]
      | .ok status =>
          [request url token unsigned, if isOk status then .json else .text]

/-- The awaits come to what `sign` says of the answer as a whole. -/
theorem run_signAwaits (remote : Remote) (url : String) (issuerInstance : IssuerInstance)
    (unsigned : UnsignedCredential) :
    (signAwaits url issuerInstance unsigned).run remote.step [] =
      some (sign url remote.toFetch issuerInstance unsigned,
        awaited remote url issuerInstance unsigned) := by
  unfold signAwaits sign awaited
  cases issuerInstance.signingServiceToken.filter (· ≠ "") with
  | none => rfl
  | some token =>
      dsimp only
      rw [Program.run_bind, Program.run_tryCatch, run_fetchStatus, toFetch_request]
      change ((some ((answerTo remote url token unsigned).mapError JsError.other, _)).bind _).bind _ =
        _
      cases answerTo remote url token unsigned with
      | error name => rfl
      | ok status =>
          simp only [Except.mapError, Option.bind_some, Except.toOption, Option.map_some]
          by_cases hok : 200 ≤ status ∧ status < 300
          · have hisOk : isOk status = true := decide_eq_true hok
            rw [if_pos hisOk, if_pos hok, if_pos hisOk, Program.run_bind, run_responseJson]
            cases remote.json with
            | error name => rfl
            | ok body =>
                show (Program.ofExcept (credentialFromResponse body)).run _ _ =
                  some (credentialFromResponse body, _)
                cases credentialFromResponse body <;> rfl
          · have hisOk : ¬isOk status = true := by simpa [isOk] using hok
            rw [if_neg hisOk, if_neg hok, if_neg hisOk, Program.run_bind, Program.run_tryCatch,
              run_responseText]
            cases remote.text <;> rfl

/-! ### The taxonomy -/

/-- There is a proof, and it is not `null`. -/
def HasProof (credential : JsonObject) : Prop :=
  ∃ proof, credential.get? "proof" = some proof ∧ proof ≠ .null

/-- The body is a signed credential, or an envelope around one. -/
def HoldsCredential (body : Json) : Prop :=
  ∃ credential, AnswersWith body credential ∧ HasProof credential

/-- The request was answered with this status. -/
def Answered (remote : Remote) (calls : List RemoteCall) (status : Nat) : Prop :=
  ∃ url authorization body, .fetch url authorization body ∈ calls ∧
    remote.fetch url authorization body = .ok status

/-- What `sign` may come to: a credential with a proof, or an error of the service around the signer,
whose code says what happened. -/
structure InTaxonomy (remote : Remote) (calls : List RemoteCall)
    (outcome : Except JsError VerifiableCredential) : Prop where
  typed : (∃ credential, outcome = .ok credential ∧ HasProof credential) ∨
    ∃ code message, outcome = .error (.signingService code message)
  misconfigured : ∀ {message}, outcome = .error (.signingService .signingMisconfigured message) →
    calls = []
  unavailable : (∃ message, outcome = .error (.signingService .signingUnavailable message)) ↔
    calls ≠ [] ∧ ((¬∃ status, Answered remote calls status) ∨
      ∃ status, Answered remote calls status ∧ 500 ≤ status)
  rejected : (∃ message, outcome = .error (.signingService .signingRejected message)) ↔
    ∃ status, Answered remote calls status ∧ status < 500 ∧
      (isOk status = true → ∀ body, remote.json = .ok body → ¬HoldsCredential body)

theorem HasProof.has {credential : JsonObject} (h : HasProof credential) :
    credential.has "proof" = true := by
  obtain ⟨proof, hproof, _⟩ := h
  rw [JsonObject.has, hproof]
  rfl

theorem hasProof_iff {credential : JsonObject} (h : credential.has "proof" = true) :
    HasProof credential ↔ credential.get? "proof" ≠ some .null := by
  obtain ⟨proof, hproof⟩ := Option.isSome_iff_exists.mp h
  simp [HasProof, hproof]

theorem exists_credentialFromResponse {body : Json} (h : HoldsCredential body) :
    ∃ credential, credentialFromResponse body = .ok credential := by
  obtain ⟨credential, hanswers, hproof⟩ := h
  exact ⟨credential, credentialFromResponse_eq_ok.mpr ⟨hanswers, hproof.has⟩⟩

/-! ### The ways to end -/

section

variable (remote : Remote) (url : String) (issuerInstance : IssuerInstance)
  (unsigned : UnsignedCredential)

/-- How `sign` can end, with what it has awaited. -/
inductive Ending : List RemoteCall → Except JsError VerifiableCredential → Prop
  | noToken {message : String} (h : issuerInstance.signingServiceToken.filter (· ≠ "") = none) :
      Ending [] (.error (.signingService .signingMisconfigured message))
  | noAnswer {token name message : String}
      (h : issuerInstance.signingServiceToken.filter (· ≠ "") = some token)
      (hanswer : answerTo remote url token unsigned = .error name) :
      Ending [request url token unsigned]
        (.error (.signingService .signingUnavailable message))
  | refused {token message : String} {status : Nat}
      (h : issuerInstance.signingServiceToken.filter (· ≠ "") = some token)
      (hanswer : answerTo remote url token unsigned = .ok status) (hok : ¬isOk status = true) :
      Ending [request url token unsigned, .text]
        (.error (.signingService
          (if status ≥ 500 then .signingUnavailable else .signingRejected) message))
  | unread {token name : String} {status : Nat}
      (h : issuerInstance.signingServiceToken.filter (· ≠ "") = some token)
      (hanswer : answerTo remote url token unsigned = .ok status) (hok : isOk status = true)
      (hjson : remote.json = .error name) :
      Ending [request url token unsigned, .json] (.error (.other name))
  | read {token : String} {status : Nat} {body : Json}
      (h : issuerInstance.signingServiceToken.filter (· ≠ "") = some token)
      (hanswer : answerTo remote url token unsigned = .ok status) (hok : isOk status = true)
      (hjson : remote.json = .ok body) :
      Ending [request url token unsigned, .json] (credentialFromResponse body)

theorem ending_sign : Ending remote url issuerInstance unsigned
    (awaited remote url issuerInstance unsigned)
    (sign url remote.toFetch issuerInstance unsigned) := by
  unfold sign awaited
  cases htoken : issuerInstance.signingServiceToken.filter (· ≠ "") with
  | none => exact .noToken htoken
  | some token =>
      dsimp only
      rw [toFetch_request]
      cases hanswer : answerTo remote url token unsigned with
      | error name => exact .noAnswer htoken hanswer
      | ok status =>
          have hresponse : (Except.ok status : Except String Nat).toOption.map (fun status =>
              ({ status, text := remote.text, json := remote.json } : HttpResponse)) =
                some { status, text := remote.text, json := remote.json } := rfl
          rw [hresponse]
          dsimp only
          by_cases hok : 200 ≤ status ∧ status < 300
          · have hisOk : isOk status = true := decide_eq_true hok
            rw [if_pos hisOk, if_pos hok]
            cases hjson : remote.json with
            | error name => exact .unread htoken hanswer hisOk hjson
            | ok body => exact .read htoken hanswer hisOk hjson
          · have hisOk : ¬isOk status = true := by simpa [isOk] using hok
            rw [if_neg hisOk, if_neg hok]
            exact .refused htoken hanswer hisOk

/-- The answer to the one request is what was answered. -/
theorem answered_iff {remote : Remote} {url : String} {unsigned : UnsignedCredential}
    {token : String} {rest : List RemoteCall} {status : Nat} (hrest : rest ⊆ [.json, .text]) :
    Answered remote (request url token unsigned :: rest) status ↔
      answerTo remote url token unsigned = .ok status := by
  constructor
  · rintro ⟨url', authorization, body, hmem, hanswer⟩
    rcases List.mem_cons.mp hmem with hsent | hmem
    · cases hsent
      exact hanswer
    · have := hrest hmem
      simp at this
  · intro hanswer
    exact ⟨_, _, _, List.mem_cons_self, hanswer⟩

theorem answered_eq_iff {remote : Remote} {url : String} {unsigned : UnsignedCredential}
    {token : String} {rest : List RemoteCall} {status s : Nat} (hrest : rest ⊆ [.json, .text])
    (hanswer : answerTo remote url token unsigned = .ok status) :
    Answered remote (request url token unsigned :: rest) s ↔ s = status := by
  rw [answered_iff hrest, hanswer, Except.ok.injEq, eq_comm]

theorem not_answered_nil {remote : Remote} {status : Nat} : ¬Answered remote [] status := by
  rintro ⟨_, _, _, hmem, _⟩
  cases hmem

/-- A successful answer is read to its end and is JSON, and no `null` stands in it for a proof. -/
def BodyRead : Prop :=
  ∀ token status, issuerInstance.signingServiceToken.filter (· ≠ "") = some token →
    answerTo remote url token unsigned = .ok status → isOk status = true →
      ∃ body, remote.json = .ok body ∧
        ∀ credential, AnswersWith body credential → credential.get? "proof" ≠ some .null

variable {remote url issuerInstance unsigned} {calls : List RemoteCall}
  {outcome : Except JsError VerifiableCredential}

/-- Whether a body holds a credential decides between a credential and a rejection, unless what it
holds is taken for one. -/
theorem inTaxonomy_read {token : String} {status : Nat} {body : Json}
    (hanswer : answerTo remote url token unsigned = .ok status) (hok : isOk status = true)
    (hjson : remote.json = .ok body)
    (hnull : ∀ credential, AnswersWith body credential → credential.get? "proof" ≠ some .null) :
    InTaxonomy remote [request url token unsigned, .json] (credentialFromResponse body) := by
  have hiff : ∀ {s}, Answered remote [request url token unsigned, .json] s ↔ s = status :=
    answered_eq_iff (by simp) hanswer
  have hlt : status < 500 := by
    have : 200 ≤ status ∧ status < 300 := of_decide_eq_true hok
    omega
  have hunavailable : ¬([request url token unsigned, .json] ≠ [] ∧
      ((¬∃ s, Answered remote [request url token unsigned, .json] s) ∨
        ∃ s, Answered remote [request url token unsigned, .json] s ∧ 500 ≤ s)) := by
    rintro ⟨-, hnone | ⟨s, hs, hlate⟩⟩
    · exact hnone ⟨status, hiff.mpr rfl⟩
    · obtain rfl := hiff.mp hs
      omega
  cases hcredential : credentialFromResponse body with
  | ok credential =>
      obtain ⟨hanswers, hhas⟩ := credentialFromResponse_eq_ok.mp hcredential
      have hproof : HasProof credential := (hasProof_iff hhas).mpr (hnull credential hanswers)
      have hholds : HoldsCredential body := ⟨credential, hanswers, hproof⟩
      refine ⟨.inl ⟨credential, rfl, hproof⟩, nofun, iff_of_false nofun hunavailable,
        iff_of_false nofun ?_⟩
      rintro ⟨s, hs, -, hnone⟩
      obtain rfl := hiff.mp hs
      exact hnone hok body hjson hholds
  | error e =>
      obtain ⟨message, rfl⟩ := credentialFromResponse_rejected hcredential
      refine ⟨.inr ⟨_, _, rfl⟩, nofun, iff_of_false nofun hunavailable,
        iff_of_true ⟨message, rfl⟩ ⟨status, hiff.mpr rfl, hlt, fun _ body' hjson' hholds => ?_⟩⟩
      obtain rfl := Except.ok.inj (hjson.symm.trans hjson')
      obtain ⟨credential, hok'⟩ := exists_credentialFromResponse hholds
      rw [hok'] at hcredential
      cases hcredential

/-- A refusal is in the taxonomy whatever its text is. -/
theorem inTaxonomy_refused {token message : String} {status : Nat}
    (hanswer : answerTo remote url token unsigned = .ok status) (hok : ¬isOk status = true) :
    InTaxonomy remote [request url token unsigned, .text] (.error (.signingService
        (if status ≥ 500 then .signingUnavailable else .signingRejected) message)) := by
  have hiff : ∀ {s}, Answered remote [request url token unsigned, .text] s ↔ s = status :=
    answered_eq_iff (by simp) hanswer
  refine ⟨.inr ⟨_, _, rfl⟩, ?_, ?_, ?_⟩
  · intro message' h
    split at h <;> cases h
  · simp only [hiff, exists_eq, exists_eq_left]
    by_cases hstatus : 500 ≤ status <;> simp [hstatus]
  · simp only [hiff, exists_eq_left, hok]
    by_cases hstatus : 500 ≤ status
    · simp [hstatus]
    · simp [hstatus, Nat.lt_of_not_le hstatus]

theorem inTaxonomy_iff (h : Ending remote url issuerInstance unsigned calls outcome) :
    InTaxonomy remote calls outcome ↔ BodyRead remote url issuerInstance unsigned := by
  cases h with
  | noToken htoken =>
      refine iff_of_true ⟨.inr ⟨_, _, rfl⟩, fun _ => rfl, ?_, ?_⟩ ?_
      · exact iff_of_false nofun fun h => h.1 rfl
      · refine iff_of_false nofun ?_
        rintro ⟨status, hanswered, -⟩
        exact not_answered_nil hanswered
      · intro token status htoken'
        rw [htoken] at htoken'
        cases htoken'
  | @noAnswer token name message htoken hanswer =>
      have hnone : ∀ status, ¬Answered remote [request url token unsigned] status := by
        intro status
        rw [answered_iff (by simp), hanswer]
        exact nofun
      refine iff_of_true ⟨.inr ⟨_, _, rfl⟩, nofun, ?_, ?_⟩ ?_
      · exact iff_of_true ⟨message, rfl⟩ ⟨nofun, .inl fun ⟨status, hs⟩ => hnone status hs⟩
      · exact iff_of_false nofun fun ⟨status, hs, _⟩ => hnone status hs
      · intro token' status htoken' hanswer'
        obtain rfl := Option.some.inj (htoken.symm.trans htoken')
        rw [hanswer] at hanswer'
        cases hanswer'
  | @refused token message status htoken hanswer hok =>
      refine iff_of_true (inTaxonomy_refused hanswer hok) ?_
      intro token' status' htoken' hanswer' hok'
      obtain rfl := Option.some.inj (htoken.symm.trans htoken')
      obtain rfl := Except.ok.inj (hanswer.symm.trans hanswer')
      exact absurd hok' hok
  | @unread token name status htoken hanswer hok hjson =>
      refine iff_of_false (fun h => ?_) fun hread => ?_
      · obtain ⟨_, h, -⟩ | ⟨_, _, h⟩ := h.typed <;> cases h
      · obtain ⟨body, hbody, _⟩ := hread token status htoken hanswer hok
        rw [hjson] at hbody
        cases hbody
  | @read token status body htoken hanswer hok hjson =>
      constructor
      · intro h _ _ _ _ _
        refine ⟨body, hjson, fun credential hanswers hnull => ?_⟩
        have hhas : JsonObject.has credential "proof" = true := by
          rw [JsonObject.has, hnull]
          rfl
        rw [credentialFromResponse_eq_ok.mpr ⟨hanswers, hhas⟩] at h
        obtain ⟨_, hsame, hproof⟩ | ⟨_, _, hsame⟩ := h.typed
        · cases hsame
          exact (hasProof_iff hhas).mp hproof hnull
        · cases hsame
      · intro hread
        obtain ⟨body', hbody', hnull⟩ := hread token status htoken hanswer hok
        obtain rfl := Except.ok.inj (hjson.symm.trans hbody')
        exact inTaxonomy_read hanswer hok hjson hnull

/-- A remote that answers with no JSON where it should sign. -/
def proxyPage : Remote where
  fetch _ _ _ := .ok 200
  json := .error "SyntaxError"
  text := .ok "<html>"

/-- A page with status 200 ends in a bare `SyntaxError`, which is no error of the taxonomy. -/
theorem sign_untyped : ∃ calls,
    (signAwaits "http://signing:4006"
        { id := "default", cryptosuite := .eddsaRdfc2022, didMethod := .key
          signingServiceToken := some "token" } []).run proxyPage.step [] =
      some (.error (.other "SyntaxError"), calls) ∧
    ¬InTaxonomy proxyPage calls (.error (.other "SyntaxError")) := by
  refine ⟨_, rfl, fun h => ?_⟩
  obtain ⟨_, h, -⟩ | ⟨_, _, h⟩ := h.typed <;> cases h

variable (remote url issuerInstance unsigned) in
/-- Against every remote `sign` ends, and it ends in a signed credential or an error of the taxonomy
exactly where a successful answer can be read as JSON and has no `null` for its proof. -/
theorem sign_in_taxonomy_iff :
    ∃ outcome calls,
      (signAwaits url issuerInstance unsigned).run remote.step [] = some (outcome, calls) ∧
        outcome = sign url remote.toFetch issuerInstance unsigned ∧
        (InTaxonomy remote calls outcome ↔ BodyRead remote url issuerInstance unsigned) :=
  ⟨_, _, run_signAwaits remote url issuerInstance unsigned, rfl,
    inTaxonomy_iff (ending_sign remote url issuerInstance unsigned)⟩

end

end HttpSigningService

end VcalmStatus
