import VcalmStatus.Cli.EnvFile
import VcalmStatus.Services.TenantsEnv

/-!
The write side of the tenant registry, for as long as the registry is a file: which lines make a
tenant, and how they are appended to an env file.
-/

namespace VcalmStatus

open Js

namespace Provisioning

/-! ### Profiles and names -/

structure IssuerProfile where
  id : String
  didMethod : DidMethod
  cryptosuite : Cryptosuite
  summary : String
  deriving DecidableEq, Repr

/-- `PROFILES`. -/
def profiles : List IssuerProfile :=
  [ { id := "did-key-eddsa-2022-v1"
      didMethod := .key
      cryptosuite := .eddsaRdfc2022
      summary := "did:key + eddsa-rdfc-2022 — the default, and the exercised path" },
    { id := "did-key-ecdsa-2019-v1"
      didMethod := .key
      cryptosuite := .ecdsaRdfc2019
      summary := "did:key + ecdsa-rdfc-2019 — P-256, for an ecosystem that wants it" } ]

/-- `DEFAULT_PROFILE_ID`. -/
def defaultProfileId : String := "did-key-eddsa-2022-v1"

structure ProvisioningError where
  message : String
  deriving DecidableEq, Repr

def getProfile (id : String) : Except ProvisioningError IssuerProfile :=
  match profiles.find? fun candidate => candidate.id = id with
  | some profile => .ok profile
  | none =>
      let available := ", ".intercalate (profiles.map (·.id))
      .error ⟨s!"Unknown profile \"{id}\". Available: {available}."⟩

/-- `/^[a-z][a-z0-9_]*$/.test(tenantId)`. -/
def isTenantName (tenantId : String) : Bool :=
  match tenantId.toList with
  | [] => false
  | c :: cs => c.isLower && cs.all isLowerNameChar

variable (locale : Locale)

/-- The tenant id has to survive being uppercased into a variable's name. -/
def normalizeTenantId (raw : String) : Except ProvisioningError String :=
  let tenantId := locale.toLowerCase (trim raw)
  if isTenantName tenantId then .ok tenantId
  else
    .error ⟨s!"\"{raw}\" is not a usable tenant name. Use letters, digits and underscores, starting with a letter — it becomes the suffix of TENANT_TOKEN_<NAME>."⟩

/-! ### Provisioning a tenant -/

/-- `[A-Za-z0-9_-]`: the characters of base64url, and among them those of base58. -/
def isKeyChar (c : Char) : Bool := c.isAlphanum || c = '-' || c = '_'

/-- Encoded bytes. -/
def isKeyText (s : String) : Bool := s ≠ "" && s.toList.all isKeyChar

/-- The randomness and the key libraries that provisioning draws on. `randomToken` is
`randomBytes(32).toString('base64url')`; seeds and key halves are multibase; a DID has no line
break in it. -/
structure KeySource where
  randomToken : String
  secretKeySeed : String
  ecdsaExport : Option String × Option String
  createSigner : KeyMaterial → DidMethod → Cryptosuite → Except JsError (String × String)
  isKeyText_token : isKeyText randomToken = true
  isKeyText_seed : isKeyText secretKeySeed = true
  isKeyText_export : ∀ half, half = ecdsaExport.1 ∨ half = ecdsaExport.2 →
    ∀ text, half = some text → text ≠ "" → isKeyText text = true
  isOneLine_did : ∀ {keyMaterial didMethod cryptosuite did verificationMethod},
    createSigner keyMaterial didMethod cryptosuite = .ok (did, verificationMethod) →
      isOneLine did = true

variable (source : KeySource)

def generateKeyMaterial (cryptosuite : Cryptosuite) : Except JsError KeyMaterial :=
  match cryptosuite.keyFamily with
  | .ed25519 => .ok (.ed25519Seed source.secretKeySeed)
  | .p256 =>
      match source.ecdsaExport.1.filter (· ≠ ""), source.ecdsaExport.2.filter (· ≠ "") with
      | some publicKey, some secretKey => .ok (.multikey publicKey secretKey)
      | _, _ => .error (.signing .invalidKeyMaterial
          "Generated P-256 key pair did not export both halves")

/-- What a tenant is provisioned from. -/
structure ProvisionRequest where
  tenantId : String
  profile : IssuerProfile
  instanceId : Option String := none
  authorizedDomains : Option (List String) := none
  token : Option String := none
  keyMaterial : Option KeyMaterial := none

structure ProvisionedTenant where
  tenantId : String
  profile : IssuerProfile
  instanceId : String
  token : String
  keyMaterial : KeyMaterial
  authorizedDomains : List String
  did : String
  verificationMethod : String
  deriving DecidableEq, Repr

def provisionTenant (input : ProvisionRequest) : Except JsError ProvisionedTenant := do
  let keyMaterial ← match input.keyMaterial with
    | some keyMaterial => .ok keyMaterial
    | none => generateKeyMaterial source input.profile.cryptosuite
  let signer ← source.createSigner keyMaterial input.profile.didMethod input.profile.cryptosuite
  .ok
    { tenantId := input.tenantId
      profile := input.profile
      instanceId := input.instanceId.getD "default"
      token := input.token.getD source.randomToken
      keyMaterial
      authorizedDomains := input.authorizedDomains.getD []
      did := signer.1
      verificationMethod := signer.2 }

/-! ### The block -/

def keyMaterialLines (tenant : ProvisionedTenant) (suffix : String) : List String :=
  match tenant.keyMaterial with
  | .ed25519Seed seed => [s!"TENANT_ISSUER_1_SEED_{suffix}={seed}"]
  | .multikey publicKey secretKey =>
      [s!"TENANT_ISSUER_1_PUBLIC_KEY_{suffix}={publicKey}",
        s!"TENANT_ISSUER_1_SECRET_KEY_{suffix}={secretKey}"]

/-- The lines of the block. -/
def envBlockLines (tenant : ProvisionedTenant) : List String :=
  let suffix := locale.toUpperCase tenant.tenantId
  let domains := ",".intercalate tenant.authorizedDomains
  [s!"# Tenant \"{tenant.tenantId}\" — profile {tenant.profile.id} — {tenant.did}",
      s!"TENANT_TOKEN_{suffix}={tenant.token}"] ++
    (if tenant.authorizedDomains = [] then [] else [s!"TENANT_DOMAINS_{suffix}={domains}"]) ++
    [s!"TENANT_DEFAULT_INSTANCE_{suffix}={tenant.instanceId}",
      s!"TENANT_ISSUER_1_ID_{suffix}={tenant.instanceId}",
      s!"TENANT_ISSUER_1_CRYPTOSUITE_{suffix}={tenant.profile.cryptosuite.text}",
      s!"TENANT_ISSUER_1_DID_METHOD_{suffix}={tenant.profile.didMethod.text}"] ++
    keyMaterialLines tenant suffix

/-- The block the registry reads back. Instance 1, because it is new. -/
def renderEnvBlock (tenant : ProvisionedTenant) : String :=
  "\n".intercalate (envBlockLines locale tenant) ++ "\n"

/-! ### An existing file -/

/-- What follows `text` at the beginning of a text. -/
def afterText (text : String) (cs : List Char) : Option (List Char) :=
  if text.toList.isPrefixOf cs then some (cs.drop text.length) else none

/-- What a text ends in from each place where `^` matches: its beginning, and after every line
terminator. -/
def lineStarts (contents : String) : List (List Char) :=
  contents.toList :: tails contents.toList
where
  tails : List Char → List (List Char)
    | [] => []
    | c :: cs => if isLineTerminator c then cs :: tails cs else tails cs

/-- `^\s*NAME\s*=` at a line start, and what follows it. The white space may go over line ends. -/
def afterAssignment (name : String) (line : List Char) : Option (List Char) :=
  match afterText name (line.dropWhile isWhitespace) with
  | none => none
  | some rest =>
      match rest.dropWhile isWhitespace with
      | '=' :: value => some value
      | _ => none

/-- The group of `\s*(.+?)\s*$`. Where nothing but white space is left, the first `\s*` gives back
as much as the group needs. -/
def captureValue (value : List Char) : Option String :=
  match value.dropWhile isWhitespace with
  | [] => (value.filter fun c => !isLineTerminator c).getLast?.map String.singleton
  | cs => some (String.ofList
      ((cs.takeWhile fun c => !isLineTerminator c).rdropWhile isWhitespace))

/-- `value.replace(/^["']|["']$/g, '')`. -/
def unquote (value : String) : String :=
  let isQuote := fun c : Char => c.toNat = 0x22 || c.toNat = 0x27
  let opened := match value.toList with
    | c :: cs => if isQuote c then cs else c :: cs
    | [] => []
  let closed := match opened.getLast? with
    | some c => if isQuote c then opened.dropLast else opened
    | none => []
  String.ofList closed

/-- `PUBLIC_BASE_URL` as the env file has it. -/
def baseUrlFromEnvFile (contents : String) : Option String :=
  let found := (lineStarts contents).findSome? fun line =>
    (afterAssignment "PUBLIC_BASE_URL" line).bind captureValue
  (found.map unquote).filter (· ≠ "")

def hasTenant (contents tenantId : String) : Bool :=
  (lineStarts contents).any fun line =>
    (afterAssignment ("TENANT_TOKEN_" ++ locale.toUpperCase tenantId) line).isSome

structure EnvFileWrite where
  path : String
  created : Bool
  baseUrl : Option String
  deriving DecidableEq, Repr

/-- `NEW_FILE_HEADER`. -/
def newFileHeader : String :=
  "# Written by `pnpm provision-tenant`. Secrets — never commit this file.\n"

/-- The file at a path: what it holds, if it is there, and what reading it gives, which is nothing
also where it is there and cannot be read. -/
structure EnvFileState where
  contents : Option String
  readFile : Option String
  readFile_contents : ∀ text, readFile = some text → contents = some text

structure AppendOptions where
  tenantId : String := ""
  force : Option Bool := none

/-- What an append comes to: its result, and what the file holds after it. -/
structure AppendOutcome where
  result : Except ProvisioningError EnvFileWrite
  contents : Option String

/-- Appends the block, creating the file if it is not there. Where the file cannot be read it is
written anew. -/
def appendEnvBlock (path block : String) (options : AppendOptions) (file : EnvFileState) :
    AppendOutcome :=
  match file.readFile with
  | none =>
      { result := .ok { path, created := true, baseUrl := none }
        contents := some (newFileHeader ++ "\n" ++ block) }
  | some contents =>
      if options.tenantId ≠ "" && hasTenant locale contents options.tenantId &&
          options.force ≠ some true then
        let suffix := locale.toUpperCase options.tenantId
        { result := .error ⟨s!"{path} already has a TENANT_TOKEN_{suffix}. Remove it, or pass --force to append a second block that will shadow it."⟩
          contents := file.contents }
      else
        let separator := if "\n".toList.isSuffixOf contents.toList || contents = "" then "\n"
          else "\n\n"
        { result := .ok { path, created := false, baseUrl := baseUrlFromEnvFile contents }
          contents := some (contents ++ separator ++ block) }

end Provisioning

end VcalmStatus
