import Mathlib.Data.List.Sort
import VcalmStatus.Js.Locale
import VcalmStatus.Services.ProcessEnv
import VcalmStatus.Services.Tenants

/-!
Tenants from environment variables. A `TENANT_TOKEN_<NAME>` defines the tenant; its issuer
instances are numbered from 1 and read until a gap. Structural mistakes fail the boot.
-/

namespace VcalmStatus

open Js

structure TenantEnvError where
  message : String
  deriving DecidableEq, Repr

/-- The fields of a numbered issuer instance. -/
inductive InstanceField
  | id
  | cryptosuite
  | didMethod
  | didUrl
  | seed
  | publicKey
  | secretKey
  | signingTenant
  | signingToken
  | issuerDid
  deriving DecidableEq, Repr

def InstanceField.text : InstanceField → String
  | .id => "ID"
  | .cryptosuite => "CRYPTOSUITE"
  | .didMethod => "DID_METHOD"
  | .didUrl => "DID_URL"
  | .seed => "SEED"
  | .publicKey => "PUBLIC_KEY"
  | .secretKey => "SECRET_KEY"
  | .signingTenant => "SIGNING_TENANT"
  | .signingToken => "SIGNING_TOKEN"
  | .issuerDid => "ISSUER_DID"

/-- `SUPPORTED_CRYPTOSUITES`. -/
def supportedCryptosuites : List Cryptosuite :=
  [.eddsaRdfc2022, .ecdsaRdfc2019, .ed25519Signature2020]

namespace TenantsEnv

variable (locale : Locale)

/-- `key.startsWith('TENANT_TOKEN_')`. -/
def isTokenKey (key : String) : Bool := "TENANT_TOKEN_".toList.isPrefixOf key.toList

/-- Tenant ids are lowercase; the env suffix is the uppercase form. -/
def tenantIdFromTokenKey (key : String) : String :=
  locale.toLowerCase (String.ofList (key.toList.drop "TENANT_TOKEN_".length))

def list (value : Option String) : List String :=
  match value with
  | none => []
  | some value => ((split value ',').map trim).filter (· ≠ "")

def parseCryptosuite (raw : Option String) (location : String) :
    Except TenantEnvError Cryptosuite :=
  let value := (raw.map trim).getD "eddsa-rdfc-2022"
  match supportedCryptosuites.find? fun suite => suite.text = value with
  | some suite => .ok suite
  | none =>
      let supported := ", ".intercalate (supportedCryptosuites.map Cryptosuite.text)
      .error ⟨s!"{location}: unknown cryptosuite \"{value}\". Supported: {supported}."⟩

def parseDidMethod (raw : Option String) (location : String) : Except TenantEnvError DidMethod :=
  let value := (raw.map trim).getD "key"
  if value = "key" then .ok .key
  else if value = "web" then .ok .web
  else .error ⟨s!"{location}: unknown DID method \"{value}\". Supported: key, web."⟩

/-- An empty text counts as none here. -/
def parseKeyMaterial (seed publicKeyMultibase secretKeyMultibase : Option String)
    (location : String) : Except TenantEnvError (Option KeyMaterial) :=
  match seed.filter (· ≠ ""), publicKeyMultibase.filter (· ≠ ""),
    secretKeyMultibase.filter (· ≠ "") with
  | some seed, none, none => .ok (some (.ed25519Seed seed))
  | some _, _, _ => .error ⟨s!"{location}: set either a seed or a multikey pair, not both."⟩
  | none, some publicKey, some secretKey => .ok (some (.multikey publicKey secretKey))
  | none, none, none => .ok none
  | none, _, _ => .error ⟨s!"{location}: multikey material needs both PUBLIC_KEY and SECRET_KEY."⟩

/-- The name of an instance's variable. -/
def instanceVariable (n : Nat) (field : InstanceField) (suffix : String) : String :=
  s!"TENANT_ISSUER_{n}_{field.text}_{suffix}"

/-- The source's `at`: a field of instance `n`, trimmed, unless it is blank. -/
def instanceField (env : ProcessEnv) (suffix : String) (n : Nat) (field : InstanceField) :
    Option String :=
  ((env.get? (instanceVariable n field suffix)).map trim).filter (· ≠ "")

/-- One turn of the loop: instance `n`, read through `read`, after the `instances` before it; `none`
at the gap where the loop breaks off. -/
def readInstance (tenantId suffix : String) (n : Nat) (read : InstanceField → Option String)
    (instances : List IssuerInstance) : Except TenantEnvError (Option IssuerInstance) :=
  match read .id with
  | none => .ok none
  | some id => do
      let location := s!"TENANT_ISSUER_{n}_*_{suffix}"
      let didMethod ← parseDidMethod (read .didMethod) location
      let didUrl := read .didUrl
      if didMethod = .web ∧ didUrl = none then
        .error ⟨s!"{location}: DID method \"web\" requires TENANT_ISSUER_{n}_DID_URL_{suffix}."⟩
      else
        let keyMaterial ← parseKeyMaterial (read .seed) (read .publicKey) (read .secretKey) location
        if instances.any fun issuerInstance => issuerInstance.id = id then
          .error
            ⟨s!"{location}: issuer instance id \"{id}\" is used twice for tenant \"{tenantId}\"."⟩
        else
          let cryptosuite ← parseCryptosuite (read .cryptosuite) location
          .ok (some
            { id, cryptosuite, didMethod, didUrl, keyMaterial
              -- Defaults to the tenant id, matching transaction-service.
              signingServiceTenant := some ((read .signingTenant).getD tenantId)
              signingServiceToken := read .signingToken
              issuerDid := read .issuerDid })

/-- The loop from `n` on, for as many turns as `bound` allows. -/
def instancesFrom (env : ProcessEnv) (tenantId suffix : String) :
    (bound n : Nat) → (instances : List IssuerInstance) →
      Except TenantEnvError (List IssuerInstance)
  | 0, _, instances => .ok instances
  | bound + 1, n, instances => do
      match ← readInstance tenantId suffix n (instanceField env suffix n) instances with
      | none => pure instances
      | some issuerInstance =>
          instancesFrom env tenantId suffix bound (n + 1) (instances ++ [issuerInstance])

/-- Each turn but the last finds a variable of its own, so the loop ends within the bound. -/
def parseIssuerInstances (env : ProcessEnv) (tenantId : String) :
    Except TenantEnvError (List IssuerInstance) :=
  instancesFrom env tenantId (locale.toUpperCase tenantId) (env.entries.length + 1) 1 []

/-- A default that is not empty and that no instance is named by. -/
def unknownDefault (defaultInstanceId : Option String) (issuerInstances : List IssuerInstance) :
    Option String :=
  defaultInstanceId.filter fun id =>
    id ≠ "" && !issuerInstances.any fun issuerInstance => issuerInstance.id = id

/-- One turn of the loop over the variables: the tenant that a token variable defines. -/
def parseTenant (env : ProcessEnv) (key value : String) : Except TenantEnvError TenantRecord := do
  let tenantId := tenantIdFromTokenKey locale key
  let suffix := locale.toUpperCase tenantId
  let tokens := list (some value)
  if tokens = [] then .error ⟨s!"{key}: a tenant needs at least one token."⟩
  else
    let issuerInstances ← parseIssuerInstances locale env tenantId
    let defaultInstanceId := (env.get? ("TENANT_DEFAULT_INSTANCE_" ++ suffix)).map trim
    let authorizedDomains := list (env.get? ("TENANT_DOMAINS_" ++ suffix))
    match unknownDefault defaultInstanceId issuerInstances with
    | some id =>
        .error ⟨s!"TENANT_DEFAULT_INSTANCE_{suffix}: no issuer instance \"{id}\" is configured for tenant \"{tenantId}\"."⟩
    | none =>
        .ok
          { tenantId, tokens, issuerInstances, defaultInstanceId
            authorizedDomains := if authorizedDomains = [] then none else some authorizedDomains }

/-- `localeCompare` does not put the first one after the second. -/
def inOrder (a b : TenantRecord) : Bool := locale.localeCompare a.tenantId b.tenantId ≠ .gt

def parseTenantsFromEnv (env : ProcessEnv) : Except TenantEnvError (List TenantRecord) := do
  let tenants ← (env.entries.filter fun entry => isTokenKey entry.1).mapM fun entry =>
    parseTenant locale env entry.1 entry.2
  pure (tenants.insertionSort fun a b => inOrder locale a b)

end TenantsEnv

end VcalmStatus
