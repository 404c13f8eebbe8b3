import VcalmStatus.Cli.Provisioning

/-!
The command line over the provisioning functions: which tenant a call of `provision-tenant` is
about. What it prints is left out.
-/

namespace VcalmStatus

open Js

namespace Provisioning

/-- `CROSS_SERVICE_TARGETS`. -/
def crossServiceTargets : List String := ["signing-service", "transaction-service"]

def usage : String :=
  let targets := ", ".intercalate crossServiceTargets
  "Usage: pnpm provision-tenant --tenant <name> [options]\n\n" ++
  "  --tenant <name>      Tenant to create. Becomes the lowercase tenant id and\n" ++
  "                       the uppercase env suffix; letters, digits, underscores.\n" ++
  s!"  --profile <id>       Issuer profile (default: {defaultProfileId}).\n" ++
  "  --instance <id>      Issuer instance id (default: default).\n" ++
  "  --domains <a,b>      Domains this tenant's lists may also be served under.\n" ++
  "  --env <path>         Env file to append to (default: .env beside the service).\n" ++
  "  --emit <service>     Also print a block for another service, repeatable:\n" ++
  s!"                       {targets}.\n" ++
  "  --print-only         Print everything; write nothing.\n" ++
  "  --force              Append even if the env file already names this tenant.\n" ++
  "  --list-profiles      Show the available profiles and exit.\n" ++
  "  --help\n"

/-- The values of `parseArgs` that decide about the tenant and its block. -/
structure CliValues where
  tenant : Option String := none
  profile : String := defaultProfileId
  instanceId : String := "default"
  domains : Option String := none
  emit : List String := []
  force : Bool := false

inductive CliError
  | provisioning (e : ProvisioningError)
  | thrown (e : JsError)

def parseEmitTargets (values : List String) : Except ProvisioningError (List String) :=
  values.mapM fun value =>
    if value ∈ crossServiceTargets then .ok value
    else
      let available := ", ".intercalate crossServiceTargets
      .error ⟨s!"Unknown --emit target \"{value}\". Available: {available}."⟩

/-- `--domains`, taken apart at the commas. -/
def domainsFrom (domains : Option String) : List String :=
  (domains.map fun domains => ((split domains ',').map trim).filter (· ≠ "")).getD []

/-- `run`, up to the tenant it provisions. -/
def runTenant (locale : Locale) (source : KeySource) (values : CliValues) :
    Except CliError ProvisionedTenant :=
  match values.tenant with
  | none => .error (.provisioning ⟨"--tenant is required.\n\n" ++ usage⟩)
  | some name => do
      let _ ← (parseEmitTargets values.emit).mapError CliError.provisioning
      let tenantId ← (normalizeTenantId locale name).mapError CliError.provisioning
      let profile ← (getProfile values.profile).mapError CliError.provisioning
      (provisionTenant source
        { tenantId, profile
          instanceId := some values.instanceId
          authorizedDomains := some (domainsFrom values.domains) }).mapError CliError.thrown

end Provisioning

end VcalmStatus
