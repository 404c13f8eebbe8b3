import Mathlib.Data.List.DropRight
import VcalmStatus.Routes.StatusLists
import VcalmStatus.Services.ProcessEnv

/-!
Configuration, parsed from the environment and checked once at startup. A variable that is there and
blank counts as unset; the schema reports every issue it finds, and what no schema says (the
backends production refuses, the variables a mode needs) is checked after it, one thing at a time.
-/

namespace VcalmStatus

open Js

inductive NodeEnv
  | development
  | test
  | production
  deriving DecidableEq, Repr

inductive LogLevel
  | debug
  | info
  | warn
  | error
  deriving DecidableEq, Repr

inductive StorageMode
  | memory
  | sqlite
  | postgres
  deriving DecidableEq, Repr

/-- `inProcess` is the mode `local`. -/
inductive SigningMode
  | fake
  | inProcess
  | http
  deriving DecidableEq, Repr

inductive TenantRegistryMode
  | memory
  | env
  deriving DecidableEq, Repr

inductive SigningConfig
  | fake
  | inProcess
  | http (url : String)
  deriving DecidableEq, Repr

/-- Storage carries what its backend needs to connect. -/
inductive StorageConfig
  | memory
  | sqlite (file : String)
  | postgres (url : String)
  deriving DecidableEq, Repr

/-- `publicBaseUrl` is stored without a trailing slash. -/
structure Config where
  nodeEnv : NodeEnv
  port : Nat
  publicBaseUrl : String
  logLevel : LogLevel
  storage : StorageConfig
  signing : SigningConfig
  tenantRegistry : TenantRegistryMode
  accessJwtSecret : Option String
  deriving DecidableEq, Repr

structure ConfigError where
  message : String
  deriving DecidableEq, Repr

/-- `DEFAULT_PORT`. -/
def defaultPort : Nat := 4008

/-- `DEFAULT_SQLITE_FILE`. -/
def defaultSqliteFile : String := "./data/status-lists.db"

def withoutEmptyValues (env : ProcessEnv) : ProcessEnv where
  entries := env.entries.filter fun entry => trim entry.2 ≠ ""
  nodup := env.nodup.sublist (List.filter_sublist.map Prod.fst)

/-! ### The schema -/

/-- What `Number(text)` can be. A finite double is a fraction. -/
inductive Coerced
  | nan
  | infinity (negative : Bool)
  | finite (q : Rat)

variable {α : Type}

/-- `z.enum(options)` on a text. -/
def Zod.enum (options : List (String × α)) (path : List String) (json : Option Json) :
    Parsed α := do
  let names := options.map Prod.fst
  let s ← Zod.ofType (" | ".intercalate (names.map fun name => s!"'{name}'")) Json.string? path json
  match options.lookup s with
  | some a => .ok a
  | none => .error [⟨path, .invalidEnumValue names s⟩]

/-- `schema.default(value)`. -/
def Zod.withDefault (schema : List String → Option Json → Parsed α) (value : α)
    (path : List String) : Option Json → Parsed α
  | none => .ok value
  | some json => schema path (some json)

/-- `z.coerce.number().int().min(1).max(65535)` on a text: every check that fails is an issue, but
what is not a number is checked no further. -/
def portSchema (toNumber : String → Coerced) (path : List String) (json : Option Json) :
    Parsed Nat := do
  let s ← Zod.string path json
  let notInteger : ZodIssue := ⟨path, .invalidType "integer" "float"⟩
  let tooSmall : ZodIssue := ⟨path, .numberTooSmall 1⟩
  let tooBig : ZodIssue := ⟨path, .numberTooBig 65535⟩
  match toNumber s with
  | .nan => .error [⟨path, .invalidType "number" "nan"⟩]
  | .infinity negative => .error [notInteger, if negative then tooSmall else tooBig]
  | .finite q =>
      let issues := (if q.den = 1 then [] else [notInteger]) ++
        (if q < 1 then [tooSmall] else []) ++ (if 65535 < q then [tooBig] else [])
      if issues = [] then .ok q.num.toNat else .error issues

structure EnvValues where
  nodeEnv : NodeEnv
  port : Nat
  publicBaseUrl : Option String
  logLevel : LogLevel
  storageMode : StorageMode
  sqliteFile : String
  databaseUrl : Option String
  signingMode : SigningMode
  signingServiceUrl : Option String
  tenantRegistryMode : TenantRegistryMode
  accessJwtSecret : Option String

def nodeEnvs : List (String × NodeEnv) :=
  [("development", .development), ("test", .test), ("production", .production)]

def logLevels : List (String × LogLevel) :=
  [("debug", .debug), ("info", .info), ("warn", .warn), ("error", .error)]

def storageModes : List (String × StorageMode) :=
  [("memory", .memory), ("sqlite", .sqlite), ("postgres", .postgres)]

def signingModes : List (String × SigningMode) :=
  [("fake", .fake), ("local", .inProcess), ("http", .http)]

def tenantRegistryModes : List (String × TenantRegistryMode) :=
  [("memory", .memory), ("env", .env)]

variable (platform : Platform) (toNumber : String → Coerced)

def envSchema (env : ProcessEnv) : Parsed EnvValues :=
  let field {α : Type} (schema : List String → Option Json → Parsed α) (key : String) : Parsed α :=
    schema [key] ((env.get? key).map .str)
  (Parsed.ok EnvValues.mk).and
      (field (Zod.withDefault (Zod.enum nodeEnvs) .development) "NODE_ENV")
    |>.and (field (Zod.withDefault (portSchema toNumber) defaultPort) "PORT")
    |>.and (field (Zod.optional (Zod.url platform)) "PUBLIC_BASE_URL")
    |>.and (field (Zod.withDefault (Zod.enum logLevels) .info) "LOG_LEVEL")
    |>.and (field (Zod.withDefault (Zod.enum storageModes) .memory) "STORAGE_MODE")
    |>.and (field (Zod.withDefault (Zod.stringMin 1) defaultSqliteFile) "SQLITE_FILE")
    |>.and (field (Zod.optional (Zod.stringMin 1)) "DATABASE_URL")
    |>.and (field (Zod.withDefault (Zod.enum signingModes) .fake) "SIGNING_MODE")
    |>.and (field (Zod.optional (Zod.url platform)) "SIGNING_SERVICE_URL")
    |>.and (field (Zod.withDefault (Zod.enum tenantRegistryModes) .memory) "TENANT_REGISTRY_MODE")
    |>.and (field (Zod.optional (Zod.stringMin 1)) "ACCESS_JWT_SECRET")

/-! ### Parsing -/

/-- The text every refusal begins with. -/
def invalidConfiguration (details : String) : ConfigError :=
  ⟨"Invalid environment configuration — " ++ details⟩

def parseStorage (values : EnvValues) : Except ConfigError StorageConfig :=
  match values.storageMode with
  | .memory => .ok .memory
  | .sqlite => .ok (.sqlite values.sqliteFile)
  | .postgres =>
      match values.databaseUrl with
      | none => .error (invalidConfiguration "STORAGE_MODE=postgres requires DATABASE_URL")
      | some url => .ok (.postgres url)

def parseSigning (values : EnvValues) : Except ConfigError SigningConfig :=
  match values.signingMode with
  | .fake => .ok .fake
  | .inProcess => .ok .inProcess
  | .http =>
      match values.signingServiceUrl with
      | none => .error (invalidConfiguration "SIGNING_MODE=http requires SIGNING_SERVICE_URL")
      | some url => .ok (.http url)

/-- `url.replace(/\/+$/, '')`. -/
def stripTrailingSlash (url : String) : String :=
  String.ofList (url.toList.rdropWhile (· = '/'))

/-- `${issue.path.join('.') || '(root)'}: ${issue.message}`. -/
def configIssueText (issue : ZodIssue) : String :=
  let path := ".".intercalate issue.path
  (if path = "" then "(root)" else path) ++ ": " ++ platform.zodMessage issue.code

def parseConfig (env : ProcessEnv) : Except ConfigError Config :=
  match envSchema platform toNumber (withoutEmptyValues env) with
  | .error issues =>
      .error (invalidConfiguration ("; ".intercalate (issues.map (configIssueText platform))))
  | .ok values =>
      if values.signingMode = .fake ∧ values.nodeEnv = .production then
        .error (invalidConfiguration "SIGNING_MODE=fake is refused when NODE_ENV=production")
      else if values.storageMode = .memory ∧ values.nodeEnv = .production then
        .error (invalidConfiguration "STORAGE_MODE=memory is refused when NODE_ENV=production")
      else if values.tenantRegistryMode = .memory ∧ values.nodeEnv = .production then
        .error (invalidConfiguration
          "TENANT_REGISTRY_MODE=memory is refused when NODE_ENV=production")
      else do
        let storage ← parseStorage values
        let signing ← parseSigning values
        .ok
          { nodeEnv := values.nodeEnv
            port := values.port
            publicBaseUrl := stripTrailingSlash
              (values.publicBaseUrl.getD s!"http://localhost:{values.port}")
            logLevel := values.logLevel
            storage
            signing
            tenantRegistry := values.tenantRegistryMode
            accessJwtSecret := values.accessJwtSecret }

/-- What `createApp` is given of a configuration. -/
def AppDeps.configured {B : Type} (lib : BitstringLibrary B) (config : Config) : AppDeps B :=
  { manager := { lib, publicBaseUrl := config.publicBaseUrl }
    platform
    accessJwtSecret := config.accessJwtSecret }

end VcalmStatus
