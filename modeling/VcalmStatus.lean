import VcalmStatus.App
import VcalmStatus.App.Contract
import VcalmStatus.App.Durability
import VcalmStatus.App.Errors
import VcalmStatus.App.Isolation
import VcalmStatus.App.Minting
import VcalmStatus.App.Progress
import VcalmStatus.App.Published
import VcalmStatus.App.Retrieval
import VcalmStatus.App.Revalidation
import VcalmStatus.App.Revocation
import VcalmStatus.App.RowRuns
import VcalmStatus.App.Runs
import VcalmStatus.App.Selectors
import VcalmStatus.App.ServiceCalls
import VcalmStatus.App.TestRequests
import VcalmStatus.App.Unseen
import VcalmStatus.Auth
import VcalmStatus.Cli.Append
import VcalmStatus.Cli.Block
import VcalmStatus.Cli.EnvFile
import VcalmStatus.Cli.Places
import VcalmStatus.Cli.Preserved
import VcalmStatus.Cli.ProvisionTenant
import VcalmStatus.Cli.Provisioning
import VcalmStatus.Cli.ReadBack
import VcalmStatus.Cli.Reading
import VcalmStatus.Cli.Replacing
import VcalmStatus.Cli.Scanners
import VcalmStatus.Cli.Separation
import VcalmStatus.Cli.Settings
import VcalmStatus.Config
import VcalmStatus.Domains
import VcalmStatus.Effects.Interleaving
import VcalmStatus.Effects.Loop
import VcalmStatus.Effects.Program
import VcalmStatus.Effects.PromiseCache
import VcalmStatus.Effects.Protocol
import VcalmStatus.Effects.Refinement
import VcalmStatus.Effects.Schedule
import VcalmStatus.Effects.Simulation
import VcalmStatus.Effects.Solo
import VcalmStatus.Effects.Traces
import VcalmStatus.Effects.Traverse
import VcalmStatus.Effects.TwoRuns
import VcalmStatus.Effects.WriteQueue
import VcalmStatus.Js.Calendar
import VcalmStatus.Js.Date
import VcalmStatus.Js.Double
import VcalmStatus.Js.IsoText
import VcalmStatus.Js.Json
import VcalmStatus.Js.JsonReading
import VcalmStatus.Js.JsonRoundTrip
import VcalmStatus.Js.JsonText
import VcalmStatus.Js.Lines
import VcalmStatus.Js.Locale
import VcalmStatus.Js.Map
import VcalmStatus.Js.NumberText
import VcalmStatus.Js.Stringify
import VcalmStatus.Js.Text
import VcalmStatus.Js.Utf16
import VcalmStatus.PlainPlatform
import VcalmStatus.Platform
import VcalmStatus.ProblemDetails
import VcalmStatus.Routes.Allocate
import VcalmStatus.Routes.CredentialsStatus
import VcalmStatus.Routes.StatusLists
import VcalmStatus.Safety.Allocation
import VcalmStatus.Safety.Alone
import VcalmStatus.Safety.Asked
import VcalmStatus.Safety.Creation
import VcalmStatus.Safety.Handlers
import VcalmStatus.Safety.History
import VcalmStatus.Safety.Moments
import VcalmStatus.Safety.OwnRuns
import VcalmStatus.Safety.OwnView
import VcalmStatus.Safety.Policy
import VcalmStatus.Safety.Reachable
import VcalmStatus.Safety.Refusals
import VcalmStatus.Safety.Requests
import VcalmStatus.Safety.Restarts
import VcalmStatus.Safety.Rules
import VcalmStatus.Safety.Served
import VcalmStatus.Safety.Update
import VcalmStatus.Safety.Versions
import VcalmStatus.Schemas
import VcalmStatus.Services.Accepted
import VcalmStatus.Services.Backends
import VcalmStatus.Services.BlankVariables
import VcalmStatus.Services.Effect
import VcalmStatus.Services.InstanceRun
import VcalmStatus.Services.KeyMaterial
import VcalmStatus.Services.MemoryContract
import VcalmStatus.Services.ProcessEnv
import VcalmStatus.Services.ReadAlike
import VcalmStatus.Services.Records
import VcalmStatus.Services.RemoteSigner
import VcalmStatus.Services.RowWorld
import VcalmStatus.Services.Rows
import VcalmStatus.Services.Signable
import VcalmStatus.Services.SignerCache
import VcalmStatus.Services.Signing
import VcalmStatus.Services.SigningContract
import VcalmStatus.Services.SqlContract
import VcalmStatus.Services.SqlStorage
import VcalmStatus.Services.StorageContract
import VcalmStatus.Services.StorageMemory
import VcalmStatus.Services.StorageQueue
import VcalmStatus.Services.StorageRuns
import VcalmStatus.Services.TenantVariables
import VcalmStatus.Services.Tenants
import VcalmStatus.Services.TenantsEnv
import VcalmStatus.Services.TenantsMemory
import VcalmStatus.Services.World
import VcalmStatus.StatusLists.Bitstring
import VcalmStatus.StatusLists.Calls
import VcalmStatus.StatusLists.Choosing
import VcalmStatus.StatusLists.Credential
import VcalmStatus.StatusLists.Granted
import VcalmStatus.StatusLists.Leftover
import VcalmStatus.StatusLists.Manager
import VcalmStatus.StatusLists.Outcomes
import VcalmStatus.StatusLists.PlainBitstring
import VcalmStatus.StatusLists.Probing
import VcalmStatus.StatusLists.Purposes
import VcalmStatus.StatusLists.Rolling
import VcalmStatus.StatusLists.Serial
import VcalmStatus.TestFixtures
import VcalmStatus.UrlPaths
