import VcalmStatus.Services.Signing
import VcalmStatus.StatusLists.Manager
import VcalmStatus.StatusLists.PlainBitstring

/-!
The fixtures of the test suite: tenants `acme` and `globex`, a service at `https://status.example`
with the fake signer, and a world around it that answers by counting.
-/

namespace VcalmStatus

open Js

def testIssuerInstance : IssuerInstance :=
  { id := "default", cryptosuite := .eddsaRdfc2022, didMethod := .key }

def testTenant (tenantId : String) : TenantRecord :=
  { tenantId := tenantId, tokens := [tenantId ++ "-token"]
    issuerInstances := [testIssuerInstance], defaultInstanceId := some "default" }

theorem MemoryTenantRegistry.filed_getD (tenants : List TenantRecord) :
    ((ofTenants tenants).toOption.getD empty).Filed := by
  cases h : ofTenants tenants with
  | ok r => exact filed_ofTenants h
  | error e => exact nofun

def testTenants : TenantRegistry :=
  MemoryTenantRegistry.toRegistry _
    (MemoryTenantRegistry.filed_getD [testTenant "acme", testTenant "globex"])

def testBaseUrl : String := "https://status.example"

/-- Clock, ids and indexes count the calls made so far. -/
def testEnvironment (dialect : Dialect) : Environment where
  dialect := dialect
  tenants := testTenants
  signing := FakeSigningService.toService fun _ => "0"
  now tick := 1786147200000 + 1000 * tick
  newDate tick := 1786147200000 + 1000 * tick
  randomIndex tick length := tick % length
  generateId tick := "list-" ++ toString tick
  randomIndex_lt tick _ h := Nat.mod_lt tick h
  generateId_segment tick := by
    have hlength : 5 ≤ ("list-" ++ toString tick).length := by
      rw [String.length_append]
      exact Nat.le_add_right 5 _
    intro hmem
    simp only [dotSegments, List.mem_cons, List.not_mem_nil, or_false] at hmem
    obtain h | h | h := hmem <;> rw [h] at hlength <;> exact absurd hlength (by decide)

def testDeps : ManagerDeps PlainList := { lib := plainLibrary, publicBaseUrl := testBaseUrl }

/-- Lists of the least length hold one allocation before the next one is made. -/
def rollingDeps : ManagerDeps PlainList := { testDeps with rollAtFill := .power (-17) }

def testStatusListCredential (id : String) : VerifiableCredential :=
  [("@context", .arr [.str "https://www.w3.org/ns/credentials/v2"]), ("id", .str id),
    ("type", .arr [.str "VerifiableCredential", .str "BitstringStatusListCredential"]),
    ("issuer", .str "did:example:default"), ("validFrom", .str "2026-08-08T00:00:00Z"),
    ("credentialSubject", .obj
      [("id", .str (id ++ "#list")), ("type", .str "BitstringStatusList"),
        ("statusPurpose", .str "revocation"),
        ("encodedList", .str PlainList.emptyEncodedList)]),
    ("proof", .obj [("type", .str "FakeProof"), ("proofValue", .str "z0")])]

def testStatusList : StatusListRecord where
  id := "list-1"
  tenantId := "acme"
  issuerInstanceId := "default"
  statusPurpose := .revocation
  characteristics := { length := 131072, statusSize := 1 }
  encodedList := PlainList.emptyEncodedList
  signedCredential := testStatusListCredential "https://status.example/status-lists/list-1"
  version := 1
  createdAt := 1786147200000
  updatedAt := 1786147200000

/-- Tables with one fresh list and nothing allocated. -/
def testDatabase : Database := ⟨[testStatusList], []⟩

theorem testDatabase_keyed : testDatabase.Keyed :=
  ⟨List.nodup_singleton _, List.nodup_nil, List.nodup_nil, nofun⟩

end VcalmStatus
