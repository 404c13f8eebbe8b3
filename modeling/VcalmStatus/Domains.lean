import VcalmStatus.Platform
import VcalmStatus.Services.Tenants

/-!
Which domains a tenant's lists may appear under. Retrieval asks for the host the caller believes it
reached, creation for the host of the URL that is to be minted; both go through `hostname`.
-/

namespace VcalmStatus

open Js

variable (platform : Platform)

/-- `/^[a-z][a-z0-9+.-]*:\/\//i.test(s)`. -/
def hasScheme (s : String) : Bool :=
  match s.toList with
  | c :: cs => c.isAlpha &&
      [':', '/', '/'].isPrefixOf (cs.dropWhile fun c => c.isAlphanum || c ∈ ['+', '.', '-'])
  | [] => false

/-- Hostname alone: lowercased, port dropped, brackets and schemes tolerated. -/
def hostname (value : Option String) : Option String := do
  let trimmed := trim (← value)
  if trimmed = "" then none
  else
    let parsed ← platform.parseUrl (if hasScheme trimmed then trimmed else "http://" ++ trimmed)
    if parsed.hostname = "" then none else some (platform.toLowerCase parsed.hostname)

/-- The host the caller believes it reached: the first forwarded one, else `Host`, else the one in
the request's URL. -/
def effectiveHost (request : Request) : Option String :=
  let forwarded := (request.header "X-Forwarded-Host").map fun v => (split v ',').headD ""
  hostname platform forwarded <|> hostname platform (request.header "Host") <|>
    hostname platform (some request.url)

/-- A tenant's own authorized domains plus the service's own. -/
def authorizedHosts (tenant : TenantRecord) (publicBaseUrl : String) : List String :=
  (hostname platform (some publicBaseUrl)).toList ++
    (tenant.authorizedDomains.getD []).filterMap fun domain => hostname platform (some domain)

def isAuthorizedHost (tenant : TenantRecord) (host : Option String) (publicBaseUrl : String) :
    Bool :=
  match hostname platform host with
  | none => false
  | some wanted => wanted ∈ authorizedHosts platform tenant publicBaseUrl

/-- Whether a client-supplied canonical `id` may be minted. -/
def isAuthorizedListUrl (tenant : TenantRecord) (url publicBaseUrl : String) : Bool :=
  match platform.parseUrl url with
  | none => false
  | some parsed => parsed.isWeb &&
      platform.toLowerCase parsed.hostname ∈ authorizedHosts platform tenant publicBaseUrl

/-! ### The host of a web URL names its hostname -/

theorem trimBy_eq_self {p : Char → Bool} {s : String} (h : ∀ c ∈ s.toList, p c = false) :
    trimBy p s = s := by
  have drop : ∀ cs : List Char, (∀ c ∈ cs, p c = false) → cs.dropWhile p = cs := by
    intro cs hcs
    cases cs with
    | nil => rfl
    | cons c cs => simp [hcs c List.mem_cons_self]
  rw [trimBy, drop _ h, drop _ fun c hc => h c (List.mem_reverse.mp hc), List.reverse_reverse,
    String.ofList_toList]

theorem slash_mem_of_hasScheme {s : String} (h : hasScheme s = true) : '/' ∈ s.toList := by
  unfold hasScheme at h
  split at h
  · rename_i c cs hs
    rw [Bool.and_eq_true, List.isPrefixOf_iff_prefix] at h
    have hmem : '/' ∈ cs.dropWhile fun c => c.isAlphanum || c ∈ ['+', '.', '-'] :=
      h.2.subset (by simp)
    rw [hs]
    exact List.mem_cons_of_mem _ ((List.dropWhile_suffix _).subset hmem)
  · cases h

variable {platform}

/-- With its port or without it, the host of a web URL is read back as its hostname. -/
theorem hostname_host {s a : String} {u : Url} (h : platform.parseUrl s = some u)
    (hweb : u.isWeb = true) (ha : a = u.host ∨ a = u.hostname) :
    hostname platform (some a) = some u.hostname := by
  have hauthority : ∀ b, b = u.host ∨ b = u.hostname →
      b ≠ "" ∧ ∀ c ∈ b.toList, isWhitespace c = false ∧ c ≠ '/' := by
    intro b hb
    simpa [isAuthority] using platform.isAuthority_host h hweb hb
  obtain ⟨hne, hchars⟩ := hauthority a ha
  have htrim : trim a = a := trimBy_eq_self fun c hc => (hchars c hc).1
  have hscheme : hasScheme a = false := by
    rw [Bool.eq_false_iff]
    exact fun hs => (hchars _ (slash_mem_of_hasScheme hs)).2 rfl
  obtain ⟨v, hv, hname⟩ := platform.parseUrl_host h hweb ha
  have hvne : v.hostname ≠ "" := hname ▸ (hauthority u.hostname (.inr rfl)).1
  simp [hostname, htrim, hne, hscheme, hv, hvne]
  rw [hname, platform.toLowerCase_hostname h hweb]

/-- Whoever may mint a URL is served under its host. -/
theorem isAuthorizedHost_of_isAuthorizedListUrl {tenant : TenantRecord} {s publicBaseUrl : String}
    {u : Url} (h : platform.parseUrl s = some u)
    (hurl : isAuthorizedListUrl platform tenant s publicBaseUrl = true) :
    isAuthorizedHost platform tenant (hostname platform (some u.host)) publicBaseUrl = true := by
  rw [isAuthorizedListUrl, h, Bool.and_eq_true] at hurl
  obtain ⟨hweb, hmem⟩ := hurl
  rw [hostname_host h hweb (.inl rfl), isAuthorizedHost, hostname_host h hweb (.inr rfl)]
  rwa [platform.toLowerCase_hostname h hweb] at hmem

end VcalmStatus
