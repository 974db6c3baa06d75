import ApertureRouter.Provider.Registry
import ApertureRouter.Url

/-!
# The configuration

`Config` (`src/config.rs`), its defaults and `Config::validate`, which makes its checks in order and
returns the text of the first one that fails.

* A number is a natural number, whatever its width; a hash set is the list of its elements.
* `parse` is `Url::parse`, and `debug` is `cfg!(debug_assertions)`.
* The warnings are left out.
* `names_nodup`, `limits_pos`: what the rest of the router relies on.
-/

namespace ApertureRouter

structure ApertureConfig where
  baseUrl : String := "http://localhost:8080"
  apiKey : Option String := none
  modelRefreshIntervalSecs : Nat := 300
  deriving DecidableEq

structure HttpConfig where
  connectTimeoutSecs : Nat := 10
  requestTimeoutSecs : Nat := 300
  sseKeepAliveSecs : Nat := 15
  upstreamRetryAttempts : Nat := 2
  upstreamRetryBaseDelayMs : Nat := 2000
  deriving DecidableEq

structure CorsConfig where
  allowedOrigins : List String := ["http://localhost:3000"]
  trustedProxies : List IpAddr := []
  deriving DecidableEq

/-- The fields for `/health` are deprecated and have no effect. -/
structure RateLimitConfig where
  requestsPerSecond : Nat := 10
  burstSize : Nat := 30
  healthRequestsPerSecond : Nat := 20
  healthBurstSize : Nat := 50
  deriving DecidableEq

structure SecurityConfig where
  apiKeys : List String := []
  adminApiKeys : List String := []
  maxBodySizeBytes : Nat := 10 * 1024 * 1024
  maxAuthAttempts : Nat := 5
  authWindowSecs : Nat := 60
  banDurationSecs : Nat := 300
  requireAuthInProd : Bool := true
  maxJsonDepth : Nat := 256
  maxStreamingSizeBytes : Nat := 100 * 1024 * 1024
  maxMessages : Nat := 10000
  deriving DecidableEq

/-- `Config`. The fields' own values are those of `Config::default`. -/
structure Config where
  host : String := "127.0.0.1"
  port : Nat := 8765
  aperture : ApertureConfig := {}
  http : HttpConfig := {}
  cors : CorsConfig := {}
  rateLimit : RateLimitConfig := {}
  security : SecurityConfig := {}
  modelAliases : HashMap String String := ∅
  multiProviderEnabled : Bool := false
  providers : List Provider := []
  deriving DecidableEq

namespace Config

/-! ## Checks -/

/-- One check: the text is the error if it is bad. -/
def refuse (bad : Bool) (text : String) : Except String Unit :=
  if bad then .error text else .ok ()

@[simp] theorem refuse_ok_iff {bad : Bool} {text : String} :
    refuse bad text = .ok () ↔ bad = false := by
  cases bad <;> simp [refuse]

/-- What follows is reached exactly if the first step succeeds. -/
theorem bind_eq_ok {α β : Type} {x : Except String α} {f : α → Except String β} {b : β} :
    (x >>= f) = .ok b ↔ ∃ a, x = .ok a ∧ f a = .ok b := by
  cases x with
  | error e => exact ⟨fun h => (by cases h), fun ⟨_, h, _⟩ => by cases h⟩
  | ok a => exact ⟨fun h => ⟨a, rfl, h⟩, fun ⟨_, h, hb⟩ => Except.ok.inj h ▸ hb⟩

/-- Checks in order succeed if all do. -/
theorem bind_ok_iff {check : Except String Unit} {rest : Unit → Except String Unit} :
    (check >>= rest) = .ok () ↔ check = .ok () ∧ rest () = .ok () :=
  bind_eq_ok.trans ⟨fun ⟨_, h⟩ => h, fun h => ⟨(), h⟩⟩

/-- Another text for an error. -/
theorem mapError_eq_ok {α : Type} {x : Except String α} {f : String → String} {a : α} :
    x.mapError f = .ok a ↔ x = .ok a := by
  cases x <;> simp [Except.mapError]

/-! ## `Config::validate` -/

/-- `str::contains`. -/
def containsText (s part : String) : Bool := decide (part.toList <:+: s.toList)

/-- `str::starts_with`. -/
def startsWith (s start : String) : Bool := start.toList.isPrefixOf s.toList

/-- The strength of a key of the security section. `what` names the kind of key. -/
def checkKey (what key : String) : Except String Unit := do
  refuse (key.utf8ByteSize < 32)
    (what ++ " too short: " ++ toString key.utf8ByteSize ++ " characters (minimum 32)")
  refuse (key.toList.dedup.length < 20)
    (what ++ " has insufficient entropy (minimum 20 unique characters)")

/-- The base URL leads to an internal or metadata host. The check looks at the text of the host. -/
def blockedBaseUrl (parse : UrlParser) (baseUrl : String) : Bool :=
  match parse baseUrl with
  | .error _ => false
  | .ok url =>
    match url.host with
    | none => false
    | some host => isInternalIpStrictHost host.str || isMetadataEndpoint host.str

/-- One provider, after the ones with the names `seen`. -/
def checkProvider (parse : UrlParser) (seen : List String) (provider : Provider) :
    Except String Unit := do
  refuse (provider.name == "") "Provider name cannot be empty"
  refuse (decide (provider.name ∈ seen)) ("Duplicate provider name: " ++ provider.name)
  refuse (provider.baseUrl == "") ("Provider " ++ provider.name ++ " has empty base_url")
  refuse provider.models.isEmpty ("Provider " ++ provider.name ++ " has no models configured")
  refuse (!startsWith provider.baseUrl "http://" && !startsWith provider.baseUrl "https://")
    ("Provider " ++ provider.name ++ " has invalid base_url scheme (only http/https allowed)")
  refuse (blockedBaseUrl parse provider.baseUrl)
    ("Provider " ++ provider.name ++ " has blocked base_url (internal/metadata IP)")

def checkProviders (parse : UrlParser) : List String → List Provider → Except String Unit
  | _, [] => .ok ()
  | seen, provider :: providers => do
    checkProvider parse seen provider
    checkProviders parse (provider.name :: seen) providers

/-- The checks before those of the providers. -/
def checkSettings (debug : Bool) (config : Config) : Except String Unit := do
  refuse (config.port == 0) "Port cannot be 0"
  refuse (config.aperture.baseUrl == "") "Aperture base URL cannot be empty"
  refuse (config.aperture.apiKey.any fun key => containsText key "your-api-key-here" || key == "")
    "API key contains placeholder value or is empty"
  config.security.apiKeys.forM (checkKey "API key")
  refuse (config.security.apiKeys.contains "your-api-key-here")
    "Security API keys contain placeholder value"
  config.security.adminApiKeys.forM (checkKey "Admin API key")
  refuse (config.security.adminApiKeys.contains "your-admin-api-key-here" ||
    config.security.adminApiKeys.contains "your-api-key-here")
    "Admin API keys contain placeholder value"
  refuse (config.rateLimit.requestsPerSecond == 0) "Rate limit requests per second cannot be 0"
  refuse (config.rateLimit.burstSize == 0) "Rate limit burst size cannot be 0"
  refuse (config.security.maxAuthAttempts == 0) "Max authentication attempts cannot be 0"
  refuse (config.security.authWindowSecs == 0) "Authentication window cannot be 0 seconds"
  refuse (config.security.banDurationSecs == 0) "Ban duration cannot be 0 seconds"
  refuse (config.security.maxBodySizeBytes == 0) "Max body size cannot be 0"
  refuse (100 * 1024 * 1024 < config.security.maxBodySizeBytes) "Max body size cannot exceed 100MB"
  refuse (config.security.maxJsonDepth < 16) "Max JSON depth must be at least 16"
  refuse (4096 < config.security.maxJsonDepth) "Max JSON depth cannot exceed 4096"
  refuse (config.security.maxStreamingSizeBytes == 0) "Max streaming size cannot be 0"
  refuse (1024 * 1024 * 1024 < config.security.maxStreamingSizeBytes)
    "Max streaming size cannot exceed 1GB"
  refuse (config.security.maxMessages == 0) "Max messages cannot be 0"
  refuse (5 < config.http.upstreamRetryAttempts) "Upstream retry attempts cannot exceed 5"
  refuse (config.http.upstreamRetryBaseDelayMs == 0) "Upstream retry base delay cannot be 0"
  refuse (10000 < config.http.upstreamRetryBaseDelayMs)
    "Upstream retry base delay cannot exceed 10000ms"
  refuse (config.security.requireAuthInProd && config.security.apiKeys.isEmpty && !debug)
    "Production mode requires authentication but no API keys configured. Set security.api_keys in your config, set APERTURE_CLIENT_API_KEYS=key1,key2 in the environment, or set APERTURE_ALLOW_NO_AUTH=1 to override (not recommended)"

/-- `Config::validate`. -/
def validate (parse : UrlParser) (debug : Bool) (config : Config) : Except String Unit := do
  checkSettings debug config
  checkProviders parse [] config.providers

/-! ## Accepted configurations -/

section

variable {parse : UrlParser} {debug : Bool} {config : Config}

theorem checkProvider_ok_iff {seen : List String} {provider : Provider} :
    checkProvider parse seen provider = .ok () ↔
      (provider.name ≠ "" ∧ provider.name ∉ seen ∧ provider.baseUrl ≠ "" ∧ provider.models ≠ [] ∧
        (startsWith provider.baseUrl "http://" = true ∨
          startsWith provider.baseUrl "https://" = true)) ∧
      blockedBaseUrl parse provider.baseUrl = false := by
  simp only [checkProvider, bind_ok_iff, refuse_ok_iff, beq_eq_false_iff_ne, decide_eq_false_iff_not,
    List.isEmpty_eq_false_iff, Bool.and_eq_false_iff, Bool.not_eq_false', and_assoc]

theorem checkProviders_ok {seen : List String} {providers : List Provider}
    (h : checkProviders parse seen providers = .ok ()) :
    (∀ provider ∈ providers, provider.name ∉ seen) ∧ (providers.map (·.name)).Nodup := by
  induction providers generalizing seen with
  | nil => exact ⟨fun _ hmem => absurd hmem List.not_mem_nil, List.nodup_nil⟩
  | cons provider providers ih =>
    obtain ⟨hprovider, hrest⟩ := bind_ok_iff.mp h
    obtain ⟨hnew, hnodup⟩ := ih hrest
    refine ⟨List.forall_mem_cons.mpr ⟨(checkProvider_ok_iff.mp hprovider).1.2.1, ?_⟩, ?_⟩
    · exact fun other hmem hseen => hnew other hmem (List.mem_cons_of_mem _ hseen)
    · rw [List.map_cons, List.nodup_cons]
      refine ⟨fun hmem => ?_, hnodup⟩
      obtain ⟨other, hother, hname⟩ := List.mem_map.mp hmem
      exact hnew other hother (by rw [hname]; exact List.mem_cons_self)

/-- The providers have different names. -/
theorem names_nodup (h : config.validate parse debug = .ok ()) :
    (config.providers.map (·.name)).Nodup :=
  (checkProviders_ok (bind_ok_iff.mp h).2).2

/-- The bounds of the retries. -/
theorem retry_bounds (h : config.validate parse debug = .ok ()) :
    config.http.upstreamRetryAttempts ≤ 5 ∧ config.http.upstreamRetryBaseDelayMs ≤ 10000 := by
  have hsettings := (bind_ok_iff.mp h).1
  simp only [checkSettings, bind_ok_iff, refuse_ok_iff, decide_eq_false_iff_not, Nat.not_lt] at hsettings
  obtain ⟨-, -, -, -, -, -, -, -, -, -, -, -, -, -, -, -, -, -, -, hattempts, -, hdelay, -⟩ := hsettings
  exact ⟨hattempts, hdelay⟩

/-- The limits of the authentication are positive. -/
theorem limits_pos (h : config.validate parse debug = .ok ()) :
    0 < config.security.maxAuthAttempts ∧ 0 < config.security.authWindowSecs ∧
      0 < config.security.banDurationSecs := by
  have hsettings := (bind_ok_iff.mp h).1
  simp only [checkSettings, bind_ok_iff, refuse_ok_iff, beq_eq_false_iff_ne] at hsettings
  obtain ⟨-, -, -, -, -, -, -, -, -, hattempts, hwindow, hban, -⟩ := hsettings
  exact ⟨Nat.pos_of_ne_zero hattempts, Nat.pos_of_ne_zero hwindow, Nat.pos_of_ne_zero hban⟩

end

end Config

end ApertureRouter
