import ApertureRouter.Middleware.RateLimit
import ApertureRouter.Proxy.Gateway
import ApertureRouter.Server.SocketAddr

/-!
# The server at its start

`Config::server_addr` (`src/config.rs`), `ProxyClient::new` (`src/proxy/client.rs`), and
`create_cors_layer` and `create_router` (`src/server.rs`) with the background tasks that they spawn.
What panics is an error with the text of the panic.

* `Libraries` is what the start asks of other crates. A period of `tokio::time::interval` and a list
  of origins are checked as the crates do it.
* A task that panics at its start ends the process: a release build aborts.
* A duration is in nanoseconds, like an `Instant`.
* The routes and the other layers have no configuration but the limit of the body, which fits.
-/

namespace ApertureRouter

/-- What other crates do at the start. -/
structure Libraries where
  /-- `Url::parse`. -/
  parseUrl : UrlParser
  /-- `str::parse::<HeaderValue>` accepts the text. -/
  isHeaderValue : String → Bool
  /-- `ClientBuilder::build` with a timeout and a timeout of the connection, in seconds. -/
  buildClient : Nat → Nat → Except String Unit

/-- `Duration::from_secs`. -/
def second : Nat := 1000000000

/-! ## `ProxyClient::new` -/

def IpAddr.isCgnat : IpAddr → Bool
  | .v4 addr => addr.a == 100 && 64 ≤ addr.b && addr.b ≤ 127
  | .v6 _ => false

def IpAddr.isLoopback : IpAddr → Bool
  | .v4 addr => addr.isLoopback
  | .v6 addr => addr.isLoopback

/-- `str::ends_with`. -/
def endsWith (s tail : String) : Bool := tail.toList.isSuffixOf s.toList

def isTailscale (host : String) : Bool :=
  ((parseIpAddr host.toList).map IpAddr.isCgnat).getD false || endsWith host ".ts.net" ||
    endsWith host ".tsnet"

def isLocalhost (host : String) : Bool :=
  host == "localhost" || ((parseIpAddr host.toList).map IpAddr.isLoopback).getD false

/-- The base URL leads to a host that may get the key without TLS. -/
def leadsToPrivateHost (parse : UrlParser) (baseUrl : String) : Bool :=
  ((parse baseUrl).toOption.bind ParsedUrl.hostStr).any fun host =>
    isTailscale host || isLocalhost host

/-- What a `ProxyClient` keeps. -/
structure ClientSettings where
  apertureConfig : ApertureConfig
  maxStreamingSizeBytes : Nat
  requestTimeoutSecs : Nat
  retryAttempts : Nat
  retryBaseDelayMs : Nat

/-- `ProxyClient::new`. -/
def newProxyClient (libs : Libraries) (aperture : ApertureConfig) (http : HttpConfig)
    (maxStreamingSizeBytes : Nat) : Except String ClientSettings :=
  if aperture.apiKey.isSome && !leadsToPrivateHost libs.parseUrl aperture.baseUrl &&
      !Config.startsWith aperture.baseUrl "https://" then
    .error "HTTPS required for non-Tailscale Aperture gateway when API key is configured. Either use HTTPS, or use Tailscale/localhost (network-layer encryption), or remove API key to use other authentication methods."
  else
    match libs.buildClient http.requestTimeoutSecs http.connectTimeoutSecs with
    | .error e => .error ("Failed to create HTTP client: " ++ e)
    | .ok () => .ok
      { apertureConfig := aperture
        maxStreamingSizeBytes := maxStreamingSizeBytes
        requestTimeoutSecs := http.requestTimeoutSecs
        retryAttempts := http.upstreamRetryAttempts
        retryBaseDelayMs := http.upstreamRetryBaseDelayMs }

/-! ## `create_cors_layer` -/

/-- `AllowOrigin::list`. -/
def allowOriginList (origins : List String) : Except String (List String) :=
  if "*" ∈ origins then
    .error "Wildcard origin (`*`) cannot be passed to `AllowOrigin::list`. Use `AllowOrigin::any()` instead"
  else .ok origins

/-- One of the origins of the source. -/
def localOrigin (libs : Libraries) (origin what : String) : Except String String :=
  if libs.isHeaderValue origin then .ok origin else .error ("Invalid " ++ what ++ " CORS origin")

def localOrigins (libs : Libraries) : Except String (List String) := do
  let localhost ← localOrigin libs "http://localhost:3000" "localhost"
  let loopback ← localOrigin libs "http://127.0.0.1:3000" "127.0.0.1"
  allowOriginList [localhost, loopback]

/-- `create_cors_layer`: the origins that the layer allows. -/
def createCorsLayer (libs : Libraries) (cors : CorsConfig) : Except String (List String) :=
  if cors.allowedOrigins.isEmpty then localOrigins libs
  else if cors.allowedOrigins.all libs.isHeaderValue then allowOriginList cors.allowedOrigins
  else localOrigins libs

/-! ## `create_router` -/

/-- `tokio::time::interval`. -/
def interval (periodSecs : Nat) : Except String Unit :=
  if periodSecs = 0 then .error "`period` must be non-zero." else .ok ()

/-- The rate limiter that `create_router` makes. -/
def createRateLimiter (rateLimit : RateLimitConfig) : RateLimiter where
  maxRequests := rateLimit.burstSize
  window := max (rateLimit.burstSize / max rateLimit.requestsPerSecond 1) 1 * second

/-- What the router is made of. -/
structure RouterParts where
  proxyClient : ClientSettings
  allowedOrigins : List String
  rateLimiter : RateLimiter
  bodyLimit : Nat

/-- `Result::expect`. -/
def expect {α : Type} (text : String) : Except String α → Except String α
  | .ok a => .ok a
  | .error e => .error (text ++ ": " ++ e)

/-- `create_router`, with the discovery that `run_server` makes from the same configuration. -/
def createRouter (libs : Libraries) (config : Config) : Except String RouterParts := do
  let proxyClient ← expect "Failed to create proxy client"
    (newProxyClient libs config.aperture config.http config.security.maxStreamingSizeBytes)
  -- `AuthState::start_cleanup_task`, `start_refresh_task`
  interval 300
  interval config.aperture.modelRefreshIntervalSecs
  let allowedOrigins ← createCorsLayer libs config.cors
  -- `RateLimiter::start_cleanup_task`
  interval 300
  return {
    proxyClient := proxyClient
    allowedOrigins := allowedOrigins
    rateLimiter := createRateLimiter config.rateLimit
    bodyLimit := config.security.maxBodySizeBytes }

/-- `Config::server_addr`. -/
def Config.serverAddr (config : Config) : Except String SocketAddr :=
  let addr := config.host ++ ":" ++ toString config.port
  match parseSocketAddr addr.toList with
  | some socketAddr => .ok socketAddr
  | none => .error ("Invalid server address " ++ addr ++ ": invalid socket address syntax")

/-! ## When the parts are made -/

section

variable {libs : Libraries}

theorem exists_bind_ok {α β : Type} {x : Except String α} {f : α → Except String β} :
    (∃ b, (x >>= f) = .ok b) ↔ ∃ a, x = .ok a ∧ ∃ b, f a = .ok b := by
  simp only [Config.bind_eq_ok]
  rw [exists_comm]
  simp only [exists_and_left]

theorem interval_ok_iff {periodSecs : Nat} {u : Unit} : interval periodSecs = .ok u ↔ periodSecs ≠ 0 := by
  unfold interval
  split
  · rename_i h
    exact iff_of_false (fun he => by cases he) fun hne => hne h
  · rename_i h
    exact iff_of_true rfl h

theorem expect_ok_iff {α : Type} {text : String} {x : Except String α} {a : α} :
    expect text x = .ok a ↔ x = .ok a := by
  cases x with
  | error e => exact ⟨fun h => (by cases h), fun h => by cases h⟩
  | ok b => exact Iff.rfl

theorem allowOriginList_ok_iff {origins : List String} :
    (∃ allowed, allowOriginList origins = .ok allowed) ↔ "*" ∉ origins := by
  unfold allowOriginList
  split
  · rename_i h
    exact iff_of_false (fun ⟨_, he⟩ => by cases he) fun hne => hne h
  · rename_i h
    exact iff_of_true ⟨_, rfl⟩ h

end

end ApertureRouter
