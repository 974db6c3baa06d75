import Mathlib.Algebra.Group.Nat.Defs
import ApertureRouter.Config
import ApertureRouter.Middleware.Bans
import ApertureRouter.Middleware.ClientIp
import ApertureRouter.Middleware.RateLimit

/-!
# Authentication

`auth_middleware` and `admin_auth_middleware` (`src/middleware/auth.rs`), in front of the regular and
of the admin routes. Both share the rate limiter, the failures and the bans; what follows the checks
of their own is the same (`authenticate`).

* A request is handled in one go. `now` is what the clock reads meanwhile, but for the ban.
* The handler of the route is left out: it runs if the result is `ok`.
* `authMiddleware_cases`, `adminAuthMiddleware_cases`: all that a request can do to the failures and
  the bans.
-/

namespace ApertureRouter

open Window

/-! ## Keys -/

/-- `AuthState`, without its two maps. -/
structure AuthState where
  apiKeys : List String
  adminApiKeys : List String
  limits : AuthLimits
  trustedProxies : List IpAddr

namespace AuthState

/-- `AuthState::new`, for a configuration that is accepted. -/
def new {parse : UrlParser} {debug : Bool} (config : Config)
    (h : config.validate parse debug = .ok ()) : AuthState where
  apiKeys := config.security.apiKeys
  adminApiKeys := config.security.adminApiKeys
  limits := {
    maxAttempts := config.security.maxAuthAttempts
    windowDuration := config.security.authWindowSecs
    banDuration := config.security.banDurationSecs
    maxAttempts_pos := (Config.limits_pos h).1
    windowDuration_pos := (Config.limits_pos h).2.1
    banDuration_pos := (Config.limits_pos h).2.2 }
  trustedProxies := config.cors.trustedProxies

variable (auth : AuthState)

/-- `is_enabled`. -/
def isEnabled : Bool := !auth.apiKeys.isEmpty || !auth.adminApiKeys.isEmpty

/-- `is_admin_enabled`. -/
def isAdminEnabled : Bool := !auth.adminApiKeys.isEmpty

/-- The loop over the valid keys: each is compared, and the matches are joined by a bitwise or. -/
def findKey (key : String) (found : UInt8) (keys : List String) : UInt8 :=
  keys.foldl (fun found validKey => found ||| if validKey = key then 1 else 0) found

/-- `validate_api_key`. -/
def validateApiKey (key : String) : Bool :=
  findKey key (findKey key 0 auth.apiKeys) auth.adminApiKeys == 1

/-- `validate_admin_key`. -/
def validateAdminKey (key : String) : Bool := findKey key 0 auth.adminApiKeys == 1

/-- Whichever key matches, and however many do, the result is `1`. -/
theorem findKey_eq (key : String) (keys : List String) {found : UInt8}
    (h : found = 0 ∨ found = 1) :
    findKey key found keys = if found = 1 ∨ key ∈ keys then 1 else 0 := by
  induction keys generalizing found with
  | nil => rcases h with rfl | rfl <;> rfl
  | cons validKey keys ih =>
    show findKey key (found ||| if validKey = key then 1 else 0) keys = _
    by_cases hkey : validKey = key
    · have hfound : found ||| 1 = 1 := by rcases h with rfl | rfl <;> rfl
      rw [if_pos hkey, hfound, ih (.inr rfl), if_pos (.inl rfl),
        if_pos (.inr (hkey ▸ List.mem_cons_self))]
    · rw [if_neg hkey, UInt8.or_zero, ih h]
      simp only [List.mem_cons, Ne.symm hkey, false_or]

theorem findKey_eq_one (key : String) (keys : List String) {found : UInt8}
    (h : found = 0 ∨ found = 1) : findKey key found keys = 1 ↔ found = 1 ∨ key ∈ keys := by
  rw [findKey_eq key keys h]
  split
  · rename_i hmem
    exact iff_of_true rfl hmem
  · rename_i hmem
    exact iff_of_false (by decide) hmem

theorem validateApiKey_iff {key : String} :
    auth.validateApiKey key = true ↔ key ∈ auth.apiKeys ∨ key ∈ auth.adminApiKeys := by
  have hfirst : findKey key 0 auth.apiKeys = 0 ∨ findKey key 0 auth.apiKeys = 1 := by
    rw [findKey_eq _ _ (.inl rfl)]
    split
    · exact .inr rfl
    · exact .inl rfl
  rw [validateApiKey, beq_iff_eq, findKey_eq_one _ _ hfirst, findKey_eq_one _ _ (.inl rfl)]
  simp

theorem validateAdminKey_iff {key : String} :
    auth.validateAdminKey key = true ↔ key ∈ auth.adminApiKeys := by
  rw [validateAdminKey, beq_iff_eq, findKey_eq_one _ _ (.inl rfl)]
  simp

end AuthState

/-! ## Requests -/

/-- `str::parse::<u64>`. -/
def parseU64 (s : List Char) : Option Nat :=
  let digits := (Text.stripPrefix ['+'] s).getD s
  if digits ≠ [] ∧ digits.all Char.isDigit then
    (some (digits.foldl (fun n c => n * 10 + (c.toNat - '0'.toNat)) 0)).filter (· < 2 ^ 64)
  else none

namespace Request

variable (request : Request)

/-- The `Content-Length`, if it can be read. -/
def contentLength : Option Nat :=
  ((request.headers.get "content-length").bind HeaderValue.toStr).bind parseU64

/-- The key of the header `Authorization`, or else of `x-api-key`. -/
def apiKey : Option String :=
  let bearer := ((request.headers.get "authorization").bind HeaderValue.toStr).bind
    (Text.stripPrefix "Bearer ".toList)
  let key := bearer.or ((request.headers.get "x-api-key").bind HeaderValue.toStr)
  key.map String.ofList

end Request

/-- `StatusCode::UNAUTHORIZED`. -/
def unauthorized : Nat := 401

/-- `StatusCode::PAYLOAD_TOO_LARGE`. -/
def payloadTooLarge : Nat := 413

/-- A request, the orders in which the two tables are searched for an entry to evict, and what the
clock advances before a ban. -/
structure Visit where
  request : Request
  checkOrder : TrackedOrder
  failureOrder : TrackedOrder
  delay : Nat

/-- What the middleware changes: the failures and the bans, and the table of the rate limiter. -/
structure Guard where
  store : BanStore := {}
  requests : Tracked := ∅

/-- How a request is served: the result, the key that was compared with the valid ones, and the
operation on the failures and the bans. -/
structure Served where
  result : Except Nat Unit
  compared : Option String
  recorded : Option AuthOp
  guard : Guard

/-- The request is refused at once. -/
def Served.refused (status : Nat) (guard : Guard) : Served := ⟨.error status, none, none, guard⟩

/-- The state of both layers. -/
structure Middleware where
  config : Config
  auth : AuthState
  rateLimiter : RateLimiter

namespace Middleware

variable (m : Middleware)

/-- `check_rate_limit`, and then the rest if it is passed. -/
def throttled (visit : Visit) (ip : IpAddr) (now : Nat) (guard : Guard) (rest : Guard → Served) :
    Served :=
  match m.rateLimiter.checkRateLimit visit.checkOrder ip now guard.requests with
  | (.error status, requests) => .refused status { guard with requests := requests }
  | (.ok (), requests) => rest { guard with requests := requests }

/-- What both layers do in the end: `is_banned`, the key, and `record_success` or
`record_failure`. -/
def authenticate (valid : String → Bool) (visit : Visit) (ip : IpAddr) (now : Nat) (guard : Guard) :
    Served :=
  if guard.store.isBanned ip now then .refused tooManyRequests guard
  else
    let apiKey := visit.request.apiKey
    let isValid := apiKey.any valid
    if isValid then
      { result := .ok ()
        compared := apiKey
        recorded := some (.recordSuccess ip)
        guard := { guard with store := guard.store.recordSuccess ip } }
    else
      let (result, store) := guard.store.recordFailure m.auth.limits visit.failureOrder ip now
        visit.delay
      { result := result >>= fun _ => .error unauthorized
        compared := apiKey
        recorded := some (.recordFailure ip visit.failureOrder visit.delay)
        guard := { guard with store := store } }

/-- The body is declared too large. -/
def oversized (visit : Visit) : Bool :=
  visit.request.contentLength.any (m.config.security.maxBodySizeBytes < ·)

/-- `auth_middleware`. -/
def authMiddleware (visit : Visit) (now : Nat) (guard : Guard) : Served :=
  match extractClientIp visit.request m.auth.trustedProxies with
  | .error status => .refused status guard
  | .ok ip =>
    if m.oversized visit then .refused payloadTooLarge guard
    else m.throttled visit ip now guard fun guard =>
      if m.auth.isEnabled then m.authenticate m.auth.validateApiKey visit ip now guard
      else { result := .ok (), compared := none, recorded := none, guard := guard }

/-- `admin_auth_middleware`. -/
def adminAuthMiddleware (visit : Visit) (now : Nat) (guard : Guard) : Served :=
  if m.auth.isAdminEnabled then
    match extractClientIp visit.request m.auth.trustedProxies with
    | .error status => .refused status guard
    | .ok ip => m.throttled visit ip now guard
        (m.authenticate m.auth.validateAdminKey visit ip now)
  else .refused unauthorized guard

/-! ## What a request can do -/

/-- The rate limiter has room for the address, and it is not banned. -/
def LetsThrough (ip : IpAddr) (now : Nat) (guard : Guard) : Prop :=
  (prune m.rateLimiter.window now (guard.requests.times ip)).length < m.rateLimiter.maxRequests ∧
    guard.store.isBanned ip now = false

/-- The operation after a comparison. -/
def recordedOp (valid : String → Bool) (visit : Visit) (ip : IpAddr) : AuthOp :=
  if visit.request.apiKey.any valid then .recordSuccess ip
  else .recordFailure ip visit.failureOrder visit.delay

/-- The request does not get to a comparison: failures and bans stay as they are. -/
structure Untouched (guard : Guard) (served : Served) : Prop where
  compared : served.compared = none
  recorded : served.recorded = none
  store : served.guard.store = guard.store

/-- The key of the request is compared, and the outcome recorded. -/
structure Compared (valid : String → Bool) (visit : Visit) (ip : IpAddr) (now : Nat) (guard : Guard)
    (served : Served) : Prop where
  client : extractClientIp visit.request m.auth.trustedProxies = .ok ip
  through : m.LetsThrough ip now guard
  compared : served.compared = visit.request.apiKey
  recorded : served.recorded = some (recordedOp valid visit ip)
  store : served.guard.store = guard.store.apply m.auth.limits ⟨now, recordedOp valid visit ip⟩

section

variable {m} {valid : String → Bool} {visit : Visit} {ip : IpAddr} {now : Nat} {guard : Guard}

theorem untouched_refused {status : Nat} {guard' : Guard} (h : guard'.store = guard.store) :
    Untouched guard (.refused status guard') :=
  ⟨rfl, rfl, h⟩

/-- The table of the rate limiter has no part in what follows it. -/
theorem authenticate_cases {requests : Tracked}
    (hclient : extractClientIp visit.request m.auth.trustedProxies = .ok ip)
    (hroom : (prune m.rateLimiter.window now (guard.requests.times ip)).length <
      m.rateLimiter.maxRequests) :
    let served := m.authenticate valid visit ip now { guard with requests := requests }
    Untouched guard served ∨ m.Compared valid visit ip now guard served := by
  unfold authenticate
  dsimp only
  split
  · exact .inl (untouched_refused rfl)
  · rename_i hbanned
    have hthrough : m.LetsThrough ip now guard := ⟨hroom, Bool.of_not_eq_true hbanned⟩
    split
    · rename_i hvalid
      exact .inr ⟨hclient, hthrough, rfl, by rw [recordedOp, if_pos hvalid],
        by rw [recordedOp, if_pos hvalid]; rfl⟩
    · rename_i hvalid
      exact .inr ⟨hclient, hthrough, rfl, by rw [recordedOp, if_neg hvalid],
        by rw [recordedOp, if_neg hvalid]; rfl⟩

theorem throttled_cases {rest : Guard → Served}
    (hrest : (prune m.rateLimiter.window now (guard.requests.times ip)).length <
        m.rateLimiter.maxRequests → ∀ requests,
      Untouched guard (rest { guard with requests := requests }) ∨
        m.Compared valid visit ip now guard (rest { guard with requests := requests })) :
    Untouched guard (m.throttled visit ip now guard rest) ∨
      m.Compared valid visit ip now guard (m.throttled visit ip now guard rest) := by
  unfold throttled
  rcases Nat.lt_or_ge (prune m.rateLimiter.window now (guard.requests.times ip)).length
    m.rateLimiter.maxRequests with hroom | hfull
  · rw [m.rateLimiter.checkRateLimit_room hroom]
    exact hrest hroom _
  · rw [m.rateLimiter.checkRateLimit_full hfull]
    exact .inl (untouched_refused rfl)

/-- All that a request to a regular route can do. -/
theorem authMiddleware_cases (m : Middleware) (visit : Visit) (now : Nat) (guard : Guard) :
    Untouched guard (m.authMiddleware visit now guard) ∨
      ∃ ip, m.oversized visit = false ∧ m.Compared m.auth.validateApiKey visit ip now guard
        (m.authMiddleware visit now guard) := by
  unfold authMiddleware
  cases hclient : extractClientIp visit.request m.auth.trustedProxies with
  | error status => exact .inl (untouched_refused rfl)
  | ok ip =>
    dsimp only
    split
    · exact .inl (untouched_refused rfl)
    · rename_i hsize
      refine (throttled_cases fun hroom requests => ?_).imp_right fun h =>
        ⟨ip, Bool.of_not_eq_true hsize, h⟩
      split
      · exact authenticate_cases hclient hroom
      · exact .inl ⟨rfl, rfl, rfl⟩

/-- All that a request to an admin route can do. -/
theorem adminAuthMiddleware_cases (m : Middleware) (visit : Visit) (now : Nat) (guard : Guard) :
    Untouched guard (m.adminAuthMiddleware visit now guard) ∨
      ∃ ip, m.Compared m.auth.validateAdminKey visit ip now guard
        (m.adminAuthMiddleware visit now guard) := by
  unfold adminAuthMiddleware
  split
  · cases hclient : extractClientIp visit.request m.auth.trustedProxies with
    | error status => exact .inl (untouched_refused rfl)
    | ok ip =>
      exact (throttled_cases fun hroom _ => authenticate_cases hclient hroom).imp_right
        fun h => ⟨ip, h⟩
  · exact .inl (untouched_refused rfl)

end

end Middleware

end ApertureRouter
