import ApertureRouter.Discovery.Refresh
import ApertureRouter.Lib.TaskRuns
import ApertureRouter.Routes.Queries
import ApertureRouter.Server.Log

/-!
# The tasks of the router

What runs at the same time once the server is up: a task for each request, behind its middleware
(`src/middleware/auth.rs`), and one for each tick of a background task. A task is a program on what they
share; it takes the locks of the source where the source does, and releases them where a guard is dropped.

* `/health` takes no lock and is left out. What a background task does between its ticks is wait.
* The clock goes on between any two actions. An operation reads it where the source does.
* The log (`Server.Log`) is written with the last action that changes what an operation changes, and
  nothing reads it.
* The registry and the discovered models are read where a handler reads them, so that a refresh can
  come between two reads.
-/

namespace ApertureRouter

open Tasks

/-- The locks. -/
inductive RouterLock where
  | requests
  | failedAttempts
  | bannedUntil
  | discovery (cell : Cell)
  deriving DecidableEq, Repr

/-- What the tasks `τ` share, and the log. -/
structure RouterData (τ : Type) where
  now : Nat := 0
  guard : Guard := {}
  shared : Shared
  log : List (Entry τ) := []

/-- A call of an upstream, or a request for the models. -/
inductive RouterQuery where
  | upstream (request : UpstreamRequest)
  | models (request : FetchRequest)

/-- What comes back. -/
def RouterQuery.Answer : RouterQuery → Type
  | upstream _ => Reply
  | models _ => FetchReply

/-- A program of a task. -/
abbrev RouterProc (τ : Type) := Proc RouterLock (RouterData τ) RouterQuery RouterQuery.Answer

namespace RouterProc

variable {τ : Type}

/-- The calls of a handler. -/
def calls {α : Type} (dialog : Calls α) : RouterProc τ α := .ofDialog .upstream (fun _ reply => reply) dialog

/-- A program of discovery. -/
def locked (task : Task) : RouterProc τ (Option DiscoverySnapshot) :=
  .ofProgram .discovery (·.shared) (fun shared d => { d with shared := shared }) none task

/-- `get_snapshot`. -/
def snapshotTask (order : SnapshotOrder) : RouterProc τ DiscoverySnapshot :=
  .read (.discovery .models) <| .read (.discovery .providers) <|
  .read (.discovery .modelsByProvider) <| .read (.discovery .lastRefresh) <|
  .act id fun d =>
  .release (.discovery .lastRefresh) <| .release (.discovery .modelsByProvider) <|
  .release (.discovery .providers) <| .release (.discovery .models) <|
  .done (snapshotOf order d.shared)

theorem locked_getSnapshot (order : SnapshotOrder) :
    (locked (getSnapshot order) : RouterProc τ (Option DiscoverySnapshot)) =
      snapshotTask order >>= fun snapshot => .done (some snapshot) := rfl

/-- What one lock of discovery protects is read. -/
def readShared (cell : Cell) : RouterProc τ Shared :=
  .read (.discovery cell) <| .act id fun d => .release (.discovery cell) <| .done d.shared

end RouterProc

/-! ## The middleware -/

namespace RateLimiter

variable {τ : Type} (limiter : RateLimiter)

/-- `check_rate_limit`. -/
def checkTask (t : τ) (order : TrackedOrder) (ip : IpAddr) : RouterProc τ (Except Nat Unit) :=
  .write .requests <|
  .act (fun d => { d with
    guard := { d.guard with requests := (limiter.checkRateLimit order ip d.now d.guard.requests).2 }
    log := ⟨t, d.now, .limiter (.check ip order)⟩ :: d.log }) fun d =>
  .release .requests <|
  .done (limiter.checkRateLimit order ip d.now d.guard.requests).1

/-- A tick of `start_cleanup_task`. -/
def cleanupTask (t : τ) : RouterProc τ Unit :=
  .write .requests <|
  .act (fun d => { d with
    guard := { d.guard with requests := d.guard.requests.cleanup limiter.window d.now }
    log := ⟨t, d.now, .limiter .cleanup⟩ :: d.log }) fun _ =>
  .release .requests <|
  .done ()

end RateLimiter

/-- `is_banned`. -/
def BanStore.isBannedTask {τ : Type} (t : τ) (ip : IpAddr) : RouterProc τ Bool :=
  .read .bannedUntil <|
  .act (fun d => { d with log := ⟨t, d.now, .isBanned ip⟩ :: d.log }) fun d =>
  .release .bannedUntil <|
  .done (d.guard.store.isBanned ip d.now)

/-- `record_success`. -/
def BanStore.recordSuccessTask {τ : Type} (t : τ) (ip : IpAddr) : RouterProc τ Unit :=
  .write .failedAttempts <|
  .act (fun d => { d with guard := { d.guard with store := { d.guard.store with
    failedAttempts := d.guard.store.failedAttempts.remove ip } } }) fun _ =>
  .write .bannedUntil <|
  .act (fun d => { d with
    guard := { d.guard with store := { d.guard.store with
      bannedUntil := d.guard.store.bannedUntil.remove ip } }
    log := ⟨t, d.now, .auth (.recordSuccess ip)⟩ :: d.log }) fun _ =>
  .release .bannedUntil <|
  .release .failedAttempts <|
  .done ()

namespace AuthState

variable {τ : Type} (auth : AuthState) (t : τ)

/-- `record_failure`. The ban is written behind its own lock, with what the clock says then. -/
def recordFailureTask (order : TrackedOrder) (ip : IpAddr) : RouterProc τ (Except Nat Unit) :=
  .write .failedAttempts <|
  .act (fun d =>
    let outcome := d.guard.store.recordFailure auth.limits order ip d.now 0
    { d with
      guard := { d.guard with store := { d.guard.store with
        failedAttempts := outcome.2.failedAttempts } }
      log := if BanStore.ReachesLimit auth.limits ip d.now d.guard.store then d.log
        else ⟨t, d.now, .auth (.recordFailure ip order 0)⟩ :: d.log }) fun start =>
  if BanStore.ReachesLimit auth.limits ip start.now start.guard.store then
    .write .bannedUntil <|
    .act (fun d => { d with
      guard := { d.guard with store := { d.guard.store with
        bannedUntil := d.guard.store.bannedUntil.insert ip (d.now + auth.limits.banDuration) } }
      log := ⟨t, start.now, .auth (.recordFailure ip order (d.now - start.now))⟩ :: d.log }) fun _ =>
    .release .bannedUntil <|
    .release .failedAttempts <|
    .done (start.guard.store.recordFailure auth.limits order ip start.now 0).1
  else
    .release .failedAttempts <|
    .done (start.guard.store.recordFailure auth.limits order ip start.now 0).1

/-- A tick of `start_cleanup_task`. -/
def cleanupTask : RouterProc τ Unit :=
  .write .failedAttempts <|
  .act (fun d => { d with guard := { d.guard with store := { d.guard.store with
    failedAttempts := d.guard.store.failedAttempts.cleanup auth.limits.windowDuration d.now } } })
    fun start =>
  .write .bannedUntil <|
  .act (fun d => { d with
    guard := { d.guard with store := { d.guard.store with
      bannedUntil := d.guard.store.bannedUntil.retain fun _ expiresAt => start.now < expiresAt } }
    log := ⟨t, start.now, .auth .cleanup⟩ :: d.log }) fun _ =>
  .release .bannedUntil <|
  .release .failedAttempts <|
  .done ()

end AuthState

namespace Middleware

variable {τ : Type} (m : Middleware) (t : τ)

/-- What both layers do in the end. -/
def authenticateTask (valid : String → Bool) (visit : Visit) (ip : IpAddr) :
    RouterProc τ (Except Nat Unit) := do
  if ← BanStore.isBannedTask t ip then .done (.error tooManyRequests)
  else if visit.request.apiKey.any valid then do
    BanStore.recordSuccessTask t ip
    .done (.ok ())
  else do
    let result ← m.auth.recordFailureTask t visit.failureOrder ip
    .done (result >>= fun _ => .error unauthorized)

/-- `auth_middleware`, up to the handler. The delay of the visit is what the clock says here. -/
def authTask (visit : Visit) : RouterProc τ (Except Nat Unit) :=
  match extractClientIp visit.request m.auth.trustedProxies with
  | .error status => .done (.error status)
  | .ok ip =>
    if m.oversized visit then .done (.error payloadTooLarge)
    else do
      match ← m.rateLimiter.checkTask t visit.checkOrder ip with
      | .error status => .done (.error status)
      | .ok () =>
        if m.auth.isEnabled then m.authenticateTask t m.auth.validateApiKey visit ip
        else .done (.ok ())

/-- `admin_auth_middleware`, up to the handler. -/
def adminAuthTask (visit : Visit) : RouterProc τ (Except Nat Unit) :=
  if m.auth.isAdminEnabled then
    match extractClientIp visit.request m.auth.trustedProxies with
    | .error status => .done (.error status)
    | .ok ip => do
      match ← m.rateLimiter.checkTask t visit.checkOrder ip with
      | .error status => .done (.error status)
      | .ok () => m.authenticateTask t m.auth.validateAdminKey visit ip
  else .done (.error unauthorized)

end Middleware

/-! ## The handlers -/

/-- What the tasks read and do not change. -/
structure Server where
  middleware : Middleware
  config : RouterConfig
  aperture : ApertureConfig
  proxyClient : ProxyClient
  fetchEnv : FetchEnv

/-- The clock of the system at the end of a refresh, and the orders of the maps. -/
structure RefreshOrders where
  now : UInt64
  snapshot : SnapshotOrder
  groups : IterOrder String (List String)
  providers : IterOrder String Provider

/-- What a task ends with: the refusal of the middleware, or the answer of the handler. -/
inductive Outcome where
  | refused (status : Nat)
  | answered (response : RouterResponse)
  | models (models : List Model)
  | refreshed (status : Nat) (response : RefreshResponse)
  | stats (stats : StatsResponse)
  | ticked

/-- The checks of `chat_completions` that ask nobody. -/
def checkChatFormat (config : RouterConfig) (request : Openai.ChatCompletionRequest) :
    Option RouterResponse :=
  checkModel request.model <|>
  checkMaxTokens request.maxTokens <|>
  checkMessageCount config request.messages.length <|>
  checkMessages (request.messages.map fun m => (m.role, m.content >>= Value.asStr)) <|>
  checkOtherFields request.other.entries.length

/-- The checks of `anthropic_messages` that ask nobody. -/
def checkAnthropicFormat (config : RouterConfig) (env : Env) (request : Anthropic.MessageRequest) :
    Option RouterResponse :=
  checkModel request.model <|>
  checkMaxTokens request.maxTokens <|>
  checkMessageCount config request.messages.length <|>
  checkMessages (request.messages.map fun m => (m.role, some m.content.asText)) <|>
  checkOtherFields request.other.entries.length <|>
  checkTemperature env request.temperature <|>
  checkTopP env (request.other.get "top_p")

namespace Server

variable {τ : Type} (server : Server)

/-- The state that a handler sees with what is shared. -/
def appState (shared : Shared) : AppState where
  config := server.config
  proxyClient := server.proxyClient
  registry := shared.registry
  discoveredModels := shared.models.keys

/-- The state of a handler that reads neither the registry nor discovery. -/
def closedState : AppState := server.appState { registry := {} }

/-- The providers of a model, as the registry has them now. -/
def providersTask (env : Env) (model : String) : RouterProc τ (List Provider) := do
  let shared ← RouterProc.readShared .registry
  .done ((server.appState shared).providersFor env model)

/-- The refusal of a model that nobody knows: the registry is asked, and then discovery. -/
def checkKnownTask (env : Env) (model : String) (response : RouterResponse) :
    RouterProc τ (Option RouterResponse) :=
  if server.config.multiProviderEnabled then do
    let providers ← server.providersTask env model
    let shared ← RouterProc.readShared .models
    .done (refuseIf
      (!(providers.any (·.enabled) || (server.appState shared).discoveredModels.contains model)) response)
  else .done none

/-- Only Anthropic-style providers serve the model: the registry is asked again if the others are none. -/
def wrongEndpointTask (env : Env) (model : String) (providers : List Provider) : RouterProc τ Bool :=
  if providers.isEmpty && server.config.multiProviderEnabled then do
    let again ← server.providersTask env model
    .done (again.any (·.endpointStyle = .anthropic))
  else .done false

/-- `chat_completions`. -/
def chatTask (env : Env) (request : Openai.ChatCompletionRequest) : RouterProc τ RouterResponse :=
  let request := { request with model := server.config.resolveModelAlias request.model }
  match checkChatFormat server.config request with
  | some refusal => .done refusal
  | none => do
    match ← server.checkKnownTask env request.model
        (invalidRequest "model_not_found" s!"Model '{request.model}' not found") with
    | some refusal => .done refusal
    | none => do
      let all ← server.providersTask env request.model
      let providers := all.filter (·.endpointStyle ≠ .anthropic)
      if ← server.wrongEndpointTask env request.model providers then
        .done (invalidRequest "wrong_endpoint_for_provider"
          s!"Model '{request.model}' is served by an Anthropic-style provider; send requests to /v1/messages")
      else
        RouterProc.calls (proxyHandlerMulti server.proxyClient providers
          (request.toValue env.fieldOrder) "v1/chat/completions" server.config.multiProviderEnabled)

/-- `anthropic_messages`. -/
def messagesTask (env : Env) (request : Anthropic.MessageRequest) : RouterProc τ RouterResponse :=
  let request := { request with model := server.config.resolveModelAlias request.model }
  match checkAnthropicFormat server.config env request with
  | some refusal => .done refusal
  | none => do
    match ← server.checkKnownTask env request.model
        (anthropicError badRequest "invalid_request_error" s!"Model '{request.model}' not found") with
    | some refusal => .done refusal
    | none => do
      let body := request.toValue env.fieldOrder
      let isStreaming := request.stream.getD false
      let all ← server.providersTask env request.model
      let anthropicProviders := all.filter (·.endpointStyle = .anthropic)
      if !anthropicProviders.isEmpty then
        if isStreaming then do
          let sse ← RouterProc.calls
            (handleAnthropicDirectStreaming server.closedState body anthropicProviders)
          .done (streamResponse sse)
        else
          RouterProc.calls (proxyHandlerMulti server.proxyClient anthropicProviders body "v1/messages"
            server.config.multiProviderEnabled)
      else do
        let openaiProviders ← server.providersTask env request.model
        if isStreaming then do
          let sse ← RouterProc.calls
            (handleStreamingConversion server.closedState env body openaiProviders)
          .done (streamResponse sse)
        else
          RouterProc.calls
            (handleNonStreamingConversion server.closedState env body openaiProviders)

/-- The handler of a POST route. -/
def handlerTask (env : Env) : RouterRequest → RouterProc τ RouterResponse
  | .chat request => server.chatTask env request
  | .messages request => server.messagesTask env request
  | .proxy request => RouterProc.calls (handleProxyStream server.closedState env request)

/-- `fetch_models`, up to the maps that it publishes. -/
def fetchTask : RouterProc τ (Except String Discovered) :=
  .ofDialog .models (fun _ reply => reply)
    (server.fetchEnv.fetchModels server.aperture.baseUrl server.aperture.apiKey)

/-- How a refresh updates the registry. -/
def sync (orders : RefreshOrders) : Sync where
  apertureUrl := server.aperture.baseUrl
  groupOrder := orders.groups
  providerOrder := orders.providers

/-- `update_from_discovery` with a snapshot. -/
def updateTask (orders : RefreshOrders) (snapshot : DiscoverySnapshot) : RouterProc τ Unit :=
  .write (.discovery .registry) <|
  .act (fun d => { d with shared := (server.sync orders).publish (some snapshot) d.shared }) fun _ =>
  .release (.discovery .registry) <|
  .done ()

/-- A refresh: `fetch_models`, which writes the models down and takes a snapshot, and
`update_from_discovery`. -/
def refreshTask (orders : RefreshOrders) : RouterProc τ (Except String DiscoverySnapshot) := do
  match ← server.fetchTask with
  | .error e => .done (.error e)
  | .ok new => do
    let _ ← RouterProc.locked (detectChanges ++ updateState new orders.now ++ logProviders)
    let snapshot ← RouterProc.snapshotTask orders.snapshot
    server.updateTask orders snapshot
    .done (.ok snapshot)

end Server

/-! ## The tasks -/

/-- A task: a request and what its handler meets, or a tick of a background task. -/
inductive RouterTask where
  | post (visit : Visit) (env : Env) (request : RouterRequest)
  | getModels (visit : Visit) (order : IterOrder String Model)
  | refreshModels (visit : Visit) (orders : RefreshOrders)
  | getStats (visit : Visit) (order : SnapshotOrder) (groups : IterOrder String (List String))
  | refreshTick (orders : RefreshOrders)
  | authTick
  | limiterTick

/-- The handler behind a middleware. -/
def RouterProc.behind {τ : Type} (layer : RouterProc τ (Except Nat Unit)) (handler : RouterProc τ Outcome) :
    RouterProc τ Outcome := do
  match ← layer with
  | .error status => .done (.refused status)
  | .ok () => handler

namespace Server

variable {τ : Type} (server : Server) (t : τ)

/-- The program of a task. -/
def task : RouterTask → RouterProc τ Outcome
  | .post visit env request =>
    .behind (server.middleware.authTask t visit) do
      let response ← server.handlerTask env request
      .done (.answered response)
  | .getModels visit order =>
    .behind (server.middleware.authTask t visit) do
      let shared ← RouterProc.readShared .models
      .done (.models (ApertureRouter.getModels order shared))
  | .refreshModels visit orders =>
    .behind (server.middleware.adminAuthTask t visit) do
      let result ← server.refreshTask orders
      .done (.refreshed (refreshAnswer result).1 (refreshAnswer result).2)
  | .getStats visit order groups =>
    .behind (server.middleware.adminAuthTask t visit) do
      let snapshot ← RouterProc.snapshotTask order
      .done (.stats (ApertureRouter.getStats server.aperture groups snapshot))
  | .refreshTick orders => do
    let _ ← server.refreshTask orders
    .done .ticked
  | .authTick => do
    server.middleware.auth.cleanupTask t
    .done .ticked
  | .limiterTick => do
    server.middleware.rateLimiter.cleanupTask t
    .done .ticked

/-- The router once it is up, with its tasks. The models have been fetched before (`run_server`). -/
def start (shared : Shared) (tasks : τ → RouterTask) :
    State RouterLock τ (RouterData τ) RouterQuery RouterQuery.Answer Outcome where
  data := { shared := shared }
  todo t := server.task t (tasks t)

end Server

end ApertureRouter
