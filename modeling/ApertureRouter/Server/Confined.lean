import ApertureRouter.Routes.Confined
import ApertureRouter.Server.Interleaving

/-!
# The registry and the upstreams under interleaving

A refresh changes the registry while requests read it, and the gateway decides what a refresh brings. The
configuration stays in charge all the same: its providers stay as they are, and what is added is at the
gateway's URL and has no key (`RegistryInner.Contained`).

* `Contained.update`: an update from the gateway keeps this, whatever it brings.
* `router_confined`: so in every run of the tasks nobody is asked but the gateway and the enabled providers of
  the configuration, and no key goes to another than its own.
-/

namespace ApertureRouter

open Tasks

/-! ## The registry -/

namespace RegistryInner

/-- The registry has the providers of the configuration and the routes of their models, its routes are
complete, and what discovery has added is at the gateway's URL and has no key. -/
structure Contained (providers : List Provider) (apertureUrl : String) (inner : RegistryInner) :
    Prop where
  framed : inner.Framed
  frames : (new providers).Frames inner
  discovered : ∀ name p, inner.providers.get name = some p → name ∉ inner.staticProviders →
    p.baseUrl = apertureUrl ∧ p.apiKey = none

variable {providers : List Provider} {apertureUrl : String} {inner : RegistryInner}

theorem contained_new (hn : (providers.map (·.name)).Nodup) :
    (new providers).Contained providers apertureUrl := by
  refine ⟨framed_new hn, .refl _, fun name p hp hs => ?_⟩
  obtain ⟨hmem, henabled, hname⟩ := ((configured_new hn).table name p).mp hp
  exact absurd (((configured_new hn).names name).mpr ⟨p, hmem, henabled, hname⟩) hs

/-- The provider of a group: a new one, or one that is there with other models. -/
theorem Contained.updatedProvider (h : inner.Contained providers apertureUrl) {name : String}
    (hs : name ∉ inner.staticProviders) (models : List String) :
    (inner.updatedProvider apertureUrl name models).baseUrl = apertureUrl ∧
      (inner.updatedProvider apertureUrl name models).apiKey = none := by
  unfold RegistryInner.updatedProvider
  cases hp : inner.providers.get name with
  | none => exact ⟨rfl, rfl⟩
  | some p =>
    dsimp only
    rw [if_neg hs]
    exact h.discovered name p hp hs

/-- **An update** from the gateway. -/
theorem Contained.update (h : inner.Contained providers apertureUrl) {u : Update}
    (hu : u.apertureUrl = apertureUrl) :
    (inner.updateFromDiscovery u).Contained providers apertureUrl := by
  refine ⟨h.framed.updateFromDiscovery u, h.frames.trans (h.framed.frames_update u),
    fun name p hp hs => ?_⟩
  rw [h.framed.update_names.1] at hs
  rw [h.framed.update_provider, if_neg hs] at hp
  split at hp
  · cases hp
  · obtain ⟨models, -, rfl⟩ := Option.map_eq_some_iff.mp hp
    rw [hu]
    exact h.updatedProvider hs models

/-- An enabled provider of the configuration. -/
theorem Contained.get_enabled (h : inner.Contained providers apertureUrl)
    (hn : (providers.map (·.name)).Nodup) {p : Provider} (hp : p ∈ providers)
    (henabled : p.enabled = true) : inner.providers.get p.name = some p := by
  have hs : p.name ∈ (new providers).staticProviders :=
    ((configured_new hn).names _).mpr ⟨p, hp, henabled, rfl⟩
  rw [h.frames.provider _ hs]
  exact ((configured_new hn).table _ p).mpr ⟨hp, henabled, rfl⟩

/-- A disabled one. -/
theorem Contained.not_mem_disabled (h : inner.Contained providers apertureUrl)
    (hn : (providers.map (·.name)).Nodup) {p : Provider} (hp : p ∈ providers)
    (hdisabled : p.enabled = false) : p.name ∉ inner.providers := by
  refine h.framed.disabled _ ?_
  rw [h.frames.disabledStaticProviders]
  exact ((configured_new hn).disabled _).mpr ⟨p, hp, hdisabled, rfl⟩

/-- Any provider. -/
theorem Contained.get_cases (h : inner.Contained providers apertureUrl)
    (hn : (providers.map (·.name)).Nodup) {name : String} {p : Provider}
    (hp : inner.providers.get name = some p) :
    (p ∈ providers ∧ p.enabled = true) ∨ p.baseUrl = apertureUrl ∧ p.apiKey = none := by
  by_cases hs : name ∈ inner.staticProviders
  · rw [h.frames.staticProviders] at hs
    rw [h.frames.provider name hs] at hp
    obtain ⟨hmem, henabled, -⟩ := ((configured_new hn).table name p).mp hp
    exact .inl ⟨hmem, henabled⟩
  · exact .inr (h.discovered name p hp hs)

/-- What can be tried for a request. -/
theorem Contained.placed (h : inner.Contained providers apertureUrl)
    (hn : (providers.map (·.name)).Nodup) {client : ProxyClient} (hclient : client.baseUrl = apertureUrl)
    {p : Provider} (hp : inner.Registered p) :
    Placed client (fun p => p ∈ providers ∧ p.enabled = true) p := by
  obtain ⟨name, hget⟩ := hp
  refine (h.get_cases hn hget).imp_right ?_
  rintro ⟨hbase, hkey⟩
  exact ⟨by rw [hbase, hclient], hkey⟩

end RegistryInner

/-- A refresh on its own. -/
theorem FetchEnv.contained_afterRefreshes (env : FetchEnv) (aperture : ApertureConfig)
    {providers : List Provider} (hn : (providers.map (·.name)).Nodup) (run : List Refresh) :
    (env.afterRefreshes aperture providers run).registry.Contained providers aperture.baseUrl := by
  induction run with
  | nil => exact RegistryInner.contained_new hn
  | cons r run ih =>
    show (env.refresh aperture r (env.afterRefreshes aperture providers run)).2.registry.Contained _ _
    unfold FetchEnv.refresh
    split
    · exact ih
    · exact ih.update rfl

/-! ## The tasks -/

namespace Server

variable (server : Server) (providers : List Provider)

/-- An upstream is asked as it may be, or the gateway for its models with its own key. -/
def Addressed : RouterQuery → Prop
  | .upstream q => Confined server.proxyClient (fun p => p ∈ providers ∧ p.enabled = true) q
  | .models q => server.fetchEnv.modelsUrl server.aperture.baseUrl = .ok q.url ∧
    q.header = server.aperture.apiKey.map fun key => ("x-api-key", key)

/-- The program keeps the registry contained, and asks nobody else. -/
abbrev KeepsConfined {τ α : Type} (p : RouterProc τ α) (post : α → Prop) : Prop :=
  p.Keeps (fun d => d.shared.registry.Contained providers server.aperture.baseUrl)
    (server.Addressed providers) post

end Server

namespace KeepsConfined

open Tasks.Proc (Keeps)

variable {τ : Type} {server : Server} {providers : List Provider}

/-! ### The middleware does not touch the registry -/

theorem checkTask (limiter : RateLimiter) (t : τ) (order : TrackedOrder) (ip : IpAddr) :
    server.KeepsConfined providers (limiter.checkTask t order ip) fun _ => True :=
  fun _ hd => ⟨hd, trivial⟩

theorem limiterCleanup (limiter : RateLimiter) (t : τ) :
    server.KeepsConfined providers (limiter.cleanupTask t) fun _ => True :=
  fun _ hd => ⟨hd, trivial⟩

theorem isBannedTask (t : τ) (ip : IpAddr) :
    server.KeepsConfined providers (BanStore.isBannedTask t ip) fun _ => True :=
  fun _ hd => ⟨hd, trivial⟩

theorem recordSuccessTask (t : τ) (ip : IpAddr) :
    server.KeepsConfined providers (BanStore.recordSuccessTask t ip) fun _ => True :=
  fun _ hd => ⟨hd, fun _ hd' => ⟨hd', trivial⟩⟩

theorem authCleanup (auth : AuthState) (t : τ) :
    server.KeepsConfined providers (auth.cleanupTask t) fun _ => True :=
  fun _ hd => ⟨hd, fun _ hd' => ⟨hd', trivial⟩⟩

theorem recordFailureTask (auth : AuthState) (t : τ) (order : TrackedOrder) (ip : IpAddr) :
    server.KeepsConfined providers (auth.recordFailureTask t order ip) fun _ => True := by
  intro start hd
  refine ⟨hd, ?_⟩
  dsimp only
  split
  · exact fun _ hd' => ⟨hd', trivial⟩
  · trivial

theorem authenticateTask (m : Middleware) (t : τ) (valid : String → Bool) (visit : Visit) (ip : IpAddr) :
    server.KeepsConfined providers (m.authenticateTask t valid visit ip) fun _ => True := by
  refine (isBannedTask t ip).bind fun banned _ => ?_
  split
  · trivial
  · split
    · exact (recordSuccessTask t ip).bind fun _ _ => trivial
    · exact (recordFailureTask m.auth t _ ip).bind fun _ _ => trivial

theorem authTask (m : Middleware) (t : τ) (visit : Visit) :
    server.KeepsConfined providers (m.authTask t visit) fun _ => True := by
  unfold Middleware.authTask
  split
  · trivial
  · split
    · trivial
    · refine (checkTask m.rateLimiter t _ _).bind fun r _ => ?_
      split
      · trivial
      · split
        · exact authenticateTask m t _ visit _
        · trivial

theorem adminAuthTask (m : Middleware) (t : τ) (visit : Visit) :
    server.KeepsConfined providers (m.adminAuthTask t visit) fun _ => True := by
  unfold Middleware.adminAuthTask
  split
  · split
    · trivial
    · refine (checkTask m.rateLimiter t _ _).bind fun r _ => ?_
      split
      · trivial
      · exact authenticateTask m t _ visit _
  · trivial

/-! ### The handlers -/

theorem readShared (cell : Cell) :
    server.KeepsConfined providers (RouterProc.readShared cell : RouterProc τ Shared)
      fun shared => shared.registry.Contained providers server.aperture.baseUrl :=
  fun _ hd => ⟨hd, hd⟩

theorem snapshotTask (order : SnapshotOrder) :
    server.KeepsConfined providers (RouterProc.snapshotTask order : RouterProc τ DiscoverySnapshot)
      fun _ => True :=
  fun _ hd => ⟨hd, trivial⟩

theorem calls {α : Type} {dialog : Calls α}
    (h : ConfinedCalls server.proxyClient (fun p => p ∈ providers ∧ p.enabled = true) dialog) :
    server.KeepsConfined providers (RouterProc.calls dialog : RouterProc τ α) fun _ => True :=
  .ofDialog h

/-- The calls of a handler that gets the state without the registry. -/
theorem closedCalls {α : Type} {dialog : Calls α}
    (h : ConfinedCalls server.closedState.proxyClient (fun p => p ∈ providers ∧ p.enabled = true)
      dialog) :
    server.KeepsConfined providers (RouterProc.calls dialog : RouterProc τ α) fun _ => True :=
  calls h

section

variable (hn : (providers.map (·.name)).Nodup)
  (hgateway : server.proxyClient.baseUrl = server.aperture.baseUrl) (env : Env)

include hn hgateway

/-- The providers of a model, whenever the registry is read. -/
theorem providersTask (model : String) :
    server.KeepsConfined providers (server.providersTask env model : RouterProc τ (List Provider))
      fun found => ∀ p ∈ found,
        Placed server.proxyClient (fun p => p ∈ providers ∧ p.enabled = true) p := by
  refine (readShared .registry).bind fun shared hshared => ?_
  intro p hp
  exact hshared.placed hn hgateway (RegistryInner.registered_of_mem_getProvidersForModel hp)

theorem checkKnownTask (model : String) (response : RouterResponse) :
    server.KeepsConfined providers
      (server.checkKnownTask env model response : RouterProc τ (Option RouterResponse))
      fun _ => True := by
  unfold Server.checkKnownTask
  split
  · refine (providersTask hn hgateway env model).bind fun found _ => ?_
    exact (readShared .models).bind fun _ _ => trivial
  · trivial

theorem wrongEndpointTask (model : String) (found : List Provider) :
    server.KeepsConfined providers
      (server.wrongEndpointTask env model found : RouterProc τ Bool) fun _ => True := by
  unfold Server.wrongEndpointTask
  split
  · exact (providersTask hn hgateway env model).bind fun _ _ => trivial
  · trivial

theorem chatTask (request : Openai.ChatCompletionRequest) :
    server.KeepsConfined providers (server.chatTask env request : RouterProc τ RouterResponse)
      fun _ => True := by
  unfold Server.chatTask
  dsimp only
  split
  · trivial
  · refine (checkKnownTask hn hgateway env _ _).bind fun known _ => ?_
    split
    · trivial
    · refine (providersTask hn hgateway env _).bind fun all hall => ?_
      refine (wrongEndpointTask hn hgateway env _ _).bind fun wrongEndpoint _ => ?_
      split
      · trivial
      · exact calls (confined_proxyHandlerMulti (fun p hp => hall p (List.mem_of_mem_filter hp)) _ _ _)

theorem messagesTask (request : Anthropic.MessageRequest) :
    server.KeepsConfined providers (server.messagesTask env request : RouterProc τ RouterResponse)
      fun _ => True := by
  unfold Server.messagesTask
  dsimp only
  split
  · trivial
  · refine (checkKnownTask hn hgateway env _ _).bind fun known _ => ?_
    split
    · trivial
    · refine (providersTask hn hgateway env _).bind fun all hall => ?_
      have hanthropic : ∀ p ∈ all.filter (·.endpointStyle = .anthropic),
          Placed server.proxyClient (fun p => p ∈ providers ∧ p.enabled = true) p :=
        fun p hp => hall p (List.mem_of_mem_filter hp)
      split
      · split
        · refine Keeps.bind (closedCalls ?_) fun _ _ => trivial
          refine confined_directStreaming ?_ _
          exact hanthropic
        · exact calls (confined_proxyHandlerMulti hanthropic _ _ _)
      · refine (providersTask hn hgateway env _).bind fun openaiProviders hopenai => ?_
        split
        · refine Keeps.bind (closedCalls ?_) fun _ _ => trivial
          refine confined_streamingConversion ?_ _
          exact hopenai
        · refine closedCalls (confined_nonStreamingConversion ?_ _)
          exact hopenai

theorem handlerTask (request : RouterRequest) :
    server.KeepsConfined providers (server.handlerTask env request : RouterProc τ RouterResponse)
      fun _ => True := by
  cases request with
  | chat request => exact chatTask hn hgateway env request
  | messages request => exact messagesTask hn hgateway env request
  | proxy request => exact closedCalls (confined_handleProxyStream request)

end

/-! ### Refreshes -/

/-- Each attempt asks the gateway for its models. -/
theorem addressed_fetchModels :
    (server.fetchEnv.fetchModels server.aperture.baseUrl server.aperture.apiKey).Asks
      fun q => server.Addressed providers (.models q) := by
  unfold FetchEnv.fetchModels
  cases hurl : server.fetchEnv.modelsUrl server.aperture.baseUrl with
  | error e => trivial
  | ok url =>
    refine (Dialog.asks_bind_done fun _ => ⟨_, rfl⟩).mpr (.firstOk (fun attempt _ => ?_) _)
    exact ⟨⟨hurl, rfl⟩, fun _ => trivial⟩

/-- The maps of discovery are written next to the registry. -/
theorem locked_updateState (new : Discovered) (now : UInt64) :
    server.KeepsConfined providers
      (RouterProc.locked (detectChanges ++ updateState new now ++ logProviders) :
        RouterProc τ (Option DiscoverySnapshot)) fun _ => True := by
  refine .ofProgram (fun k f hf got d hd => ?_) none
  simp only [detectChanges, updateState, logProviders, List.cons_append, List.nil_append,
    List.mem_cons, reduceCtorEq, List.not_mem_nil, Locks.Act.put.injEq, false_or, or_false] at hf
  rcases hf with ⟨-, rfl⟩ | ⟨-, rfl⟩ | ⟨-, rfl⟩ | ⟨-, rfl⟩ <;> exact hd

theorem refreshTask (orders : RefreshOrders) :
    server.KeepsConfined providers
      (server.refreshTask orders : RouterProc τ (Except String DiscoverySnapshot)) fun _ => True := by
  have hfetch : server.KeepsConfined providers
      (server.fetchTask : RouterProc τ (Except String Discovered)) fun _ => True :=
    .ofDialog addressed_fetchModels
  refine hfetch.bind fun result _ => ?_
  cases result with
  | error e => trivial
  | ok new =>
    refine (locked_updateState new orders.now).bind fun _ _ => ?_
    refine (snapshotTask orders.snapshot).bind fun snapshot _ => ?_
    have hupdate : server.KeepsConfined providers
        (server.updateTask orders snapshot : RouterProc τ Unit) fun _ => True :=
      fun _ hd => ⟨hd.update rfl, trivial⟩
    exact hupdate.bind fun _ _ => trivial

/-! ### Tasks -/

/-- A handler behind a middleware. -/
theorem behind {layer : RouterProc τ (Except Nat Unit)} {handler : RouterProc τ Outcome}
    (hlayer : server.KeepsConfined providers layer fun _ => True)
    (hhandler : server.KeepsConfined providers handler fun _ => True) :
    server.KeepsConfined providers (.behind layer handler) fun _ => True := by
  refine hlayer.bind fun r _ => ?_
  split
  · trivial
  · exact hhandler

/-- **A task** leaves the registry contained and asks only who may be asked. -/
theorem task (hn : (providers.map (·.name)).Nodup)
    (hgateway : server.proxyClient.baseUrl = server.aperture.baseUrl) (t : τ) (task : RouterTask) :
    server.KeepsConfined providers (server.task t task) fun _ => True := by
  cases task with
  | post visit env request =>
    refine behind (authTask server.middleware t visit) ?_
    exact (handlerTask hn hgateway env request).bind fun _ _ => trivial
  | getModels visit order =>
    refine behind (authTask server.middleware t visit) ?_
    exact (readShared .models).bind fun _ _ => trivial
  | refreshModels visit orders =>
    refine behind (adminAuthTask server.middleware t visit) ?_
    exact (refreshTask orders).bind fun _ _ => trivial
  | getStats visit order groups =>
    refine behind (adminAuthTask server.middleware t visit) ?_
    exact (snapshotTask order).bind fun _ _ => trivial
  | refreshTick orders => exact (refreshTask orders).bind fun _ _ => trivial
  | authTick => exact (authCleanup server.middleware.auth t).bind fun _ _ => trivial
  | limiterTick => exact (limiterCleanup server.middleware.rateLimiter t).bind fun _ _ => trivial

end KeepsConfined

/-! ## Runs -/

section

variable {τ : Type} [Fintype τ] [DecidableEq τ] {server : Server} {tasks : τ → RouterTask}
  {providers : List Provider}
  {s : State RouterLock τ (RouterData τ) RouterQuery RouterQuery.Answer Outcome}

/-- A run keeps to the configuration if it starts so. -/
theorem Server.Reaches.confined (hn : (providers.map (·.name)).Nodup)
    (hgateway : server.proxyClient.baseUrl = server.aperture.baseUrl) {shared : Shared}
    (hstart : shared.registry.Contained providers server.aperture.baseUrl)
    (h : server.Reaches shared tasks s) :
    s.data.shared.registry.Contained providers server.aperture.baseUrl ∧
      ∀ e ∈ s.asked, server.Addressed providers e.2 := by
  have hclock : ∀ d d' : RouterData τ, Clock d d' →
      d.shared.registry.Contained providers server.aperture.baseUrl →
        d'.shared.registry.Contained providers server.aperture.baseUrl := by
    rintro d _ ⟨n, rfl⟩ hd
    exact hd
  obtain ⟨hcontained, hasked, -⟩ := h.keeps hstart rfl hclock fun t =>
    KeepsConfined.task hn hgateway t (tasks t)
  exact ⟨hcontained, hasked⟩

/-- **Nobody else is asked.** In every state of the router, however its requests and refreshes are
interleaved and whatever the gateway and the providers reply: the enabled providers of the configuration are
in the registry as they were configured and the disabled ones are not, every other provider of it is at the
gateway's URL and has no key; and what has been asked went to the gateway with no key but the gateway's, or
to an enabled provider of the configuration with no key but its own. -/
theorem router_confined (hn : (providers.map (·.name)).Nodup)
    (hgateway : server.proxyClient.baseUrl = server.aperture.baseUrl) (run : List Refresh)
    {shared : Shared}
    (hshared : shared.registry =
      (server.fetchEnv.afterRefreshes server.aperture providers run).registry)
    (h : server.Reaches shared tasks s) :
    (∀ p ∈ providers, p.enabled = true → s.data.shared.registry.providers.get p.name = some p) ∧
      (∀ p ∈ providers, p.enabled = false → p.name ∉ s.data.shared.registry.providers) ∧
      (∀ name p, s.data.shared.registry.providers.get name = some p →
        p ∈ providers ∨ p.baseUrl = server.aperture.baseUrl ∧ p.apiKey = none) ∧
      ∀ e ∈ s.asked, server.Addressed providers e.2 := by
  -- The registry is new, or a run of refreshes has updated it.
  have hstart : shared.registry.Contained providers server.aperture.baseUrl := by
    rw [hshared]
    exact server.fetchEnv.contained_afterRefreshes _ hn run
  obtain ⟨hcontained, hasked⟩ := h.confined hn hgateway hstart
  refine ⟨fun p hp => hcontained.get_enabled hn hp, fun p hp => hcontained.not_mem_disabled hn hp,
    fun name p hp => ?_, hasked⟩
  exact (hcontained.get_cases hn hp).imp_left And.left

end

/-- A server that asks its gateway for the models too. -/
def gatewayServer : Server :=
  { sampleServer with aperture := { baseUrl := sampleServer.proxyClient.baseUrl } }

/-- A request for the vendor of the configuration, and a refresh. -/
def refreshedTasks (refreshes : Bool) : RouterTask :=
  if refreshes then .refreshTick ⟨1, sampleOrder, .entries, .entries⟩
  else .post Middleware.regularVisit plainEnv streamedRequest

/-- The gateway has one model, and the vendor does not answer. -/
def discovering : ∀ q : RouterQuery, q.Answer
  | .upstream _ => .error ()
  | .models _ => .ok ⟨200, none, []⟩

/-- The registry is updated after the request has read it, and before its vendor is asked. -/
def refreshedSchedule : List Bool :=
  List.replicate 15 false ++ List.replicate 31 true ++ [false]

/-- The run of the two, from the start. -/
def refreshedRun : State RouterLock Bool (RouterData Bool) RouterQuery RouterQuery.Answer Outcome :=
  ((gatewayServer.start { registry := .new [otherVendor] } refreshedTasks).runAll discovering
    refreshedSchedule).get (by decide +kernel)

theorem router_confined_refreshedRun :
    (refreshedRun.asked.length = 2 ∧
      (refreshedRun.data.shared.registry.providers.get "a").map (·.baseUrl) =
        some "https://gateway.example") ∧
      (∀ p ∈ [otherVendor], p.enabled = true →
        refreshedRun.data.shared.registry.providers.get p.name = some p) ∧
      (∀ p ∈ [otherVendor], p.enabled = false →
        p.name ∉ refreshedRun.data.shared.registry.providers) ∧
      (∀ name p, refreshedRun.data.shared.registry.providers.get name = some p →
        p ∈ [otherVendor] ∨ p.baseUrl = gatewayServer.aperture.baseUrl ∧ p.apiKey = none) ∧
      ∀ e ∈ refreshedRun.asked, gatewayServer.Addressed [otherVendor] e.2 :=
  ⟨⟨by decide +kernel, by decide +kernel⟩,
    router_confined (by decide) rfl [] rfl (State.Reach.start.runAll (Option.some_get _).symm)⟩

end ApertureRouter
