import ApertureRouter.Server.Interleaving

/-!
# A task alone

What a task does if nobody comes between is what the functions of the middleware, the handlers and
discovery do one after the other (`Server.serve`): the locks and the steps of `Server.Tasks` add nothing to
them.

* `authTask_alone`, `handlerTask_alone`, `refreshTask_alone`: the parts of a task.
* `router_serves`: a task can be served like this from any state in which the others hold no lock.
-/

namespace ApertureRouter

open Tasks

/-- The reply to the `n`-th query of a task. -/
def alone (upstreams : Nat → Reply) (models : Nat → FetchReply) : Nat → ∀ q : RouterQuery, q.Answer
  | n, .upstream _ => upstreams n
  | n, .models _ => models n

/-- The clock stands still. -/
def Visit.atOnce (visit : Visit) : Visit := { visit with delay := 0 }

/-- The refresh with these orders and replies. -/
def RefreshOrders.refresh (orders : RefreshOrders) (models : Nat → FetchReply) : Refresh where
  replies := models
  now := orders.now
  order := orders.snapshot
  groupOrder := orders.groups
  providerOrder := orders.providers

/-- A handler behind a layer. -/
def Served.answer (served : Served) (shared : Shared) (handler : Shared × Outcome) :
    Guard × Shared × Outcome :=
  match served.result with
  | .error status => (served.guard, shared, .refused status)
  | .ok () => (served.guard, handler)

/-- **The specification of a task**: what it leaves and ends with if it is served at once. -/
def Server.serve (server : Server) (upstreams : Nat → Reply) (models : Nat → FetchReply) (now : Nat)
    (guard : Guard) (shared : Shared) : RouterTask → Guard × Shared × Outcome
  | .post visit env request => (server.middleware.authMiddleware visit.atOnce now guard).answer shared
    (shared, .answered ((handle (server.appState shared) env request).run upstreams))
  | .getModels visit order => (server.middleware.authMiddleware visit.atOnce now guard).answer shared
    (shared, .models (ApertureRouter.getModels order shared))
  | .refreshModels visit orders =>
    let (result, refreshed) :=
      server.fetchEnv.refresh server.aperture (orders.refresh models) shared
    (server.middleware.adminAuthMiddleware visit.atOnce now guard).answer shared
      (refreshed, .refreshed (refreshAnswer result).1 (refreshAnswer result).2)
  | .getStats visit order groups =>
    (server.middleware.adminAuthMiddleware visit.atOnce now guard).answer shared
      (shared, .stats (ApertureRouter.getStats server.aperture groups (snapshotOf order shared)))
  | .refreshTick orders =>
    (guard, (server.fetchEnv.refresh server.aperture (orders.refresh models) shared).2, .ticked)
  | .authTick =>
    ({ guard with store := guard.store.cleanup server.middleware.auth.limits now }, shared, .ticked)
  | .limiterTick =>
    ({ guard with requests := guard.requests.cleanup server.middleware.rateLimiter.window now }, shared,
      .ticked)

section

variable {τ : Type} {server : Server} {t : τ} {replies : Nat → ∀ q : RouterQuery, q.Answer}
  {d : RouterData τ}

/-- Every query has a price. -/
theorem price_pos (q : RouterQuery) : 0 < price 1 1 q := by
  cases q <;> exact Nat.zero_lt_one

/-! ## The middleware -/

/-- What a layer leaves and says, besides the log. -/
structure Served.LeftBy (served : Served) (d : RouterData τ) (run : RouterData τ × Except Nat Unit) :
    Prop where
  now : run.1.now = d.now
  guard : run.1.guard = served.guard
  shared : run.1.shared = d.shared
  result : run.2 = served.result

theorem recordFailureTask_alone (auth : AuthState) (order : TrackedOrder) (ip : IpAddr) :
    (auth.recordFailureTask t order ip).runAlone replies d =
      ({ d with
        guard := { d.guard with
          store := (d.guard.store.recordFailure auth.limits order ip d.now 0).2 }
        log := ⟨t, d.now, .auth (.recordFailure ip order 0)⟩ :: d.log },
        (d.guard.store.recordFailure auth.limits order ip d.now 0).1) := by
  unfold AuthState.recordFailureTask
  simp only [Proc.runAlone]
  by_cases hbans : BanStore.ReachesLimit auth.limits ip d.now d.guard.store
  · simp only [if_pos hbans, Proc.runAlone, Nat.sub_self]
    rw [← Server.recordFailure_of_reachesLimit hbans (Nat.le_refl d.now), Nat.sub_self]
  · simp only [if_neg hbans, Proc.runAlone]
    rw [← Server.recordFailure_of_not_reachesLimit hbans]

theorem authenticateTask_alone (valid : String → Bool) (visit : Visit) (ip : IpAddr) :
    (server.middleware.authenticate valid visit.atOnce ip d.now d.guard).LeftBy d
      ((server.middleware.authenticateTask t valid visit ip).runAlone replies d) := by
  unfold Middleware.authenticate
  by_cases hbanned : d.guard.store.isBanned ip d.now = true
  · rw [if_pos hbanned]
    show Served.LeftBy _ d (Proc.runAlone replies _ (ite _ _ _))
    rw [if_pos hbanned]
    exact ⟨rfl, rfl, rfl, rfl⟩
  · rw [if_neg hbanned]
    show Served.LeftBy _ d (Proc.runAlone replies _ (ite _ _ _))
    rw [if_neg hbanned]
    have hatOnce : visit.atOnce.request = visit.request := rfl
    dsimp only
    rw [hatOnce]
    cases hkey : visit.request.apiKey.any valid with
    | true => exact ⟨rfl, rfl, rfl, rfl⟩
    | false =>
      rw [if_neg Bool.false_ne_true, if_neg Bool.false_ne_true]
      rw [Proc.runAlone_map, recordFailureTask_alone]
      exact ⟨rfl, rfl, rfl, rfl⟩

/-- What follows the limiter goes on with its table. -/
theorem checkTask_alone {α : Type} {limiter : RateLimiter} {order : TrackedOrder} {ip : IpAddr}
    {r : Except Nat Unit} {requests : Tracked}
    (h : limiter.checkRateLimit order ip d.now d.guard.requests = (r, requests))
    (f : Except Nat Unit → RouterProc τ α) :
    (limiter.checkTask t order ip >>= f).runAlone replies d =
      (f r).runAlone replies { d with
        guard := { d.guard with requests := requests }
        log := ⟨t, d.now, .limiter (.check ip order)⟩ :: d.log } := by
  show (f (limiter.checkRateLimit order ip d.now d.guard.requests).1).runAlone replies { d with
    guard := { d.guard with requests := (limiter.checkRateLimit order ip d.now d.guard.requests).2 }
    log := _ } = _
  rw [h]

/-- A layer from the limiter on. -/
theorem throttled_alone {visit : Visit} {ip : IpAddr} {served : Guard → Served}
    {f : Except Nat Unit → RouterProc τ (Except Nat Unit)}
    (herror : ∀ status, f (.error status) = .done (.error status))
    (hok : ∀ d' : RouterData τ, d'.now = d.now →
      (served d'.guard).LeftBy d' ((f (.ok ())).runAlone replies d')) :
    (server.middleware.throttled visit.atOnce ip d.now d.guard served).LeftBy d
      ((server.middleware.rateLimiter.checkTask t visit.checkOrder ip >>= f).runAlone replies d) := by
  have horder : visit.atOnce.checkOrder = visit.checkOrder := rfl
  unfold Middleware.throttled
  rw [horder]
  cases hcheck : server.middleware.rateLimiter.checkRateLimit visit.checkOrder ip d.now
    d.guard.requests with
  | mk r requests =>
    rw [checkTask_alone hcheck]
    cases r with
    | error status =>
      rw [herror]
      exact ⟨rfl, rfl, rfl, rfl⟩
    | ok u =>
      obtain ⟨hnow, hguard, hshared, hresult⟩ := hok { d with
        guard := { d.guard with requests := requests }
        log := ⟨t, d.now, .limiter (.check ip visit.checkOrder)⟩ :: d.log } rfl
      exact ⟨hnow, hguard, hshared, hresult⟩

theorem authTask_alone (visit : Visit) :
    (server.middleware.authMiddleware visit.atOnce d.now d.guard).LeftBy d
      ((server.middleware.authTask t visit).runAlone replies d) := by
  have hatOnce : visit.atOnce.request = visit.request := rfl
  have hsize : server.middleware.oversized visit.atOnce = server.middleware.oversized visit := rfl
  unfold Middleware.authMiddleware Middleware.authTask
  rw [hatOnce]
  cases hclient : extractClientIp visit.request server.middleware.auth.trustedProxies with
  | error status => exact ⟨rfl, rfl, rfl, rfl⟩
  | ok ip =>
    dsimp only
    rw [hsize]
    split
    · exact ⟨rfl, rfl, rfl, rfl⟩
    · refine throttled_alone (fun _ => rfl) fun d' hnow => ?_
      dsimp only
      split
      · rw [← hnow]
        exact authenticateTask_alone server.middleware.auth.validateApiKey visit ip
      · exact ⟨rfl, rfl, rfl, rfl⟩

theorem adminAuthTask_alone (visit : Visit) :
    (server.middleware.adminAuthMiddleware visit.atOnce d.now d.guard).LeftBy d
      ((server.middleware.adminAuthTask t visit).runAlone replies d) := by
  have hatOnce : visit.atOnce.request = visit.request := rfl
  unfold Middleware.adminAuthMiddleware Middleware.adminAuthTask
  rw [hatOnce]
  split
  · cases hclient : extractClientIp visit.request server.middleware.auth.trustedProxies with
    | error status => exact ⟨rfl, rfl, rfl, rfl⟩
    | ok ip =>
      refine throttled_alone (fun _ => rfl) fun d' hnow => ?_
      rw [← hnow]
      exact authenticateTask_alone server.middleware.auth.validateAdminKey visit ip
  · exact ⟨rfl, rfl, rfl, rfl⟩

/-! ## The handlers -/

/-- The state as it is shared now. -/
theorem providersTask_alone {α : Type} (env : Env) (model : String)
    (f : List Provider → RouterProc τ α) :
    (server.providersTask env model >>= f).runAlone replies d =
      (f ((server.appState d.shared).providersFor env model)).runAlone replies d := rfl

theorem checkKnownTask_alone {α : Type} (env : Env) (model : String) (response : RouterResponse)
    (f : Option RouterResponse → RouterProc τ α) :
    (server.checkKnownTask env model response >>= f).runAlone replies d =
      (f (refuseIf (server.config.multiProviderEnabled &&
        !modelKnown (server.appState d.shared) env model) response)).runAlone replies d := by
  unfold Server.checkKnownTask
  cases hmulti : server.config.multiProviderEnabled with
  | true => rfl
  | false => rfl

theorem wrongEndpointTask_alone {α : Type} (env : Env) (model : String) (providers : List Provider)
    (f : Bool → RouterProc τ α) :
    (server.wrongEndpointTask env model providers >>= f).runAlone replies d =
      (f (providers.isEmpty && server.config.multiProviderEnabled &&
        ((server.appState d.shared).providersFor env model).any
          (·.endpointStyle = .anthropic))).runAlone replies d := by
  unfold Server.wrongEndpointTask
  cases hasks : providers.isEmpty && server.config.multiProviderEnabled with
  | true => rfl
  | false => rfl

variable {upstreams : Nat → Reply} {models : Nat → FetchReply}

theorem calls_alone {α : Type} (dialog : Calls α) :
    (RouterProc.calls dialog : RouterProc τ α).runAlone (alone upstreams models) d =
      (d, dialog.run upstreams) :=
  Proc.runAlone_ofDialog (fun _ _ => rfl) dialog

theorem calls_done_alone {α β : Type} (dialog : Calls α) (f : α → β) :
    (RouterProc.calls dialog >>= fun a => .done (f a) : RouterProc τ β).runAlone
      (alone upstreams models) d = (d, (dialog >>= fun a => pure (f a)).run upstreams) := by
  have hbind : (RouterProc.calls dialog >>= fun a => .done (f a) : RouterProc τ β) =
      RouterProc.calls (dialog >>= fun a => pure (f a)) :=
    Proc.ofDialog_bind dialog fun a => pure (f a)
  rw [hbind, calls_alone]

/-- The checks that ask nobody come first. -/
theorem checkChat_eq (state : AppState) (env : Env) (request : Openai.ChatCompletionRequest) :
    checkChat state env request = (checkChatFormat state.config request <|>
      refuseIf (state.config.multiProviderEnabled && !modelKnown state env request.model)
        (invalidRequest "model_not_found" s!"Model '{request.model}' not found")) := by
  unfold checkChat checkChatFormat
  simp only [Option.orElse_eq_orElse, Option.orElse_eq_or, Option.or_assoc]

theorem checkAnthropic_eq (state : AppState) (env : Env) (request : Anthropic.MessageRequest) :
    checkAnthropic state env request = (checkAnthropicFormat state.config env request <|>
      refuseIf (state.config.multiProviderEnabled && !modelKnown state env request.model)
        (anthropicError badRequest "invalid_request_error" s!"Model '{request.model}' not found")) := by
  unfold checkAnthropic checkAnthropicFormat
  simp only [Option.orElse_eq_orElse, Option.orElse_eq_or, Option.or_assoc]

theorem chatTask_alone (env : Env) (request : Openai.ChatCompletionRequest) :
    (server.chatTask env request : RouterProc τ RouterResponse).runAlone (alone upstreams models) d =
      (d, (chatCompletions (server.appState d.shared) env request).run upstreams) := by
  have hconfig : (server.appState d.shared).config = server.config := rfl
  have hclient : (server.appState d.shared).proxyClient = server.proxyClient := rfl
  unfold Server.chatTask chatCompletions
  simp only [checkChat_eq, hconfig]
  cases hformat : checkChatFormat server.config
    { request with model := server.config.resolveModelAlias request.model } with
  | some refusal => rfl
  | none =>
    rw [checkKnownTask_alone]
    dsimp only [Option.orElse_eq_orElse, Option.orElse]
    generalize refuseIf _ _ = known
    cases known with
    | some refusal => rfl
    | none =>
      dsimp only
      rw [providersTask_alone, wrongEndpointTask_alone]
      unfold checkChatProviders refuseIf
      simp only [hconfig, hclient]
      split
      · rfl
      · exact calls_alone _

theorem messagesTask_alone (env : Env) (request : Anthropic.MessageRequest) :
    (server.messagesTask env request : RouterProc τ RouterResponse).runAlone (alone upstreams models) d =
      (d, (anthropicMessages (server.appState d.shared) env request).run upstreams) := by
  have hconfig : (server.appState d.shared).config = server.config := rfl
  have hclient : (server.appState d.shared).proxyClient = server.proxyClient := rfl
  unfold Server.messagesTask anthropicMessages
  simp only [checkAnthropic_eq, hconfig]
  cases hformat : checkAnthropicFormat server.config env
    { request with model := server.config.resolveModelAlias request.model } with
  | some refusal => rfl
  | none =>
    rw [checkKnownTask_alone]
    dsimp only [Option.orElse_eq_orElse, Option.orElse]
    generalize refuseIf _ _ = known
    cases known with
    | some refusal => rfl
    | none =>
      dsimp only
      rw [providersTask_alone]
      unfold routeAnthropic AppState.anthropicProviders
      simp only [hconfig, hclient]
      split
      · split
        · exact calls_done_alone (handleAnthropicDirectStreaming server.closedState _ _) streamResponse
        · exact calls_alone _
      · rw [providersTask_alone]
        split
        · exact calls_done_alone (handleStreamingConversion server.closedState env _ _) streamResponse
        · exact calls_alone (handleNonStreamingConversion server.closedState env _ _)

/-- **A handler** reads what is shared and leaves it. -/
theorem handlerTask_alone (env : Env) (request : RouterRequest) :
    (server.handlerTask env request : RouterProc τ RouterResponse).runAlone (alone upstreams models) d =
      (d, (handle (server.appState d.shared) env request).run upstreams) := by
  cases request with
  | chat request => exact chatTask_alone env request
  | messages request => exact messagesTask_alone env request
  | proxy request => exact calls_alone (handleProxyStream server.closedState env request)

/-! ## Discovery -/

theorem refreshTask_alone (orders : RefreshOrders) :
    (server.refreshTask orders : RouterProc τ (Except String DiscoverySnapshot)).runAlone
        (alone upstreams models) d =
      ({ d with
        shared := (server.fetchEnv.refresh server.aperture (orders.refresh models) d.shared).2 },
        (server.fetchEnv.refresh server.aperture (orders.refresh models) d.shared).1) := by
  unfold Server.refreshTask FetchEnv.refresh
  have hfetch : (server.fetchTask : RouterProc τ _).runAlone (alone upstreams models) d =
      (d, server.fetchEnv.fetched server.aperture (orders.refresh models)) :=
    Proc.runAlone_ofDialog (fun _ _ => rfl) _
  refine Exists.elim (Proc.runAlone_bind (alone upstreams models) d server.fetchTask _)
    fun rest hrest => hrest.trans ?_
  rw [hfetch]
  dsimp only
  cases server.fetchEnv.fetched server.aperture (orders.refresh models) with
  | error e => rfl
  | ok new => rfl

/-! ## Tasks -/

/-- The run leaves the clock and does what the specification says. -/
def Serves.Alone (d : RouterData τ) (spec : Guard × Shared × Outcome)
    (run : RouterData τ × Outcome) : Prop :=
  run.1.now = d.now ∧ (run.1.guard, run.1.shared, run.2) = spec

/-- A handler behind a layer. -/
theorem behind_alone {served : Served} {layer : RouterProc τ (Except Nat Unit)}
    {handler : RouterProc τ Outcome} {answer : Shared × Outcome} {n : Nat}
    (hlayer : served.LeftBy d (layer.runAlone (alone upstreams models) d))
    (hsilent : layer.Costs 0 (price 1 1) n) (hn : n = 0)
    (hhandler : ∀ d' : RouterData τ, d'.shared = d.shared →
      Serves.Alone d' (d'.guard, answer) (handler.runAlone (alone upstreams models) d')) :
    Serves.Alone d (served.answer d.shared answer)
      ((RouterProc.behind layer handler).runAlone (alone upstreams models) d) := by
  unfold RouterProc.behind
  rw [hsilent.runAlone_bind hn price_pos]
  generalize layer.runAlone (alone upstreams models) d = left at hlayer
  obtain ⟨d', r⟩ := left
  obtain ⟨hnow, hguard, hshared, rfl⟩ := hlayer
  dsimp only at hnow hguard hshared ⊢
  unfold Served.answer
  cases served.result with
  | error status => exact ⟨hnow, by rw [← hguard, ← hshared]; rfl⟩
  | ok u =>
    obtain ⟨hnow', hspec⟩ := hhandler d' hshared
    exact ⟨hnow'.trans hnow, by rw [← hguard]; exact hspec⟩

variable (server t) in
theorem task_alone (task : RouterTask) :
    Serves.Alone d (server.serve upstreams models d.now d.guard d.shared task)
      ((server.task t task).runAlone (alone upstreams models) d) := by
  cases task with
  | post visit env request =>
    refine behind_alone (authTask_alone visit) (Costs.authTask server.middleware t visit)
      (Nat.mul_zero _) fun d' hshared => ?_
    rw [← hshared, Proc.runAlone_map, handlerTask_alone]
    exact ⟨rfl, rfl⟩
  | getModels visit order =>
    refine behind_alone (authTask_alone visit) (Costs.authTask server.middleware t visit)
      (Nat.mul_zero _) fun d' hshared => ?_
    rw [← hshared]
    exact ⟨rfl, rfl⟩
  | refreshModels visit orders =>
    refine behind_alone (adminAuthTask_alone visit) (Costs.adminAuthTask server.middleware t visit)
      (Nat.mul_zero _) fun d' hshared => ?_
    rw [← hshared, Proc.runAlone_map, refreshTask_alone]
    exact ⟨rfl, rfl⟩
  | getStats visit order groups =>
    refine behind_alone (adminAuthTask_alone visit) (Costs.adminAuthTask server.middleware t visit)
      (Nat.mul_zero _) fun d' hshared => ?_
    rw [← hshared]
    exact ⟨rfl, rfl⟩
  | refreshTick orders =>
    have hrun : (server.task t (.refreshTick orders)).runAlone (alone upstreams models) d = _ :=
      Proc.runAlone_map _ d (server.refreshTask orders) fun _ => Outcome.ticked
    rw [hrun, refreshTask_alone]
    exact ⟨rfl, rfl⟩
  | authTick => exact ⟨rfl, rfl⟩
  | limiterTick => exact ⟨rfl, rfl⟩

/-- **A task that nobody comes between** is served as the specification says: from any state of the router
in which the others hold no lock, it can run to its end, and the others are where they were. -/
theorem router_serves [Fintype τ] [DecidableEq τ] {shared : Shared} {tasks : τ → RouterTask}
    {s : State RouterLock τ (RouterData τ) RouterQuery RouterQuery.Answer Outcome}
    (h : server.Reaches shared tasks s) (hfresh : s.steps t = 0)
    (hothers : ∀ u, u ≠ t → Laws.Free (s.mode u)) (upstreams : Nat → Reply)
    (models : Nat → FetchReply) :
    ∃ s' outcome, State.Reach Clock s s' ∧ s'.todo t = .done outcome ∧
      (s'.data.guard, s'.data.shared, outcome) =
        server.serve upstreams models s.data.now s.data.guard s.data.shared (tasks t) ∧
      ∀ u, u ≠ t → s'.todo u = s.todo u ∧ s'.mode u = s.mode u := by
  obtain ⟨htodo, -, -⟩ := Server.valid_start.rely_of_steps Server.guarantee_clock h hfresh
  have hends : Laws.EndsAlone Clock t s _ := h.valid.endsAlone hothers (alone upstreams models)
  obtain ⟨s', hreach, hdata, hdone, hsame⟩ := hends
  have hspec : Serves.Alone s.data
      (server.serve upstreams models s.data.now s.data.guard s.data.shared (tasks t))
      ((server.task t (tasks t)).runAlone (alone upstreams models) s.data) := task_alone server t (tasks t)
  rw [htodo] at hdata hdone
  refine ⟨s', _, hreach, hdone, ?_, hsame⟩
  rw [hdata]
  exact hspec.2

/-- The request with a wrong key is refused before the other one begins. -/
def refusedRun : State RouterLock Bool (RouterData Bool) RouterQuery RouterQuery.Answer Outcome :=
  sampleRun (List.replicate 9 false) (by decide +kernel)

theorem router_serves_refusedRun :
    ∃ s' outcome, State.Reach Clock refusedRun s' ∧ s'.todo true = .done outcome ∧
      (s'.data.guard, s'.data.shared, outcome) =
        sampleServer.serve (fun _ => .error ()) (fun _ => .error "connection refused")
          refusedRun.data.now refusedRun.data.guard refusedRun.data.shared (sampleTasks true) ∧
      ∀ u, u ≠ true → s'.todo u = refusedRun.todo u ∧ s'.mode u = refusedRun.mode u := by
  have hreaches : sampleServer.Reaches sampleShared sampleTasks refusedRun := reaches_sampleRun _ _
  have hdone : (refusedRun.todo false).isDone = true := by decide +kernel
  refine router_serves hreaches (by decide +kernel) (fun u hu => ?_) _ _
  rw [Bool.eq_false_iff.mpr hu]
  exact hreaches.valid.free_of_isDone hdone

end

end ApertureRouter
