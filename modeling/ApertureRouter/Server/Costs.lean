import ApertureRouter.Server.Tasks

/-!
# What a task can cost

Bounds for the tasks of the router, whatever they meet: a step for each lock that is taken or released and
each action on the data, and a price for each query to an upstream and for the models.

* `Costs.checkTask`, `Costs.recordFailureTask`, `Costs.handlerTask`, …: the parts of a task.
* `Costs.task`: a task takes 42 steps at most besides its queries, and asks the upstreams
  `MAX_FAILOVER_ATTEMPTS` times and for the models `MAX_RETRIES` times.
-/

namespace ApertureRouter

open Tasks

section

variable {τ : Type}

/-- What a query costs. -/
def price (upstream models : Nat) : RouterQuery → Nat
  | .upstream _ => upstream
  | .models _ => models

namespace Costs

open Tasks.Proc (Costs)

variable {step u v : Nat}

theorem checkTask (limiter : RateLimiter) (t : τ) (order : TrackedOrder) (ip : IpAddr) :
    Costs step (price u v) (3 * step) (limiter.checkTask t order ip) := by
  have h : Costs step (price u v) (0 + step + step + step) (limiter.checkTask t order ip) :=
    .write _ (.act _ fun _ => .release _ (.done _ _))
  exact h.mono (by omega)

theorem limiterCleanup (limiter : RateLimiter) (t : τ) :
    Costs step (price u v) (3 * step) (limiter.cleanupTask t) := by
  have h : Costs step (price u v) (0 + step + step + step) (limiter.cleanupTask t) :=
    .write _ (.act _ fun _ => .release _ (.done _ _))
  exact h.mono (by omega)

theorem isBannedTask (t : τ) (ip : IpAddr) :
    Costs step (price u v) (3 * step) (BanStore.isBannedTask t ip) := by
  have h : Costs step (price u v) (0 + step + step + step) (BanStore.isBannedTask t ip) :=
    .read _ (.act _ fun _ => .release _ (.done _ _))
  exact h.mono (by omega)

theorem recordSuccessTask (t : τ) (ip : IpAddr) :
    Costs step (price u v) (6 * step) (BanStore.recordSuccessTask t ip) := by
  have h : Costs step (price u v) (0 + step + step + step + step + step + step)
      (BanStore.recordSuccessTask t ip) :=
    .write _ (.act _ fun _ => .write _ (.act _ fun _ => .release _ (.release _ (.done _ _))))
  exact h.mono (by omega)

theorem authCleanup (auth : AuthState) (t : τ) :
    Costs step (price u v) (6 * step) (auth.cleanupTask t) := by
  have h : Costs step (price u v) (0 + step + step + step + step + step + step)
      (auth.cleanupTask t) :=
    .write _ (.act _ fun _ => .write _ (.act _ fun _ => .release _ (.release _ (.done _ _))))
  exact h.mono (by omega)

theorem recordFailureTask (auth : AuthState) (t : τ) (order : TrackedOrder) (ip : IpAddr) :
    Costs step (price u v) (6 * step) (auth.recordFailureTask t order ip) := by
  have h : Costs step (price u v) (0 + step + step + step + step + step + step)
      (auth.recordFailureTask t order ip) := by
    refine .write _ (.act _ fun start => ?_)
    split
    · exact .write _ (.act _ fun _ => .release _ (.release _ (.done _ _)))
    · have hrelease : ∀ a : Except Nat Unit, Costs step (price u v) (0 + step)
          (.release .failedAttempts (.done a) : RouterProc τ (Except Nat Unit)) :=
        fun a => .release _ (.done _ a)
      exact (hrelease _).mono (by omega)
  exact h.mono (by omega)

theorem authenticateTask (m : Middleware) (t : τ) (valid : String → Bool) (visit : Visit)
    (ip : IpAddr) : Costs step (price u v) (9 * step) (m.authenticateTask t valid visit ip) := by
  refine (isBannedTask t ip).bind_le (n := 6 * step) (fun banned => ?_) (by omega)
  split
  · exact .done _ _
  · split
    · exact (recordSuccessTask t ip).bind_le (n := 0) (fun _ => .done _ _) (by omega)
    · exact (recordFailureTask m.auth t _ ip).bind_le (n := 0) (fun _ => .done _ _) (by omega)

theorem authTask (m : Middleware) (t : τ) (visit : Visit) :
    Costs step (price u v) (12 * step) (m.authTask t visit) := by
  unfold Middleware.authTask
  split
  · exact .done _ _
  · split
    · exact .done _ _
    · refine (checkTask m.rateLimiter t _ _).bind_le (n := 9 * step) (fun r => ?_) (by omega)
      split
      · exact .done _ _
      · split
        · exact authenticateTask m t _ visit _
        · exact .done _ _

theorem adminAuthTask (m : Middleware) (t : τ) (visit : Visit) :
    Costs step (price u v) (12 * step) (m.adminAuthTask t visit) := by
  unfold Middleware.adminAuthTask
  split
  · split
    · exact .done _ _
    · refine (checkTask m.rateLimiter t _ _).bind_le (n := 9 * step) (fun r => ?_) (by omega)
      split
      · exact .done _ _
      · exact authenticateTask m t _ visit _
  · exact .done _ _

theorem readShared (cell : Cell) :
    Costs step (price u v) (3 * step) (RouterProc.readShared cell : RouterProc τ Shared) := by
  have h : Costs step (price u v) (0 + step + step + step)
      (RouterProc.readShared cell : RouterProc τ Shared) :=
    .read _ (.act _ fun _ => .release _ (.done _ _))
  exact h.mono (by omega)

theorem snapshotTask (order : SnapshotOrder) :
    Costs step (price u v) (9 * step) (RouterProc.snapshotTask order : RouterProc τ DiscoverySnapshot) := by
  have h : Costs step (price u v) (0 + step + step + step + step + step + step + step + step + step)
      (RouterProc.snapshotTask order : RouterProc τ DiscoverySnapshot) :=
    .read _ (.read _ (.read _ (.read _ (.act _ fun _ =>
      .release _ (.release _ (.release _ (.release _ (.done _ _))))))))
  exact h.mono (by omega)

theorem calls {α : Type} {n : Nat} {dialog : Calls α} (h : dialog.AtMost n) :
    Costs step (price u v) (n * u) (RouterProc.calls dialog : RouterProc τ α) := by
  have hprice : ∀ request, price u v (.upstream request) = u := fun _ => rfl
  exact .ofDialog hprice h

section

variable (server : Server) (env : Env)

theorem providersTask (model : String) : Costs step (price u v) (3 * step)
    (server.providersTask env model : RouterProc τ (List Provider)) :=
  (readShared .registry).bind_le (n := 0) (fun _ => .done _ _) (by omega)

theorem checkKnownTask (model : String) (response : RouterResponse) : Costs step (price u v) (6 * step)
    (server.checkKnownTask env model response : RouterProc τ (Option RouterResponse)) := by
  unfold Server.checkKnownTask
  split
  · refine (providersTask server env model).bind_le (n := 3 * step) (fun providers => ?_) (by omega)
    exact (readShared .models).bind_le (n := 0) (fun _ => .done _ _) (by omega)
  · exact .done _ _

theorem wrongEndpointTask (model : String) (providers : List Provider) :
    Costs step (price u v) (3 * step)
      (server.wrongEndpointTask env model providers : RouterProc τ Bool) := by
  unfold Server.wrongEndpointTask
  split
  · exact (providersTask server env model).bind_le (n := 0) (fun _ => .done _ _) (by omega)
  · exact .done _ _

theorem chatTask (request : Openai.ChatCompletionRequest) :
    Costs step (price u v) (12 * step + maxFailoverAttempts * u)
      (server.chatTask env request : RouterProc τ RouterResponse) := by
  unfold Server.chatTask
  dsimp only
  split
  · exact .done _ _
  · refine (checkKnownTask server env _ _).bind_le (n := 6 * step + maxFailoverAttempts * u)
      (fun known => ?_) (by omega)
    split
    · exact .done _ _
    · refine (providersTask server env _).bind_le (n := 3 * step + maxFailoverAttempts * u)
        (fun all => ?_) (by omega)
      refine (wrongEndpointTask server env _ _).bind_le (n := maxFailoverAttempts * u)
        (fun wrongEndpoint => ?_) (by omega)
      split
      · exact .done _ _
      · exact calls (proxyHandlerMulti_atMost _ _ _ _)

theorem messagesTask (request : Anthropic.MessageRequest) :
    Costs step (price u v) (12 * step + maxFailoverAttempts * u)
      (server.messagesTask env request : RouterProc τ RouterResponse) := by
  unfold Server.messagesTask
  dsimp only
  split
  · exact .done _ _
  · refine (checkKnownTask server env _ _).bind_le (n := 6 * step + maxFailoverAttempts * u)
      (fun known => ?_) (by omega)
    split
    · exact .done _ _
    · refine (providersTask server env _).bind_le (n := 3 * step + maxFailoverAttempts * u)
        (fun all => ?_) (by omega)
      split
      · split
        · exact (calls (handleAnthropicDirectStreaming_atMost _ _)).bind_le (n := 0)
            (fun _ => .done _ _) (by omega)
        · exact (calls (proxyHandlerMulti_atMost _ _ _ _)).mono (by omega)
      · refine (providersTask server env _).bind_le (n := maxFailoverAttempts * u)
          (fun openaiProviders => ?_) (by omega)
        split
        · exact (calls (handleStreamingConversion_atMost _ _)).bind_le (n := 0)
            (fun _ => .done _ _) (by omega)
        · exact calls (handleNonStreamingConversion_atMost _ _)

theorem handlerTask (request : RouterRequest) :
    Costs step (price u v) (12 * step + maxFailoverAttempts * u)
      (server.handlerTask env request : RouterProc τ RouterResponse) := by
  cases request with
  | chat request => exact chatTask server env request
  | messages request => exact messagesTask server env request
  | proxy request =>
    refine (calls (handleProxyStream_atMost request)).mono ?_
    exact Nat.le_add_left_of_le (Nat.mul_le_mul_right u (by decide))

theorem refreshTask (orders : RefreshOrders) :
    Costs step (price u v) (30 * step + FetchEnv.maxRetries * v)
      (server.refreshTask orders : RouterProc τ (Except String DiscoverySnapshot)) := by
  have hfetch : Costs step (price u v) (FetchEnv.maxRetries * v)
      (server.fetchTask : RouterProc τ (Except String Discovered)) := by
    have hprice : ∀ request, price u v (.models request) = v := fun _ => rfl
    exact .ofDialog hprice (server.fetchEnv.fetchModels_atMost _ _)
  refine hfetch.bind_le (n := 30 * step) (fun result => ?_) (by omega)
  cases result with
  | error e => exact .done _ _
  | ok new =>
    have hlength : (detectChanges ++ updateState new orders.now ++ logProviders).length = 18 := rfl
    have hwrite : Costs step (price u v) (18 * step)
        (RouterProc.locked (detectChanges ++ updateState new orders.now ++ logProviders) :
          RouterProc τ (Option DiscoverySnapshot)) := by
      rw [← hlength]
      exact .ofProgram _ none
    have hupdate : ∀ snapshot, Costs step (price u v) (0 + step + step + step)
        (server.updateTask orders snapshot : RouterProc τ Unit) :=
      fun snapshot => .write _ (.act _ fun _ => .release _ (.done _ _))
    refine hwrite.bind_le (n := 12 * step) (fun _ => ?_) (by omega)
    refine (snapshotTask orders.snapshot).bind_le (n := 3 * step) (fun snapshot => ?_) (by omega)
    exact (hupdate snapshot).bind_le (n := 0) (fun _ => .done _ _) (by omega)

/-- A handler behind a middleware. -/
theorem behind {layer : RouterProc τ (Except Nat Unit)} {handler : RouterProc τ Outcome} {n : Nat}
    (hlayer : Costs step (price u v) (12 * step) layer)
    (hhandler : Costs step (price u v) n handler) :
    Costs step (price u v) (12 * step + n) (.behind layer handler : RouterProc τ Outcome) := by
  refine hlayer.bind_le (n := n) (fun r => ?_) (Nat.le_refl _)
  split
  · exact .done _ _
  · exact hhandler

/-- **A task** asks the upstreams or for the models, each three times at most. -/
theorem task (t : τ) (task : RouterTask) :
    Costs step (price u v) (42 * step + maxFailoverAttempts * u + FetchEnv.maxRetries * v)
      (server.task t task) := by
  cases task with
  | post visit env request =>
    refine (behind (authTask server.middleware t visit) (n := 12 * step + maxFailoverAttempts * u)
      ?_).mono (by omega)
    exact (handlerTask server env request).bind_le (n := 0) (fun _ => .done _ _) (by omega)
  | getModels visit order =>
    refine (behind (authTask server.middleware t visit) (n := 3 * step) ?_).mono (by omega)
    exact (readShared .models).bind_le (n := 0) (fun _ => .done _ _) (by omega)
  | refreshModels visit orders =>
    refine (behind (adminAuthTask server.middleware t visit)
      (n := 30 * step + FetchEnv.maxRetries * v) ?_).mono (by omega)
    exact (refreshTask server orders).bind_le (n := 0) (fun _ => .done _ _) (by omega)
  | getStats visit order groups =>
    refine (behind (adminAuthTask server.middleware t visit) (n := 9 * step) ?_).mono (by omega)
    exact (snapshotTask order).bind_le (n := 0) (fun _ => .done _ _) (by omega)
  | refreshTick orders =>
    exact (refreshTask server orders).bind_le (n := 0) (fun _ => .done _ _) (by omega)
  | authTick =>
    exact (authCleanup server.middleware.auth t).bind_le (n := 0) (fun _ => .done _ _) (by omega)
  | limiterTick =>
    exact (limiterCleanup server.middleware.rateLimiter t).bind_le (n := 0) (fun _ => .done _ _)
      (by omega)

end

end Costs

end

end ApertureRouter
