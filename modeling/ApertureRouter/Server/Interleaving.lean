import ApertureRouter.Middleware.Guesses
import ApertureRouter.Routes.Isolation
import ApertureRouter.Server.Costs
import ApertureRouter.Server.Laws
import ApertureRouter.Server.Rate

/-!
# The router with its tasks

Any number of requests and ticks run at the same time (`Server.start`), step by step and in any order, and
the clock goes on meanwhile (`Clock`).

* `router_progress`: as long as a task has something to do, one can go on that need not wait, whether the
  upstreams answer or not. A task takes no more than `maxSteps` steps.
* `router_linearizable`: a table that nobody writes is what the log makes of it, and a task that is done
  has been judged by the log. What a task does is in the log after what was done before it began, and
  before what begins after it is done.
* `queries_admitted`: who asks an upstream was let through, and asks three times at most.
* `upstream_rate`: so the limit of an address bounds what the upstreams are asked for it.
-/

namespace ApertureRouter

open Locks (Mode)
open Tasks Tasks.Laws

instance : Fintype Cell where
  elems := {.models, .modelsByProvider, .providers, .lastRefresh, .registry}
  complete cell := by cases cell <;> decide

/-- The locks of a snapshot are taken in order. -/
theorem ascending_getSnapshot (order : SnapshotOrder) :
    Locks.State.Always (Ascending fun cell => 3 + cell.rank) (fun _ => Mode.free) (getSnapshot order) :=
  @of_decide_eq_true _ (decidableAlways _ _) rfl

/-- So are those of a refresh before it. -/
theorem ascending_updateState (new : Discovered) (now : UInt64) :
    Locks.State.Always (Ascending fun cell => 3 + cell.rank) (fun _ => Mode.free)
      (detectChanges ++ updateState new now ++ logProviders) :=
  @of_decide_eq_true _ (decidableAlways _ _) rfl

section

variable {τ : Type} {server : Server} {tasks : τ → RouterTask} {t : τ}

/-! ## Handlers -/

/-- A program of the task that takes no lock into its end, and leaves what holds of the log. -/
def Serves (server : Server) (tasks : τ → RouterTask) (t : τ) (I : List (Entry τ) → Prop) {α : Type}
    (p : RouterProc τ α) : Prop :=
  ∀ mode d, Free mode → I d.log →
    (server.laws tasks).Meets t mode d p fun mode' d' _ => Free mode' ∧ I d'.log

namespace Serves

variable {I : List (Entry τ) → Prop} {α β : Type} {mode : RouterLock → Mode} {d : RouterData τ}

theorem done (a : α) : Serves server tasks t I (.done a) := fun _ _ hfree hlog => ⟨hfree, hlog⟩

theorem bind {p : RouterProc τ α} {f : α → RouterProc τ β} (h : Serves server tasks t I p)
    (hf : ∀ a, Serves server tasks t I (f a)) : Serves server tasks t I (p >>= f) := by
  intro mode d hfree hlog
  exact (h mode d hfree hlog).bind fun mode' d' a hpost => hf a mode' d' hpost.1 hpost.2

variable (hmono : ∀ log log', log <:+ log' → I log → I log')

include hmono in
theorem readShared (cell : Cell) : Serves server tasks t I (RouterProc.readShared cell) := by
  intro mode d hfree hlog
  refine ⟨hfree.above _, fun d₁ h₁ _ _ d₂ h₂ hinv _ => ⟨.refl hinv, fun d₃ h₃ _ => ⟨fun _ => trivial, ?_, ?_⟩⟩⟩
  · exact free_update fun j hj => by rw [Function.update_of_ne hj, hfree j]
  · exact hmono _ _ (h₁.suffix.trans (h₂.suffix.trans h₃.suffix)) hlog

include hmono in
theorem updateTask (orders : RefreshOrders) (snapshot : DiscoverySnapshot) :
    Serves server tasks t I (server.updateTask orders snapshot) := by
  intro mode d hfree hlog
  refine ⟨hfree.above _, fun d₁ h₁ _ _ d₂ h₂ hinv _ =>
    ⟨Server.guarantee_shared hinv _, fun d₃ h₃ _ => ⟨fun _ => trivial, ?_, ?_⟩⟩⟩
  · exact free_update fun j hj => by rw [Function.update_of_ne hj, hfree j]
  · exact hmono _ _ (h₁.suffix.trans (h₂.suffix.trans h₃.suffix)) hlog

include hmono in
/-- A program of discovery that takes its locks in order. -/
theorem locked {task : Task}
    (h : Locks.State.Always (Ascending fun cell => 3 + cell.rank) (fun _ => .free) task) :
    Serves server tasks t I (RouterProc.locked task) := by
  intro mode d hfree hlog
  exact meets_ofProgram (fun _ _ _ hrely hlog => hmono _ _ (Relies.suffix hrely) hlog)
    (fun _ _ hlog => hlog) hlog (fun _ _ he => RouterLock.discovery.inj he) (fun _ => hfree _)
    (fun k _ => hfree k) (fun _ _ => trivial) (fun _ _ _ hinv => Server.guarantee_shared hinv _) h

include hmono in
theorem snapshotTask (order : SnapshotOrder) :
    Serves server tasks t I (RouterProc.snapshotTask order) := by
  intro mode d hfree hlog
  have hlocked : Serves server tasks t I (RouterProc.locked (getSnapshot order)) :=
    locked hmono (ascending_getSnapshot order)
  have hlocked := hlocked mode d hfree hlog
  rw [RouterProc.locked_getSnapshot] at hlocked
  exact hlocked.of_map

include hmono in
/-- The queries of a program are allowed. -/
theorem dialog {κ ρ : Type} {wrap : κ → RouterQuery} {unwrap : ∀ q, (wrap q).Answer → ρ}
    (hask : ∀ log q, I log → server.MayAsk t log (tasks t) (wrap q)) (dialog : Dialog κ ρ α) :
    Serves server tasks t I (Proc.ofDialog wrap unwrap dialog) := by
  intro mode d hfree hlog
  refine meets_ofDialog hfree (fun d' hrely q => ?_) fun d' hrely a => ?_
  · exact hask d'.log q (hmono _ _ hrely.suffix hlog)
  · exact ⟨hfree, hmono _ _ hrely.suffix hlog⟩

include hmono in
theorem providersTask (env : Env) (model : String) :
    Serves server tasks t I (server.providersTask env model) :=
  (readShared hmono .registry).bind fun _ => .done _

include hmono in
theorem checkKnownTask (env : Env) (model : String) (response : RouterResponse) :
    Serves server tasks t I (server.checkKnownTask env model response) := by
  unfold Server.checkKnownTask
  split
  · exact (providersTask hmono env model).bind fun _ => (readShared hmono .models).bind fun _ => .done _
  · exact .done _

include hmono in
theorem wrongEndpointTask (env : Env) (model : String) (providers : List Provider) :
    Serves server tasks t I (server.wrongEndpointTask env model providers) := by
  unfold Server.wrongEndpointTask
  split
  · exact (providersTask hmono env model).bind fun _ => .done _
  · exact .done _

variable (hask : ∀ log q, I log → server.MayAsk t log (tasks t) (.upstream q))

include hmono hask in
theorem chatTask (env : Env) (request : Openai.ChatCompletionRequest) :
    Serves server tasks t I (server.chatTask env request) := by
  unfold Server.chatTask
  dsimp only
  split
  · exact .done _
  · refine (checkKnownTask hmono env _ _).bind fun known => ?_
    split
    · exact .done _
    · refine (providersTask hmono env _).bind fun all => ?_
      refine (wrongEndpointTask hmono env _ _).bind fun wrongEndpoint => ?_
      split
      · exact .done _
      · exact dialog hmono hask _

include hmono hask in
theorem messagesTask (env : Env) (request : Anthropic.MessageRequest) :
    Serves server tasks t I (server.messagesTask env request) := by
  unfold Server.messagesTask
  dsimp only
  split
  · exact .done _
  · refine (checkKnownTask hmono env _ _).bind fun known => ?_
    split
    · exact .done _
    · refine (providersTask hmono env _).bind fun all => ?_
      split
      · split
        · exact (dialog hmono hask _).bind fun _ => .done _
        · exact dialog hmono hask _
      · refine (providersTask hmono env _).bind fun openaiProviders => ?_
        split
        · exact (dialog hmono hask _).bind fun _ => .done _
        · exact dialog hmono hask _

include hmono hask in
theorem handlerTask (env : Env) (request : RouterRequest) :
    Serves server tasks t I (server.handlerTask env request) := by
  cases request with
  | chat request => exact chatTask hmono hask env request
  | messages request => exact messagesTask hmono hask env request
  | proxy request => exact dialog hmono hask _

include hmono in
theorem refreshTask (hask : ∀ log q, I log → server.MayAsk t log (tasks t) (.models q))
    (orders : RefreshOrders) : Serves server tasks t I (server.refreshTask orders) := by
  unfold Server.refreshTask
  refine bind (p := server.fetchTask) (dialog hmono hask _) fun result => ?_
  cases result with
  | error e => exact .done _
  | ok new =>
    exact (locked hmono (ascending_updateState new orders.now)).bind fun _ =>
      (snapshotTask hmono orders.snapshot).bind fun snapshot =>
        (updateTask hmono orders snapshot).bind fun _ => .done _

end Serves

/-! ## Tasks -/

section

variable {mode : RouterLock → Mode} {d : RouterData τ}

/-- A handler behind a middleware: it runs if the middleware lets the request through. -/
theorem meets_behind {verdict : List (Entry τ) → Except Nat Unit → Prop} {served : Outcome → Prop}
    {layer : RouterProc τ (Except Nat Unit)} {α : Type} {handler : RouterProc τ α} {f : α → Outcome}
    (hlayer : (server.laws tasks).Meets t mode d layer fun mode' d' r => Free mode' ∧ verdict d'.log r)
    (hhandler : Serves server tasks t (verdict · (.ok ())) handler) (hserved : ∀ a, served (f a)) :
    (server.laws tasks).Meets t mode d (RouterProc.behind layer (handler >>= fun a => .done (f a)))
      fun mode' d' o => Free mode' ∧ Behind (verdict d'.log) served o := by
  refine hlayer.bind fun mode' d' r hpost => ?_
  obtain ⟨hfree, hverdict⟩ := hpost
  cases r with
  | error status => exact ⟨hfree, .refused hverdict⟩
  | ok u =>
    refine (hhandler mode' d' hfree hverdict).bind fun mode'' d'' a hpost => ?_
    exact ⟨hpost.1, .served hpost.2 (hserved a)⟩

variable (server tasks t) in
/-- **A task** that has done nothing yet keeps to the laws. -/
theorem meets_task (hfree : Free mode) (hown : Own 0 t d.log) :
    (server.laws tasks).Meets t mode d (server.task t (tasks t)) ((server.laws tasks).ended t) := by
  have hverdict : ∀ visit (log log' : List (Entry τ)), log <:+ log' →
      server.middleware.Verdict visit log t (.ok ()) → server.middleware.Verdict visit log' t (.ok ()) :=
    fun visit log log' hlog h => h.mono hlog
  have hadmin : ∀ visit (log log' : List (Entry τ)), log <:+ log' →
      server.middleware.AdminVerdict visit log t (.ok ()) →
        server.middleware.AdminVerdict visit log' t (.ok ()) :=
    fun visit log log' hlog h => h.mono hlog
  unfold ended
  show (server.laws tasks).Meets t mode d _ fun mode d o => Free mode ∧ server.Answers t d.log (tasks t) o
  cases htask : tasks t with
  | post visit env request =>
    refine meets_behind (Server.meets_authTask visit hfree hown)
      (Serves.handlerTask (hverdict visit) (fun log q h => ?_) env request) fun response => ⟨response, rfl⟩
    rw [htask]
    exact h
  | getModels visit order =>
    exact meets_behind (Server.meets_authTask visit hfree hown)
      (Serves.readShared (hverdict visit) .models) fun shared => ⟨_, rfl⟩
  | refreshModels visit orders =>
    refine meets_behind (Server.meets_adminAuthTask visit hfree hown)
      (Serves.refreshTask (hadmin visit) (fun log q h => ?_) orders) fun result => ⟨_, _, rfl⟩
    rw [htask]
    exact h
  | getStats visit order groups =>
    exact meets_behind (Server.meets_adminAuthTask visit hfree hown)
      (Serves.snapshotTask (hadmin visit) order) fun snapshot => ⟨_, rfl⟩
  | refreshTick orders =>
    have hrefresh : Serves server tasks t (fun _ => True) (server.refreshTask orders) := by
      refine Serves.refreshTask (fun _ _ _ h => h) (fun log q _ => ?_) orders
      rw [htask]
      trivial
    exact (hrefresh mode d hfree trivial).bind fun mode' d' a hpost => ⟨hpost.1, rfl⟩
  | authTick =>
    have hown₂ : Own 2 t d.log := fun e he hsame => (hown e he hsame).trans Nat.zero_lt_two
    exact (Server.meets_authCleanup hfree hown₂).bind fun mode' d' a hpost => ⟨hpost, rfl⟩
  | limiterTick =>
    exact (Server.meets_limiterCleanup hfree hown).bind fun mode' d' a hpost => ⟨hpost, rfl⟩

end

/-! ## Queries -/

namespace RouterQuery

/-- An upstream is asked. -/
def isUpstream : RouterQuery → Bool
  | upstream _ => true
  | models _ => false

end RouterQuery

namespace Server

variable (server)

/-- What it takes to ask. -/
def Admitted (t : τ) (log : List (Entry τ)) : RouterTask → RouterQuery → Prop
  | .post visit _ _, .upstream _ => ∃ ip time,
    extractClientIp visit.request server.middleware.auth.trustedProxies = .ok ip ∧
    server.middleware.oversized visit = false ∧ (t, time) ∈ server.middleware.passed ip log ∧
    (server.middleware.auth.isEnabled = true →
      (∃ time' before, ⟨t, time', .isBanned ip⟩ :: before <:+ log ∧
        (server.middleware.storeAt before).isBanned ip time' = false) ∧
      ∃ key, visit.request.apiKey = some key ∧
        (key ∈ server.middleware.auth.apiKeys ∨ key ∈ server.middleware.auth.adminApiKeys))
  | .refreshModels visit _, .models _ => ∃ ip time,
    extractClientIp visit.request server.middleware.auth.trustedProxies = .ok ip ∧
    (t, time) ∈ server.middleware.passed ip log ∧
    (∃ time' before, ⟨t, time', .isBanned ip⟩ :: before <:+ log ∧
      (server.middleware.storeAt before).isBanned ip time' = false) ∧
    ∃ key, visit.request.apiKey = some key ∧ key ∈ server.middleware.auth.adminApiKeys
  | .refreshTick _, .models _ => True
  | _, _ => False

variable {server}

theorem MayAsk.admitted {t : τ} {log : List (Entry τ)} {task : RouterTask} {q : RouterQuery}
    (h : server.MayAsk t log task q) : server.Admitted t log task q := by
  cases task <;> cases q
  case post.upstream => exact Middleware.Verdict.admitted h
  case refreshModels.models => exact Middleware.AdminVerdict.admitted h
  all_goals exact h

variable (server)

/-- The queries to the upstreams for the requests of an address that the limiter let through in an
interval, its ends included. -/
def upstreamIn [DecidableEq τ] (ip : IpAddr) (first len : Nat)
    (s : State RouterLock τ (RouterData τ) RouterQuery RouterQuery.Answer Outcome) : Nat :=
  s.asked.countP fun e => e.2.isUpstream &&
    (server.middleware.passed ip s.data.log).any fun p => p.1 = e.1 ∧ first ≤ p.2 ∧ p.2 ≤ first + len

end Server

/-! ## Runs -/

/-- The clock goes on. -/
def Clock (d d' : RouterData τ) : Prop := ∃ n, d' = { d with now := d.now + n }

/-- The steps of a task, at most. -/
def maxSteps : Nat := 42 + maxFailoverAttempts + FetchEnv.maxRetries

variable {shared : Shared}

namespace Server

/-- The router can come to this state. -/
def Reaches [Fintype τ] [DecidableEq τ] (server : Server) (shared : Shared)
    (tasks : τ → RouterTask)
    (s : State RouterLock τ (RouterData τ) RouterQuery RouterQuery.Answer Outcome) : Prop :=
  State.Reach Clock (server.start shared tasks) s

theorem guarantee_clock (d d' : RouterData τ) (hinv : LogInv d.now d.log) (h : Clock d d') :
    (server.laws tasks).Guarantee none (fun _ => .free) d d' := by
  obtain ⟨n, rfl⟩ := h
  exact guarantee_now hinv n

theorem valid_start : (server.laws tasks).Valid (server.start shared tasks) := by
  refine .start LogInv.nil (fun k => ?_) fun t => ?_
  · cases k with
    | requests | failedAttempts | bannedUntil => rfl
    | discovery cell => trivial
  · exact meets_task server tasks t (fun _ => rfl) fun e he => absurd he List.not_mem_nil

theorem queries_start (u v : Nat) (t : τ) :
    ((server.start shared tasks).todo t).Costs 0 (price u v)
      (maxFailoverAttempts * u + FetchEnv.maxRetries * v) :=
  (Costs.task server t (tasks t)).mono (by omega)

end Server

variable [Fintype τ] [DecidableEq τ]
  {s : State RouterLock τ (RouterData τ) RouterQuery RouterQuery.Answer Outcome}

theorem Server.Reaches.valid (h : server.Reaches shared tasks s) : (server.laws tasks).Valid s :=
  Server.valid_start.reach Server.guarantee_clock h

/-! ## A server -/

/-- The default limits and a key of each kind, in front of one provider. -/
def sampleServer : Server where
  middleware := { Middleware.guessMiddleware with rateLimiter := createRateLimiter {} }
  config := otherVendorState.config
  aperture := FetchEnv.sampleAperture
  proxyClient := otherVendorState.proxyClient
  fetchEnv := FetchEnv.sampleFetchEnv

/-- Nothing has been discovered. -/
def sampleShared : Shared := { registry := .new [otherVendor] }

/-- A request with a key, and one with a wrong key from the same address. -/
def sampleTasks (hasKey : Bool) : RouterTask :=
  .post (if hasKey then Middleware.regularVisit else Middleware.wrongVisit) plainEnv streamedRequest

/-- Nobody answers. -/
def unreachable : ∀ q : RouterQuery, q.Answer
  | .upstream _ => .error ()
  | .models _ => .error "connection refused"

/-- The run of a schedule. -/
def sampleRun (schedule : List Bool)
    (h : ((sampleServer.start sampleShared sampleTasks).runAll unreachable schedule).isSome) :
    State RouterLock Bool (RouterData Bool) RouterQuery RouterQuery.Answer Outcome :=
  ((sampleServer.start sampleShared sampleTasks).runAll unreachable schedule).get h

theorem reaches_sampleRun (schedule : List Bool)
    (h : ((sampleServer.start sampleShared sampleTasks).runAll unreachable schedule).isSome) :
    sampleServer.Reaches sampleShared sampleTasks (sampleRun schedule h) :=
  State.Reach.start.runAll (Option.some_get h).symm

/-- The one holds the table of the limiter, and the other waits for it. -/
def waitingRun : State RouterLock Bool (RouterData Bool) RouterQuery RouterQuery.Answer Outcome :=
  sampleRun [true] (by decide +kernel)

/-- Both are done. The one is let through and asks the provider while the other is refused. -/
def endedRun : State RouterLock Bool (RouterData Bool) RouterQuery RouterQuery.Answer Outcome :=
  sampleRun ([true, true, true, false, false, false, true, false, true, false, true, false, false, false,
    false] ++ List.replicate 10 true) (by decide +kernel)

/-! ## Results -/

/-- **The router goes on.** As long as there are tasks that neither are done nor wait for an upstream, one of
them needs no lock that another task holds. Who waits for an upstream holds none. No task takes more than
`maxSteps` steps. -/
theorem router_progress (h : server.Reaches shared tasks s) :
    (∀ t, s.Busy t → ∃ u, s.Busy u ∧ s.Ready u) ∧
      (∀ t, (s.todo t).isAsking = true → Free (s.mode t)) ∧ ∀ t, s.steps t ≤ maxSteps := by
  refine ⟨fun t ht => h.valid.progress ht, fun t ht => h.valid.free_of_isAsking ht, fun t => ?_⟩
  have hprice : price 1 1 = fun _ => 1 := by
    funext q
    cases q <;> rfl
  have hcosts : ((server.start shared tasks).todo t).Costs 1 (price 1 1) maxSteps :=
    Costs.task server t (tasks t)
  rw [hprice] at hcosts
  exact h.steps_le hcosts rfl

theorem router_progress_waitingRun :
    (∀ t, waitingRun.Busy t → ∃ u, waitingRun.Busy u ∧ waitingRun.Ready u) ∧
      (∀ t, (waitingRun.todo t).isAsking = true → Free (waitingRun.mode t)) ∧
      ∀ t, waitingRun.steps t ≤ maxSteps :=
  router_progress (reaches_sampleRun _ _)

/-- **The log is the history of the router.** It is well-formed; a table that nobody writes is what it
says; a task that is done was judged by it. After that it has no more operations of the task, and none of
a task that has not begun. -/
theorem router_linearizable (h : server.Reaches shared tasks s) :
    LogInv s.data.now s.data.log ∧
      (∀ k, (∀ t, s.mode t k ≠ .writing) → server.Protects k s.data) ∧
      (∀ t outcome, s.todo t = .done outcome → server.Answers t s.data.log (tasks t) outcome) ∧
      (∀ t, s.steps t = 0 → ∀ e ∈ s.data.log, e.task ≠ t) ∧
      ∀ s' t, State.Reach Clock s s' → (s.todo t).isDone = true →
        ∃ new, s'.data.log = new ++ s.data.log ∧ ∀ e ∈ new, e.task ≠ t := by
  refine ⟨h.valid.inv, h.valid.resource, fun t outcome => h.valid.result, fun t ht => ?_,
    fun s' t h' hdone => ?_⟩
  · obtain ⟨-, -, hrely⟩ := Server.valid_start.rely_of_steps Server.guarantee_clock h ht
    obtain ⟨new, hlog, hnew⟩ := hrely.log
    rw [hlog]
    exact fun e he => hnew e ((List.mem_append.mp he).resolve_right List.not_mem_nil)
  · obtain ⟨-, hsteps⟩ := h'.steps_of_isDone hdone
    obtain ⟨-, -, hrely⟩ := h.valid.rely_of_steps Server.guarantee_clock h' hsteps
    exact hrely.log

theorem router_linearizable_endedRun :
    LogInv endedRun.data.now endedRun.data.log ∧
      (∀ k, (∀ t, endedRun.mode t k ≠ .writing) → sampleServer.Protects k endedRun.data) ∧
      (∀ t outcome, endedRun.todo t = .done outcome →
        sampleServer.Answers t endedRun.data.log (sampleTasks t) outcome) ∧
      (∀ t, endedRun.steps t = 0 → ∀ e ∈ endedRun.data.log, e.task ≠ t) ∧
      ∀ s' t, State.Reach Clock endedRun s' → (endedRun.todo t).isDone = true →
        ∃ new, s'.data.log = new ++ endedRun.data.log ∧ ∀ e ∈ new, e.task ≠ t :=
  router_linearizable (reaches_sampleRun _ _)

/-! ## Upstreams -/

/-- The queries of a task, at most. -/
theorem upstream_le (h : server.Reaches shared tasks s) (t : τ) :
    (s.asked.countP fun e => decide (e.1 = t) && e.2.isUpstream) ≤ maxFailoverAttempts := by
  have hprice : price 1 0 = fun q => q.isUpstream.toNat := by
    funext q
    cases q <;> rfl
  have hspent := h.spent_le (Server.queries_start 1 0 t) rfl
  rw [hprice, State.spent_eq_countP] at hspent
  exact hspent

theorem models_le (h : server.Reaches shared tasks s) (t : τ) :
    (s.asked.countP fun e => decide (e.1 = t) && !e.2.isUpstream) ≤ FetchEnv.maxRetries := by
  have hprice : price 0 1 = fun q => (!q.isUpstream).toNat := by
    funext q
    cases q <;> rfl
  have hspent := h.spent_le (Server.queries_start 0 1 t) rfl
  rw [hprice, State.spent_eq_countP] at hspent
  exact hspent

/-- **Who asks was let through.** In any run, a request asks an upstream only if its address had room and,
if there are keys, it has one and its address was not banned; the models are fetched by the background
task or for an admin; and either is asked three times at most. -/
theorem queries_admitted (h : server.Reaches shared tasks s) :
    (∀ e ∈ s.asked, server.Admitted e.1 s.data.log (tasks e.1) e.2) ∧
      ∀ t, (s.asked.countP fun e => decide (e.1 = t) && e.2.isUpstream) ≤ maxFailoverAttempts ∧
        (s.asked.countP fun e => decide (e.1 = t) && !e.2.isUpstream) ≤ FetchEnv.maxRetries :=
  ⟨fun e he => (h.valid.asked e he).admitted, fun t => ⟨upstream_le h t, models_le h t⟩⟩

theorem queries_admitted_endedRun :
    (∀ e ∈ endedRun.asked,
        sampleServer.Admitted e.1 endedRun.data.log (sampleTasks e.1) e.2) ∧
      ∀ t, (endedRun.asked.countP fun e => decide (e.1 = t) && e.2.isUpstream) ≤ maxFailoverAttempts ∧
        (endedRun.asked.countP fun e => decide (e.1 = t) && !e.2.isUpstream) ≤ FetchEnv.maxRetries :=
  queries_admitted (reaches_sampleRun _ _)

/-- What satisfies one of several conditions is counted for one of them at least. -/
theorem countP_any_le {α β : Type} (p : α → Bool) (r : α → β → Bool) {n : Nat} (as : List α)
    (bs : List β) (h : ∀ b ∈ bs, (as.countP fun a => p a && r a b) ≤ n) :
    (as.countP fun a => p a && bs.any (r a)) ≤ bs.length * n := by
  induction bs with
  | nil => simp
  | cons b bs ih =>
    have hsplit : (as.countP fun a => p a && (b :: bs).any (r a)) ≤
        (as.countP fun a => p a && r a b) + as.countP fun a => p a && bs.any (r a) := by
      clear ih h
      induction as with
      | nil => exact Nat.le_refl 0
      | cons a as ih =>
        simp only [List.countP_cons, List.any_cons] at ih ⊢
        cases p a <;> cases r a b <;> cases bs.any (r a) <;> simp <;> omega
    have hfirst := h b (List.mem_cons_self ..)
    have hrest := ih fun b hb => h b (List.mem_cons_of_mem _ hb)
    rw [List.length_cons, Nat.succ_mul]
    omega

/-- **The limit of an address bounds what is asked for it.** In any run, the upstreams are asked three times
at most for each request that the limiter lets through, as long as it keeps the address in its table. -/
theorem upstream_rate {rateLimit : RateLimitConfig} {ip : IpAddr}
    (h : server.Reaches shared tasks s)
    (hlimiter : server.middleware.rateLimiter = createRateLimiter rateLimit)
    (hkeeps : server.middleware.rateLimiter.Keeps ip (limiterRun s.data.log)) (first len : Nat) :
    server.upstreamIn ip first len s ≤
      (len / (rateLimit.windowSecs * second) + 1) * rateLimit.burstSize * maxFailoverAttempts := by
  let inside : List (τ × Nat) :=
    (server.middleware.passed ip s.data.log).filter fun p => first ≤ p.2 ∧ p.2 ≤ first + len
  have hinside : inside.length ≤ (len / (rateLimit.windowSecs * second) + 1) * rateLimit.burstSize := by
    have hsparse := RateLimiter.sparse_admitted h.valid.inv.limiter hkeeps
    rw [← Middleware.passed_times, hlimiter] at hsparse
    have hcount : ((server.middleware.passed ip s.data.log).map (·.2)).countP
        (fun time => decide (first ≤ time ∧ time ≤ first + len)) ≤ _ :=
      hsparse.countP_interval window_pos len
    rwa [List.countP_map, List.countP_eq_length_filter] at hcount
  have hasked : server.upstreamIn ip first len s ≤ inside.length * maxFailoverAttempts := by
    have hany : ∀ e : τ × RouterQuery, ((server.middleware.passed ip s.data.log).any fun p =>
        p.1 = e.1 ∧ first ≤ p.2 ∧ p.2 ≤ first + len) = inside.any fun p => p.1 = e.1 := by
      intro e
      rw [List.any_filter]
      simp [Bool.and_comm]
    simp only [Server.upstreamIn, hany]
    refine countP_any_le (fun e : τ × RouterQuery => e.2.isUpstream)
      (fun e p : τ × _ => decide (p.1 = e.1)) _ _ fun p _ => ?_
    have hle := upstream_le h p.1
    simpa only [eq_comm, Bool.and_comm] using hle
  exact hasked.trans (Nat.mul_le_mul_right _ hinside)

theorem upstream_rate_endedRun :
    sampleServer.upstreamIn (.v4 ⟨10, 0, 0, 1⟩) 0 0 endedRun = 1 ∧
      sampleServer.upstreamIn (.v4 ⟨10, 0, 0, 1⟩) 0 0 endedRun ≤ 90 := by
  have hlimiter : sampleServer.middleware.rateLimiter = createRateLimiter {} := rfl
  have hkeeps : sampleServer.middleware.rateLimiter.Keeps (.v4 ⟨10, 0, 0, 1⟩)
      (limiterRun endedRun.data.log) :=
    RateLimiter.keeps_of_few _ (by unfold Few; decide +kernel)
  exact ⟨by decide +kernel, upstream_rate (reaches_sampleRun _ _) hlimiter hkeeps 0 0⟩

end

end ApertureRouter
