import ApertureRouter.Server.Tasks

/-!
# The laws of the tasks

What each lock of the router protects, in terms of the log, and what a task may ask and return
(`Server.laws`). A task can rely on its own part of the log, and while it writes the table of the limiter
or the failures, on these.

* `meets_checkTask`, `meets_isBannedTask`, `meets_recordFailureTask`, `meets_recordSuccessTask`: the
  operations of the middleware. Each is in the log once it is made, and says what the log before it says.
* `meets_authTask`, `meets_adminAuthTask`: so a request is judged by the log.
-/

namespace ApertureRouter

open Locks (Mode)
open Tasks Tasks.Laws

/-- Where a lock of discovery is in the order. -/
def Cell.rank : Cell → Nat
  | models => 0
  | providers => 1
  | modelsByProvider => 2
  | lastRefresh => 3
  | registry => 4

/-- The order in which the locks are taken. -/
def RouterLock.rank : RouterLock → Nat
  | requests => 0
  | failedAttempts => 1
  | bannedUntil => 2
  | discovery cell => 3 + cell.rank

section

variable {τ : Type}

/-- All operations of the task in the log are of a stage before `n`. -/
def Own (n : Nat) (t : τ) (log : List (Entry τ)) : Prop := ∀ e ∈ log, e.task = t → e.op.stage < n

/-- What the others do while a task holds its locks. -/
structure Relies (t : τ) (mode : RouterLock → Mode) (d d' : RouterData τ) : Prop where
  now : d.now ≤ d'.now
  log : ∃ new, d'.log = new ++ d.log ∧ ∀ e ∈ new, e.task ≠ t
  requests : mode .requests = .writing →
    d'.guard.requests = d.guard.requests ∧ limiterRun d'.log = limiterRun d.log
  store : mode .failedAttempts = .writing →
    d'.guard.store = d.guard.store ∧ authRun d'.log = authRun d.log

namespace Relies

variable {t : τ} {mode : RouterLock → Mode} {d d' d'' : RouterData τ}

theorem refl (t : τ) (mode : RouterLock → Mode) (d : RouterData τ) : Relies t mode d d where
  now := Nat.le_refl _
  log := ⟨[], rfl, fun _ he => absurd he List.not_mem_nil⟩
  requests _ := ⟨rfl, rfl⟩
  store _ := ⟨rfl, rfl⟩

theorem trans (h : Relies t mode d d') (h' : Relies t mode d' d'') : Relies t mode d d'' where
  now := h.now.trans h'.now
  log := by
    obtain ⟨new, hlog, hnew⟩ := h.log
    obtain ⟨new', hlog', hnew'⟩ := h'.log
    refine ⟨new' ++ new, by rw [hlog', hlog, List.append_assoc], fun e he => ?_⟩
    rcases List.mem_append.mp he with he | he
    · exact hnew' e he
    · exact hnew e he
  requests hk := ⟨(h'.requests hk).1.trans (h.requests hk).1, (h'.requests hk).2.trans (h.requests hk).2⟩
  store hk := ⟨(h'.store hk).1.trans (h.store hk).1, (h'.store hk).2.trans (h.store hk).2⟩

theorem suffix (h : Relies t mode d d') : d.log <:+ d'.log := by
  obtain ⟨new, hlog, -⟩ := h.log
  exact ⟨new, hlog.symm⟩

theorem own (h : Relies t mode d d') {n : Nat} (hown : Own n t d.log) : Own n t d'.log := by
  obtain ⟨new, hlog, hnew⟩ := h.log
  intro e he
  rw [hlog] at he
  rcases List.mem_append.mp he with he | he
  · exact fun hsame => absurd hsame (hnew e he)
  · exact hown e he

end Relies

/-- An outcome behind a middleware. -/
inductive Behind (verdict : Except Nat Unit → Prop) (served : Outcome → Prop) : Outcome → Prop where
  | refused {status : Nat} (h : verdict (.error status)) : Behind verdict served (.refused status)
  | served {outcome : Outcome} (h : verdict (.ok ())) (hserved : served outcome) :
    Behind verdict served outcome

namespace Server

variable (server : Server)

/-- The task can have this outcome, by the log. -/
def Answers (t : τ) (log : List (Entry τ)) : RouterTask → Outcome → Prop
  | .post visit _ _ =>
    Behind (server.middleware.Verdict visit log t) fun o => ∃ response, o = .answered response
  | .getModels visit _ =>
    Behind (server.middleware.Verdict visit log t) fun o => ∃ models, o = .models models
  | .refreshModels visit _ =>
    Behind (server.middleware.AdminVerdict visit log t) fun o =>
      ∃ status response, o = .refreshed status response
  | .getStats visit _ _ =>
    Behind (server.middleware.AdminVerdict visit log t) fun o => ∃ stats, o = .stats stats
  | .refreshTick _ | .authTick | .limiterTick => fun o => o = .ticked

/-- The task may ask, by the log. -/
def MayAsk (t : τ) (log : List (Entry τ)) : RouterTask → RouterQuery → Prop
  | .post visit _ _, .upstream _ => server.middleware.Verdict visit log t (.ok ())
  | .refreshModels visit _, .models _ => server.middleware.AdminVerdict visit log t (.ok ())
  | .refreshTick _, .models _ => True
  | _, _ => False

variable {server}

theorem Answers.mono {t : τ} {log log' : List (Entry τ)} {task : RouterTask} {outcome : Outcome}
    (h : server.Answers t log task outcome) (hlog : log <:+ log') :
    server.Answers t log' task outcome := by
  cases task with
  | post visit env request | getModels visit order | refreshModels visit orders
  | getStats visit order groups =>
    cases h with
    | refused h => exact .refused (h.mono hlog)
    | served h hserved => exact .served (h.mono hlog) hserved
  | refreshTick orders | authTick | limiterTick => exact h

theorem MayAsk.mono {t : τ} {log log' : List (Entry τ)} {task : RouterTask} {q : RouterQuery}
    (h : server.MayAsk t log task q) (hlog : log <:+ log') : server.MayAsk t log' task q := by
  cases task <;> cases q
  case post.upstream => exact Middleware.Verdict.mono h hlog
  case refreshModels.models => exact Middleware.AdminVerdict.mono h hlog
  all_goals exact h

variable (server)

/-- What a lock protects. -/
def Protects : RouterLock → RouterData τ → Prop
  | .requests, d => d.guard.requests = server.middleware.requestsAt d.log
  | .failedAttempts, d => d.guard.store = server.middleware.storeAt d.log
  | .bannedUntil, d => d.guard.store.bannedUntil = (server.middleware.storeAt d.log).bannedUntil
  | .discovery _, _ => True

/-- What the tasks agree on. -/
def laws (tasks : τ → RouterTask) : Laws RouterLock τ (RouterData τ) RouterQuery Outcome where
  rank := RouterLock.rank
  inv d := LogInv d.now d.log
  resource := server.Protects
  rely := Relies
  allowed t d q := server.MayAsk t d.log (tasks t) q
  result t d outcome := server.Answers t d.log (tasks t) outcome
  rely_refl := Relies.refl
  rely_trans _ _ _ _ _ := .trans
  result_rely _ _ _ _ _ hrely h := h.mono hrely.suffix

section

variable {server} {tasks : τ → RouterTask} {t : τ} {mode : RouterLock → Mode} {d d' : RouterData τ}

/-- An action of a task, or of nobody: it writes down operations of its own, and changes no table that
it does not write. -/
theorem guarantee {who : Option τ} (hinv : LogInv d'.now d'.log) (hnow : d.now ≤ d'.now)
    (hlog : ∃ new, d'.log = new ++ d.log ∧ ∀ e ∈ new, some e.task = who)
    (hrequests : mode .requests ≠ .writing →
      d'.guard.requests = d.guard.requests ∧ limiterRun d'.log = limiterRun d.log)
    (hstore : mode .failedAttempts ≠ .writing →
      d'.guard.store = d.guard.store ∧ authRun d'.log = authRun d.log)
    (hbanned : mode .bannedUntil ≠ .writing →
      server.Protects .bannedUntil d → server.Protects .bannedUntil d') :
    (server.laws tasks).Guarantee who mode d d' where
  inv := hinv
  resource k hk h := by
    cases k with
    | requests =>
      obtain ⟨hsame, hrun⟩ := hrequests hk
      show d'.guard.requests = server.middleware.requestsAt d'.log
      rw [hsame, Middleware.requestsAt, hrun]
      exact h
    | failedAttempts =>
      obtain ⟨hsame, hrun⟩ := hstore hk
      show d'.guard.store = server.middleware.storeAt d'.log
      rw [hsame, Middleware.storeAt, hrun]
      exact h
    | bannedUntil => exact hbanned hk h
    | discovery cell => trivial
  rely u hu mode' hmode := by
    obtain ⟨new, hnew, hwho⟩ := hlog
    refine ⟨hnow, ⟨new, hnew, fun e he hsame => hu ?_⟩, fun hk => ?_, fun hk => ?_⟩
    · rw [← hwho e he, hsame]
    · exact hrequests fun hw => by rw [(hmode .requests).1 hw] at hk; cases hk
    · exact hstore fun hw => by rw [(hmode .failedAttempts).1 hw] at hk; cases hk
  allowed u q h := by
    obtain ⟨new, hnew, -⟩ := hlog
    exact h.mono ⟨new, hnew.symm⟩

/-- The log stays as it is, and the tables do. -/
theorem guarantee_shared (hinv : LogInv d.now d.log) (shared : Shared) :
    (server.laws tasks).Guarantee (some t) mode d { d with shared := shared } :=
  guarantee hinv (Nat.le_refl _) ⟨[], rfl, fun _ he => absurd he List.not_mem_nil⟩
    (fun _ => ⟨rfl, rfl⟩) (fun _ => ⟨rfl, rfl⟩) fun _ h => h

/-- The clock goes on. -/
theorem guarantee_now (hinv : LogInv d.now d.log) (n : Nat) :
    (server.laws tasks).Guarantee none (fun _ => .free) d { d with now := d.now + n } :=
  guarantee (hinv.mono (Nat.le_add_right _ _)) (Nat.le_add_right _ _)
    ⟨[], rfl, fun _ he => absurd he List.not_mem_nil⟩ (fun _ => ⟨rfl, rfl⟩) (fun _ => ⟨rfl, rfl⟩)
    fun _ h => h

/-! ## The operations of the middleware -/

/-- What a task writes stays as it has left it. -/
theorem protects_requests (h : Relies t mode d d') (hmode : mode .requests = .writing)
    (hres : server.Protects .requests d) : server.Protects .requests d' := by
  obtain ⟨hsame, hrun⟩ := h.requests hmode
  show d'.guard.requests = server.middleware.requestsAt d'.log
  rw [hsame, Middleware.requestsAt, hrun]
  exact hres

theorem protects_store (h : Relies t mode d d') (hmode : mode .failedAttempts = .writing)
    (hres : server.Protects .failedAttempts d) : server.Protects .failedAttempts d' := by
  obtain ⟨hsame, hrun⟩ := h.store hmode
  show d'.guard.store = server.middleware.storeAt d'.log
  rw [hsame, Middleware.storeAt, hrun]
  exact hres

/-- The operation is the next one of its task. -/
theorem push_limiter (hinv : LogInv d.now d.log) (hown : Own 0 t d.log) (op : LimiterOp) :
    LogInv d.now (⟨t, d.now, .limiter op⟩ :: d.log) := by
  refine hinv.push (Nat.le_refl _) ?_ nofun fun e he hsame => hown e he hsame
  rintro event ⟨⟩ event' hevent'
  exact hinv.limiter_le event' hevent'

theorem meets_checkTask (hfree : Free mode) (hown : Own 0 t d.log) (order : TrackedOrder)
    (ip : IpAddr) :
    (server.laws tasks).Meets t mode d (server.middleware.rateLimiter.checkTask t order ip)
      fun mode' d' r => Free mode' ∧ Own 1 t d'.log ∧ ∃ time before,
        ⟨t, time, .limiter (.check ip order)⟩ :: before <:+ d'.log ∧
          server.middleware.checkAt order ip time before = r := by
  have hwriting : Function.update mode RouterLock.requests Mode.writing .requests = .writing :=
    Function.update_self ..
  refine ⟨hfree.above _, fun d₁ h₁ _ hres d₂ h₂ hinv _ => ?_⟩
  have hown₂ := h₂.own (h₁.own hown)
  have htable : d₂.guard.requests = server.middleware.requestsAt d₂.log :=
    protects_requests h₂ hwriting hres
  refine ⟨guarantee (push_limiter hinv hown₂ _) (Nat.le_refl _) ⟨[_], rfl, ?_⟩
    (fun hk => absurd hwriting hk) (fun _ => ⟨rfl, rfl⟩) fun _ h => h, fun d₃ h₃ _ => ?_⟩
  · exact List.forall_mem_singleton.mpr rfl
  · refine ⟨fun _ => protects_requests h₃ hwriting ?_, ?_, h₃.own ?_, d₂.now, d₂.log, h₃.suffix, ?_⟩
    · show (server.middleware.rateLimiter.checkRateLimit order ip d₂.now d₂.guard.requests).2 = _
      rw [htable]
      rfl
    · exact free_update fun j hj => by rw [Function.update_of_ne hj, hfree j]
    · refine List.forall_mem_cons.mpr ⟨fun _ => Nat.zero_lt_one, fun e he hsame => ?_⟩
      exact (hown₂ e he hsame).trans Nat.zero_lt_one
    · rw [Middleware.checkAt, ← htable]

theorem meets_limiterCleanup (hfree : Free mode) (hown : Own 0 t d.log) :
    (server.laws tasks).Meets t mode d (server.middleware.rateLimiter.cleanupTask t)
      fun mode' _ _ => Free mode' := by
  have hwriting : Function.update mode RouterLock.requests Mode.writing .requests = .writing :=
    Function.update_self ..
  refine ⟨hfree.above _, fun d₁ h₁ _ hres d₂ h₂ hinv _ => ?_⟩
  have htable : d₂.guard.requests = server.middleware.requestsAt d₂.log :=
    protects_requests h₂ hwriting hres
  refine ⟨guarantee (push_limiter hinv (h₂.own (h₁.own hown)) _) (Nat.le_refl _) ⟨[_], rfl, ?_⟩
    (fun hk => absurd hwriting hk) (fun _ => ⟨rfl, rfl⟩) fun _ h => h, fun d₃ h₃ _ => ⟨fun _ => ?_, ?_⟩⟩
  · exact List.forall_mem_singleton.mpr rfl
  · refine protects_requests h₃ hwriting ?_
    show d₂.guard.requests.cleanup server.middleware.rateLimiter.window d₂.now = _
    rw [htable]
    rfl
  · exact free_update fun j hj => by rw [Function.update_of_ne hj, hfree j]

theorem meets_isBannedTask (hfree : Free mode) (hown : Own 1 t d.log) (ip : IpAddr) :
    (server.laws tasks).Meets t mode d (BanStore.isBannedTask t ip)
      fun mode' d' r => Free mode' ∧ d.log <:+ d'.log ∧ Own 2 t d'.log ∧ ∃ time before,
        ⟨t, time, .isBanned ip⟩ :: before <:+ d'.log ∧
          (server.middleware.storeAt before).isBanned ip time = r := by
  refine ⟨hfree.above _, fun d₁ h₁ _ _ d₂ h₂ hinv hres => ?_⟩
  have hown₂ := h₂.own (h₁.own hown)
  have hbans : d₂.guard.store.bannedUntil = (server.middleware.storeAt d₂.log).bannedUntil :=
    hres .bannedUntil (Function.update_self ..)
  refine ⟨guarantee (hinv.push (Nat.le_refl _) nofun nofun fun e he hsame => hown₂ e he hsame)
    (Nat.le_refl _) ⟨[_], rfl, ?_⟩ (fun _ => ⟨rfl, rfl⟩) (fun _ => ⟨rfl, rfl⟩) fun _ h => h,
    fun d₃ h₃ _ => ⟨nofun, ?_, ?_, h₃.own ?_, d₂.now, d₂.log, h₃.suffix, ?_⟩⟩
  · exact List.forall_mem_singleton.mpr rfl
  · exact free_update fun j hj => by rw [Function.update_of_ne hj, hfree j]
  · exact h₁.suffix.trans (h₂.suffix.trans ((List.suffix_cons _ _).trans h₃.suffix))
  · refine List.forall_mem_cons.mpr ⟨fun _ => Nat.one_lt_two, fun e he hsame => ?_⟩
    exact (hown₂ e he hsame).trans Nat.one_lt_two
  · rw [BanStore.isBanned, BanStore.isBanned, hbans]

/-- The two locks of the failures and the bans are released. -/
theorem free_both (hfree : Free mode) (x y : Mode) :
    Free (Function.update (Function.update (Function.update (Function.update mode .failedAttempts x)
      .bannedUntil y) .bannedUntil .free) .failedAttempts .free) := by
  refine free_update fun j hj => ?_
  rw [Function.update_idem]
  by_cases hban : j = .bannedUntil
  · rw [hban, Function.update_self]
  · rw [Function.update_of_ne hban, Function.update_of_ne hj, hfree j]

/-- Who writes the failures has made its part of an operation, and now makes the other part, under the
lock of the bans: together they are the operation. -/
theorem meets_commit (time : Nat → Nat) (op : Nat → AuthOp)
    (bans : HashMap IpAddr Nat → Nat → HashMap IpAddr Nat) {α : Type} (a : α) (hfree : Free mode)
    (hown : Own 2 t d.log)
    (htime : ∀ now, d.now ≤ now → time now ≤ now ∧ ∀ e ∈ authRun d.log, e.time ≤ time now)
    (hspec : ∀ now, d.now ≤ now →
      { d.guard.store with bannedUntil := bans d.guard.store.bannedUntil now } =
        (server.middleware.storeAt d.log).apply server.middleware.auth.limits ⟨time now, op now⟩) :
    (server.laws tasks).Meets t (Function.update mode .failedAttempts .writing) d
      (.write .bannedUntil <|
        .act (fun d => { d with
          guard := { d.guard with store := { d.guard.store with
            bannedUntil := bans d.guard.store.bannedUntil d.now } }
          log := ⟨t, time d.now, .auth (op d.now)⟩ :: d.log }) fun _ =>
        .release .bannedUntil <| .release .failedAttempts <| .done a : RouterProc τ α)
      fun mode' d' r => r = a ∧ Free mode' ∧ d.log <:+ d'.log ∧ ∃ now before, d.now ≤ now ∧
        authRun before = authRun d.log ∧ ⟨t, time now, .auth (op now)⟩ :: before <:+ d'.log := by
  have hattempts : Function.update mode RouterLock.failedAttempts Mode.writing .failedAttempts =
      .writing := Function.update_self ..
  refine ⟨(hfree.above _).update (show 1 < 2 by decide) _, fun d₁ h₁ _ _ d₂ h₂ hinv _ => ?_⟩
  obtain ⟨hstore₁, hrun₁⟩ := h₁.store hattempts
  obtain ⟨hstore₂, hrun₂⟩ := h₂.store hattempts
  have hnow : d.now ≤ d₂.now := h₁.now.trans h₂.now
  have hrun : authRun d₂.log = authRun d.log := hrun₂.trans hrun₁
  have hstore : d₂.guard.store = d.guard.store := hstore₂.trans hstore₁
  have hbefore : ∀ e ∈ authRun d₂.log, e.time ≤ time d₂.now := by
    rw [hrun]
    exact (htime d₂.now hnow).2
  refine ⟨guarantee (hinv.push (htime d₂.now hnow).1 nofun ?_ ?_) (Nat.le_refl _) ⟨[_], rfl, ?_⟩
    (fun _ => ⟨rfl, rfl⟩) (fun hk => absurd hattempts hk) fun hk => absurd (Function.update_self ..) hk,
    fun d₃ h₃ _ => ?_⟩
  · rintro event ⟨⟩
    exact hbefore
  · exact fun e he hsame => h₂.own (h₁.own hown) e he hsame
  · exact List.forall_mem_singleton.mpr rfl
  · -- The failures and the bans are again what the log says.
    have hprotects : server.Protects .failedAttempts d₃ := by
      refine protects_store h₃ hattempts ?_
      have hspec := hspec d₂.now hnow
      rw [Middleware.storeAt, ← hrun, ← hstore] at hspec
      exact hspec
    refine ⟨fun _ => congrArg BanStore.bannedUntil hprotects, fun d₄ h₄ _ => ⟨fun _ => ?_, rfl, ?_, ?_, ?_⟩⟩
    · exact protects_store h₄ hattempts hprotects
    · exact free_both hfree _ _
    · exact h₁.suffix.trans (h₂.suffix.trans ((List.suffix_cons _ _).trans (h₃.suffix.trans h₄.suffix)))
    · exact ⟨d₂.now, d₂.log, hnow, hrun, h₃.suffix.trans h₄.suffix⟩

/-- The first part: only the failures are changed, and nothing is written down. -/
theorem guarantee_attempts (hinv : LogInv d.now d.log) (hmode : mode .failedAttempts = .writing)
    (failedAttempts : Tracked) :
    (server.laws tasks).Guarantee (some t) mode d { d with guard := { d.guard with
      store := { d.guard.store with failedAttempts := failedAttempts } } } :=
  guarantee hinv (Nat.le_refl _) ⟨[], rfl, fun _ he => absurd he List.not_mem_nil⟩
    (fun _ => ⟨rfl, rfl⟩) (fun hk => absurd hmode hk) fun _ h => h

theorem meets_recordSuccessTask (hfree : Free mode) (hown : Own 2 t d.log) (ip : IpAddr) :
    (server.laws tasks).Meets t mode d (BanStore.recordSuccessTask t ip)
      fun mode' d' _ => Free mode' ∧ d.log <:+ d'.log ∧ ∃ time before,
        ⟨t, time, .auth (.recordSuccess ip)⟩ :: before <:+ d'.log := by
  have hattempts : Function.update mode RouterLock.failedAttempts Mode.writing .failedAttempts =
      .writing := Function.update_self ..
  refine ⟨hfree.above _, fun d₁ h₁ _ hres d₂ h₂ hinv _ => ⟨guarantee_attempts hinv hattempts _, ?_⟩⟩
  have hstore : d₂.guard.store = server.middleware.storeAt d₂.log := protects_store h₂ hattempts hres
  refine Meets.mono (meets_commit id (fun _ => .recordSuccess ip) (fun bans _ => bans.remove ip) ()
    hfree ?_ ?_ ?_) ?_
  · exact h₂.own (h₁.own hown)
  · exact fun now hnow => ⟨Nat.le_refl now, fun e he => (hinv.auth_le e he).trans hnow⟩
  · intro now _
    show BanStore.recordSuccess ip d₂.guard.store = _
    rw [hstore]
    rfl
  · rintro mode' d' _ ⟨-, hmode, hsuffix, now, before, -, -, hentry⟩
    exact ⟨hmode, h₁.suffix.trans (h₂.suffix.trans hsuffix), now, before, hentry⟩

theorem meets_authCleanup (hfree : Free mode) (hown : Own 2 t d.log) :
    (server.laws tasks).Meets t mode d (server.middleware.auth.cleanupTask t)
      fun mode' _ _ => Free mode' := by
  have hattempts : Function.update mode RouterLock.failedAttempts Mode.writing .failedAttempts =
      .writing := Function.update_self ..
  refine ⟨hfree.above _, fun d₁ h₁ _ hres d₂ h₂ hinv _ => ⟨guarantee_attempts hinv hattempts _, ?_⟩⟩
  have hstore : d₂.guard.store = server.middleware.storeAt d₂.log := protects_store h₂ hattempts hres
  refine Meets.mono (meets_commit (fun _ => d₂.now) (fun _ => .cleanup)
    (fun bans _ => bans.retain fun _ expiresAt => d₂.now < expiresAt) () hfree ?_ ?_ ?_) ?_
  · exact h₂.own (h₁.own hown)
  · exact fun now hnow => ⟨hnow, hinv.auth_le⟩
  · intro now _
    show BanStore.cleanup server.middleware.auth.limits d₂.now d₂.guard.store = _
    rw [hstore]
    rfl
  · rintro mode' d' _ ⟨-, hmode, -⟩
    exact hmode

/-- The delay before the ban has no part in the failures and in the answer. -/
theorem recordFailure_delay (limits : AuthLimits) (order : TrackedOrder) (ip : IpAddr)
    (now delay delay' : Nat) (store : BanStore) :
    (store.recordFailure limits order ip now delay).2.failedAttempts =
        (store.recordFailure limits order ip now delay').2.failedAttempts ∧
      (store.recordFailure limits order ip now delay).1 =
        (store.recordFailure limits order ip now delay').1 := by
  refine ⟨by rw [BanStore.recordFailure_failedAttempts, BanStore.recordFailure_failedAttempts], ?_⟩
  unfold BanStore.recordFailure
  dsimp only
  split
  · rfl
  · split <;> rfl

/-- A failure that bans: the failures first, and then the bans. -/
theorem recordFailure_of_reachesLimit {limits : AuthLimits} {order : TrackedOrder} {ip : IpAddr}
    {now later : Nat} {store : BanStore} (h : BanStore.ReachesLimit limits ip now store) (hle : now ≤ later) :
    (store.recordFailure limits order ip now (later - now)).2 =
      { failedAttempts := (store.recordFailure limits order ip now 0).2.failedAttempts
        bannedUntil := store.bannedUntil.insert ip (later + limits.banDuration) } := by
  have hbanned : (store.recordFailure limits order ip now (later - now)).2.bannedUntil = _ :=
    BanStore.recordFailure_bannedUntil
  rw [if_pos h, Nat.add_sub_cancel' hle] at hbanned
  rw [← hbanned, (recordFailure_delay limits order ip now 0 (later - now) store).1]

/-- A failure that does not. -/
theorem recordFailure_of_not_reachesLimit {limits : AuthLimits} {order : TrackedOrder} {ip : IpAddr}
    {now : Nat} {store : BanStore} (h : ¬BanStore.ReachesLimit limits ip now store) :
    (store.recordFailure limits order ip now 0).2 =
      { store with failedAttempts := (store.recordFailure limits order ip now 0).2.failedAttempts } := by
  have hbanned : (store.recordFailure limits order ip now 0).2.bannedUntil = _ :=
    BanStore.recordFailure_bannedUntil
  rw [if_neg h] at hbanned
  rw [← hbanned]

theorem meets_recordFailureTask (hfree : Free mode) (hown : Own 2 t d.log) (order : TrackedOrder)
    (ip : IpAddr) :
    (server.laws tasks).Meets t mode d (server.middleware.auth.recordFailureTask t order ip)
      fun mode' d' r => Free mode' ∧ d.log <:+ d'.log ∧ ∃ time delay before,
        ⟨t, time, .auth (.recordFailure ip order delay)⟩ :: before <:+ d'.log ∧
          ((server.middleware.storeAt before).recordFailure server.middleware.auth.limits order ip time
            delay).1 = r := by
  have hattempts : Function.update mode RouterLock.failedAttempts Mode.writing .failedAttempts =
      .writing := Function.update_self ..
  refine ⟨hfree.above _, fun d₁ h₁ _ hres d₂ h₂ hinv _ => ?_⟩
  have hown₂ := h₂.own (h₁.own hown)
  have hsuffix₂ : d.log <:+ d₂.log := h₁.suffix.trans h₂.suffix
  have hstore : d₂.guard.store = server.middleware.storeAt d₂.log := protects_store h₂ hattempts hres
  dsimp only
  by_cases hbans : BanStore.ReachesLimit server.middleware.auth.limits ip d₂.now d₂.guard.store
  · rw [if_pos hbans, if_pos hbans]
    refine ⟨guarantee_attempts hinv hattempts _, Meets.mono (meets_commit (fun _ => d₂.now)
      (fun now => .recordFailure ip order (now - d₂.now))
      (fun bans now => bans.insert ip (now + server.middleware.auth.limits.banDuration)) _
      hfree hown₂ (fun now hnow => ⟨hnow, hinv.auth_le⟩) fun now hnow => ?_) ?_⟩
    · rw [← hstore]
      exact (recordFailure_of_reachesLimit hbans hnow).symm
    · rintro mode' d' r ⟨rfl, hmode, hsuffix, now, before, -, hrun, hentry⟩
      refine ⟨hmode, hsuffix₂.trans hsuffix, _, _, before, hentry, ?_⟩
      rw [Middleware.storeAt, hrun]
      refine (recordFailure_delay _ _ _ _ _ 0 _).2.trans ?_
      rw [hstore]
      rfl
  · rw [if_neg hbans, if_neg hbans]
    have hpush : LogInv d₂.now (⟨t, d₂.now, .auth (.recordFailure ip order 0)⟩ :: d₂.log) := by
      refine hinv.push (Nat.le_refl _) nofun ?_ fun e he hsame => hown₂ e he hsame
      rintro event ⟨⟩
      exact hinv.auth_le
    have hspec : { d₂.guard.store with failedAttempts := (d₂.guard.store.recordFailure
        server.middleware.auth.limits order ip d₂.now 0).2.failedAttempts } =
        server.middleware.storeAt (⟨t, d₂.now, .auth (.recordFailure ip order 0)⟩ :: d₂.log) := by
      rw [← recordFailure_of_not_reachesLimit hbans, hstore]
      rfl
    refine ⟨guarantee hpush (Nat.le_refl _) ⟨[_], rfl, ?_⟩ (fun _ => ⟨rfl, rfl⟩)
      (fun hk => absurd hattempts hk) fun _ _ => congrArg BanStore.bannedUntil hspec,
      fun d₃ h₃ _ => ⟨fun _ => protects_store h₃ hattempts hspec, ?_, ?_, ?_⟩⟩
    · exact List.forall_mem_singleton.mpr rfl
    · exact free_update fun j hj => by rw [Function.update_of_ne hj, hfree j]
    · exact hsuffix₂.trans ((List.suffix_cons _ _).trans h₃.suffix)
    · refine ⟨d₂.now, 0, d₂.log, h₃.suffix, ?_⟩
      rw [hstore]

/-! ## The middleware -/

theorem meets_authenticateTask {valid : String → Bool} (visit : Visit) (ip : IpAddr)
    (hfree : Free mode) (hown : Own 1 t d.log) :
    (server.laws tasks).Meets t mode d (server.middleware.authenticateTask t valid visit ip)
      fun mode' d' r => Free mode' ∧ d.log <:+ d'.log ∧
        server.middleware.Authenticated valid visit d'.log t ip r := by
  refine (meets_isBannedTask hfree hown ip).bind ?_
  rintro mode d' banned ⟨hfree, hsuffix, hown, time, before, hlook, hanswer⟩
  cases banned with
  | true => exact ⟨hfree, hsuffix, .banned hlook hanswer⟩
  | false =>
    rw [if_neg Bool.false_ne_true]
    cases hkey : visit.request.apiKey.any valid with
    | true =>
      rw [if_pos rfl]
      refine (meets_recordSuccessTask hfree hown ip).bind ?_
      rintro mode d'' - ⟨hfree, hsuffix', time', before', hrecord⟩
      exact ⟨hfree, hsuffix.trans hsuffix', .accepted (hlook.trans hsuffix') hanswer hkey hrecord⟩
    | false =>
      rw [if_neg Bool.false_ne_true]
      refine (meets_recordFailureTask hfree hown visit.failureOrder ip).bind ?_
      rintro mode d'' r ⟨hfree, hsuffix', time', delay, before', hrecord, rfl⟩
      exact ⟨hfree, hsuffix.trans hsuffix', .rejected (hlook.trans hsuffix') hanswer hkey hrecord⟩

/-- **A request to a regular route** is judged by the log. -/
theorem meets_authTask (visit : Visit) (hfree : Free mode) (hown : Own 0 t d.log) :
    (server.laws tasks).Meets t mode d (server.middleware.authTask t visit)
      fun mode' d' r => Free mode' ∧ server.middleware.Verdict visit d'.log t r := by
  unfold Middleware.authTask
  cases hclient : extractClientIp visit.request server.middleware.auth.trustedProxies with
  | error status => exact ⟨hfree, .noClient hclient⟩
  | ok ip =>
    dsimp only
    split
    · rename_i hsize
      exact ⟨hfree, .oversized hclient hsize⟩
    · rename_i hsize
      have hsize := Bool.of_not_eq_true hsize
      refine (meets_checkTask hfree hown visit.checkOrder ip).bind ?_
      rintro mode d' r ⟨hfree, hown, time, before, hcheck, hanswer⟩
      cases r with
      | error status => exact ⟨hfree, .limited hclient hsize hcheck hanswer⟩
      | ok u =>
        have hpassed : server.middleware.Passed d'.log t ip time := ⟨_, before, hcheck, hanswer⟩
        dsimp only
        split
        · rename_i henabled
          refine (meets_authenticateTask visit ip hfree hown).mono ?_
          rintro mode d'' r ⟨hfree, hsuffix, h⟩
          exact ⟨hfree, .judged hclient hsize (hpassed.mono hsuffix) henabled h⟩
        · rename_i henabled
          exact ⟨hfree, .unlocked hclient hsize hpassed (Bool.of_not_eq_true henabled)⟩

/-- **A request to an admin route** is judged by the log. -/
theorem meets_adminAuthTask (visit : Visit) (hfree : Free mode) (hown : Own 0 t d.log) :
    (server.laws tasks).Meets t mode d (server.middleware.adminAuthTask t visit)
      fun mode' d' r => Free mode' ∧ server.middleware.AdminVerdict visit d'.log t r := by
  unfold Middleware.adminAuthTask
  split
  · rename_i henabled
    cases hclient : extractClientIp visit.request server.middleware.auth.trustedProxies with
    | error status => exact ⟨hfree, .noClient henabled hclient⟩
    | ok ip =>
      refine (meets_checkTask hfree hown visit.checkOrder ip).bind ?_
      rintro mode d' r ⟨hfree, hown, time, before, hcheck, hanswer⟩
      cases r with
      | error status => exact ⟨hfree, .limited henabled hclient hcheck hanswer⟩
      | ok u =>
        refine (meets_authenticateTask visit ip hfree hown).mono ?_
        rintro mode d'' r ⟨hfree, hsuffix, h⟩
        have hpassed : server.middleware.Passed d'.log t ip time := ⟨_, before, hcheck, hanswer⟩
        exact ⟨hfree, .judged henabled hclient (hpassed.mono hsuffix) h⟩
  · rename_i hdisabled
    exact ⟨hfree, .disabled (Bool.of_not_eq_true hdisabled)⟩

end

end Server

end

end ApertureRouter
