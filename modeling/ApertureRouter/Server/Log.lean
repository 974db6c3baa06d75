import ApertureRouter.Middleware.Auth

/-!
# What the middleware has done

The tasks of the router share the rate limiter, the failures and the bans. A log has every operation on
them, by whom and when, with the last one first. It says what the tables are when nobody writes them
(`requestsAt`, `storeAt`), and how a request is judged (`Verdict`, `AdminVerdict`): each operation of the
request meets the tables of the log before it.

* The times of a log need not be in order, but those of the checks are, and those of the failures and
  the bans are (`LogInv`). A ban is written down when it is made, with the time of its failure.
* `passed`: the requests of an address that the limiter has let through, with their times.
-/

namespace ApertureRouter

/-- An operation of the middleware on what the tasks share. -/
inductive GuardOp where
  | limiter (op : LimiterOp)
  | isBanned (ip : IpAddr)
  | auth (op : AuthOp)

/-- A request is checked, then looked up among the bans, and then recorded. -/
def GuardOp.stage : GuardOp → Nat
  | limiter _ => 0
  | isBanned _ => 1
  | auth _ => 2

/-- An operation in the log. -/
structure Entry (τ : Type) where
  task : τ
  time : Nat
  op : GuardOp

section

variable {τ : Type}

/-- The operation as an event of the rate limiter. -/
def Entry.limiter? (e : Entry τ) : Option LimiterEvent :=
  match e.op with
  | .limiter op => some ⟨e.time, op⟩
  | .isBanned _ | .auth _ => none

/-- The operation as an event of the failures and the bans. -/
def Entry.auth? (e : Entry τ) : Option AuthEvent :=
  match e.op with
  | .auth op => some ⟨e.time, op⟩
  | .limiter _ | .isBanned _ => none

/-- The run of the rate limiter. -/
def limiterRun (log : List (Entry τ)) : List LimiterEvent := log.filterMap Entry.limiter?

/-- The run of the failures and the bans. -/
def authRun (log : List (Entry τ)) : List AuthEvent := log.filterMap Entry.auth?

theorem exists_of_mem_limiterRun {log : List (Entry τ)} {e : LimiterEvent} (h : e ∈ limiterRun log) :
    ∃ entry ∈ log, entry.time = e.time := by
  obtain ⟨entry, hmem, he⟩ := List.mem_filterMap.mp h
  refine ⟨entry, hmem, ?_⟩
  unfold Entry.limiter? at he
  split at he
  · rw [← Option.some.inj he]
  · cases he
  · cases he

theorem exists_of_mem_authRun {log : List (Entry τ)} {e : AuthEvent} (h : e ∈ authRun log) :
    ∃ entry ∈ log, entry.time = e.time := by
  obtain ⟨entry, hmem, he⟩ := List.mem_filterMap.mp h
  refine ⟨entry, hmem, ?_⟩
  unfold Entry.auth? at he
  split at he
  · rw [← Option.some.inj he]
  · cases he
  · cases he

/-! ## Well-formed logs -/

/-- What every log of the router is like at the time `now`. -/
structure LogInv (now : Nat) (log : List (Entry τ)) : Prop where
  limiter : LimiterEvent.Ordered (limiterRun log)
  auth : AuthEvent.Ordered (authRun log)
  past : ∀ e ∈ log, e.time ≤ now
  /-- The operations of a task are in order, and each is made once. -/
  stages : log.Pairwise fun e e' => e.task = e'.task → e'.op.stage < e.op.stage

namespace LogInv

variable {now later : Nat} {log : List (Entry τ)}

theorem nil : LogInv now ([] : List (Entry τ)) :=
  ⟨.nil, .nil, fun _ he => absurd he List.not_mem_nil, .nil⟩

theorem mono (h : LogInv now log) (hle : now ≤ later) : LogInv later log :=
  ⟨h.limiter, h.auth, fun e he => (h.past e he).trans hle, h.stages⟩

theorem limiter_le (h : LogInv now log) : ∀ e ∈ limiterRun log, e.time ≤ now := by
  intro e he
  obtain ⟨entry, hmem, htime⟩ := exists_of_mem_limiterRun he
  rw [← htime]
  exact h.past entry hmem

theorem auth_le (h : LogInv now log) : ∀ e ∈ authRun log, e.time ≤ now := by
  intro e he
  obtain ⟨entry, hmem, htime⟩ := exists_of_mem_authRun he
  rw [← htime]
  exact h.past entry hmem

/-- An operation is written down. -/
theorem push (h : LogInv now log) {e : Entry τ} (htime : e.time ≤ now)
    (hlimiter : ∀ event ∈ e.limiter?, ∀ event' ∈ limiterRun log, event'.time ≤ event.time)
    (hauth : ∀ event ∈ e.auth?, ∀ event' ∈ authRun log, event'.time ≤ event.time)
    (hstage : ∀ e' ∈ log, e'.task = e.task → e'.op.stage < e.op.stage) :
    LogInv now (e :: log) where
  limiter := by
    unfold limiterRun
    cases hevent : e.limiter? with
    | none =>
      rw [List.filterMap_cons_none hevent]
      exact h.limiter
    | some event =>
      rw [List.filterMap_cons_some hevent]
      exact List.pairwise_cons.mpr ⟨hlimiter event hevent, h.limiter⟩
  auth := by
    unfold authRun
    cases hevent : e.auth? with
    | none =>
      rw [List.filterMap_cons_none hevent]
      exact h.auth
    | some event =>
      rw [List.filterMap_cons_some hevent]
      exact List.pairwise_cons.mpr ⟨hauth event hevent, h.auth⟩
  past := List.forall_mem_cons.mpr ⟨htime, h.past⟩
  stages := List.pairwise_cons.mpr ⟨fun e' he' hsame => hstage e' he' hsame.symm, h.stages⟩

end LogInv

/-! ## What the log says -/

namespace Middleware

variable (m : Middleware)

/-- The table of the rate limiter after the log. -/
def requestsAt (log : List (Entry τ)) : Tracked := m.rateLimiter.table (limiterRun log)

/-- The failures and the bans after the log. -/
def storeAt (log : List (Entry τ)) : BanStore := BanStore.afterRun m.auth.limits (authRun log)

/-- What the limiter says to a check after the log. -/
def checkAt (order : TrackedOrder) (ip : IpAddr) (now : Nat) (log : List (Entry τ)) : Except Nat Unit :=
  (m.rateLimiter.checkRateLimit order ip now (m.requestsAt log)).1

/-- The task was let through. -/
def Passed (log : List (Entry τ)) (t : τ) (ip : IpAddr) (time : Nat) : Prop :=
  ∃ order before, ⟨t, time, .limiter (.check ip order)⟩ :: before <:+ log ∧
    m.checkAt order ip time before = .ok ()

/-- The requests of the address that were let through, with their times, oldest first. -/
def passed (ip : IpAddr) : List (Entry τ) → List (τ × Nat)
  | [] => []
  | e :: log =>
    match e.op with
    | .limiter (.check ip' order) =>
      if ip' = ip ∧ m.checkAt order ip' e.time log = .ok () then passed ip log ++ [(e.task, e.time)]
      else passed ip log
    | .limiter .cleanup | .isBanned _ | .auth _ => passed ip log

/-- What follows the limiter, for a request of the address: a look at the bans, and the key. -/
inductive Authenticated (valid : String → Bool) (visit : Visit) (log : List (Entry τ)) (t : τ)
    (ip : IpAddr) : Except Nat Unit → Prop where
  | banned {time : Nat} {before : List (Entry τ)} (hlook : ⟨t, time, .isBanned ip⟩ :: before <:+ log)
    (h : (m.storeAt before).isBanned ip time = true) :
    Authenticated valid visit log t ip (.error tooManyRequests)
  | accepted {time time' : Nat} {before before' : List (Entry τ)}
    (hlook : ⟨t, time, .isBanned ip⟩ :: before <:+ log)
    (hclear : (m.storeAt before).isBanned ip time = false)
    (hkey : visit.request.apiKey.any valid = true)
    (hrecord : ⟨t, time', .auth (.recordSuccess ip)⟩ :: before' <:+ log) :
    Authenticated valid visit log t ip (.ok ())
  | rejected {time time' delay : Nat} {before before' : List (Entry τ)}
    (hlook : ⟨t, time, .isBanned ip⟩ :: before <:+ log)
    (hclear : (m.storeAt before).isBanned ip time = false)
    (hkey : visit.request.apiKey.any valid = false)
    (hrecord : ⟨t, time', .auth (.recordFailure ip visit.failureOrder delay)⟩ :: before' <:+ log) :
    Authenticated valid visit log t ip
      (((m.storeAt before').recordFailure m.auth.limits visit.failureOrder ip time' delay).1 >>=
        fun _ => .error unauthorized)

/-- How `auth_middleware` judges a request, by the log. -/
inductive Verdict (visit : Visit) (log : List (Entry τ)) (t : τ) : Except Nat Unit → Prop where
  | noClient {status : Nat} (h : extractClientIp visit.request m.auth.trustedProxies = .error status) :
    Verdict visit log t (.error status)
  | oversized {ip : IpAddr} (hip : extractClientIp visit.request m.auth.trustedProxies = .ok ip)
    (h : m.oversized visit = true) : Verdict visit log t (.error payloadTooLarge)
  | limited {ip : IpAddr} {time status : Nat} {before : List (Entry τ)}
    (hip : extractClientIp visit.request m.auth.trustedProxies = .ok ip)
    (hsize : m.oversized visit = false)
    (hcheck : ⟨t, time, .limiter (.check ip visit.checkOrder)⟩ :: before <:+ log)
    (h : m.checkAt visit.checkOrder ip time before = .error status) :
    Verdict visit log t (.error status)
  | unlocked {ip : IpAddr} {time : Nat}
    (hip : extractClientIp visit.request m.auth.trustedProxies = .ok ip)
    (hsize : m.oversized visit = false) (hpassed : m.Passed log t ip time)
    (h : m.auth.isEnabled = false) : Verdict visit log t (.ok ())
  | judged {ip : IpAddr} {time : Nat} {r : Except Nat Unit}
    (hip : extractClientIp visit.request m.auth.trustedProxies = .ok ip)
    (hsize : m.oversized visit = false) (hpassed : m.Passed log t ip time)
    (henabled : m.auth.isEnabled = true)
    (h : m.Authenticated m.auth.validateApiKey visit log t ip r) : Verdict visit log t r

/-- How `admin_auth_middleware` judges a request, by the log. -/
inductive AdminVerdict (visit : Visit) (log : List (Entry τ)) (t : τ) : Except Nat Unit → Prop where
  | disabled (h : m.auth.isAdminEnabled = false) : AdminVerdict visit log t (.error unauthorized)
  | noClient {status : Nat} (henabled : m.auth.isAdminEnabled = true)
    (h : extractClientIp visit.request m.auth.trustedProxies = .error status) :
    AdminVerdict visit log t (.error status)
  | limited {ip : IpAddr} {time status : Nat} {before : List (Entry τ)}
    (henabled : m.auth.isAdminEnabled = true)
    (hip : extractClientIp visit.request m.auth.trustedProxies = .ok ip)
    (hcheck : ⟨t, time, .limiter (.check ip visit.checkOrder)⟩ :: before <:+ log)
    (h : m.checkAt visit.checkOrder ip time before = .error status) :
    AdminVerdict visit log t (.error status)
  | judged {ip : IpAddr} {time : Nat} {r : Except Nat Unit}
    (henabled : m.auth.isAdminEnabled = true)
    (hip : extractClientIp visit.request m.auth.trustedProxies = .ok ip)
    (hpassed : m.Passed log t ip time)
    (h : m.Authenticated m.auth.validateAdminKey visit log t ip r) : AdminVerdict visit log t r

variable {m} {valid : String → Bool} {visit : Visit} {log log' : List (Entry τ)} {t : τ} {ip : IpAddr}
  {r : Except Nat Unit}

/-- Their times are those of the run of the limiter. -/
theorem passed_times (m : Middleware) (ip : IpAddr) (log : List (Entry τ)) :
    (m.passed ip log).map (·.2) = m.rateLimiter.admitted ip (limiterRun log) := by
  induction log with
  | nil => rfl
  | cons e log ih =>
    obtain ⟨t, time, op⟩ := e
    rw [passed]
    cases op with
    | limiter op =>
      cases op with
      | check ip' order =>
        show List.map _ (if ip' = ip ∧ m.checkAt order ip' time log = .ok () then _ else _) =
          if ip' = ip ∧ m.checkAt order ip' time log = .ok () then _ else _
        split
        · rw [List.map_append, ih]
          rfl
        · exact ih
      | cleanup => exact ih
    | isBanned ip' | auth op => exact ih

theorem mem_passed {time : Nat} : (t, time) ∈ m.passed ip log ↔ m.Passed log t ip time := by
  induction log with
  | nil =>
    refine iff_of_false List.not_mem_nil fun ⟨order, before, hsuffix, _⟩ => ?_
    cases List.suffix_nil.mp hsuffix
  | cons e log ih =>
    have hcons : m.Passed (e :: log) t ip time ↔
        (∃ order, ⟨t, time, .limiter (.check ip order)⟩ = e ∧ m.checkAt order ip time log = .ok ()) ∨
          m.Passed log t ip time := by
      constructor
      · rintro ⟨order, before, hsuffix, hok⟩
        rcases List.suffix_cons_iff.mp hsuffix with heq | hsuffix
        · obtain ⟨rfl, rfl⟩ := List.cons.inj heq
          exact .inl ⟨order, rfl, hok⟩
        · exact .inr ⟨order, before, hsuffix, hok⟩
      · rintro (⟨order, rfl, hok⟩ | h)
        · exact ⟨order, log, List.suffix_rfl, hok⟩
        · obtain ⟨order, before, hsuffix, hok⟩ := h
          exact ⟨order, before, hsuffix.trans (List.suffix_cons _ _), hok⟩
    rw [hcons, passed]
    obtain ⟨t', time', op⟩ := e
    by_cases hop : ∃ order, op = .limiter (.check ip order) ∧ m.checkAt order ip time' log = .ok ()
    · obtain ⟨order, rfl, hok⟩ := hop
      dsimp only
      rw [if_pos ⟨rfl, hok⟩, List.mem_append, ih, List.mem_singleton, or_comm]
      refine or_congr_left ⟨fun he => ?_, fun ⟨order', he, _⟩ => ?_⟩
      · obtain ⟨rfl, rfl⟩ := Prod.mk.inj he
        exact ⟨order, rfl, hok⟩
      · obtain ⟨rfl, rfl, -⟩ := Entry.mk.inj he
        rfl
    · have hother : ¬∃ order, ⟨t, time, .limiter (.check ip order)⟩ = (⟨t', time', op⟩ : Entry τ) ∧
          m.checkAt order ip time log = .ok () := by
        rintro ⟨order, he, hok⟩
        obtain ⟨rfl, rfl, rfl⟩ := Entry.mk.inj he
        exact hop ⟨order, rfl, hok⟩
      rw [or_iff_right hother, ← ih]
      cases op with
      | limiter op =>
        cases op with
        | check ip' order =>
          dsimp only
          rw [if_neg]
          rintro ⟨rfl, hok⟩
          exact hop ⟨order, rfl, hok⟩
        | cleanup => rfl
      | isBanned ip' | auth op => rfl

/-- What it takes to be accepted: a key, and an address that is not banned when it is looked up. -/
theorem Authenticated.admitted (h : m.Authenticated valid visit log t ip (.ok ())) :
    (∃ time before, ⟨t, time, .isBanned ip⟩ :: before <:+ log ∧
      (m.storeAt before).isBanned ip time = false) ∧
    ∃ key, visit.request.apiKey = some key ∧ valid key = true := by
  generalize hr : (.ok () : Except Nat Unit) = r at h
  cases h with
  | banned hlook h => cases hr
  | accepted hlook hclear hkey hrecord =>
    exact ⟨⟨_, _, hlook, hclear⟩, (Option.any_eq_true _ _).mp hkey⟩
  | @rejected time time' delay before before' hlook hclear hkey hrecord =>
    cases hfailure : ((m.storeAt before').recordFailure m.auth.limits visit.failureOrder _ time'
        delay).1 with
    | error status =>
      rw [hfailure] at hr
      cases hr
    | ok u =>
      rw [hfailure] at hr
      cases hr

/-- **What it takes** to be let through: room for the address, and if there are keys, one of them from an
address that is not banned. -/
theorem Verdict.admitted (h : m.Verdict visit log t (.ok ())) :
    ∃ ip time, extractClientIp visit.request m.auth.trustedProxies = .ok ip ∧
      m.oversized visit = false ∧ (t, time) ∈ m.passed ip log ∧
      (m.auth.isEnabled = true →
        (∃ time' before, ⟨t, time', .isBanned ip⟩ :: before <:+ log ∧
          (m.storeAt before).isBanned ip time' = false) ∧
        ∃ key, visit.request.apiKey = some key ∧ (key ∈ m.auth.apiKeys ∨ key ∈ m.auth.adminApiKeys)) := by
  generalize hr : (.ok () : Except Nat Unit) = r at h
  cases h with
  | noClient h => cases hr
  | oversized hip h => cases hr
  | limited hip hsize hcheck h => cases hr
  | unlocked hip hsize hpassed h =>
    refine ⟨_, _, hip, hsize, mem_passed.mpr hpassed, fun henabled => ?_⟩
    rw [h] at henabled
    cases henabled
  | judged hip hsize hpassed henabled h =>
    subst hr
    obtain ⟨hclear, key, hkey, hvalid⟩ := h.admitted
    exact ⟨_, _, hip, hsize, mem_passed.mpr hpassed, fun _ =>
      ⟨hclear, key, hkey, m.auth.validateApiKey_iff.mp hvalid⟩⟩

/-- And to be let through as an admin. -/
theorem AdminVerdict.admitted (h : m.AdminVerdict visit log t (.ok ())) :
    ∃ ip time, extractClientIp visit.request m.auth.trustedProxies = .ok ip ∧
      (t, time) ∈ m.passed ip log ∧
      (∃ time' before, ⟨t, time', .isBanned ip⟩ :: before <:+ log ∧
        (m.storeAt before).isBanned ip time' = false) ∧
      ∃ key, visit.request.apiKey = some key ∧ key ∈ m.auth.adminApiKeys := by
  generalize hr : (.ok () : Except Nat Unit) = r at h
  cases h with
  | disabled h => cases hr
  | noClient henabled h => cases hr
  | limited henabled hip hcheck h => cases hr
  | judged henabled hip hpassed h =>
    subst hr
    obtain ⟨hclear, key, hkey, hvalid⟩ := h.admitted
    exact ⟨_, _, hip, mem_passed.mpr hpassed, hclear, key, hkey, m.auth.validateAdminKey_iff.mp hvalid⟩

/-! What has been written down stays. -/

theorem Passed.mono {time : Nat} (h : m.Passed log t ip time) (hlog : log <:+ log') :
    m.Passed log' t ip time := by
  obtain ⟨order, before, hsuffix, hok⟩ := h
  exact ⟨order, before, hsuffix.trans hlog, hok⟩

theorem Authenticated.mono (h : m.Authenticated valid visit log t ip r) (hlog : log <:+ log') :
    m.Authenticated valid visit log' t ip r := by
  cases h with
  | banned hlook h => exact .banned (hlook.trans hlog) h
  | accepted hlook hclear hkey hrecord =>
    exact .accepted (hlook.trans hlog) hclear hkey (hrecord.trans hlog)
  | rejected hlook hclear hkey hrecord =>
    exact .rejected (hlook.trans hlog) hclear hkey (hrecord.trans hlog)

theorem Verdict.mono (h : m.Verdict visit log t r) (hlog : log <:+ log') : m.Verdict visit log' t r := by
  cases h with
  | noClient h => exact .noClient h
  | oversized hip h => exact .oversized hip h
  | limited hip hsize hcheck h => exact .limited hip hsize (hcheck.trans hlog) h
  | unlocked hip hsize hpassed h => exact .unlocked hip hsize (hpassed.mono hlog) h
  | judged hip hsize hpassed henabled h =>
    exact .judged hip hsize (hpassed.mono hlog) henabled (h.mono hlog)

theorem AdminVerdict.mono (h : m.AdminVerdict visit log t r) (hlog : log <:+ log') :
    m.AdminVerdict visit log' t r := by
  cases h with
  | disabled h => exact .disabled h
  | noClient henabled h => exact .noClient henabled h
  | limited henabled hip hcheck h => exact .limited henabled hip (hcheck.trans hlog) h
  | judged henabled hip hpassed h => exact .judged henabled hip (hpassed.mono hlog) (h.mono hlog)

end Middleware

end

end ApertureRouter
