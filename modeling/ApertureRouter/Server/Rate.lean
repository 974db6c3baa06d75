import Mathlib.Tactic.Ring
import ApertureRouter.Middleware.BanStore
import ApertureRouter.Server.Router

/-!
# The configured rate

`create_router` counts up to `burst_size` requests of an address in a window, which is
`burst_size / requests_per_second` in whole seconds, and at least one.

* `rate_enforced`: in any interval of `T` seconds this lets no more than
  `requests_per_second * T + burst_size` requests through, if the window is not cut short and the
  address stays in the table.
* `window_of_rate`: a window that is cut short is too short for the rate.
* `rate_not_enforced`: a window that is cut short, and a flood of addresses that makes the table forget one.
-/

namespace ApertureRouter

open Window

/-- The window of the rate limiter, in seconds. -/
def RateLimitConfig.windowSecs (rateLimit : RateLimitConfig) : Nat :=
  max (rateLimit.burstSize / max rateLimit.requestsPerSecond 1) 1

/-- The requests of an address that were let through in an interval, its ends included. A time is in
nanoseconds. -/
def RateLimiter.admittedIn (limiter : RateLimiter) (ip : IpAddr) (run : List LimiterEvent)
    (first len : Nat) : Nat :=
  (limiter.admitted ip run).countP fun t => first ≤ t ∧ t ≤ first + len

/-- The rate of an address over `len` nanoseconds from any time on. -/
def RateLimitConfig.Enforced (rateLimit : RateLimitConfig) (ip : IpAddr) (run : List LimiterEvent) :
    Prop :=
  ∀ first len, (createRateLimiter rateLimit).admittedIn ip run first len * second ≤
    rateLimit.requestsPerSecond * len + rateLimit.burstSize * second

section

variable {rateLimit : RateLimitConfig} {ip : IpAddr} {run : List LimiterEvent}

theorem window_pos : 0 < (createRateLimiter rateLimit).window :=
  Nat.mul_pos (Nat.lt_of_lt_of_le Nat.zero_lt_one (Nat.le_max_right _ _)) (by decide)

/-- **The configured rate.** -/
theorem rate_enforced
    (hwindow : rateLimit.burstSize ≤ rateLimit.requestsPerSecond * rateLimit.windowSecs)
    (hordered : LimiterEvent.Ordered run) (hkeeps : (createRateLimiter rateLimit).Keeps ip run) :
    rateLimit.Enforced ip run := by
  intro first len
  have hcount : (createRateLimiter rateLimit).admittedIn ip run first len ≤
      (len / (rateLimit.windowSecs * second) + 1) * rateLimit.burstSize :=
    (RateLimiter.sparse_admitted hordered hkeeps).countP_interval window_pos len
  generalize hn : len / (rateLimit.windowSecs * second) = n at hcount
  have hlen : n * (rateLimit.windowSecs * second) ≤ len := by
    rw [← hn]
    exact Nat.div_mul_le_self _ _
  calc (createRateLimiter rateLimit).admittedIn ip run first len * second
      ≤ (n + 1) * rateLimit.burstSize * second := Nat.mul_le_mul_right second hcount
    _ = n * second * rateLimit.burstSize + rateLimit.burstSize * second := by ring
    _ ≤ n * second * (rateLimit.requestsPerSecond * rateLimit.windowSecs) +
          rateLimit.burstSize * second :=
        Nat.add_le_add_right (Nat.mul_le_mul_left _ hwindow) _
    _ = rateLimit.requestsPerSecond * (n * (rateLimit.windowSecs * second)) +
          rateLimit.burstSize * second := by ring
    _ ≤ rateLimit.requestsPerSecond * len + rateLimit.burstSize * second :=
        Nat.add_le_add_right (Nat.mul_le_mul_left _ hlen) _

theorem rate_enforced_sampleRun :
    RateLimitConfig.Enforced { requestsPerSecond := 10, burstSize := 30 } (.v4 ⟨10, 0, 0, 1⟩)
      RateLimiter.sampleRun :=
  rate_enforced (by decide) (by unfold LimiterEvent.Ordered; decide)
    (RateLimiter.keeps_of_few _ (by unfold Few; decide))

/-! ## A window that is cut short -/

/-- `n` checks of an address at one time. -/
def checksAt (ip : IpAddr) (n t : Nat) : List LimiterEvent :=
  List.replicate n ⟨t, .check ip .entries⟩

/-- `n` checks of an address at the start, and `n` more at `t`. -/
def twoRounds (ip : IpAddr) (n t : Nat) : List LimiterEvent := checksAt ip n t ++ checksAt ip n 0

theorem of_mem_checksAt {n t : Nat} {e : LimiterEvent} (h : e ∈ checksAt ip n t) :
    e.time = t ∧ e.ip? = some ip := by
  rw [List.eq_of_mem_replicate h]
  exact ⟨rfl, rfl⟩

theorem checksAt_ordered (n t : Nat) : LimiterEvent.Ordered (checksAt ip n t) :=
  List.pairwise_replicate.mpr (.inr (Nat.le_refl t))

/-- The checks may come after a run that is over by then. -/
theorem checksAt_append_ordered (n : Nat) {t : Nat} (hordered : LimiterEvent.Ordered run)
    (ht : ∀ e ∈ run, e.time ≤ t) : LimiterEvent.Ordered (checksAt ip n t ++ run) := by
  refine List.pairwise_append.mpr ⟨?_, hordered, fun e he e' he' => ?_⟩
  · exact checksAt_ordered n t
  · rw [(of_mem_checksAt he).1]
    exact ht e' he'

theorem twoRounds_ordered (n t : Nat) : LimiterEvent.Ordered (twoRounds ip n t) :=
  checksAt_append_ordered n (checksAt_ordered n 0) fun e he => by
    rw [(of_mem_checksAt he).1]
    exact Nat.zero_le t

theorem few_checks (h : ∀ e ∈ run, e.ip? = some ip) : Few (LimiterEvent.ips run) :=
  Few.of_forall_eq fun ip' hmem => by
    obtain ⟨e, he, hip⟩ := List.mem_filterMap.mp hmem
    exact Option.some.inj (hip.symm.trans (h e he))

/-- Checks find room as long as the window is not full. -/
theorem admitted_checksAt {limiter : RateLimiter} {n t : Nat} (hordered : LimiterEvent.Ordered run)
    (hip : ∀ e ∈ run, e.ip? = some ip) (ht : ∀ e ∈ run, e.time ≤ t) (hpos : 0 < limiter.window)
    (hroom : (limiter.admitted ip run).countP (Within limiter.window t ·) + n ≤ limiter.maxRequests) :
    limiter.admitted ip (checksAt ip n t ++ run) = limiter.admitted ip run ++ List.replicate n t := by
  induction n with
  | zero => exact (List.append_nil _).symm
  | succ n ih =>
    have ih := ih (by omega)
    have hmem : ∀ e ∈ checksAt ip n t ++ run, e.time ≤ t ∧ e.ip? = some ip := by
      intro e he
      rcases List.mem_append.mp he with he | he
      · exact ⟨Nat.le_of_eq (of_mem_checksAt he).1, (of_mem_checksAt he).2⟩
      · exact ⟨ht e he, hip e he⟩
    have hok := (limiter.checkRateLimit_ok_iff ip .entries (checksAt_append_ordered n hordered ht)
      (few_checks fun e he => (hmem e he).2) fun e he => (hmem e he).1).mpr (by
        have hwithin : Within limiter.window t t := ⟨Nat.le_refl t, by omega⟩
        rw [ih, List.countP_append, List.countP_replicate, decide_eq_true hwithin, if_pos rfl]
        omega)
    rw [checksAt, List.replicate_succ, List.cons_append, RateLimiter.admitted]
    dsimp only
    rw [if_pos ⟨rfl, hok⟩]
    change limiter.admitted ip (checksAt ip n t ++ run) ++ [t] = _
    rw [ih, List.append_assoc, ← List.replicate_succ']

theorem admitted_twoRounds {limiter : RateLimiter} (hpos : 0 < limiter.window) :
    limiter.admitted ip (twoRounds ip limiter.maxRequests limiter.window) =
      List.replicate limiter.maxRequests 0 ++ List.replicate limiter.maxRequests limiter.window := by
  have hfirst : limiter.admitted ip (checksAt ip limiter.maxRequests 0) =
      List.replicate limiter.maxRequests 0 := by
    have h : limiter.admitted ip (checksAt ip limiter.maxRequests 0 ++ []) =
        [] ++ List.replicate limiter.maxRequests 0 :=
      admitted_checksAt .nil (fun e he => absurd he List.not_mem_nil)
        (fun e he => absurd he List.not_mem_nil) hpos (Nat.le_of_eq (Nat.zero_add _))
    rwa [List.append_nil] at h
  rw [twoRounds, admitted_checksAt, hfirst]
  · exact checksAt_ordered _ 0
  · exact fun e he => (of_mem_checksAt he).2
  · intro e he
    rw [(of_mem_checksAt he).1]
    exact Nat.zero_le _
  · exact hpos
  · have hout : ¬ Within limiter.window limiter.window 0 := fun h => by
      have := h.2
      omega
    rw [hfirst, List.countP_replicate, decide_eq_false hout, if_neg Bool.false_ne_true]
    omega

/-- The two rounds are let through, the second one a window after the first. -/
theorem admittedIn_twoRounds {limiter : RateLimiter} (hpos : 0 < limiter.window) :
    limiter.admittedIn ip (twoRounds ip limiter.maxRequests limiter.window) 0 limiter.window =
      limiter.maxRequests + limiter.maxRequests := by
  have hzero : 0 ≤ 0 ∧ 0 ≤ 0 + limiter.window := ⟨Nat.le_refl 0, Nat.zero_le _⟩
  have hlast : 0 ≤ limiter.window ∧ limiter.window ≤ 0 + limiter.window :=
    ⟨Nat.zero_le _, Nat.le_of_eq (Nat.zero_add _).symm⟩
  rw [RateLimiter.admittedIn, admitted_twoRounds hpos, List.countP_append, List.countP_replicate,
    List.countP_replicate, decide_eq_true hzero, decide_eq_true hlast, if_pos rfl]

/-- The rate is not enforced with any shorter window. -/
theorem window_of_rate
    (h : rateLimit.Enforced ip (twoRounds ip rateLimit.burstSize (rateLimit.windowSecs * second))) :
    rateLimit.burstSize ≤ rateLimit.requestsPerSecond * rateLimit.windowSecs := by
  have hrounds := h 0 (rateLimit.windowSecs * second)
  have hcount : (createRateLimiter rateLimit).admittedIn ip
      (twoRounds ip rateLimit.burstSize (rateLimit.windowSecs * second)) 0
      (rateLimit.windowSecs * second) = rateLimit.burstSize + rateLimit.burstSize :=
    admittedIn_twoRounds window_pos
  rw [hcount, Nat.add_mul, ← Nat.mul_assoc] at hrounds
  exact Nat.le_of_mul_le_mul_right (Nat.le_of_add_le_add_right hrounds) (by decide)

/-! ## A flood of addresses -/

/-- One check of each of `n` addresses, the first one before the others. -/
def floodOfChecks : Nat → List LimiterEvent
  | 0 => []
  | n + 1 => ⟨min n 1, .check (BanStore.floodIp n) .entries⟩ :: floodOfChecks n

theorem time_le_of_mem_flood {n : Nat} : ∀ e ∈ floodOfChecks n, e.time ≤ min (n - 1) 1 := by
  induction n with
  | zero => exact fun e he => absurd he List.not_mem_nil
  | succ n ih =>
    refine List.forall_mem_cons.mpr ⟨Nat.le_refl _, fun e he => ?_⟩
    have := ih e he
    omega

theorem floodOfChecks_ordered (n : Nat) : LimiterEvent.Ordered (floodOfChecks n) := by
  induction n with
  | zero => exact .nil
  | succ n ih =>
    refine List.pairwise_cons.mpr ⟨fun e he => ?_, ih⟩
    have := time_le_of_mem_flood e he
    show e.time ≤ min n 1
    omega

/-- One request per second. -/
def onePerSecond : RateLimitConfig := { requestsPerSecond := 1, burstSize := 1 }

/-- The table after the flood. -/
def floodTable (n : Nat) : Tracked := (createRateLimiter onePerSecond).table (floodOfChecks n)

/-- A check of an address that is not in the table. -/
theorem floodTable_succ {n : Nat} (hnew : BanStore.floodIp n ∉ floodTable n) :
    floodTable (n + 1) = ((floodTable n).evict .entries (BanStore.floodIp n)).insert
      (BanStore.floodIp n) [min n 1] := by
  have htimes : (floodTable n).times (BanStore.floodIp n) = [] := by
    rw [Tracked.times, HashMap.get_eq_none.mpr hnew]
    rfl
  have hroom := @RateLimiter.checkRateLimit_room (createRateLimiter onePerSecond) .entries
    (BanStore.floodIp n) (min n 1) (floodTable n) (by rw [htimes]; exact Nat.zero_lt_one)
  rw [htimes] at hroom
  exact congrArg Prod.snd hroom

/-- The address of a later check is not in a table of the earlier ones. -/
theorem floodIp_notMem {n : Nat} (hn : n < 16777216) {m : Tracked}
    (hget : ∀ ip log, m.get ip = some log ↔ ∃ i < n, ip = BanStore.floodIp i ∧ log = [min i 1]) :
    BanStore.floodIp n ∉ m := by
  intro hmem
  obtain ⟨log, hlog⟩ := HashMap.mem_iff_get.mp hmem
  obtain ⟨i, hi, heq, -⟩ := (hget _ _).mp hlog
  exact absurd (BanStore.floodIp_inj hn (by omega) heq) (by omega)

/-- As long as there is room, each address has the time of its check. -/
theorem get_floodTable {n : Nat} (hn : n ≤ maxTrackedIps) :
    (floodTable n).len = n ∧ ∀ ip log, (floodTable n).get ip = some log ↔
      ∃ i < n, ip = BanStore.floodIp i ∧ log = [min i 1] := by
  induction n with
  | zero => exact ⟨rfl, fun ip log => iff_of_false (fun h => by cases h) fun ⟨_, h, _⟩ => by cases h⟩
  | succ n ih =>
    obtain ⟨hlen, hget⟩ := ih (by omega)
    have hmax : maxTrackedIps = 10000 := rfl
    have hnew : BanStore.floodIp n ∉ floodTable n := floodIp_notMem (by omega) hget
    have hevict : (floodTable n).evict .entries (BanStore.floodIp n) = floodTable n :=
      if_neg fun h => by
        have := h.1
        omega
    rw [floodTable_succ hnew, hevict]
    refine ⟨by rw [HashMap.len_insert_of_notMem hnew, hlen], fun ip log => ?_⟩
    rw [HashMap.get_insert]
    split
    · rename_i hip
      subst hip
      constructor
      · intro h
        exact ⟨n, Nat.lt_succ_self n, rfl, (Option.some.inj h).symm⟩
      · rintro ⟨i, hi, heq, rfl⟩
        obtain rfl := BanStore.floodIp_inj (by omega) (by omega) heq
        rfl
    · rename_i hip
      rw [hget]
      constructor
      · rintro ⟨i, hi, rfl, rfl⟩
        exact ⟨i, Nat.lt_succ_of_lt hi, rfl, rfl⟩
      · rintro ⟨i, hi, rfl, rfl⟩
        have hne : i ≠ n := fun h => hip (by rw [h])
        exact ⟨i, by omega, rfl, rfl⟩

/-- The first address makes room for the last one. -/
theorem oldestIp_floodTable :
    Tracked.oldestIp .entries (floodTable maxTrackedIps) = some (BanStore.floodIp 0) := by
  obtain ⟨hlen, hget⟩ := get_floodTable (Nat.le_refl maxTrackedIps)
  have hbounded : (floodTable maxTrackedIps).Bounded := by
    refine ⟨fun ip log h => ?_, Nat.le_of_eq hlen⟩
    obtain ⟨i, -, -, rfl⟩ := (hget ip log).mp h
    exact List.cons_ne_nil _ _
  have hfirst : (floodTable maxTrackedIps).get (BanStore.floodIp 0) = some [0] :=
    (hget _ _).mpr ⟨0, by decide, rfl, rfl⟩
  obtain ⟨ip, hip⟩ := hbounded.exists_oldestIp .entries (Nat.le_of_eq hlen.symm)
  rw [hip]
  obtain ⟨⟨ip', t⟩, hmin, rfl⟩ := Option.map_eq_some_iff.mp hip
  -- No last time is before the one of the first address.
  have hmem := (IterOrder.mem_list IterOrder.entries).mpr hfirst
  have hle : t ≤ 0 := List.le_of_mem_argmin (f := Prod.snd) (a := (BanStore.floodIp 0, 0))
    (List.mem_filterMap.mpr ⟨_, hmem, rfl⟩) hmin
  obtain ⟨⟨ip'', log⟩, he, hlast⟩ := List.mem_filterMap.mp (List.argmin_mem hmin)
  obtain ⟨t', ht', heq⟩ := Option.map_eq_some_iff.mp hlast
  obtain ⟨i, -, rfl, rfl⟩ := (hget _ _).mp ((IterOrder.mem_list IterOrder.entries).mp he)
  cases heq
  have ht : min i 1 = t := Option.some.inj ht'
  have hi : i = 0 := by omega
  exact congrArg (fun j => some (BanStore.floodIp j)) hi

/-- The first address is not in the table after one address more. -/
theorem times_floodTable : (floodTable (maxTrackedIps + 1)).times (BanStore.floodIp 0) = [] := by
  obtain ⟨hlen, hget⟩ := get_floodTable (Nat.le_refl maxTrackedIps)
  have hmax : maxTrackedIps = 10000 := rfl
  have hnew : BanStore.floodIp maxTrackedIps ∉ floodTable maxTrackedIps :=
    floodIp_notMem (by decide) hget
  have hevict : (floodTable maxTrackedIps).evict .entries (BanStore.floodIp maxTrackedIps) =
      (floodTable maxTrackedIps).remove (BanStore.floodIp 0) := by
    unfold Tracked.evict
    rw [if_pos ⟨Nat.le_of_eq hlen.symm, hnew⟩, oldestIp_floodTable]
  have hne : BanStore.floodIp 0 ≠ BanStore.floodIp maxTrackedIps := fun h =>
    absurd (BanStore.floodIp_inj (by omega) (by omega) h) (by omega)
  rw [floodTable_succ hnew, hevict, Tracked.times_insert, if_neg hne, Tracked.times_remove,
    if_pos rfl]

/-- The first address was let through at its check. -/
theorem admitted_flood {n : Nat} (hn : n < 16777216) :
    (createRateLimiter onePerSecond).admitted (BanStore.floodIp 0) (floodOfChecks (n + 1)) = [0] := by
  induction n with
  | zero => rfl
  | succ n ih =>
    have hne : BanStore.floodIp (n + 1) ≠ BanStore.floodIp 0 := fun h =>
      absurd (BanStore.floodIp_inj hn (by omega) h) (by omega)
    rw [floodOfChecks, RateLimiter.admitted]
    dsimp only
    rw [if_neg fun h => hne h.1]
    exact ih (by omega)

/-- After the flood, the first address comes again. -/
def evictedRun : List LimiterEvent :=
  ⟨1, .check (BanStore.floodIp 0) .entries⟩ :: floodOfChecks (maxTrackedIps + 1)

theorem evictedRun_ordered : LimiterEvent.Ordered evictedRun :=
  List.pairwise_cons.mpr ⟨fun e he => Nat.le_trans (time_le_of_mem_flood e he) (Nat.min_le_right _ _),
    floodOfChecks_ordered _⟩

theorem admitted_evictedRun :
    (createRateLimiter onePerSecond).admitted (BanStore.floodIp 0) evictedRun = [0, 1] := by
  have hok := congrArg Prod.fst (@RateLimiter.checkRateLimit_room (createRateLimiter onePerSecond)
    .entries (BanStore.floodIp 0) 1 (floodTable (maxTrackedIps + 1))
    (by rw [times_floodTable]; exact Nat.zero_lt_one))
  rw [evictedRun, RateLimiter.admitted]
  dsimp only
  rw [if_pos ⟨rfl, hok⟩, admitted_flood (by decide)]
  rfl

end

/-- A window that is cut short, and a table that forgets. -/
theorem rate_not_enforced :
    (LimiterEvent.Ordered (twoRounds (BanStore.floodIp 0) 3 second) ∧
      ¬ RateLimitConfig.Enforced { requestsPerSecond := 2, burstSize := 3 } (BanStore.floodIp 0)
        (twoRounds (BanStore.floodIp 0) 3 second)) ∧
    (LimiterEvent.Ordered evictedRun ∧ ¬ onePerSecond.Enforced (BanStore.floodIp 0) evictedRun) := by
  refine ⟨⟨twoRounds_ordered _ _, fun h => ?_⟩, evictedRun_ordered, fun h => ?_⟩
  · exact absurd (window_of_rate h) (by decide)
  · have h := h 0 1
    rw [RateLimiter.admittedIn, admitted_evictedRun] at h
    exact absurd h (by decide)

end ApertureRouter
