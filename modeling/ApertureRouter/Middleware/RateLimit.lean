import ApertureRouter.Middleware.Tracked

/-!
# The rate limiter

`RateLimiter` (`src/middleware/rate_limit.rs`): a request of an address is let through if fewer than
`max_requests` of its requests were let through within the window.

* The lock around the table is held throughout each call, so a run is a list of events, each at its
  time. A run is written with its last event first.
* `agrees_of_keeps`: as long as nothing is evicted, the times in the table that still count are those of the
  requests that were let through.
* `sparse_admitted`: so no window holds more than `max_requests` requests of an address, as long as no
  check makes room at its cost (`Keeps`).
* `rate_limit_exact`: and the answer is exact, and other addresses and the background task have no
  part in it.
* `table_bounded`: whatever the run is, the table is bounded (`Capped`), so it can always make room.
-/

namespace ApertureRouter

open Window

/-- What happens to the table: a call of `check_rate_limit`, or a tick of the background task. -/
inductive LimiterOp where
  | check (ip : IpAddr) (order : TrackedOrder)
  | cleanup

structure LimiterEvent where
  time : Nat
  op : LimiterOp

/-- `RateLimiter`, without its table. -/
structure RateLimiter where
  maxRequests : Nat
  window : Nat

namespace RateLimiter

variable (limiter : RateLimiter)

/-- `check_rate_limit`. -/
def checkRateLimit (order : TrackedOrder) (ip : IpAddr) (now : Nat) (requests : Tracked) :
    Except Nat Unit × Tracked :=
  let requests := requests.evict order ip
  let entry := prune limiter.window now (requests.times ip)
  if limiter.maxRequests ≤ entry.length then (.error tooManyRequests, requests.insert ip entry)
  else (.ok (), requests.insert ip (entry ++ [now]))

section

variable {order : TrackedOrder} {ip : IpAddr} {now : Nat} {requests : Tracked}

theorem checkRateLimit_full
    (h : limiter.maxRequests ≤ (prune limiter.window now (requests.times ip)).length) :
    limiter.checkRateLimit order ip now requests = (.error tooManyRequests,
      (requests.evict order ip).insert ip (prune limiter.window now (requests.times ip))) := by
  unfold checkRateLimit
  dsimp only
  rw [Tracked.times_evict_self]
  exact if_pos h

theorem checkRateLimit_room
    (h : (prune limiter.window now (requests.times ip)).length < limiter.maxRequests) :
    limiter.checkRateLimit order ip now requests = (.ok (),
      (requests.evict order ip).insert ip (prune limiter.window now (requests.times ip) ++ [now])) := by
  unfold checkRateLimit
  dsimp only
  rw [Tracked.times_evict_self]
  exact if_neg (Nat.not_le.mpr h)

end

/-! ## Runs -/

/-- The table after a run. -/
def table : List LimiterEvent → Tracked
  | [] => ∅
  | e :: run =>
    match e.op with
    | .check ip order => (limiter.checkRateLimit order ip e.time (table run)).2
    | .cleanup => (table run).cleanup limiter.window e.time

/-- The times of the requests of an address that were let through, oldest first. -/
def admitted (ip : IpAddr) : List LimiterEvent → List Nat
  | [] => []
  | e :: run =>
    match e.op with
    | .check ip' order =>
      if ip' = ip ∧ (limiter.checkRateLimit order ip' e.time (limiter.table run)).1 = .ok () then
        admitted ip run ++ [e.time]
      else admitted ip run
    | .cleanup => admitted ip run

/-- No check makes room at the cost of times of the address that still count. -/
def Keeps (ip : IpAddr) : List LimiterEvent → Prop
  | [] => True
  | e :: run =>
    (∀ ip' order, e.op = .check ip' order →
      prune limiter.window e.time (((limiter.table run).evict order ip').times ip) =
        prune limiter.window e.time ((limiter.table run).times ip)) ∧ Keeps ip run

end RateLimiter

namespace LimiterEvent

/-- The address of a check. -/
def ip? (e : LimiterEvent) : Option IpAddr :=
  match e.op with
  | .check ip _ => some ip
  | .cleanup => none

/-- The times of a run do not decrease. -/
def Ordered (run : List LimiterEvent) : Prop := run.Pairwise fun e e' => e'.time ≤ e.time

/-- The addresses of a run. -/
def ips (run : List LimiterEvent) : List IpAddr := run.filterMap ip?

/-- The checks of one address. -/
def only (ip : IpAddr) (run : List LimiterEvent) : List LimiterEvent :=
  run.filter fun e => e.ip? = some ip

theorem Ordered.of_cons {e : LimiterEvent} {run : List LimiterEvent} (h : Ordered (e :: run)) :
    Ordered run :=
  (List.pairwise_cons.mp h).2

theorem Ordered.le_time {e : LimiterEvent} {run : List LimiterEvent} (h : Ordered (e :: run)) :
    ∀ e' ∈ run, e'.time ≤ e.time :=
  (List.pairwise_cons.mp h).1

theorem ips_subset_cons (e : LimiterEvent) (run : List LimiterEvent) : ips run ⊆ ips (e :: run) :=
  ((List.sublist_cons_self e run).filterMap ip?).subset

theorem ips_only_subset (ip : IpAddr) (run : List LimiterEvent) : ips (only ip run) ⊆ ips run :=
  (List.filter_sublist.filterMap ip?).subset

theorem ordered_only {ip : IpAddr} {run : List LimiterEvent} (h : Ordered run) :
    Ordered (only ip run) :=
  List.Pairwise.sublist List.filter_sublist h

end LimiterEvent

namespace RateLimiter

open LimiterEvent

variable {limiter : RateLimiter} {run : List LimiterEvent}

theorem admitted_le {ip : IpAddr} {now : Nat} (hnow : ∀ e ∈ run, e.time ≤ now) :
    ∀ t ∈ limiter.admitted ip run, t ≤ now := by
  induction run with
  | nil => exact fun t ht => absurd ht List.not_mem_nil
  | cons e run ih =>
    have ih := ih fun e' he' => hnow e' (List.mem_cons_of_mem e he')
    rw [admitted]
    cases e.op with
    | cleanup => exact ih
    | check ip' order =>
      dsimp only
      split
      · exact le_of_mem_concat ih (hnow e List.mem_cons_self)
      · exact ih

/-- An address in the table has been checked. -/
theorem mem_ips_of_mem_table {ip : IpAddr} (h : ip ∈ limiter.table run) : ip ∈ ips run := by
  induction run with
  | nil => cases h
  | cons e run ih =>
    rw [table] at h
    cases hop : e.op with
    | cleanup =>
      rw [hop] at h
      exact ips_subset_cons e run (ih (Tracked.mem_of_mem_cleanup h))
    | check ip' order =>
      rw [hop] at h
      dsimp only at h
      have hmem : ip = ip' ∨ ip ∈ (limiter.table run).evict order ip' := by
        rcases Nat.lt_or_ge (prune limiter.window e.time ((limiter.table run).times ip')).length
          limiter.maxRequests with hroom | hfull
        · rw [limiter.checkRateLimit_room hroom] at h
          exact HashMap.mem_insert.mp h
        · rw [limiter.checkRateLimit_full hfull] at h
          exact HashMap.mem_insert.mp h
      rcases hmem with rfl | hmem
      · exact List.mem_filterMap.mpr ⟨e, List.mem_cons_self, by rw [ip?, hop]⟩
      · exact ips_subset_cons e run (ih (Tracked.mem_of_mem_evict hmem))

/-- Nothing is evicted while the addresses are few. -/
theorem evict_table {ip : IpAddr} (order : TrackedOrder) (hfew : Few (ip :: ips run)) :
    (limiter.table run).evict order ip = limiter.table run :=
  Tracked.evict_eq_self (fun _ h => List.mem_cons_of_mem ip (mem_ips_of_mem_table h))
    List.mem_cons_self hfew

/-- From the last event on, the same times of the table and of the requests that were let through
count. -/
theorem agrees_of_keeps {ip : IpAddr} {now : Nat} (hordered : Ordered run)
    (hkeeps : limiter.Keeps ip run) (hnow : ∀ e ∈ run, e.time ≤ now) :
    Agrees limiter.window now ((limiter.table run).times ip) (limiter.admitted ip run) := by
  induction run generalizing now with
  | nil => exact .refl []
  | cons e run ih =>
    have ih := ih hordered.of_cons hkeeps.2 hordered.le_time
    refine Agrees.mono ?_ (hnow e List.mem_cons_self)
    rw [table, admitted]
    cases hop : e.op with
    | cleanup =>
      dsimp only
      rw [Tracked.times_cleanup]
      exact ih.prune_left
    | check ip' order =>
      have hevict := hkeeps.1 ip' order hop
      dsimp only
      rcases Nat.lt_or_ge (prune limiter.window e.time ((limiter.table run).times ip')).length
        limiter.maxRequests with hroom | hfull
      · rw [limiter.checkRateLimit_room hroom, Tracked.times_insert]
        by_cases hip : ip' = ip
        · subst hip
          rw [if_pos rfl, if_pos ⟨rfl, rfl⟩]
          exact ih.prune_left.concat e.time
        · rw [if_neg (Ne.symm hip), if_neg fun h => hip h.1]
          exact (Agrees.of_prune_eq hevict).trans ih
      · rw [limiter.checkRateLimit_full hfull, Tracked.times_insert]
        rw [if_neg (show ¬ (ip' = ip ∧ _) from fun h => by cases h.2)]
        split
        · rename_i hip
          rw [← hip]
          exact ih.prune_left
        · exact (Agrees.of_prune_eq hevict).trans ih

/-- Few addresses are never thrown away. -/
theorem keeps_of_few (ip : IpAddr) (hfew : Few (ips run)) : limiter.Keeps ip run := by
  induction run with
  | nil => trivial
  | cons e run ih =>
    refine ⟨fun ip' order hop => ?_, ih (hfew.of_subset (ips_subset_cons e run))⟩
    have hmem : ip' ∈ ips (e :: run) :=
      List.mem_filterMap.mpr ⟨e, List.mem_cons_self, by rw [ip?, hop]⟩
    rw [evict_table order (hfew.of_subset (List.cons_subset.mpr ⟨hmem, ips_subset_cons e run⟩))]

/-- A check counts the requests of its address that were let through within the window. -/
theorem length_prune_table {ip : IpAddr} {now : Nat} (hordered : Ordered run)
    (hkeeps : limiter.Keeps ip run) (hnow : ∀ e ∈ run, e.time ≤ now) :
    (prune limiter.window now ((limiter.table run).times ip)).length =
      (limiter.admitted ip run).countP (Within limiter.window now ·) := by
  rw [agrees_of_keeps hordered hkeeps hnow now (Nat.le_refl now)]
  exact length_prune (admitted_le hnow)

/-- **The limit.** No window holds more than `max_requests` requests that were let through. -/
theorem sparse_admitted {ip : IpAddr} (hordered : Ordered run) (hkeeps : limiter.Keeps ip run) :
    Sparse limiter.window limiter.maxRequests (limiter.admitted ip run) := by
  induction run with
  | nil => exact .nil
  | cons e run ih =>
    have ih := ih hordered.of_cons hkeeps.2
    rw [admitted]
    cases e.op with
    | cleanup => exact ih
    | check ip' order =>
      dsimp only
      split
      · rename_i h
        obtain ⟨rfl, hok⟩ := h
        refine ih.concat (admitted_le hordered.le_time) ?_
        rw [← length_prune_table hordered.of_cons hkeeps.2 hordered.le_time]
        refine Nat.lt_of_not_le fun hfull => ?_
        rw [limiter.checkRateLimit_full hfull] at hok
        cases hok
      · exact ih

theorem checkRateLimit_ok_iff (limiter : RateLimiter) (ip : IpAddr) (order : TrackedOrder)
    {now : Nat} (hordered : Ordered run) (hfew : Few (ips run)) (hnow : ∀ e ∈ run, e.time ≤ now) :
    (limiter.checkRateLimit order ip now (limiter.table run)).1 = .ok () ↔
      (limiter.admitted ip run).countP (Within limiter.window now ·) < limiter.maxRequests := by
  rw [← length_prune_table hordered (keeps_of_few ip hfew) hnow]
  rcases Nat.lt_or_ge (prune limiter.window now ((limiter.table run).times ip)).length
    limiter.maxRequests with hroom | hfull
  · rw [limiter.checkRateLimit_room hroom]
    exact iff_of_true rfl hroom
  · rw [limiter.checkRateLimit_full hfull]
    exact iff_of_false (fun h => by cases h) (Nat.not_lt.mpr hfull)

/-- What an address is let through for depends on its own requests. -/
theorem admitted_only (ip : IpAddr) (hordered : Ordered run) (hfew : Few (ips run)) :
    limiter.admitted ip (only ip run) = limiter.admitted ip run := by
  induction run with
  | nil => rfl
  | cons e run ih =>
    have hrun := hfew.of_subset (ips_subset_cons e run)
    have ih := ih hordered.of_cons hrun
    unfold only at ih ⊢
    by_cases he : e.ip? = some ip
    · rw [List.filter_cons_of_pos (by rw [he]; exact decide_eq_true rfl), admitted, admitted]
      cases hop : e.op with
      | cleanup =>
        rw [ip?, hop] at he
        cases he
      | check ip' order =>
        rw [ip?, hop] at he
        obtain rfl := Option.some.inj he
        have honly := limiter.checkRateLimit_ok_iff ip' order
          (ordered_only hordered.of_cons) (hrun.of_subset (ips_only_subset ip' run))
          fun e' he' => hordered.le_time e' (List.mem_of_mem_filter he')
        have hall := limiter.checkRateLimit_ok_iff ip' order
          hordered.of_cons hrun hordered.le_time
        unfold only at honly
        rw [ih, ← hall] at honly
        dsimp only
        rw [ih]
        simp only [honly]
    · rw [List.filter_cons_of_neg (by simpa using he), ih, admitted]
      cases hop : e.op with
      | cleanup => rfl
      | check ip' order =>
        rw [ip?, hop] at he
        exact (if_neg fun h => he (congrArg some h.1)).symm

/-- A request is let through exactly if fewer than `max_requests` requests of its address were let
through within the window. Without all other checks and the background task, the answer is the
same. -/
theorem rate_limit_exact (limiter : RateLimiter) (run : List LimiterEvent) (ip : IpAddr)
    (order : TrackedOrder) (now : Nat) (hordered : Ordered (⟨now, .check ip order⟩ :: run))
    (hfew : Few (ips (⟨now, .check ip order⟩ :: run))) :
    ((limiter.checkRateLimit order ip now (limiter.table run)).1 = .ok () ↔
      (limiter.admitted ip run).countP (Within limiter.window now ·) < limiter.maxRequests) ∧
    (limiter.checkRateLimit order ip now (limiter.table run)).1 =
      (limiter.checkRateLimit order ip now (limiter.table (only ip run))).1 := by
  have hrun := hfew.of_subset (ips_subset_cons _ run)
  have hall := limiter.checkRateLimit_ok_iff ip order
    hordered.of_cons hrun hordered.le_time
  have honly := limiter.checkRateLimit_ok_iff ip order
    (ordered_only hordered.of_cons) (hrun.of_subset (ips_only_subset ip run))
    fun e' he' => hordered.le_time e' (List.mem_of_mem_filter he')
  rw [admitted_only ip hordered.of_cons hrun, ← hall] at honly
  refine ⟨hall, ?_⟩
  rcases Nat.lt_or_ge (prune limiter.window now ((limiter.table run).times ip)).length
    limiter.maxRequests with hroom | hfull
  · rw [limiter.checkRateLimit_room hroom] at honly ⊢
    exact (honly.mpr rfl).symm
  · rcases Nat.lt_or_ge (prune limiter.window now ((limiter.table (only ip run)).times ip)).length
      limiter.maxRequests with hroom' | hfull'
    · rw [limiter.checkRateLimit_full hfull, limiter.checkRateLimit_room hroom'] at honly
      cases honly.mp rfl
    · rw [limiter.checkRateLimit_full hfull, limiter.checkRateLimit_full hfull']

/-- Two requests of an address, a tick of the background task, and a request of another address. -/
def sampleRun : List LimiterEvent :=
  [⟨7, .check (.v4 ⟨10, 0, 0, 2⟩) .entries⟩, ⟨6, .cleanup⟩, ⟨5, .check (.v4 ⟨10, 0, 0, 1⟩) .entries⟩,
    ⟨0, .check (.v4 ⟨10, 0, 0, 1⟩) .entries⟩]

theorem rate_limit_exact_sampleRun :
    ((RateLimiter.checkRateLimit ⟨2, 10⟩ .entries (.v4 ⟨10, 0, 0, 1⟩) 9
        (RateLimiter.table ⟨2, 10⟩ sampleRun)).1 = .ok () ↔
      (RateLimiter.admitted ⟨2, 10⟩ (.v4 ⟨10, 0, 0, 1⟩) sampleRun).countP (Within 10 9 ·) < 2) ∧
    (RateLimiter.checkRateLimit ⟨2, 10⟩ .entries (.v4 ⟨10, 0, 0, 1⟩) 9
        (RateLimiter.table ⟨2, 10⟩ sampleRun)).1 =
      (RateLimiter.checkRateLimit ⟨2, 10⟩ .entries (.v4 ⟨10, 0, 0, 1⟩) 9
        (RateLimiter.table ⟨2, 10⟩ (only (.v4 ⟨10, 0, 0, 1⟩) sampleRun))).1 :=
  rate_limit_exact ⟨2, 10⟩ sampleRun _ .entries 9 (by unfold Ordered; decide) (by unfold Few; decide)

/-! ## A bounded table -/

/-- The table is bounded, and no address has more times than requests can be let through. -/
structure Capped (limiter : RateLimiter) (table : Tracked) : Prop extends table.Bounded where
  capped : ∀ ip log, table.get ip = some log → log.length ≤ limiter.maxRequests

namespace Capped

variable {table : Tracked}

theorem empty (limiter : RateLimiter) : limiter.Capped ∅ where
  toBounded := .empty
  capped _ _ h := by cases h

theorem insert_evict (h : limiter.Capped table) (order : TrackedOrder) (ip : IpAddr)
    {log : List Nat} (hlog : log ≠ []) (hlen : log.length ≤ limiter.maxRequests) :
    limiter.Capped ((table.evict order ip).insert ip log) where
  toBounded := h.toBounded.insert_evict order ip hlog
  capped ip' log' hget := by
    rw [HashMap.get_insert] at hget
    split at hget
    · rw [← Option.some.inj hget]
      exact hlen
    · exact h.capped ip' log' (Tracked.get_of_get_evict hget)

/-- The times of an address that still count are no more than requests can be let through. -/
theorem length_prune_le (h : limiter.Capped table) (ip : IpAddr) (now : Nat) :
    (prune limiter.window now (table.times ip)).length ≤ limiter.maxRequests := by
  refine Nat.le_trans prune_length_le ?_
  unfold Tracked.times
  cases hget : table.get ip with
  | none => exact Nat.zero_le _
  | some log => exact h.capped ip log hget

/-- **A check.** If it refuses the request, the address is full and so has times. If not, there was
room for one more. -/
theorem check (h : limiter.Capped table) (hmax : 0 < limiter.maxRequests) (order : TrackedOrder)
    (ip : IpAddr) (now : Nat) : limiter.Capped (limiter.checkRateLimit order ip now table).2 := by
  rcases Nat.lt_or_ge (prune limiter.window now (table.times ip)).length limiter.maxRequests with
    hroom | hfull
  · rw [limiter.checkRateLimit_room hroom]
    refine h.insert_evict order ip (List.append_ne_nil_of_right_ne_nil _ (by simp)) ?_
    rw [List.length_append]
    exact hroom
  · rw [limiter.checkRateLimit_full hfull]
    have hpos := Nat.lt_of_lt_of_le hmax hfull
    exact h.insert_evict order ip (List.length_pos_iff.mp hpos) (h.length_prune_le ip now)

theorem cleanup (h : limiter.Capped table) (now : Nat) :
    limiter.Capped (table.cleanup limiter.window now) where
  toBounded := h.toBounded.cleanup limiter.window now
  capped ip log hget := by
    rw [Tracked.cleanup, HashMap.get_retain, Option.filter_eq_some_iff, HashMap.get_mapValues] at hget
    obtain ⟨log', hlog', rfl⟩ := Option.map_eq_some_iff.mp hget.1
    exact Nat.le_trans prune_length_le (h.capped ip log' hlog')

end Capped

/-- **A run.** It keeps the table bounded. -/
theorem capped_table (hmax : 0 < limiter.maxRequests) (run : List LimiterEvent) :
    limiter.Capped (limiter.table run) := by
  induction run with
  | nil => exact .empty limiter
  | cons e run ih =>
    rw [table]
    cases e.op with
    | check ip order => exact ih.check hmax order ip e.time
    | cleanup => exact ih.cleanup e.time

/-- After every run, the table holds no more than `MAX_TRACKED_IPS` addresses, each with at least
one time and at most `max_requests`. So there is an address to evict whenever a check has to make
room for another one. -/
theorem table_bounded (limiter : RateLimiter) (hmax : 0 < limiter.maxRequests)
    (run : List LimiterEvent) :
    (limiter.table run).len ≤ maxTrackedIps ∧
      (∀ ip log, (limiter.table run).get ip = some log →
        log ≠ [] ∧ log.length ≤ limiter.maxRequests) ∧
      ∀ ip order, maxTrackedIps ≤ (limiter.table run).len → ip ∉ limiter.table run →
        ∃ oldest ∈ limiter.table run,
          Tracked.oldestIp order (limiter.table run) = some oldest := by
  have h := capped_table hmax run
  refine ⟨h.len_le, fun ip log hget => ⟨h.nonempty ip log hget, h.capped ip log hget⟩, ?_⟩
  intro ip order hfull _
  obtain ⟨oldest, hold⟩ := h.exists_oldestIp order hfull
  exact ⟨oldest, Tracked.oldestIp_mem hold, hold⟩

theorem table_bounded_sampleRun :
    (RateLimiter.table ⟨2, 10⟩ sampleRun).len ≤ maxTrackedIps ∧
      (∀ ip log, (RateLimiter.table ⟨2, 10⟩ sampleRun).get ip = some log →
        log ≠ [] ∧ log.length ≤ 2) ∧
      ∀ ip order, maxTrackedIps ≤ (RateLimiter.table ⟨2, 10⟩ sampleRun).len →
        ip ∉ RateLimiter.table ⟨2, 10⟩ sampleRun →
        ∃ oldest ∈ RateLimiter.table ⟨2, 10⟩ sampleRun,
          Tracked.oldestIp order (RateLimiter.table ⟨2, 10⟩ sampleRun) = some oldest :=
  table_bounded ⟨2, 10⟩ (by decide) sampleRun

end RateLimiter

end ApertureRouter
