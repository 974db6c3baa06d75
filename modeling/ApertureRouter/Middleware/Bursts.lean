import ApertureRouter.Middleware.Bans

/-!
# Bursts of failures

`record_failure` does not store a failure that comes when there are enough without it; it bans the
address once more. If that ban ends before the failure stops counting, the failure is missing, and a
burst that it is part of goes unbanned.

* `isBanned_apply_of_ne`, `prune_apply_of_few`: what the events of others leave alone.
* `isBanned_of_full`: with a ban that lasts long enough, no failure comes when there are enough.
* `Accounted`: all failures that count are stored, except while the address is banned.
* `bursts_banned_iff`: every burst is banned exactly if a ban lasts at least as long as a failure
  counts, or a single failure is enough.
-/

namespace ApertureRouter

open Window

/-- The address of a call. -/
def AuthEvent.ip? (e : AuthEvent) : Option IpAddr :=
  match e.op with
  | .recordFailure ip _ _ => some ip
  | .recordSuccess ip => some ip
  | .cleanup => none

/-- The addresses of a run. -/
def AuthEvent.ips (run : List AuthEvent) : List IpAddr := run.filterMap ip?

theorem AuthEvent.ips_subset_cons (e : AuthEvent) (run : List AuthEvent) : ips run ⊆ ips (e :: run) :=
  ((List.sublist_cons_self e run).filterMap ip?).subset

theorem AuthEvent.mem_ips {e : AuthEvent} {ip : IpAddr} (h : e.ip? = some ip)
    (run : List AuthEvent) : ip ∈ ips (e :: run) :=
  List.mem_filterMap.mpr ⟨e, List.mem_cons_self, h⟩

/-- An event of an address is a failure or a success. -/
theorem AuthEvent.op_of_ip? {e : AuthEvent} {ip : IpAddr} (h : e.ip? = some ip) :
    (∃ order delay, e.op = .recordFailure ip order delay) ∨ e.op = .recordSuccess ip := by
  rw [ip?] at h
  cases hop : e.op with
  | recordFailure ip' order delay =>
    rw [hop] at h
    obtain rfl := Option.some.inj h
    exact .inl ⟨order, delay, rfl⟩
  | recordSuccess ip' =>
    rw [hop] at h
    obtain rfl := Option.some.inj h
    exact .inr rfl
  | cleanup =>
    rw [hop] at h
    cases h

namespace BanStore

open AuthEvent

variable {limits : AuthLimits} {run : List AuthEvent} {ip : IpAddr}

/-- An address with failures has been met. -/
theorem mem_ips_of_mem_failedAttempts (h : ip ∈ (afterRun limits run).failedAttempts) :
    ip ∈ ips run := by
  induction run with
  | nil => cases h
  | cons e run ih =>
    refine (?_ : e.ip? = some ip ∨ ip ∈ (afterRun limits run).failedAttempts).elim
      (fun he => List.mem_filterMap.mpr ⟨e, List.mem_cons_self, he⟩)
      fun hmem => ips_subset_cons e run (ih hmem)
    rw [afterRun_cons, apply] at h
    rw [ip?]
    cases hop : e.op with
    | recordFailure ip' order delay =>
      rw [hop] at h
      dsimp only at h
      rw [recordFailure_failedAttempts] at h
      rcases HashMap.mem_insert.mp h with rfl | h
      · exact .inl rfl
      · exact .inr (Tracked.mem_of_mem_evict h)
    | recordSuccess ip' =>
      rw [hop] at h
      exact .inr (AList.mem_erase.mp h).2
    | cleanup =>
      rw [hop] at h
      exact .inr (Tracked.mem_of_mem_cleanup h)

/-! ## The events of others -/

section

variable {store : BanStore} {e : AuthEvent} {later : Nat}

/-- An event that is none of the address: a tick, or the call of another one. -/
theorem op_of_ip?_ne (hip : e.ip? ≠ some ip) :
    e.op = .cleanup ∨ ∃ ip', ip ≠ ip' ∧ e.ip? = some ip' ∧
      ((∃ order delay, e.op = .recordFailure ip' order delay) ∨ e.op = .recordSuccess ip') := by
  cases hother : e.ip? with
  | none =>
    rw [ip?] at hother
    cases hop : e.op with
    | cleanup => exact .inl rfl
    | _ =>
      rw [hop] at hother
      cases hother
  | some ip' =>
    refine .inr ⟨ip', ?_, rfl, op_of_ip? hother⟩
    rintro rfl
    exact hip hother

theorem isBanned_apply_of_ne (hip : e.ip? ≠ some ip) (hlater : e.time ≤ later) :
    (store.apply limits e).isBanned ip later = store.isBanned ip later := by
  rw [apply]
  rcases op_of_ip?_ne hip with hop | ⟨ip', hne, -, ⟨order, delay, hop⟩ | hop⟩
  · rw [hop]
    dsimp only
    rw [isBanned, cleanup, HashMap.get_retain, Option.any_filter, isBanned]
    congr 1
    funext expiresAt
    rw [Bool.and_eq_right_iff_imp, decide_eq_true_iff, decide_eq_true_iff]
    exact Nat.lt_of_le_of_lt hlater
  · rw [hop]
    dsimp only
    rw [isBanned, recordFailure_bannedUntil_of_ne hne, isBanned]
  · rw [hop]
    dsimp only
    rw [isBanned, recordSuccess_bannedUntil, if_neg hne, isBanned]

/-- What counts of the failures of the address stays, but for an eviction. -/
theorem prune_apply_of_ne (hip : e.ip? ≠ some ip) (hlater : e.time ≤ later) :
    (prune limits.windowDuration later ((store.apply limits e).failedAttempts.times ip)).Sublist
      (prune limits.windowDuration later (store.failedAttempts.times ip)) := by
  rw [apply]
  rcases op_of_ip?_ne hip with hop | ⟨ip', hne, -, ⟨order, delay, hop⟩ | hop⟩
  · rw [hop]
    dsimp only
    rw [cleanup_times, liveFailures, prune_prune hlater]
  · rw [hop]
    dsimp only
    rw [recordFailure_times_of_ne hne]
    rcases Tracked.times_evict order ip' ip store.failedAttempts with h | h
    · rw [h]
    · rw [h]
      exact List.nil_sublist _
  · rw [hop]
    dsimp only
    rw [recordSuccess_times, if_neg hne]

/-- Nothing is evicted while the addresses are few. -/
theorem prune_apply_of_few (hfew : Few (ips (e :: run))) (hip : e.ip? ≠ some ip)
    (hlater : e.time ≤ later) :
    prune limits.windowDuration later
        ((apply limits e (afterRun limits run)).failedAttempts.times ip) =
      prune limits.windowDuration later ((afterRun limits run).failedAttempts.times ip) := by
  rw [apply]
  rcases op_of_ip?_ne hip with hop | ⟨ip', hne, hother, ⟨order, delay, hop⟩ | hop⟩
  · rw [hop]
    dsimp only
    rw [cleanup_times, liveFailures, prune_prune hlater]
  · rw [hop]
    dsimp only
    rw [recordFailure_times_of_ne hne, Tracked.evict_eq_self
      (fun _ h => ips_subset_cons e run (mem_ips_of_mem_failedAttempts h)) (mem_ips hother run) hfew]
  · rw [hop]
    dsimp only
    rw [recordSuccess_times, if_neg hne]

theorem failuresSince_of_ne (hip : e.ip? ≠ some ip) :
    failuresSince ip (e :: run) = failuresSince ip run := by
  rw [failuresSince]
  rcases op_of_ip?_ne hip with hop | ⟨ip', hne, -, ⟨order, delay, hop⟩ | hop⟩
  · rw [hop]
  · rw [hop]
    exact if_neg (Ne.symm hne)
  · rw [hop]
    exact if_neg (Ne.symm hne)

end

/-- As long as there are enough failures without another one, the address is banned: a ban outlasts
the failures that it is for. -/
theorem isBanned_of_full (hlong : limits.windowDuration ≤ limits.banDuration)
    (hordered : Ordered run) {time : Nat} (htime : ∀ e ∈ run, e.time ≤ time)
    (hfull : limits.maxAttempts ≤ ((afterRun limits run).liveFailures limits ip time).length) :
    (afterRun limits run).isBanned ip time = true := by
  have hpos := limits.maxAttempts_pos
  induction run with
  | nil => exact absurd hfull (Nat.not_le.mpr hpos)
  | cons e run ih =>
    obtain ⟨hle, hrun⟩ := List.pairwise_cons.mp hordered
    obtain ⟨hnow, hbefore⟩ := List.forall_mem_cons.mp htime
    have hstored : ∀ t ∈ (afterRun limits (e :: run)).failedAttempts.times ip, t ≤ e.time :=
      fun t ht => failuresSince_le (List.forall_mem_cons.mpr ⟨Nat.le_refl e.time, hle⟩) t
        ((times_sublist (e :: run) ip).subset ht)
    rw [liveFailures] at hfull
    rw [afterRun_cons] at hstored hfull ⊢
    by_cases hip : e.ip? = some ip
    · rw [apply] at hstored hfull ⊢
      rcases op_of_ip? hip with ⟨order, delay, hop⟩ | hop
      · rw [hop] at hstored hfull ⊢
        dsimp only at hstored hfull ⊢
        by_cases hbans : ReachesLimit limits ip e.time (afterRun limits run)
        · refine (bannedTo_of_reachesLimit hbans).isBanned (Nat.lt_of_not_le fun hover => ?_)
          -- the ban is over, and so is the window of all that is stored
          rw [prune_eq_nil fun t ht => Nat.le_trans (Nat.add_le_add (hstored t ht) hlong) hover]
            at hfull
          exact absurd hfull (Nat.not_le.mpr hpos)
        · rw [recordFailure_times_self, if_neg fun h => hbans (Nat.le_succ_of_le h)] at hfull
          have hlen := Nat.le_trans hfull prune_length_le
          rw [List.length_append, List.length_singleton] at hlen
          exact absurd hlen hbans
      · rw [hop] at hfull
        dsimp only at hfull
        rw [recordSuccess_times, if_pos rfl] at hfull
        exact absurd hfull (Nat.not_le.mpr hpos)
    · rw [isBanned_apply_of_ne hip hnow]
      exact ih hrun hbefore (Nat.le_trans hfull (prune_apply_of_ne hip hnow).length_le)

/-! ## Bursts -/

/-- From `now` on, all failures that count are stored, except while the address is banned. -/
def Accounted (limits : AuthLimits) (ip : IpAddr) (now : Nat) (store : BanStore) (log : List Nat) :
    Prop :=
  ∀ time, now ≤ time → store.isBanned ip time = true ∨
    prune limits.windowDuration time (store.failedAttempts.times ip) =
      prune limits.windowDuration time log

/-- A ban that lasts as long as a failure counts makes up for the failure that is not stored. -/
theorem accounted (hlong : limits.windowDuration ≤ limits.banDuration) (hordered : Ordered run)
    (hfew : Few (ips run)) {now : Nat} (hnow : ∀ e ∈ run, e.time ≤ now) :
    Accounted limits ip now (afterRun limits run) (failuresSince ip run) := by
  induction run generalizing now with
  | nil => exact fun _ _ => .inr rfl
  | cons e run ih =>
    obtain ⟨hle, hrun⟩ := List.pairwise_cons.mp hordered
    intro time htime
    have htime : e.time ≤ time := Nat.le_trans (hnow e List.mem_cons_self) htime
    have ih := ih hrun (hfew.of_subset (ips_subset_cons e run)) hle time htime
    have hlog : ∀ t ∈ failuresSince ip (e :: run), t ≤ e.time :=
      failuresSince_le (List.forall_mem_cons.mpr ⟨Nat.le_refl e.time, hle⟩)
    have hsub : (afterRun limits (e :: run)).failedAttempts.times ip ⊆ failuresSince ip (e :: run) :=
      (times_sublist (e :: run) ip).subset
    rw [afterRun_cons] at hsub ⊢
    by_cases hip : e.ip? = some ip
    · rw [apply] at hsub ⊢
      rw [failuresSince] at hlog hsub ⊢
      rcases op_of_ip? hip with ⟨order, delay, hop⟩ | hop
      · rw [hop] at hlog hsub ⊢
        dsimp only at hlog hsub ⊢
        rw [if_pos rfl] at hlog hsub ⊢
        by_cases hbans : ReachesLimit limits ip e.time (afterRun limits run)
        · rcases Nat.lt_or_ge time (e.time + limits.banDuration) with hlt | hge
          · exact .inl ((bannedTo_of_reachesLimit hbans).isBanned hlt)
          · -- neither the failures nor what is stored of them counts any more
            right
            rw [prune_eq_nil fun t ht => ?_, prune_eq_nil fun t ht => ?_]
            · have := hlog t ht
              omega
            · have := hlog t (hsub ht)
              omega
        · rw [isBanned, recordFailure_bannedUntil, if_neg hbans, recordFailure_times_self,
            if_neg fun hfull => hbans (Nat.le_succ_of_le hfull)]
          refine ih.imp_right fun hprune => ?_
          rw [prune_append, prune_append, liveFailures, prune_prune htime, hprune]
      · right
        rw [hop]
        dsimp only
        rw [recordSuccess_times, if_pos rfl, if_pos rfl]
    · rwa [isBanned_apply_of_ne hip htime, prune_apply_of_few hfew hip htime,
        failuresSince_of_ne hip]

/-- Whenever `max_attempts` failures of an address count, with no success in between, it is banned
after the last of them. -/
def BurstsBanned (limits : AuthLimits) : Prop :=
  ∀ (run : List AuthEvent) (ip : IpAddr) (order : TrackedOrder) (now delay : Nat),
    Ordered (⟨now, .recordFailure ip order delay⟩ :: run) →
    (ips (⟨now, .recordFailure ip order delay⟩ :: run)).dedup.length < maxTrackedIps →
    limits.maxAttempts ≤ (failuresSince ip (⟨now, .recordFailure ip order delay⟩ :: run)).countP
      (Within limits.windowDuration now ·) →
    (afterRun limits (⟨now, .recordFailure ip order delay⟩ :: run)).isBanned ip now = true

theorem burstsBanned_of_le (hlong : limits.windowDuration ≤ limits.banDuration) :
    BurstsBanned limits := by
  intro run ip order now delay hordered hfew hcount
  have hpos := limits.banDuration_pos
  by_cases hbans : ReachesLimit limits ip now (afterRun limits run)
  · exact (bannedTo_of_reachesLimit hbans).isBanned (by omega)
  · have hnow : ∀ e ∈ (⟨now, .recordFailure ip order delay⟩ :: run : List AuthEvent),
        e.time ≤ now :=
      List.forall_mem_cons.mpr ⟨Nat.le_refl now, (List.pairwise_cons.mp hordered).1⟩
    refine (accounted hlong hordered (Nat.le_of_lt hfew) hnow now (Nat.le_refl now)).resolve_right
      fun hprune => ?_
    rw [← length_prune (failuresSince_le hnow), ← hprune] at hcount
    have hle := Nat.le_trans hcount prune_length_le
    rw [afterRun_failure, recordFailure_times_self,
      if_neg fun hfull => hbans (Nat.le_succ_of_le hfull), List.length_append,
      List.length_singleton] at hle
    exact hbans hle

theorem burstsBanned_of_eq_one (hone : limits.maxAttempts = 1) : BurstsBanned limits := by
  intro run ip order now delay _ _ _
  have hpos := limits.banDuration_pos
  have hbans : ReachesLimit limits ip now (afterRun limits run) := by
    rw [ReachesLimit, hone]
    exact Nat.le_add_left 1 _
  exact (bannedTo_of_reachesLimit hbans).isBanned (by omega)

/-! ## A burst that goes unbanned -/

section

variable (limits) (ip)

/-- `n` failures of an address at one time. -/
def failures (now : Nat) (n : Nat) : List AuthEvent :=
  List.replicate n ⟨now, .recordFailure ip .entries 0⟩

/-- Enough failures at first. When the ban is over, all but one of `max_attempts` failures, and none
of them is stored. -/
def burst : List AuthEvent :=
  failures ip (limits.windowDuration - 1) (limits.maxAttempts - 1) ++
    failures ip 0 limits.maxAttempts

variable {limits} {ip}

theorem failuresSince_failures (now n : Nat) (run : List AuthEvent) :
    failuresSince ip (failures ip now n ++ run) = failuresSince ip run ++ List.replicate n now := by
  induction n with
  | zero => exact (List.append_nil _).symm
  | succ n ih =>
    rw [failures, List.replicate_succ, List.cons_append, failuresSince_failure, List.replicate_succ',
      ← List.append_assoc, ← ih]
    rfl

/-- Failures at one time are stored until there are enough. -/
theorem times_failures {n : Nat} (hn : n ≤ limits.maxAttempts) :
    (afterRun limits (failures ip 0 n)).failedAttempts.times ip = List.replicate n 0 := by
  induction n with
  | zero => rfl
  | succ n ih =>
    have ih := ih (by omega)
    unfold failures at ih ⊢
    have hlive : (afterRun limits (List.replicate n ⟨0, .recordFailure ip .entries 0⟩)).liveFailures
        limits ip 0 = List.replicate n 0 := by
      rw [liveFailures, ih]
      exact prune_replicate (live_self limits.windowDuration_pos)
    rw [List.replicate_succ, afterRun_failure, recordFailure_times_self, hlive,
      List.length_replicate, if_neg (by omega), List.replicate_succ']

theorem liveFailures_failures {n : Nat} (hn : n ≤ limits.maxAttempts) :
    (afterRun limits (failures ip 0 n)).liveFailures limits ip 0 = List.replicate n 0 := by
  rw [liveFailures, times_failures hn]
  exact prune_replicate (live_self limits.windowDuration_pos)

/-- Too few failures do not ban. -/
theorem bannedUntil_failures {n : Nat} (hn : n < limits.maxAttempts) :
    (afterRun limits (failures ip 0 n)).bannedUntil.get ip = none := by
  induction n with
  | zero => rfl
  | succ n ih =>
    have hbans : ¬ ReachesLimit limits ip 0 (afterRun limits (failures ip 0 n)) := by
      rw [ReachesLimit, liveFailures_failures (by omega), List.length_replicate]
      exact Nat.not_le.mpr hn
    rw [failures, List.replicate_succ, afterRun_failure, ← failures, recordFailure_bannedUntil,
      if_neg hbans]
    exact ih (by omega)

/-- While there are enough failures without them, failures only ban once more. -/
theorem after_more_failures {now n : Nat} (hnow : now < limits.windowDuration) :
    (afterRun limits (failures ip now n ++ failures ip 0 limits.maxAttempts)).failedAttempts.times ip
        = List.replicate limits.maxAttempts 0 ∧
      (0 < n → (afterRun limits (failures ip now n ++
        failures ip 0 limits.maxAttempts)).bannedUntil.get ip = some (now + limits.banDuration)) := by
  induction n with
  | zero => exact ⟨times_failures (Nat.le_refl _), fun h => absurd h (Nat.lt_irrefl 0)⟩
  | succ n ih =>
    rw [failures, List.replicate_succ, List.cons_append, afterRun_failure, ← failures]
    have hlive : (afterRun limits (failures ip now n ++
        failures ip 0 limits.maxAttempts)).liveFailures limits ip now =
          List.replicate limits.maxAttempts 0 := by
      rw [liveFailures, ih.1]
      exact prune_replicate (decide_eq_true hnow)
    constructor
    · rw [recordFailure_times_self, hlive, List.length_replicate, if_pos (Nat.le_refl _)]
    · intro _
      rw [recordFailure_bannedUntil, if_pos, HashMap.get_insert, if_pos rfl, Nat.add_zero]
      rw [ReachesLimit, hlive, List.length_replicate]
      exact Nat.le_add_right _ _

theorem ordered_burst : Ordered (burst limits ip) := by
  refine List.pairwise_append.mpr ⟨?_, ?_, ?_⟩
  · exact List.pairwise_replicate.mpr (.inr (Nat.le_refl _))
  · exact List.pairwise_replicate.mpr (.inr (Nat.le_refl _))
  · intro e _ e' he'
    rw [List.eq_of_mem_replicate he']
    exact Nat.zero_le _

theorem mem_burst {e : AuthEvent} (h : e ∈ burst limits ip) :
    e = ⟨limits.windowDuration - 1, .recordFailure ip .entries 0⟩ ∨
      e = ⟨0, .recordFailure ip .entries 0⟩ := by
  rcases List.mem_append.mp h with h | h
  · exact .inl (List.eq_of_mem_replicate h)
  · exact .inr (List.eq_of_mem_replicate h)

/-- A burst is not banned if a ban ends earlier than that. -/
theorem not_burstsBanned (hshort : limits.banDuration < limits.windowDuration)
    (hmany : 1 < limits.maxAttempts) : ¬ BurstsBanned limits := by
  intro h
  have hban := limits.banDuration_pos
  -- one more failure as soon as the second ban is over and the first failures do not count
  let ip : IpAddr := .v4 ⟨10, 0, 0, 1⟩
  let now := limits.windowDuration - 1 + limits.banDuration
  obtain ⟨htimes, hbanned⟩ := @after_more_failures limits ip (limits.windowDuration - 1)
    (limits.maxAttempts - 1) (by omega)
  have hlive : (afterRun limits (burst limits ip)).liveFailures limits ip now = [] := by
    rw [liveFailures, burst, htimes]
    refine prune_eq_nil fun t ht => ?_
    rw [List.eq_of_mem_replicate ht]
    omega
  have hbans : ¬ ReachesLimit limits ip now (afterRun limits (burst limits ip)) := by
    rw [ReachesLimit, hlive]
    exact Nat.not_le.mpr hmany
  have hnow := h (burst limits ip) ip .entries now 0
    (List.pairwise_cons.mpr ⟨fun e he => ?_, ordered_burst⟩) ?_ ?_
  · rw [afterRun_failure, isBanned, recordFailure_bannedUntil, if_neg hbans, burst,
      hbanned (by omega)] at hnow
    exact absurd (of_decide_eq_true hnow) (Nat.lt_irrefl _)
  · rcases mem_burst he with rfl | rfl
    · exact Nat.le_add_right _ _
    · exact Nat.zero_le _
  · have hsub : (ips (⟨now, .recordFailure ip .entries 0⟩ :: burst limits ip)).dedup ⊆ [ip] := by
      intro ip' hip'
      obtain ⟨e, he, hip⟩ := List.mem_filterMap.mp (List.mem_dedup.mp hip')
      rcases List.mem_cons.mp he with rfl | he
      · exact List.mem_singleton.mpr (Option.some.inj hip).symm
      · rcases mem_burst he with rfl | rfl <;>
          exact List.mem_singleton.mpr (Option.some.inj hip).symm
    exact Nat.lt_of_le_of_lt (List.subperm_of_subset (List.nodup_dedup _) hsub).length_le (by decide)
  · -- the failures that are not stored, and the last one
    have hlast : Within limits.windowDuration now now := ⟨Nat.le_refl now, by omega⟩
    have hmissing : Within limits.windowDuration now (limits.windowDuration - 1) :=
      ⟨Nat.le_add_right _ _, by omega⟩
    rw [failuresSince_failure, burst, failuresSince_failures, List.countP_append,
      List.countP_append, List.countP_singleton, if_pos (decide_eq_true hlast),
      List.countP_replicate, if_pos (decide_eq_true hmissing)]
    omega

/-- Every burst is banned exactly if a ban lasts as long as a failure counts, or a single failure is
enough. -/
theorem bursts_banned_iff (limits : AuthLimits) :
    BurstsBanned limits ↔ limits.maxAttempts = 1 ∨ limits.windowDuration ≤ limits.banDuration := by
  constructor
  · intro h
    have hpos := limits.maxAttempts_pos
    by_contra hnot
    exact not_burstsBanned (by omega) (by omega) h
  · rintro (hone | hlong)
    · exact burstsBanned_of_eq_one hone
    · exact burstsBanned_of_le hlong

/-- Two failures are enough; a failure counts for 10, and a ban lasts 1. -/
def shortBan : AuthLimits := ⟨2, 10, 1, Nat.succ_pos _, Nat.succ_pos _, Nat.succ_pos _⟩

/-- Two failures at first, and one at 9 that is not stored. -/
def shortBanRun : List AuthEvent := burst shortBan (.v4 ⟨10, 0, 0, 1⟩)

theorem shortBanRun_unbanned :
    (failuresSince (.v4 ⟨10, 0, 0, 1⟩)
        (⟨10, .recordFailure (.v4 ⟨10, 0, 0, 1⟩) .entries 0⟩ :: shortBanRun)).countP
          (Within 10 10 ·) = 2 ∧
      (afterRun shortBan (⟨10, .recordFailure (.v4 ⟨10, 0, 0, 1⟩) .entries 0⟩ ::
        shortBanRun)).isBanned (.v4 ⟨10, 0, 0, 1⟩) 10 = false ∧
      ¬ BurstsBanned shortBan := by
  refine ⟨by decide, by decide, fun h => ?_⟩
  have hnow := h shortBanRun (.v4 ⟨10, 0, 0, 1⟩) .entries 10 0 (by unfold Ordered; decide)
    (by decide) (by decide)
  revert hnow
  decide

end

end BanStore

end ApertureRouter
