import ApertureRouter.Middleware.Tracked

/-!
# Bans

The failed attempts and the bans of `AuthState` (`src/middleware/auth.rs`). An address whose failures
within the window reach `max_attempts` is banned; a success clears it.

* Each operation holds the lock of the failed attempts throughout, so a run is a list of events, each
  at its time. A run is written with its last event first.
* `record_failure` reads the clock again for the ban, `delay` after it read it first.
* `times_sublist`: what is stored of an address are failures since its last success.
* `bans_persist_and_justified`: a ban lasts as long as it should, and comes after `max_attempts`
  failures.
-/

namespace ApertureRouter

open Window

/-- The limits of `AuthState`. `Config::validate` refuses a `0`. -/
structure AuthLimits where
  maxAttempts : Nat
  windowDuration : Nat
  banDuration : Nat
  maxAttempts_pos : 0 < maxAttempts
  windowDuration_pos : 0 < windowDuration
  banDuration_pos : 0 < banDuration

/-- The two maps of `AuthState`. -/
structure BanStore where
  failedAttempts : Tracked := ∅
  bannedUntil : HashMap IpAddr Nat := ∅

/-- A call of `record_failure` or `record_success`, or a tick of the background task. -/
inductive AuthOp where
  | recordFailure (ip : IpAddr) (order : TrackedOrder) (delay : Nat)
  | recordSuccess (ip : IpAddr)
  | cleanup

structure AuthEvent where
  time : Nat
  op : AuthOp

/-- The times of a run do not decrease. -/
def AuthEvent.Ordered (run : List AuthEvent) : Prop := run.Pairwise fun e e' => e'.time ≤ e.time

namespace BanStore

/-- `is_banned`. -/
def isBanned (ip : IpAddr) (now : Nat) (store : BanStore) : Bool :=
  (store.bannedUntil.get ip).any fun expiresAt => now < expiresAt

/-- `record_success`. -/
def recordSuccess (ip : IpAddr) (store : BanStore) : BanStore where
  failedAttempts := store.failedAttempts.remove ip
  bannedUntil := store.bannedUntil.remove ip

variable (limits : AuthLimits)

/-- `record_failure`. -/
def recordFailure (order : TrackedOrder) (ip : IpAddr) (now delay : Nat) (store : BanStore) :
    Except Nat Unit × BanStore :=
  let attempts := store.failedAttempts.evict order ip
  let attemptTimes := prune limits.windowDuration now (attempts.times ip)
  if limits.maxAttempts ≤ attemptTimes.length then
    (.error tooManyRequests, {
      failedAttempts := attempts.insert ip attemptTimes
      bannedUntil := store.bannedUntil.insert ip (now + delay + limits.banDuration) })
  else
    let attemptTimes := attemptTimes ++ [now]
    if limits.maxAttempts ≤ attemptTimes.length then
      (.ok (), {
        failedAttempts := attempts.insert ip attemptTimes
        bannedUntil := store.bannedUntil.insert ip (now + delay + limits.banDuration) })
    else (.ok (), { store with failedAttempts := attempts.insert ip attemptTimes })

/-- The background task. -/
def cleanup (now : Nat) (store : BanStore) : BanStore where
  failedAttempts := store.failedAttempts.cleanup limits.windowDuration now
  bannedUntil := store.bannedUntil.retain fun _ expiresAt => now < expiresAt

/-- An event. -/
def apply (e : AuthEvent) (store : BanStore) : BanStore :=
  match e.op with
  | .recordFailure ip order delay => (recordFailure limits order ip e.time delay store).2
  | .recordSuccess ip => store.recordSuccess ip
  | .cleanup => cleanup limits e.time store

/-- The maps after a run. -/
def afterRun (run : List AuthEvent) : BanStore := run.foldr (apply limits) {}

@[simp] theorem afterRun_nil : afterRun limits [] = {} := rfl

@[simp] theorem afterRun_cons (e : AuthEvent) (run : List AuthEvent) :
    afterRun limits (e :: run) = apply limits e (afterRun limits run) := rfl

theorem afterRun_failure (ip : IpAddr) (order : TrackedOrder) (now delay : Nat)
    (run : List AuthEvent) :
    afterRun limits (⟨now, .recordFailure ip order delay⟩ :: run) =
      (recordFailure limits order ip now delay (afterRun limits run)).2 := rfl

/-- What counts of the failures of an address. -/
def liveFailures (ip : IpAddr) (now : Nat) (store : BanStore) : List Nat :=
  prune limits.windowDuration now (store.failedAttempts.times ip)

/-- With one more failure now, `max_attempts` of them count. -/
def ReachesLimit (ip : IpAddr) (now : Nat) (store : BanStore) : Prop :=
  limits.maxAttempts ≤ (store.liveFailures limits ip now).length + 1

instance (ip : IpAddr) (now : Nat) (store : BanStore) :
    Decidable (ReachesLimit limits ip now store) :=
  inferInstanceAs (Decidable (_ ≤ _))

/-- The maps without the ban of the address. -/
def unban (ip : IpAddr) (store : BanStore) : BanStore :=
  { store with bannedUntil := store.bannedUntil.remove ip }

/-- The event bans the address: afterwards there is a ban of it in the map, even if there was none
before. -/
def Bans (e : AuthEvent) (ip : IpAddr) (store : BanStore) : Prop :=
  ip ∈ (apply limits e (store.unban ip)).bannedUntil

/-! ## What each operation does -/

section

variable {limits} {store : BanStore} {order : TrackedOrder} {ip ip' : IpAddr} {now delay : Nat}

theorem isBanned_iff : store.isBanned ip now = true ↔
    ∃ expiresAt, store.bannedUntil.get ip = some expiresAt ∧ now < expiresAt := by
  unfold isBanned
  cases store.bannedUntil.get ip <;> simp

/-- The failure is stored unless there are enough without it. -/
theorem recordFailure_failedAttempts :
    (recordFailure limits order ip now delay store).2.failedAttempts =
      (store.failedAttempts.evict order ip).insert ip
        (if limits.maxAttempts ≤ (store.liveFailures limits ip now).length then
          store.liveFailures limits ip now
        else store.liveFailures limits ip now ++ [now]) := by
  unfold recordFailure liveFailures
  dsimp only
  rw [Tracked.times_evict_self]
  split
  · rfl
  · split <;> rfl

theorem recordFailure_bannedUntil :
    (recordFailure limits order ip now delay store).2.bannedUntil =
      if ReachesLimit limits ip now store then
        store.bannedUntil.insert ip (now + delay + limits.banDuration)
      else store.bannedUntil := by
  unfold recordFailure ReachesLimit liveFailures
  dsimp only
  rw [Tracked.times_evict_self, List.length_append, List.length_singleton]
  split
  · rename_i hfull
    exact (if_pos (Nat.le_succ_of_le hfull)).symm
  · split
    · rename_i hreached
      exact (if_pos hreached).symm
    · rename_i hroom
      exact (if_neg hroom).symm

theorem recordFailure_times_self :
    (recordFailure limits order ip now delay store).2.failedAttempts.times ip =
      if limits.maxAttempts ≤ (store.liveFailures limits ip now).length then
        store.liveFailures limits ip now
      else store.liveFailures limits ip now ++ [now] := by
  rw [recordFailure_failedAttempts, Tracked.times_insert, if_pos rfl]

/-- What counts later: the failure as well, if it is stored. -/
theorem prune_recordFailure_self {later : Nat} (hlater : now ≤ later) :
    prune limits.windowDuration later
        ((recordFailure limits order ip now delay store).2.failedAttempts.times ip) =
      prune limits.windowDuration later (store.failedAttempts.times ip) ++
        if limits.maxAttempts ≤ (store.liveFailures limits ip now).length then []
        else prune limits.windowDuration later [now] := by
  rw [recordFailure_times_self]
  split
  · rw [liveFailures, prune_prune hlater, List.append_nil]
  · rw [prune_append, liveFailures, prune_prune hlater]

theorem recordFailure_times_of_ne (h : ip' ≠ ip) :
    (recordFailure limits order ip now delay store).2.failedAttempts.times ip' =
      (store.failedAttempts.evict order ip).times ip' := by
  rw [recordFailure_failedAttempts, Tracked.times_insert, if_neg h]

theorem recordFailure_bannedUntil_of_ne (h : ip' ≠ ip) :
    (recordFailure limits order ip now delay store).2.bannedUntil.get ip' =
      store.bannedUntil.get ip' := by
  rw [recordFailure_bannedUntil]
  split
  · rw [HashMap.get_insert, if_neg h]
  · rfl

theorem recordSuccess_times :
    (store.recordSuccess ip).failedAttempts.times ip' =
      if ip' = ip then [] else store.failedAttempts.times ip' :=
  Tracked.times_remove ..

theorem recordSuccess_bannedUntil :
    (store.recordSuccess ip).bannedUntil.get ip' =
      if ip' = ip then none else store.bannedUntil.get ip' :=
  HashMap.get_remove ..

theorem cleanup_times :
    (store.cleanup limits now).failedAttempts.times ip = store.liveFailures limits ip now :=
  Tracked.times_cleanup ..

/-- A ban in the map was there before, or a failure of the address has reached the limit. -/
theorem bannedUntil_apply_cases {e : AuthEvent} {expiresAt : Nat}
    (h : (apply limits e store).bannedUntil.get ip = some expiresAt) :
    store.bannedUntil.get ip = some expiresAt ∨
      ∃ order delay, e.op = .recordFailure ip order delay ∧ ReachesLimit limits ip e.time store := by
  unfold apply at h
  cases hop : e.op with
  | recordFailure ip' order delay =>
    rw [hop] at h
    dsimp only at h
    rw [recordFailure_bannedUntil] at h
    split at h
    · rename_i hreaches
      rw [HashMap.get_insert] at h
      split at h
      · rename_i hip
        subst hip
        exact .inr ⟨order, delay, rfl, hreaches⟩
      · exact .inl h
    · exact .inl h
  | recordSuccess ip' =>
    rw [hop] at h
    dsimp only at h
    rw [recordSuccess_bannedUntil] at h
    split at h
    · cases h
    · exact .inl h
  | cleanup =>
    rw [hop] at h
    dsimp only at h
    rw [cleanup, HashMap.get_retain] at h
    exact .inl (Option.filter_eq_some_iff.mp h).1

/-- Only a failure of the address bans it, and it does if it reaches the limit. -/
theorem bans_iff {e : AuthEvent} : Bans limits e ip store ↔
    ∃ order delay, e.op = .recordFailure ip order delay ∧ ReachesLimit limits ip e.time store := by
  constructor
  · intro h
    obtain ⟨expiresAt, hget⟩ := HashMap.mem_iff_get.mp h
    refine (bannedUntil_apply_cases hget).resolve_left fun hbefore => ?_
    rw [unban, HashMap.get_remove, if_pos rfl] at hbefore
    cases hbefore
  · rintro ⟨order, delay, hop, hreaches⟩
    have hlimit : ReachesLimit limits ip e.time (store.unban ip) := hreaches
    rw [Bans, apply, hop]
    dsimp only
    rw [recordFailure_bannedUntil, if_pos hlimit]
    exact HashMap.mem_insert.mpr (.inl rfl)

/-- A ban in the map that was not there is one of the event. -/
theorem bans_of_get_ne {e : AuthEvent} {expiresAt : Nat}
    (h : (apply limits e store).bannedUntil.get ip = some expiresAt)
    (hnew : store.bannedUntil.get ip ≠ some expiresAt) : Bans limits e ip store :=
  bans_iff.mpr ((bannedUntil_apply_cases h).resolve_left hnew)

/-- A ban that has not expired stays. -/
theorem cleanup_bannedUntil {expiresAt : Nat} (h : store.bannedUntil.get ip = some expiresAt)
    (hlt : now < expiresAt) : (store.cleanup limits now).bannedUntil.get ip = some expiresAt := by
  rw [cleanup, HashMap.get_retain, h]
  exact Option.filter_eq_some_iff.mpr ⟨rfl, decide_eq_true hlt⟩

end

/-! ## Persistence -/

section

variable {limits} {store : BanStore} {ip : IpAddr} {until' : Nat}

/-- The address is banned at least until then. -/
def BannedTo (ip : IpAddr) (until' : Nat) (store : BanStore) : Prop :=
  ∃ expiresAt, store.bannedUntil.get ip = some expiresAt ∧ until' ≤ expiresAt

theorem BannedTo.isBanned {now : Nat} (h : store.BannedTo ip until') (hlt : now < until') :
    store.isBanned ip now = true := by
  obtain ⟨expiresAt, hget, hle⟩ := h
  exact isBanned_iff.mpr ⟨expiresAt, hget, Nat.lt_of_lt_of_le hlt hle⟩

/-- A failure that bans. -/
theorem bannedTo_of_reachesLimit {order : TrackedOrder} {now delay : Nat}
    (h : ReachesLimit limits ip now store) :
    BannedTo ip (now + limits.banDuration) (recordFailure limits order ip now delay store).2 := by
  refine ⟨now + delay + limits.banDuration, ?_, by omega⟩
  rw [recordFailure_bannedUntil, if_pos h, HashMap.get_insert, if_pos rfl]

/-- Before it ends, only a success of the address lifts a ban that another failure would not
shorten. -/
theorem BannedTo.apply {e : AuthEvent} (h : store.BannedTo ip until')
    (hop : e.op ≠ .recordSuccess ip) (hlt : e.time < until')
    (hlong : until' ≤ e.time + limits.banDuration) : BannedTo ip until' (store.apply limits e) := by
  obtain ⟨expiresAt, hget, hle⟩ := h
  unfold BanStore.apply
  cases hcase : e.op with
  | recordFailure ip' order delay =>
    dsimp only
    by_cases hip : ip' = ip
    · subst hip
      by_cases hbans : ReachesLimit limits ip' e.time store
      · have hbanned : BannedTo ip' (e.time + limits.banDuration)
            (recordFailure limits order ip' e.time delay store).2 := bannedTo_of_reachesLimit hbans
        obtain ⟨expiresAt', hget', hle'⟩ := hbanned
        exact ⟨expiresAt', hget', Nat.le_trans hlong hle'⟩
      · refine ⟨expiresAt, ?_, hle⟩
        rwa [recordFailure_bannedUntil, if_neg hbans]
    · exact ⟨expiresAt, by rwa [recordFailure_bannedUntil_of_ne (Ne.symm hip)], hle⟩
  | recordSuccess ip' =>
    have hip : ip ≠ ip' := by
      rintro rfl
      exact hop hcase
    exact ⟨expiresAt, by rwa [recordSuccess_bannedUntil, if_neg hip], hle⟩
  | cleanup => exact ⟨expiresAt, cleanup_bannedUntil hget (Nat.lt_of_lt_of_le hlt hle), hle⟩

theorem BannedTo.afterRun {later run : List AuthEvent}
    (h : BannedTo ip until' (BanStore.afterRun limits run))
    (hevents : ∀ e ∈ later, e.op ≠ .recordSuccess ip ∧ e.time < until' ∧
      until' ≤ e.time + limits.banDuration) :
    BannedTo ip until' (BanStore.afterRun limits (later ++ run)) := by
  induction later with
  | nil => exact h
  | cons e later ih =>
    obtain ⟨hop, hlt, hlong⟩ := hevents e List.mem_cons_self
    exact (ih fun e' he' => hevents e' (List.mem_cons_of_mem e he')).apply hop hlt hlong

end

/-! ## Justification -/

/-- The times of the failures of an address since its last success, oldest first. -/
def failuresSince (ip : IpAddr) : List AuthEvent → List Nat
  | [] => []
  | e :: run =>
    match e.op with
    | .recordFailure ip' _ _ =>
      if ip' = ip then failuresSince ip run ++ [e.time] else failuresSince ip run
    | .recordSuccess ip' => if ip' = ip then [] else failuresSince ip run
    | .cleanup => failuresSince ip run

theorem failuresSince_failure (ip : IpAddr) (order : TrackedOrder) (now delay : Nat)
    (run : List AuthEvent) :
    failuresSince ip (⟨now, .recordFailure ip order delay⟩ :: run) = failuresSince ip run ++ [now] :=
  if_pos rfl

theorem failuresSince_le {ip : IpAddr} {run : List AuthEvent} {now : Nat}
    (hnow : ∀ e ∈ run, e.time ≤ now) : ∀ t ∈ failuresSince ip run, t ≤ now := by
  induction run with
  | nil => exact fun t ht => absurd ht List.not_mem_nil
  | cons e run ih =>
    have ih := ih fun e' he' => hnow e' (List.mem_cons_of_mem e he')
    rw [failuresSince]
    cases e.op with
    | recordFailure ip' order delay =>
      dsimp only
      split
      · exact le_of_mem_concat ih (hnow e List.mem_cons_self)
      · exact ih
    | recordSuccess ip' =>
      dsimp only
      split
      · exact fun t ht => absurd ht List.not_mem_nil
      · exact ih
    | cleanup => exact ih

section

variable {limits} {run : List AuthEvent} {ip : IpAddr}

/-- What is stored of an address are failures since its last success. -/
theorem times_sublist (run : List AuthEvent) (ip : IpAddr) :
    ((afterRun limits run).failedAttempts.times ip).Sublist (failuresSince ip run) := by
  induction run with
  | nil => exact List.nil_sublist _
  | cons e run ih =>
    have hlive : ((afterRun limits run).liveFailures limits ip e.time).Sublist
        (failuresSince ip run) := List.filter_sublist.trans ih
    rw [afterRun_cons, apply, failuresSince]
    cases e.op with
    | recordFailure ip' order delay =>
      dsimp only
      by_cases hip : ip' = ip
      · subst hip
        rw [recordFailure_times_self, if_pos rfl]
        split
        · exact hlive.trans (List.sublist_append_left _ _)
        · exact hlive.append (List.Sublist.refl _)
      · rw [recordFailure_times_of_ne (Ne.symm hip), if_neg hip]
        rcases Tracked.times_evict order ip' ip (afterRun limits run).failedAttempts with h | h
        · rwa [h]
        · rw [h]
          exact List.nil_sublist _
    | recordSuccess ip' =>
      dsimp only
      rw [recordSuccess_times]
      by_cases hip : ip' = ip
      · rw [if_pos hip.symm]
        exact List.nil_sublist _
      · rwa [if_neg (Ne.symm hip), if_neg hip]
    | cleanup =>
      dsimp only
      rwa [cleanup_times]

/-- **Bans.** A ban lasts until `ban_duration` is over or the address succeeds, and it comes after
`max_attempts` failures of the address within the window and since its last success. -/
theorem bans_persist_and_justified (limits : AuthLimits) (later run : List AuthEvent) (e : AuthEvent)
    (ip : IpAddr) (hordered : AuthEvent.Ordered (later ++ e :: run))
    (hbans : Bans limits e ip (afterRun limits run)) :
    ((∀ e' ∈ later, e'.op ≠ .recordSuccess ip) → ∀ time, (∀ e' ∈ later, e'.time ≤ time) →
      time < e.time + limits.banDuration →
        (afterRun limits (later ++ e :: run)).isBanned ip time = true) ∧
    limits.maxAttempts ≤
      (failuresSince ip (e :: run)).countP (Within limits.windowDuration e.time ·) := by
  obtain ⟨-, hrun, hlater⟩ := List.pairwise_append.mp hordered
  obtain ⟨order, delay, hop, hreaches⟩ := bans_iff.mp hbans
  obtain ⟨now, op⟩ := e
  dsimp only at hop hreaches ⊢
  subst hop
  constructor
  · intro hsuccess time htime hlt
    refine BannedTo.isBanned (BannedTo.afterRun (bannedTo_of_reachesLimit hreaches)
      fun e he => ?_) hlt
    have hafter := hlater e he _ List.mem_cons_self
    exact ⟨hsuccess e he, Nat.lt_of_le_of_lt (htime e he) hlt, Nat.add_le_add_right hafter _⟩
  · have hsub : ((afterRun limits run).failedAttempts.times ip).Sublist (failuresSince ip run) :=
      times_sublist run ip
    have hle : ∀ t ∈ failuresSince ip run, t ≤ now :=
      failuresSince_le (List.pairwise_cons.mp hrun).1
    have hlive : (prune limits.windowDuration now
        ((afterRun limits run).failedAttempts.times ip)).length =
          ((afterRun limits run).failedAttempts.times ip).countP (Within limits.windowDuration now ·) :=
      length_prune fun t ht => hle t (hsub.subset ht)
    have hcount := hsub.countP_le (p := (Within limits.windowDuration now ·))
    have hself : Within limits.windowDuration now now :=
      ⟨Nat.le_refl now, Nat.lt_add_of_pos_right limits.windowDuration_pos⟩
    rw [failuresSince_failure, List.countP_append, List.countP_singleton,
      if_pos (decide_eq_true hself)]
    unfold ReachesLimit liveFailures at hreaches
    omega

/-- Two failures, a tick of the background task, and another address. -/
def sampleLater : List AuthEvent :=
  [⟨8, .cleanup⟩, ⟨7, .recordFailure (.v4 ⟨10, 0, 0, 2⟩) .entries 0⟩]

def sampleLimits : AuthLimits := ⟨2, 5, 20, by decide, by decide, by decide⟩

theorem bans_persist_and_justified_sampleLater :
    ((∀ e ∈ sampleLater, e.op ≠ .recordSuccess (.v4 ⟨10, 0, 0, 1⟩)) → ∀ time,
      (∀ e ∈ sampleLater, e.time ≤ time) → time < 6 + 20 →
        (afterRun sampleLimits (sampleLater ++ [⟨6, .recordFailure (.v4 ⟨10, 0, 0, 1⟩) .entries 1⟩,
          ⟨4, .recordFailure (.v4 ⟨10, 0, 0, 1⟩) .entries 0⟩])).isBanned (.v4 ⟨10, 0, 0, 1⟩) time =
          true) ∧
    2 ≤ (failuresSince (.v4 ⟨10, 0, 0, 1⟩) [⟨6, .recordFailure (.v4 ⟨10, 0, 0, 1⟩) .entries 1⟩,
      ⟨4, .recordFailure (.v4 ⟨10, 0, 0, 1⟩) .entries 0⟩]).countP (Within 5 6 ·) :=
  bans_persist_and_justified sampleLimits sampleLater
    [⟨4, .recordFailure (.v4 ⟨10, 0, 0, 1⟩) .entries 0⟩]
    ⟨6, .recordFailure (.v4 ⟨10, 0, 0, 1⟩) .entries 1⟩ _
    (by unfold AuthEvent.Ordered; decide) (by unfold Bans; decide)

end

end BanStore

end ApertureRouter
