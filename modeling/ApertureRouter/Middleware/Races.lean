import ApertureRouter.Lib.Places
import ApertureRouter.Middleware.Auth
import ApertureRouter.Middleware.Bursts

/-!
# Guesses at the same time

`auth_middleware` (`src/middleware/auth.rs`) checks the ban, compares the key and records the failure
in three steps, and other requests take theirs in between. Here `k` requests with wrong keys come from
one address within one window, and at most `c` of them are between their check and their record at
the same time.

* `advance`: the next step of a request.
* `Counted`: what the numbers of requests at each step say about the failures that are stored.
* `beforeBan_le`: at most `max_attempts - 1 + c` keys are compared before the address is banned.
* `races_bounded_iff`: so the bound of `max_attempts` holds in every interleaving exactly if there
  are no more requests than that, or if they come one after the other.
-/

namespace ApertureRouter

open Window Places

/-- Where a request is. -/
inductive Phase where
  | arrived
  | checked
  | compared
  | recorded
  | refused
  deriving DecidableEq

namespace Phase

/-- Between the check and the record. -/
def inFlight (phase : Phase) : Bool := phase = checked || phase = compared

/-- The key was compared. -/
def guessed (phase : Phase) : Bool := phase = compared || phase = recorded

/-- The failure was recorded. -/
def isRecorded (phase : Phase) : Bool := phase = recorded

end Phase

/-- The failures and the bans, and where each request is. `banned` and `beforeBan` are for the
statement: after some `record_failure` the address was banned (`is_banned`), and the number of
comparisons before that. -/
structure Race where
  store : BanStore
  phase : Nat → Phase := fun _ => .arrived
  banned : Bool := false
  beforeBan : Nat := 0

/-- A step of request `id`. -/
structure Move where
  id : Nat
  now : Nat
  order : TrackedOrder
  delay : Nat

namespace Race

variable (limits : AuthLimits) (ip : IpAddr)

/-- The next step of a request: `is_banned`, the comparison with the valid keys, which fails, or
`record_failure`. -/
def advance (mv : Move) (race : Race) : Race :=
  match race.phase mv.id with
  | .arrived =>
    { race with
      phase := Function.update race.phase mv.id
        (if race.store.isBanned ip mv.now then .refused else .checked) }
  | .checked =>
    { race with
      phase := Function.update race.phase mv.id .compared
      beforeBan := if race.banned then race.beforeBan else race.beforeBan + 1 }
  | .compared =>
    let store := (race.store.recordFailure limits mv.order ip mv.now mv.delay).2
    { race with
      store := store
      phase := Function.update race.phase mv.id .recorded
      banned := race.banned || store.isBanned ip mv.now }
  | .recorded | .refused => race

/-- After a run of steps, the last one first. -/
def afterMoves (start : BanStore) (moves : List Move) : Race :=
  moves.foldr (advance limits ip) { store := start }

/-- The requests between their check and their record. -/
def inFlight (k : Nat) (race : Race) : Nat := count k Phase.inFlight race.phase

/-- An interleaving of the steps of `k` requests within the window that begins at `first`, at most
`c` of them in flight at a time. -/
structure Interleaving (start : BanStore) (k c first : Nat) (moves : List Move) : Prop where
  ids : ∀ mv ∈ moves, mv.id < k
  ordered : moves.Pairwise fun mv mv' => mv'.now ≤ mv.now
  window : ∀ mv ∈ moves, first ≤ mv.now ∧ mv.now < first + limits.windowDuration
  limited : ∀ done, done <:+ moves → (afterMoves limits ip start done).inFlight k ≤ c

/-! ## What a step does -/

section

variable {limits ip} {mv : Move} {race : Race}

theorem advance_arrived (h : race.phase mv.id = .arrived) : advance limits ip mv race =
    { race with
      phase := Function.update race.phase mv.id
        (if race.store.isBanned ip mv.now then .refused else .checked) } := by
  rw [advance, h]

theorem advance_checked (h : race.phase mv.id = .checked) : advance limits ip mv race =
    { race with
      phase := Function.update race.phase mv.id .compared
      beforeBan := if race.banned then race.beforeBan else race.beforeBan + 1 } := by
  rw [advance, h]

theorem advance_compared (h : race.phase mv.id = .compared) : advance limits ip mv race =
    { race with
      store := (race.store.recordFailure limits mv.order ip mv.now mv.delay).2
      phase := Function.update race.phase mv.id .recorded
      banned := race.banned ||
        (race.store.recordFailure limits mv.order ip mv.now mv.delay).2.isBanned ip mv.now } := by
  rw [advance, h]

theorem advance_refused (h : race.phase mv.id = .refused) : advance limits ip mv race = race := by
  rw [advance, h]

/-- Only a request that arrives can add to those in flight. -/
theorem inFlight_advance_le {k : Nat} (hid : mv.id < k) : (advance limits ip mv race).inFlight k ≤
    race.inFlight k + if race.phase mv.id = .arrived then 1 else 0 := by
  unfold inFlight
  cases hphase : race.phase mv.id with
  | arrived =>
    rw [advance_arrived hphase, if_pos rfl]
    generalize (if race.store.isBanned ip mv.now then Phase.refused else .checked) = next
    have hmove : count k Phase.inFlight (Function.update race.phase mv.id next) +
        (race.phase mv.id).inFlight.toNat = count k Phase.inFlight race.phase +
          next.inFlight.toNat := count_update hid next
    have hone := Bool.toNat_le next.inFlight
    dsimp only
    omega
  | checked =>
    rw [advance_checked hphase]
    exact (count_stay hid (by rw [hphase]; rfl)).le
  | compared =>
    rw [advance_compared hphase]
    have hmove : count k Phase.inFlight (Function.update race.phase mv.id .recorded) +
        (race.phase mv.id).inFlight.toNat = count k Phase.inFlight race.phase :=
      count_update hid Phase.recorded
    rw [hphase] at hmove
    exact Nat.le_of_succ_le hmove.le
  | recorded =>
    rw [advance, hphase]
    exact Nat.le_refl _
  | refused =>
    rw [advance_refused hphase]
    exact Nat.le_refl _

/-- With the three steps at once, a request does what `authenticate` does. -/
theorem store_after_three_steps (m : Middleware) {valid : String → Bool} {visit : Visit}
    {now : Nat} {guard : Guard} {id : Nat} (harrived : race.phase id = .arrived)
    (hstore : race.store = guard.store) (hwrong : visit.request.apiKey.any valid = false) :
    let step := advance m.auth.limits ip ⟨id, now, visit.failureOrder, visit.delay⟩
    (step (step (step race))).store = (m.authenticate valid visit ip now guard).guard.store := by
  rw [Middleware.authenticate, ← hstore]
  cases hbanned : race.store.isBanned ip now with
  | true =>
    simp only [advance, harrived, hbanned, if_true, Function.update_self]
    exact hstore
  | false =>
    simp only [advance, harrived, hbanned, hwrong, Bool.false_eq_true, if_false,
      Function.update_self]

end

/-! ## The bound -/

/-- As long as the address is not banned, the requests that are through are among the failures that
are stored, and the comparisons are theirs or those of the requests in flight. -/
structure Counted (k c first : Nat) (race : Race) : Prop where
  guessed : race.beforeBan ≤ count k Phase.guessed race.phase
  few : race.beforeBan ≤ limits.maxAttempts - 1 + c
  stored : race.banned = false → count k Phase.isRecorded race.phase ≤
    (race.store.failedAttempts.times ip).countP (first ≤ ·)
  unbanned : race.banned = false → count k Phase.isRecorded race.phase < limits.maxAttempts

section

variable {limits ip} {start : BanStore} {k c first : Nat} {mv : Move} {race : Race}
  {moves : List Move}

theorem count_guessed_le :
    count k Phase.guessed race.phase ≤ count k Phase.isRecorded race.phase + race.inFlight k := by
  refine count_le_add fun phase h => ?_
  cases phase with
  | arrived => cases h
  | checked => exact .inr rfl
  | compared => exact .inr rfl
  | recorded => exact .inl rfl
  | refused => cases h

theorem counted_start : Counted limits ip k c first { store := start } where
  guessed := Nat.zero_le _
  few := Nat.zero_le _
  stored _ := by
    rw [count_eq_zero fun _ => rfl]
    exact Nat.zero_le _
  unbanned _ := by
    rw [count_eq_zero fun _ => rfl]
    exact limits.maxAttempts_pos

/-- The ban is checked. -/
theorem Counted.check (h : Counted limits ip k c first race) (hid : mv.id < k)
    (hphase : race.phase mv.id = .arrived) :
    Counted limits ip k c first (advance limits ip mv race) := by
  rw [advance_arrived hphase]
  generalize hnext : (if race.store.isBanned ip mv.now then Phase.refused else .checked) = next
  have hkind : next.guessed = false ∧ next.isRecorded = false := by
    rw [← hnext]
    split
    · exact ⟨rfl, rfl⟩
    · exact ⟨rfl, rfl⟩
  have hguessed : count k Phase.guessed (Function.update race.phase mv.id next) =
      count k Phase.guessed race.phase := count_stay hid (by rw [hphase, hkind.1]; rfl)
  have hrecorded : count k Phase.isRecorded (Function.update race.phase mv.id next) =
      count k Phase.isRecorded race.phase := count_stay hid (by rw [hphase, hkind.2]; rfl)
  exact ⟨h.guessed.trans hguessed.ge, h.few,
    fun hbanned => hrecorded.le.trans (h.stored hbanned),
    fun hbanned => hrecorded.trans_lt (h.unbanned hbanned)⟩

/-- A key is compared: its request is in flight. -/
theorem Counted.compare (h : Counted limits ip k c first race) (hid : mv.id < k)
    (hphase : race.phase mv.id = .checked)
    (hlimited : (advance limits ip mv race).inFlight k ≤ c) :
    Counted limits ip k c first (advance limits ip mv race) := by
  have hguessed : count k Phase.guessed (Function.update race.phase mv.id .compared) =
      count k Phase.guessed race.phase + 1 := count_enter hid (by rw [hphase]; rfl) rfl
  have hrecorded : count k Phase.isRecorded (Function.update race.phase mv.id .compared) =
      count k Phase.isRecorded race.phase := count_stay hid (by rw [hphase]; rfl)
  have hsplit : count k Phase.guessed (advance limits ip mv race).phase ≤
      count k Phase.isRecorded (advance limits ip mv race).phase +
        (advance limits ip mv race).inFlight k := count_guessed_le
  rw [advance_checked hphase] at hsplit hlimited ⊢
  dsimp only at hsplit
  have hbefore := h.guessed
  refine ⟨?_, ?_, fun hbanned => hrecorded.le.trans (h.stored hbanned),
    fun hbanned => hrecorded.trans_lt (h.unbanned hbanned)⟩
  · show (if race.banned then race.beforeBan else race.beforeBan + 1) ≤
      count k Phase.guessed (Function.update race.phase mv.id .compared)
    rw [hguessed]
    split
    · omega
    · omega
  · show (if race.banned then race.beforeBan else race.beforeBan + 1) ≤ _
    split
    · exact h.few
    · rename_i hbanned
      have hopen := h.unbanned (Bool.of_not_eq_true hbanned)
      omega

/-- A failure is recorded: it is stored, or it bans. -/
theorem Counted.record (h : Counted limits ip k c first race) (hid : mv.id < k)
    (hwindow : first ≤ mv.now ∧ mv.now < first + limits.windowDuration)
    (hphase : race.phase mv.id = .compared) :
    Counted limits ip k c first (advance limits ip mv race) := by
  have hguessed : count k Phase.guessed (Function.update race.phase mv.id .recorded) =
      count k Phase.guessed race.phase := count_stay hid (by rw [hphase]; rfl)
  have hrecorded : count k Phase.isRecorded (Function.update race.phase mv.id .recorded) =
      count k Phase.isRecorded race.phase + 1 := count_enter hid (by rw [hphase]; rfl) rfl
  rw [advance_compared hphase]
  by_cases hbans : BanStore.ReachesLimit limits ip mv.now race.store
  · -- the ban is in the map
    have hisBanned : (race.store.recordFailure limits mv.order ip mv.now mv.delay).2.isBanned ip
        mv.now = true := (BanStore.bannedTo_of_reachesLimit hbans).isBanned
      (Nat.lt_add_of_pos_right limits.banDuration_pos)
    have hbanned : (race.banned || (race.store.recordFailure limits mv.order ip mv.now
        mv.delay).2.isBanned ip mv.now) ≠ false := by
      rw [hisBanned, Bool.or_true]
      decide
    exact ⟨h.guessed.trans hguessed.ge, h.few, fun hunbanned => absurd hunbanned hbanned,
      fun hunbanned => absurd hunbanned hbanned⟩
  · have hroom : ¬ limits.maxAttempts ≤ (race.store.liveFailures limits ip mv.now).length :=
      fun hfull => hbans (Nat.le_succ_of_le hfull)
    have hlive : (race.store.liveFailures limits ip mv.now).countP (first ≤ ·) =
        (race.store.failedAttempts.times ip).countP (first ≤ ·) := countP_prune hwindow.1 hwindow.2
    refine ⟨h.guessed.trans hguessed.ge, h.few, fun hunbanned => ?_, fun hunbanned => ?_⟩
    all_goals
      have hstored := h.stored (Bool.or_eq_false_iff.mp hunbanned).1
      dsimp only
      rw [hrecorded]
    · rw [BanStore.recordFailure_times_self, if_neg hroom, List.countP_append, hlive,
        List.countP_singleton, if_pos (decide_eq_true hwindow.1)]
      exact Nat.succ_le_succ hstored
    · have hlen := List.countP_le_length (p := (first ≤ ·))
        (l := race.store.liveFailures limits ip mv.now)
      unfold BanStore.ReachesLimit at hbans
      omega

theorem Counted.advance (h : Counted limits ip k c first race) (hid : mv.id < k)
    (hwindow : first ≤ mv.now ∧ mv.now < first + limits.windowDuration)
    (hlimited : (advance limits ip mv race).inFlight k ≤ c) :
    Counted limits ip k c first (advance limits ip mv race) := by
  cases hphase : race.phase mv.id with
  | arrived => exact h.check hid hphase
  | checked => exact h.compare hid hphase hlimited
  | compared => exact h.record hid hwindow hphase
  | recorded =>
    rw [Race.advance, hphase]
    exact h
  | refused =>
    rw [advance_refused hphase]
    exact h

theorem Interleaving.of_cons (h : Interleaving limits ip start k c first (mv :: moves)) :
    Interleaving limits ip start k c first moves where
  ids mv' hmem := h.ids mv' (List.mem_cons_of_mem mv hmem)
  ordered := (List.pairwise_cons.mp h.ordered).2
  window mv' hmem := h.window mv' (List.mem_cons_of_mem mv hmem)
  limited done hdone := h.limited done (hdone.trans (List.suffix_cons mv moves))

theorem counted (h : Interleaving limits ip start k c first moves) :
    Counted limits ip k c first (afterMoves limits ip start moves) := by
  induction moves with
  | nil => exact counted_start
  | cons mv moves ih =>
    exact (ih h.of_cons).advance (h.ids mv List.mem_cons_self) (h.window mv List.mem_cons_self)
      (h.limited (mv :: moves) List.suffix_rfl)

/-- Before the ban, at most `max_attempts - 1` keys were compared of requests that are through, and
`c` of others. -/
theorem beforeBan_le (h : Interleaving limits ip start k c first moves) :
    (afterMoves limits ip start moves).beforeBan ≤ k ∧
      (afterMoves limits ip start moves).beforeBan ≤ limits.maxAttempts - 1 + c :=
  ⟨(counted h).guessed.trans count_le, (counted h).few⟩

end

/-! ## One comparison too many -/

section

/-- A step at 0. -/
def stepAt0 (id : Nat) (race : Race) : Race := advance limits ip ⟨id, 0, .entries, 0⟩ race

/-- After the first `j` requests, one after the other. -/
def inTurn (j : Nat) : Race where
  store := BanStore.afterRun limits (BanStore.failures ip 0 j)
  phase i := if i < j then .recorded else .arrived
  beforeBan := j

/-- Some interleaving at 0 comes there. -/
def Reached (k c : Nat) (race : Race) : Prop :=
  ∃ moves, Interleaving limits ip {} k c 0 moves ∧ (∀ mv ∈ moves, mv.now = 0) ∧
    afterMoves limits ip {} moves = race

variable {limits} {ip} {k c : Nat} {race : Race}

theorem Reached.step (h : Reached limits ip k c race) {id : Nat} (hid : id < k)
    (hlimited : (stepAt0 limits ip id race).inFlight k ≤ c) :
    Reached limits ip k c (stepAt0 limits ip id race) := by
  obtain ⟨moves, hinter, hzero, rfl⟩ := h
  refine ⟨⟨id, 0, .entries, 0⟩ :: moves, ⟨?_, ?_, ?_, ?_⟩, ?_, rfl⟩
  · exact List.forall_mem_cons.mpr ⟨hid, hinter.ids⟩
  · exact List.pairwise_cons.mpr ⟨fun mv hmem => (hzero mv hmem).le, hinter.ordered⟩
  · refine List.forall_mem_cons.mpr ⟨⟨Nat.le_refl 0, ?_⟩, hinter.window⟩
    exact Nat.lt_add_of_pos_right limits.windowDuration_pos
  · intro done hdone
    rcases List.suffix_cons_iff.mp hdone with rfl | hdone
    · exact hlimited
    · exact hinter.limited done hdone
  · exact List.forall_mem_cons.mpr ⟨rfl, hzero⟩

theorem inFlight_stepAt0_le {id : Nat} (hid : id < k) :
    (stepAt0 limits ip id race).inFlight k ≤ race.inFlight k + 1 := by
  refine (inFlight_advance_le hid).trans (Nat.add_le_add_left ?_ _)
  split
  · exact Nat.le_refl 1
  · exact Nat.zero_le 1

/-- A key is compared before the ban. -/
theorem Reached.compare (h : Reached limits ip k c race) {id : Nat} (hid : id < k)
    (hlimited : race.inFlight k ≤ c) (hphase : race.phase id = .checked)
    (hbanned : race.banned = false) :
    let next := { race with
      phase := Function.update race.phase id .compared
      beforeBan := race.beforeBan + 1 }
    Reached limits ip k c next ∧ next.inFlight k ≤ c := by
  have hnext : stepAt0 limits ip id race = { race with
      phase := Function.update race.phase id .compared
      beforeBan := race.beforeBan + 1 } := by
    rw [stepAt0, advance_checked hphase, hbanned]
    rfl
  have hflight : (stepAt0 limits ip id race).inFlight k ≤ c := by
    refine (inFlight_advance_le hid).trans ?_
    rwa [if_neg (by rw [hphase]; decide)]
  have hreached := h.step hid hflight
  rw [hnext] at hflight hreached
  exact ⟨hreached, hflight⟩

theorem inFlight_inTurn (j : Nat) : (inTurn limits ip j).inFlight k = 0 := by
  refine count_eq_zero fun i => ?_
  show Phase.inFlight (if i < j then .recorded else .arrived) = false
  split
  · rfl
  · rfl

theorem inFlight_first_le {id j : Nat} (hid : id < k) :
    (stepAt0 limits ip id (inTurn limits ip j)).inFlight k ≤ 1 := by
  refine (inFlight_stepAt0_le hid).trans ?_
  rw [inFlight_inTurn]

theorem isBanned_inTurn {j : Nat} (hj : j < limits.maxAttempts) :
    (inTurn limits ip j).store.isBanned ip 0 = false := by
  rw [BanStore.isBanned, inTurn, BanStore.bannedUntil_failures hj]
  rfl

/-- The next one. -/
theorem stepAt0_inTurn {j : Nat} (hj : j + 1 < limits.maxAttempts) :
    stepAt0 limits ip j (stepAt0 limits ip j (stepAt0 limits ip j (inTurn limits ip j))) =
      inTurn limits ip (j + 1) := by
  have hstore : ((inTurn limits ip j).store.recordFailure limits .entries ip 0 0).2 =
      (inTurn limits ip (j + 1)).store := rfl
  have harrived : (inTurn limits ip j).phase j = .arrived := if_neg (Nat.lt_irrefl j)
  have hphase : Function.update (inTurn limits ip j).phase j .recorded =
      (inTurn limits ip (j + 1)).phase := by
    funext i
    show Function.update (fun i => if i < j then Phase.recorded else .arrived) j .recorded i =
      if i < j + 1 then .recorded else .arrived
    rw [Function.update_apply]
    grind
  unfold stepAt0
  simp only [advance, harrived, isBanned_inTurn (Nat.lt_of_succ_lt hj), Bool.false_eq_true, if_false,
    Function.update_self, Function.update_idem, hphase, hstore, isBanned_inTurn hj, Bool.or_false]
  rfl

theorem reached_inTurn {j : Nat} (hj : j < limits.maxAttempts) (hk : j ≤ k) (hc : 2 ≤ c) :
    Reached limits ip k c (inTurn limits ip j) := by
  induction j with
  | zero =>
    refine ⟨[], ⟨?_, .nil, ?_, ?_⟩, ?_, rfl⟩
    · exact fun mv hmem => absurd hmem List.not_mem_nil
    · exact fun mv hmem => absurd hmem List.not_mem_nil
    · intro done hdone
      rw [List.suffix_nil.mp hdone]
      show (inTurn limits ip 0).inFlight k ≤ c
      rw [inFlight_inTurn]
      exact Nat.zero_le c
    · exact fun mv hmem => absurd hmem List.not_mem_nil
  | succ j ih =>
    have hone : (stepAt0 limits ip j (inTurn limits ip j)).inFlight k ≤ 1 := inFlight_first_le hk
    have htwo : (stepAt0 limits ip j (stepAt0 limits ip j (inTurn limits ip j))).inFlight k ≤ 2 :=
      (inFlight_stepAt0_le hk).trans (Nat.succ_le_succ hone)
    rw [← stepAt0_inTurn hj]
    refine (((ih (by omega) (by omega)).step hk ?_).step hk (htwo.trans hc)).step hk ?_
    · omega
    · rw [stepAt0_inTurn hj, inFlight_inTurn]
      exact Nat.zero_le c

/-- With two requests in flight, one key more is compared than `max_attempts`. -/
theorem reached_beforeBan {j : Nat} (hj : limits.maxAttempts = j + 1) (hk : j + 1 < k)
    (hc : 2 ≤ c) : ∃ race, Reached limits ip k c race ∧ race.beforeBan = j + 2 := by
  have hbanned : (inTurn limits ip j).store.isBanned ip 0 = false := isBanned_inTurn (by omega)
  have hfirst : (inTurn limits ip j).phase j = .arrived := if_neg (Nat.lt_irrefl j)
  have hsecond : (inTurn limits ip j).phase (j + 1) = .arrived :=
    if_neg (Nat.not_lt.mpr (Nat.le_succ j))
  have hne : j ≠ j + 1 := (Nat.lt_succ_self j).ne
  -- both are checked before either is compared
  have hchecked : stepAt0 limits ip (j + 1) (stepAt0 limits ip j (inTurn limits ip j)) =
      { inTurn limits ip j with
        phase := Function.update (Function.update (inTurn limits ip j).phase j .checked) (j + 1)
          .checked } := by
    simp only [stepAt0, advance, hfirst, hsecond, hbanned, Bool.false_eq_true, if_false,
      Function.update_of_ne hne.symm]
  have hone : (stepAt0 limits ip j (inTurn limits ip j)).inFlight k ≤ 1 :=
    inFlight_first_le (Nat.lt_of_succ_lt hk)
  have htwo : (stepAt0 limits ip (j + 1) (stepAt0 limits ip j (inTurn limits ip j))).inFlight k ≤
      2 := (inFlight_stepAt0_le hk).trans (Nat.succ_le_succ hone)
  have hreached := ((reached_inTurn (by omega) (by omega) hc).step (Nat.lt_of_succ_lt hk)
    (hone.trans (by omega))).step hk (htwo.trans hc)
  rw [hchecked] at htwo hreached
  obtain ⟨hreached, hflight⟩ := hreached.compare (Nat.lt_of_succ_lt hk) (htwo.trans hc)
    ((Function.update_of_ne hne _ _).trans (Function.update_self ..)) rfl
  obtain ⟨hreached, -⟩ := hreached.compare hk hflight
    ((Function.update_of_ne hne.symm _ _).trans (Function.update_self ..)) rfl
  exact ⟨_, hreached, rfl⟩

end

/-- **The bound in a race.** In every interleaving of `k` requests with wrong keys, at most `c` of
them in flight, at most `max_attempts` keys are compared before the address is banned: exactly if
there are no more requests than that, or no two are in flight at a time. -/
theorem races_bounded_iff (limits : AuthLimits) (ip : IpAddr) (k c : Nat) :
    (∀ start first moves, Interleaving limits ip start k c first moves →
      (afterMoves limits ip start moves).beforeBan ≤ limits.maxAttempts) ↔
    k ≤ limits.maxAttempts ∨ c ≤ 1 := by
  constructor
  · intro h
    by_contra hmany
    obtain ⟨j, hj⟩ := Nat.exists_eq_succ_of_ne_zero limits.maxAttempts_pos.ne'
    obtain ⟨race, ⟨moves, hinter, -, rfl⟩, hbefore⟩ :=
      @reached_beforeBan limits ip k c j hj (by omega) (by omega)
    have hle := h {} 0 moves hinter
    omega
  · intro h start first moves hinter
    have hle := beforeBan_le hinter
    have hpos := limits.maxAttempts_pos
    omega

/-- The default limits. -/
def fiveAttempts : AuthLimits := ⟨5, 60, 300, Nat.succ_pos _, Nat.succ_pos _, Nat.succ_pos _⟩

/-- Six requests: each checks, then each compares, and then each records. -/
def crowd : List Move :=
  (List.range 6 ++ List.range 6 ++ List.range 6).map fun id => ⟨id, 0, .entries, 0⟩

theorem crowd_interleaving :
    Interleaving fiveAttempts (.v4 ⟨10, 0, 0, 1⟩) {} 6 6 0 crowd where
  ids := by decide
  ordered := by decide
  window := by decide
  limited _ _ := count_le

theorem crowd_six_compared :
    Interleaving fiveAttempts (.v4 ⟨10, 0, 0, 1⟩) {} 6 6 0 crowd ∧
    (afterMoves fiveAttempts (.v4 ⟨10, 0, 0, 1⟩) {} crowd).banned = true ∧
    (afterMoves fiveAttempts (.v4 ⟨10, 0, 0, 1⟩) {} crowd).beforeBan = 6 :=
  ⟨crowd_interleaving, by decide +kernel, by decide +kernel⟩

end Race

end ApertureRouter
