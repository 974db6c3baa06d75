import ApertureRouter.Middleware.Auth
import ApertureRouter.Middleware.Bursts

/-!
# Guesses of an admin key

Requests to the regular and the admin routes share the failures and the bans
(`src/middleware/auth.rs`). A run is a list of events, each at its time, with the last one first.

* `authEvents`: what a run does to the failures and the bans, as a run of `AuthEvent`s.
* `guesses`: the times at which a wrong key of an address got to `validate_admin_key`.
* `Kept`: the guesses that count are among the failures that are stored. A success throws the failures
  away (`Careful.success`), and so does a ban that ends early (`Careful.room`).
* `guesses_bounded`: without these two, there are at most `max_attempts` guesses within a window.
-/

namespace ApertureRouter

open Window

/-- A request to a regular or an admin route, or a tick of one of the background tasks. -/
inductive RouterOp where
  | regular (visit : Visit)
  | admin (visit : Visit)
  | authCleanup
  | limiterCleanup

structure RouterEvent where
  time : Nat
  op : RouterOp

namespace RouterEvent

/-- The times of a run do not decrease. -/
def Ordered (run : List RouterEvent) : Prop := run.Pairwise fun e e' => e'.time ≤ e.time

/-- The request of an event. -/
def visit? (e : RouterEvent) : Option Visit :=
  match e.op with
  | .regular visit | .admin visit => some visit
  | .authCleanup | .limiterCleanup => none

end RouterEvent

namespace Middleware

variable (m : Middleware)

/-- An event. -/
def serve (e : RouterEvent) (guard : Guard) : Served :=
  match e.op with
  | .regular visit => m.authMiddleware visit e.time guard
  | .admin visit => m.adminAuthMiddleware visit e.time guard
  | .authCleanup =>
    { result := .ok ()
      compared := none
      recorded := some .cleanup
      guard := { guard with store := guard.store.cleanup m.auth.limits e.time } }
  | .limiterCleanup =>
    { result := .ok ()
      compared := none
      recorded := none
      guard := { guard with requests := guard.requests.cleanup m.rateLimiter.window e.time } }

/-- The tables after a run. -/
def afterEvents : List RouterEvent → Guard
  | [] => {}
  | e :: run => (m.serve e (afterEvents run)).guard

/-- What a run does to the failures and the bans. -/
def authEvents : List RouterEvent → List AuthEvent
  | [] => []
  | e :: run =>
    match (m.serve e (m.afterEvents run)).recorded with
    | some op => ⟨e.time, op⟩ :: authEvents run
    | none => authEvents run

/-- The request is from the address. -/
def From (ip : IpAddr) (visit : Visit) : Prop :=
  extractClientIp visit.request m.auth.trustedProxies = .ok ip

instance (ip : IpAddr) (visit : Visit) : Decidable (m.From ip visit) :=
  inferInstanceAs (Decidable (_ = _))

/-- The address of the client. -/
def client? (e : RouterEvent) : Option IpAddr :=
  e.visit?.bind fun visit => (extractClientIp visit.request m.auth.trustedProxies).toOption

/-- The addresses of a run. -/
def clients (run : List RouterEvent) : List IpAddr := run.filterMap m.client?

/-- A wrong key of the address gets to `validate_admin_key`. -/
def isGuess (ip : IpAddr) (e : RouterEvent) (guard : Guard) : Bool :=
  match e.op with
  | .admin visit =>
    decide (m.From ip visit) &&
      (m.adminAuthMiddleware visit e.time guard).compared.any fun key =>
        !m.auth.validateAdminKey key
  | _ => false

/-- The times of the guesses of an address, oldest first. -/
def guesses (ip : IpAddr) : List RouterEvent → List Nat
  | [] => []
  | e :: run =>
    if m.isGuess ip e (m.afterEvents run) then guesses ip run ++ [e.time] else guesses ip run

/-! ## What an event can do -/

/-- The key of a request is compared. -/
inductive Attempt (e : RouterEvent) (guard : Guard) (visit : Visit) (ip : IpAddr) :
    (String → Bool) → Prop
  | regular (hop : e.op = .regular visit) (hsize : m.oversized visit = false)
      (h : m.Compared m.auth.validateApiKey visit ip e.time guard (m.serve e guard)) :
      Attempt e guard visit ip m.auth.validateApiKey
  | admin (hop : e.op = .admin visit)
      (h : m.Compared m.auth.validateAdminKey visit ip e.time guard (m.serve e guard)) :
      Attempt e guard visit ip m.auth.validateAdminKey

theorem Attempt.compared {m : Middleware} {e : RouterEvent} {guard : Guard} {visit : Visit}
    {ip : IpAddr} {valid : String → Bool} (h : m.Attempt e guard visit ip valid) :
    m.Compared valid visit ip e.time guard (m.serve e guard) := by
  cases h with
  | regular hop hsize h => exact h
  | admin hop h => exact h

theorem Attempt.visit?_eq {m : Middleware} {e : RouterEvent} {guard : Guard} {visit : Visit}
    {ip : IpAddr} {valid : String → Bool} (h : m.Attempt e guard visit ip valid) :
    e.visit? = some visit := by
  cases h with
  | regular hop hsize h => rw [RouterEvent.visit?, hop]
  | admin hop h => rw [RouterEvent.visit?, hop]

/-- All that an event can do. -/
theorem serve_cases (e : RouterEvent) (guard : Guard) :
    Untouched guard (m.serve e guard) ∨
      (e.op = .authCleanup ∧ (m.serve e guard).recorded = some .cleanup ∧
        (m.serve e guard).guard.store = guard.store.apply m.auth.limits ⟨e.time, .cleanup⟩) ∨
      ∃ visit ip valid, m.Attempt e guard visit ip valid := by
  cases hop : e.op with
  | regular visit =>
    have hserve : m.serve e guard = m.authMiddleware visit e.time guard := by rw [serve, hop]
    rcases m.authMiddleware_cases visit e.time guard with h | ⟨ip, hsize, h⟩
    · exact .inl (hserve ▸ h)
    · exact .inr (.inr ⟨visit, ip, _, .regular hop hsize (hserve ▸ h)⟩)
  | admin visit =>
    have hserve : m.serve e guard = m.adminAuthMiddleware visit e.time guard := by rw [serve, hop]
    rcases m.adminAuthMiddleware_cases visit e.time guard with h | ⟨ip, h⟩
    · exact .inl (hserve ▸ h)
    · exact .inr (.inr ⟨visit, ip, _, .admin hop (hserve ▸ h)⟩)
  | authCleanup => exact .inr (.inl ⟨rfl, by rw [serve, hop], by rw [serve, hop]; rfl⟩)
  | limiterCleanup =>
    refine .inl ⟨?_, ?_, ?_⟩ <;> rw [serve, hop]

/-- A wrong key gets there only in a request of the address that is let through. -/
theorem isGuess_iff {ip : IpAddr} {e : RouterEvent} {guard : Guard} :
    m.isGuess ip e guard = true ↔ ∃ visit key, e.op = .admin visit ∧
      m.Attempt e guard visit ip m.auth.validateAdminKey ∧ visit.request.apiKey = some key ∧
      m.auth.validateAdminKey key = false := by
  unfold isGuess
  constructor
  · intro h
    cases hop : e.op with
    | admin visit =>
      rw [hop] at h
      obtain ⟨hfrom, hwrong⟩ := Bool.and_eq_true_iff.mp h
      have hserve : m.serve e guard = m.adminAuthMiddleware visit e.time guard := by rw [serve, hop]
      rcases m.adminAuthMiddleware_cases visit e.time guard with hcase | ⟨ip', hcase⟩
      · rw [hcase.compared] at hwrong
        cases hwrong
      · obtain rfl : ip = ip' := Except.ok.inj ((of_decide_eq_true hfrom).symm.trans hcase.client)
        rw [hcase.compared] at hwrong
        obtain ⟨key, hkey, hvalid⟩ := (Option.any_eq_true _ _).mp hwrong
        exact ⟨visit, key, rfl, .admin hop (hserve ▸ hcase), hkey, by simpa using hvalid⟩
    | _ =>
      rw [hop] at h
      cases h
  · rintro ⟨visit, key, hop, hattempt, hkey, hvalid⟩
    have hcompared := hattempt.compared
    have hserve : m.serve e guard = m.adminAuthMiddleware visit e.time guard := by rw [serve, hop]
    rw [hserve] at hcompared
    rw [hop]
    dsimp only
    rw [hcompared.compared, hkey, Option.any_some, hvalid]
    exact Bool.and_eq_true_iff.mpr ⟨decide_eq_true hcompared.client, rfl⟩

/-! ## Failures and bans -/

section

variable {m} {run : List RouterEvent} {ip : IpAddr}

theorem authEvents_cons (e : RouterEvent) (run : List RouterEvent) :
    m.authEvents (e :: run) =
      ((m.serve e (m.afterEvents run)).recorded.map (AuthEvent.mk e.time)).toList ++
        m.authEvents run := by
  rw [authEvents]
  cases (m.serve e (m.afterEvents run)).recorded <;> rfl

/-- The failures and the bans after a run are those after what the run does to them. -/
theorem afterEvents_store (run : List RouterEvent) :
    (m.afterEvents run).store = BanStore.afterRun m.auth.limits (m.authEvents run) := by
  induction run with
  | nil => rfl
  | cons e run ih =>
    rw [authEvents_cons, afterEvents]
    rcases m.serve_cases e (m.afterEvents run) with h | ⟨-, hrecorded, hstore⟩ | ⟨visit, ip, valid, h⟩
    · rw [h.recorded, h.store]
      exact ih
    · rw [hrecorded, hstore, ih]
      rfl
    · rw [h.compared.recorded, h.compared.store, ih]
      rfl

/-- What a run does comes from its events. -/
theorem mem_authEvents {e : AuthEvent} (h : e ∈ m.authEvents run) :
    ∃ e' ∈ run, e'.time = e.time := by
  induction run with
  | nil => cases h
  | cons e' run ih =>
    rw [authEvents_cons, List.mem_append] at h
    rcases h with h | h
    · obtain ⟨op, -, rfl⟩ := Option.map_eq_some_iff.mp (Option.mem_toList.mp h)
      exact ⟨e', List.mem_cons_self, rfl⟩
    · obtain ⟨e'', hmem, htime⟩ := ih h
      exact ⟨e'', List.mem_cons_of_mem _ hmem, htime⟩

theorem ordered_authEvents (h : RouterEvent.Ordered run) : AuthEvent.Ordered (m.authEvents run) := by
  induction run with
  | nil => exact List.Pairwise.nil
  | cons e run ih =>
    obtain ⟨hle, hrun⟩ := List.pairwise_cons.mp h
    rw [authEvents_cons]
    refine List.pairwise_append.mpr ⟨?_, ih hrun, ?_⟩
    · cases (m.serve e (m.afterEvents run)).recorded with
      | none => exact List.Pairwise.nil
      | some op => exact List.pairwise_singleton _ _
    · intro e₁ he₁ e₂ he₂
      obtain ⟨op, -, rfl⟩ := Option.map_eq_some_iff.mp (Option.mem_toList.mp he₁)
      obtain ⟨e', hmem, htime⟩ := mem_authEvents he₂
      exact htime ▸ hle e' hmem

theorem Attempt.client?_eq {e : RouterEvent} {guard : Guard} {visit : Visit}
    {valid : String → Bool} (h : m.Attempt e guard visit ip valid) : m.client? e = some ip := by
  rw [client?, h.visit?_eq, Option.bind_some, h.compared.client]
  rfl

theorem recordedOp_ip? (valid : String → Bool) (visit : Visit) (ip : IpAddr) (now : Nat) :
    AuthEvent.ip? ⟨now, recordedOp valid visit ip⟩ = some ip := by
  unfold recordedOp
  split <;> rfl

theorem clients_subset_cons (e : RouterEvent) (run : List RouterEvent) :
    m.clients run ⊆ m.clients (e :: run) :=
  ((List.sublist_cons_self e run).filterMap m.client?).subset

/-- Only addresses of clients fail or succeed. -/
theorem ips_authEvents_subset (run : List RouterEvent) :
    AuthEvent.ips (m.authEvents run) ⊆ m.clients run := by
  induction run with
  | nil => exact List.Subset.refl _
  | cons e run ih =>
    rw [authEvents_cons, AuthEvent.ips, List.filterMap_append, List.append_subset]
    refine ⟨?_, List.Subset.trans ih (clients_subset_cons e run)⟩
    rcases m.serve_cases e (m.afterEvents run) with h | ⟨-, hrecorded, -⟩ | ⟨visit, ip, valid, h⟩
    · rw [h.recorded]
      exact List.nil_subset _
    · rw [hrecorded]
      exact List.nil_subset _
    · rw [h.compared.recorded]
      show [(⟨e.time, recordedOp valid visit ip⟩ : AuthEvent)].filterMap AuthEvent.ip? ⊆ _
      rw [List.filterMap_cons_some (recordedOp_ip? valid visit ip e.time), List.cons_subset]
      exact ⟨List.mem_filterMap.mpr ⟨e, List.mem_cons_self, h.client?_eq⟩, List.nil_subset _⟩

/-- With a ban that outlasts the failures, a request is let through only while there is room. -/
theorem LetsThrough.room (hlong : m.auth.limits.windowDuration ≤ m.auth.limits.banDuration)
    (hordered : RouterEvent.Ordered run) {now : Nat} (hnow : ∀ e ∈ run, e.time ≤ now)
    (h : m.LetsThrough ip now (m.afterEvents run)) :
    ((m.afterEvents run).store.liveFailures m.auth.limits ip now).length <
      m.auth.limits.maxAttempts := by
  have hbanned := h.2
  rw [afterEvents_store] at hbanned ⊢
  by_contra hfull
  rw [BanStore.isBanned_of_full hlong (ordered_authEvents hordered) (fun e he => ?_)
    (Nat.le_of_not_lt hfull)] at hbanned
  · cases hbanned
  · obtain ⟨e', hmem, htime⟩ := mem_authEvents he
    exact htime ▸ hnow e' hmem

end

/-! ## The bound -/

/-- The requests of the address have no admin key. -/
def KnowsNoAdminKey (ip : IpAddr) (run : List RouterEvent) : Prop :=
  ∀ e ∈ run, ∀ visit, e.visit? = some visit → m.From ip visit →
    visit.request.apiKey.any m.auth.validateAdminKey = false

/-- What an event after a run must not do: clear guesses that count, or guess once more after a ban
that has ended before its failures. -/
structure Careful (ip : IpAddr) (e : RouterEvent) (run : List RouterEvent) : Prop where
  success : ∀ visit, e.op = .regular visit → m.oversized visit = false → m.From ip visit →
    visit.request.apiKey.any m.auth.validateApiKey = true →
    m.LetsThrough ip e.time (m.afterEvents run) →
    ∀ t ∈ m.guesses ip run, ¬ Within m.auth.limits.windowDuration e.time t
  room : m.auth.limits.banDuration < m.auth.limits.windowDuration → ∀ visit, e.op = .admin visit →
    m.From ip visit → visit.request.apiKey.isSome → m.LetsThrough ip e.time (m.afterEvents run) →
    ((m.afterEvents run).store.liveFailures m.auth.limits ip e.time).length <
      m.auth.limits.maxAttempts

/-- Every event of a run is careful. -/
def CarefulRun (ip : IpAddr) : List RouterEvent → Prop
  | [] => True
  | e :: run => m.Careful ip e run ∧ CarefulRun ip run

/-- From `now` on, the guesses that count are among the failures that are stored. -/
def Kept (ip : IpAddr) (now : Nat) (run : List RouterEvent) : Prop :=
  ∀ later, now ≤ later → (prune m.auth.limits.windowDuration later (m.guesses ip run)).Sublist
    (prune m.auth.limits.windowDuration later ((m.afterEvents run).store.failedAttempts.times ip))

section

variable {m} {run : List RouterEvent} {ip : IpAddr}

theorem guesses_le {now : Nat} (hnow : ∀ e ∈ run, e.time ≤ now) : ∀ t ∈ m.guesses ip run, t ≤ now := by
  induction run with
  | nil => exact fun t ht => absurd ht List.not_mem_nil
  | cons e run ih =>
    have ih := ih fun e' he' => hnow e' (List.mem_cons_of_mem e he')
    rw [guesses]
    split
    · intro t ht
      rcases List.mem_append.mp ht with ht | ht
      · exact ih t ht
      · exact List.mem_singleton.mp ht ▸ hnow e List.mem_cons_self
    · exact ih

/-- A guess finds room. -/
theorem room_of_isGuess {e : RouterEvent} (hordered : RouterEvent.Ordered (e :: run))
    (hcareful : m.Careful ip e run) (h : m.isGuess ip e (m.afterEvents run) = true) :
    ((m.afterEvents run).store.liveFailures m.auth.limits ip e.time).length <
      m.auth.limits.maxAttempts := by
  obtain ⟨hle, hrun⟩ := List.pairwise_cons.mp hordered
  obtain ⟨visit, key, hop, hattempt, hkey, -⟩ := m.isGuess_iff.mp h
  have hthrough := hattempt.compared.through
  rcases Nat.lt_or_ge m.auth.limits.banDuration m.auth.limits.windowDuration with hshort | hlong
  · exact hcareful.room hshort visit hop hattempt.compared.client (by rw [hkey]; rfl) hthrough
  · exact hthrough.room hlong hrun hle

/-- A guess fails. -/
theorem Attempt.of_isGuess {e : RouterEvent} {guard : Guard} {visit : Visit} {ip' : IpAddr}
    {valid : String → Bool} (h : m.Attempt e guard visit ip' valid)
    (hguess : m.isGuess ip e guard = true) : ip' = ip ∧ visit.request.apiKey.any valid = false := by
  obtain ⟨visit', key, hop', h', hkey, hvalid⟩ := m.isGuess_iff.mp hguess
  cases h with
  | regular hop =>
    rw [hop] at hop'
    cases hop'
  | admin hop hcompared =>
    obtain rfl : visit = visit' := RouterOp.admin.inj (hop.symm.trans hop')
    refine ⟨Except.ok.inj (hcompared.client.symm.trans h'.compared.client), ?_⟩
    rw [hkey]
    exact hvalid

/-- After a success of the address no guess counts. -/
theorem prune_guesses_of_success {e : RouterEvent} {visit : Visit} {valid : String → Bool}
    (hle : ∀ e' ∈ run, e'.time ≤ e.time)
    (hno : ∀ visit, e.visit? = some visit → m.From ip visit →
      visit.request.apiKey.any m.auth.validateAdminKey = false)
    (hcareful : m.Careful ip e run) (h : m.Attempt e (m.afterEvents run) visit ip valid)
    (hvalid : visit.request.apiKey.any valid = true) {later : Nat} (hlater : e.time ≤ later) :
    prune m.auth.limits.windowDuration later (m.guesses ip run) = [] := by
  have hclient := h.compared.client
  have hthrough := h.compared.through
  cases h with
  | regular hop hsize =>
    have hnone := hcareful.success visit hop hsize hclient hvalid hthrough
    have hnow : prune m.auth.limits.windowDuration e.time (m.guesses ip run) = [] := by
      refine List.filter_eq_nil_iff.mpr fun t ht => ?_
      rw [live_iff_within (guesses_le hle t ht)]
      exact hnone t ht
    rw [← prune_prune hlater, hnow, prune_nil]
  | admin hop =>
    rw [hno visit (by rw [RouterEvent.visit?, hop]) hclient] at hvalid
    cases hvalid

theorem isGuess_of_untouched {e : RouterEvent} {guard : Guard}
    (h : Untouched guard (m.serve e guard)) : m.isGuess ip e guard = false := by
  refine Bool.eq_false_iff.mpr fun hguess => ?_
  obtain ⟨visit, key, -, hattempt, -⟩ := m.isGuess_iff.mp hguess
  exact nomatch h.recorded.symm.trans hattempt.compared.recorded

/-- A wrong key at an admin route is a guess, and its failure is stored. Another failure does not
matter. -/
theorem Kept.failure {e : RouterEvent} {visit : Visit} {valid : String → Bool}
    (h : m.Kept ip e.time run) (hordered : RouterEvent.Ordered (e :: run))
    (hcareful : m.Careful ip e run) (hattempt : m.Attempt e (m.afterEvents run) visit ip valid)
    (hvalid : visit.request.apiKey.any valid = false) : m.Kept ip e.time (e :: run) := by
  intro later hlater
  have hkept := h later hlater
  rw [afterEvents, guesses, hattempt.compared.store, recordedOp, hvalid,
    if_neg Bool.false_ne_true, BanStore.apply]
  dsimp only
  rw [BanStore.prune_recordFailure_self hlater]
  by_cases hguess : m.isGuess ip e (m.afterEvents run) = true
  · have hroom := room_of_isGuess hordered hcareful hguess
    rw [if_pos hguess, if_neg (Nat.not_le.mpr hroom), prune_append]
    exact hkept.append (List.Sublist.refl _)
  · rw [if_neg hguess]
    exact hkept.trans (List.sublist_append_left _ _)

/-- An event without a guess that leaves alone what counts of the failures. -/
theorem Kept.frame {e : RouterEvent} (h : m.Kept ip e.time run)
    (hguess : m.isGuess ip e (m.afterEvents run) = false)
    (hstore : ∀ later, e.time ≤ later →
      prune m.auth.limits.windowDuration later
          ((m.serve e (m.afterEvents run)).guard.store.failedAttempts.times ip) =
        prune m.auth.limits.windowDuration later
          ((m.afterEvents run).store.failedAttempts.times ip)) :
    m.Kept ip e.time (e :: run) := by
  intro later hlater
  rw [afterEvents, guesses, hguess, if_neg Bool.false_ne_true, hstore later hlater]
  exact h later hlater

/-- An event of another address leaves alone what counts of the failures. -/
theorem prune_times_of_ne {e : RouterEvent} {op : AuthOp} (hfew : Few (m.clients (e :: run)))
    (hrecorded : (m.serve e (m.afterEvents run)).recorded = some op)
    (hip : AuthEvent.ip? ⟨e.time, op⟩ ≠ some ip) (later : Nat) (hlater : e.time ≤ later) :
    prune m.auth.limits.windowDuration later
        ((m.serve e (m.afterEvents run)).guard.store.failedAttempts.times ip) =
      prune m.auth.limits.windowDuration later
        ((m.afterEvents run).store.failedAttempts.times ip) := by
  have hevents : m.authEvents (e :: run) = ⟨e.time, op⟩ :: m.authEvents run := by
    rw [authEvents_cons, hrecorded]
    rfl
  have hfew := hfew.of_subset (ips_authEvents_subset (e :: run))
  rw [hevents] at hfew
  have hstore := afterEvents_store (m := m) (e :: run)
  rw [afterEvents] at hstore
  rw [hstore, afterEvents_store, hevents]
  exact BanStore.prune_apply_of_few hfew hip hlater

/-- One event keeps the guesses that count among the failures that are stored. -/
theorem Kept.step {e : RouterEvent} (h : m.Kept ip e.time run)
    (hordered : RouterEvent.Ordered (e :: run)) (hfew : Few (m.clients (e :: run)))
    (hno : ∀ visit, e.visit? = some visit → m.From ip visit →
      visit.request.apiKey.any m.auth.validateAdminKey = false)
    (hcareful : m.Careful ip e run) : m.Kept ip e.time (e :: run) := by
  rcases m.serve_cases e (m.afterEvents run) with hcase | ⟨hop, hrecorded, -⟩ |
    ⟨visit, ip', valid, hattempt⟩
  · exact h.frame (isGuess_of_untouched hcase) fun _ _ => by rw [hcase.store]
  · have hguess : m.isGuess ip e (m.afterEvents run) = false := by rw [isGuess, hop]
    refine h.frame hguess (prune_times_of_ne hfew hrecorded ?_)
    exact fun hip => by cases hip
  · by_cases hip : ip' = ip
    · subst hip
      cases hvalid : visit.request.apiKey.any valid with
      | false => exact h.failure hordered hcareful hattempt hvalid
      | true =>
        have hguess : ¬ m.isGuess ip' e (m.afterEvents run) = true := fun hguess =>
          absurd (hattempt.of_isGuess hguess).2 (by rw [hvalid]; decide)
        intro later hlater
        rw [guesses, if_neg hguess, prune_guesses_of_success (List.pairwise_cons.mp hordered).1 hno
          hcareful hattempt hvalid hlater]
        exact List.nil_sublist _
    · have hguess : m.isGuess ip e (m.afterEvents run) = false :=
        Bool.eq_false_iff.mpr fun hguess => hip (hattempt.of_isGuess hguess).1
      refine h.frame hguess (prune_times_of_ne hfew hattempt.compared.recorded ?_)
      rw [recordedOp_ip?]
      exact fun hsome => hip (Option.some.inj hsome)

/-- The guesses that count stay among the failures that are stored. -/
theorem kept (hordered : RouterEvent.Ordered run) (hfew : Few (m.clients run))
    (hno : m.KnowsNoAdminKey ip run) (hcareful : m.CarefulRun ip run) {now : Nat}
    (hnow : ∀ e ∈ run, e.time ≤ now) : m.Kept ip now run := by
  induction run generalizing now with
  | nil => exact fun _ _ => List.Sublist.refl _
  | cons e run ih =>
    obtain ⟨hle, hrun⟩ := List.pairwise_cons.mp hordered
    have hkept : m.Kept ip e.time run := ih hrun (hfew.of_subset (clients_subset_cons e run))
      (fun e' he' => hno e' (List.mem_cons_of_mem e he')) hcareful.2 hle
    intro later hlater
    exact hkept.step hordered hfew (hno e List.mem_cons_self) hcareful.1 later
      (Nat.le_trans (hnow e List.mem_cons_self) hlater)

/-- **The bound on the guesses.** A client that knows no admin key gets at most `max_attempts` wrong
keys to `validate_admin_key` within any window, in a run whose events are careful. -/
theorem guesses_bounded (m : Middleware) (ip : IpAddr) (run : List RouterEvent)
    (hordered : RouterEvent.Ordered run) (hfew : Few (m.clients run))
    (hno : m.KnowsNoAdminKey ip run) (hcareful : m.CarefulRun ip run) (now : Nat) :
    (m.guesses ip run).countP (Within m.auth.limits.windowDuration now ·) ≤
      m.auth.limits.maxAttempts := by
  induction run with
  | nil => exact Nat.zero_le _
  | cons e run ih =>
    obtain ⟨hle, hrun⟩ := List.pairwise_cons.mp hordered
    have hfew := hfew.of_subset (clients_subset_cons e run)
    have hno' : m.KnowsNoAdminKey ip run := fun e' he' => hno e' (List.mem_cons_of_mem e he')
    have ih := ih hrun hfew hno' hcareful.2
    rw [guesses]
    split
    · rename_i hguess
      have hroom := room_of_isGuess hordered hcareful.1 hguess
      have hkept := (kept hrun hfew hno' hcareful.2 hle e.time (Nat.le_refl _)).length_le
      rw [length_prune (guesses_le hle)] at hkept
      rw [List.countP_append, List.countP_singleton]
      split
      · rename_i hwithin
        have hanti : (m.guesses ip run).countP (Within m.auth.limits.windowDuration now ·) ≤
            (m.guesses ip run).countP (Within m.auth.limits.windowDuration e.time ·) :=
          countP_within_anti (guesses_le hle) (of_decide_eq_true hwithin).1
        unfold BanStore.liveFailures at hroom
        omega
      · exact ih
    · exact ih

end

/-! ## A client with a regular key -/

/-- The default limits, and a key of each kind. -/
def guessConfig : Config where
  security :=
    { apiKeys := ["regular-key-0123456789-abcdefghijklmn"]
      adminApiKeys := ["admin-key-0123456789-abcdefghijklmnop"] }

theorem guessConfig_valid : guessConfig.validate (fun _ => .error "") false = .ok () := by
  rfl

def guessMiddleware : Middleware where
  config := guessConfig
  auth := .new guessConfig guessConfig_valid
  rateLimiter := ⟨30, 3⟩

/-- A request with a key. -/
def visitWith (key : String) : Visit where
  request := ⟨some (.v4 ⟨10, 0, 0, 1⟩), [("authorization", .ofStr ("Bearer " ++ key))]⟩
  checkOrder := .entries
  failureOrder := .entries
  delay := 0

/-- The regular key at a regular route. -/
def regularVisit : Visit := visitWith "regular-key-0123456789-abcdefghijklmn"

/-- A wrong key. -/
def wrongVisit : Visit := visitWith "guess"

/-- A guess and a success in turn, every second. -/
def alternating : List RouterEvent :=
  (List.range 6).reverse.flatMap fun i =>
    [⟨2 * i + 1, .regular regularVisit⟩, ⟨2 * i, .admin wrongVisit⟩]

/-- Two guesses, and a success when they do not count any more. -/
def patient : List RouterEvent :=
  [⟨61, .regular regularVisit⟩, ⟨1, .admin wrongVisit⟩, ⟨0, .admin wrongVisit⟩]

theorem knowsNoAdminKey_of_visits {run : List RouterEvent}
    (h : ∀ e ∈ run, e.visit? = some regularVisit ∨ e.visit? = some wrongVisit) :
    guessMiddleware.KnowsNoAdminKey (.v4 ⟨10, 0, 0, 1⟩) run := by
  intro e he visit hvisit _
  rcases h e he with h | h
  all_goals
    obtain rfl := Option.some.inj (h.symm.trans hvisit)
    decide +kernel

theorem alternating_unbounded :
    RouterEvent.Ordered alternating ∧
    guessMiddleware.KnowsNoAdminKey (.v4 ⟨10, 0, 0, 1⟩) alternating ∧
    guessMiddleware.auth.limits.maxAttempts = 5 ∧
    (guessMiddleware.guesses (.v4 ⟨10, 0, 0, 1⟩) alternating).countP (Within 60 10 ·) = 6 := by
  refine ⟨by unfold RouterEvent.Ordered; decide, knowsNoAdminKey_of_visits fun e he => ?_, rfl,
    by decide +kernel⟩
  obtain ⟨i, -, he⟩ := List.mem_flatMap.mp he
  rcases List.mem_cons.mp he with rfl | he
  · exact .inl rfl
  · rw [List.mem_singleton.mp he]
    exact .inr rfl

theorem patient_careful : guessMiddleware.CarefulRun (.v4 ⟨10, 0, 0, 1⟩) patient := by
  have hlong : ¬ guessMiddleware.auth.limits.banDuration <
      guessMiddleware.auth.limits.windowDuration := by decide
  refine ⟨⟨fun visit hop hsize hfrom hvalid hthrough => ?_, fun h => absurd h hlong⟩,
    ⟨fun _ hop => (nomatch hop), fun h => absurd h hlong⟩,
    ⟨fun _ hop => (nomatch hop), fun h => absurd h hlong⟩, trivial⟩
  decide +kernel

theorem guesses_bounded_patient :
    (guessMiddleware.guesses (.v4 ⟨10, 0, 0, 1⟩) patient).countP (Within 60 1 ·) ≤ 5 := by
  refine guesses_bounded guessMiddleware (.v4 ⟨10, 0, 0, 1⟩) patient
    (by unfold RouterEvent.Ordered; decide)
    (@Few.of_forall_eq _ (.v4 ⟨10, 0, 0, 1⟩) (by decide +kernel))
    (knowsNoAdminKey_of_visits fun e he => ?_) patient_careful 1
  simp only [patient, List.mem_cons, List.not_mem_nil, or_false] at he
  rcases he with rfl | rfl | rfl
  · exact .inl rfl
  · exact .inr rfl
  · exact .inr rfl

end Middleware

end ApertureRouter
