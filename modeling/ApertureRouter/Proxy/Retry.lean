import Mathlib.Tactic.Linarith
import Mathlib.Tactic.GCongr
import Mathlib.Tactic.NormNum
import ApertureRouter.Middleware.ClientIp
import ApertureRouter.Proxy.Gateway

/-!
# The retries of a request

`send_with_429_retry` (`src/proxy/client.rs`) sends up to `retry_attempts + 1` times, and waits before it
sends again.

* `RetryEnv`: the outcome of each send, and the clock that the jitter is taken from. The delay of the
  backoff is the exact product, which `mul_f64` rounds. What panics is an end with the text of the panic.
* `RetriesUpTo`: the sends and waits of a run up to the first outcome that is final.
  `retryFrom_retriesUpTo`: such is each run of the loop, if no delay overflows.
* `retry_contract`: what the caller relies on, with the settings that `Config::validate` accepts.
* `sendWith429Retry_result`: the loop of `Network` returns the same.
-/

namespace ApertureRouter

/-! ## The loop -/

/-- A response with its headers. -/
structure HttpResponse where
  response : UpstreamResponse
  headers : HeaderMap

/-- What a call meets. -/
structure RetryEnv where
  /-- The outcome of the `n`-th send, or an error of the transport. -/
  outcome : Nat → Except Unit HttpResponse
  /-- `subsec_nanos` of the time after the `n`-th send, if the clock is after the epoch. -/
  subsecNanos : Nat → Option Nat

/-- A wait, in milliseconds. -/
inductive Delay where
  | retryAfter (millis : Nat)
  | backoff (millis : ℚ)
  deriving DecidableEq

inductive RetryStep where
  | send
  | sleep (delay : Delay)
  deriving DecidableEq

inductive RetryEnd where
  | returned (result : Except Unit HttpResponse)
  | panicked (text : String)

/-- What a call does, and how it ends. -/
structure RetryRun where
  steps : List RetryStep
  ending : RetryEnd

/-- A send, then a wait and a send for each delay. -/
def sendsAndWaits (delays : List Delay) : List RetryStep :=
  delays.flatMap (fun delay => [.send, .sleep delay]) ++ [.send]

/-- The number of requests that were sent. -/
def RetryRun.sends (run : RetryRun) : Nat := run.steps.count .send

theorem count_sendsAndWaits (delays : List Delay) :
    (sendsAndWaits delays).count .send = delays.length + 1 := by
  induction delays with
  | nil => rfl
  | cons delay delays ih =>
    have hcons : sendsAndWaits (delay :: delays) = .send :: .sleep delay :: sendsAndWaits delays := rfl
    have hne : (.sleep delay : RetryStep) ≠ .send := by simp
    rw [hcons, List.count_cons_self, List.count_cons_of_ne hne, ih, List.length_cons]

theorem mem_sendsAndWaits {delay : Delay} {delays : List Delay} :
    .sleep delay ∈ sendsAndWaits delays ↔ delay ∈ delays := by
  simp [sendsAndWaits]

/-- `x-ratelimit-remaining` says that nothing is left. -/
def quotaExhausted (headers : HeaderMap) : Bool :=
  (((headers.get "x-ratelimit-remaining").bind HeaderValue.toStr).map fun v =>
    Text.trim v == ['0']).getD false

/-- `rand_factor`. -/
def randFactor : Option Nat → ℚ
  | some nanos => 7 / 10 + ((nanos % 1000 : Nat) : ℚ) / 1000 * (6 / 10)
  | none => 1

/-- `1u32 << attempt`. -/
def shiftedOne (attempt : Nat) : Except String Nat :=
  if attempt < 32 then .ok (2 ^ attempt) else .error "attempt to shift left with overflow"

/-- `Duration::mul_f64`, in milliseconds. -/
def mulF64 (millis : Nat) (factor : ℚ) : Except String ℚ :=
  if millis * factor < 1000 * 2 ^ 64 then .ok (millis * factor)
  else .error "cannot convert float seconds to Duration: value is either too big or NaN"

/-- Four times the base delay, in whole milliseconds. -/
def retryAfterCap (baseDelayMs : Nat) : Nat :=
  min (4 * min baseDelayMs (2 ^ 64 - 1)) (2 ^ 64 - 1)

/-- The wait of the backoff, in milliseconds. -/
def backoffMillis (baseDelayMs attempt : Nat) (subsecNanos : Option Nat) : Except String ℚ := do
  let shifted ← shiftedOne attempt
  mulF64 baseDelayMs (randFactor subsecNanos * shifted)

/-- The wait after a `429`. -/
def retryDelay (baseDelayMs attempt : Nat) (headers : HeaderMap) (subsecNanos : Option Nat) :
    Except String Delay :=
  match ((headers.get "retry-after").bind HeaderValue.toStr).bind fun v =>
      (Text.parseUint (2 ^ 64) (Text.trim v)).toOption with
  | some secs => .ok (.retryAfter (min (1000 * secs) (retryAfterCap baseDelayMs)))
  | none => (backoffMillis baseDelayMs attempt subsecNanos).map .backoff

namespace RetryEnv

variable (env : RetryEnv) (retryAttempts baseDelayMs : Nat)

/-- The wait after the `429` of the `attempt`-th send. -/
def delay (attempt : Nat) (response : HttpResponse) : Except String Delay :=
  retryDelay baseDelayMs attempt response.headers (env.subsecNanos attempt)

/-- The loop of `send_with_429_retry`, over what is left of `0..=retry_attempts`. -/
def retryFrom : List Nat → RetryRun
  | [] => ⟨[], .panicked "internal error: entered unreachable code: retry loop returns inside the loop"⟩
  | attempt :: attempts =>
    match env.outcome attempt with
    | .error e => ⟨[.send], .returned (.error e)⟩
    | .ok response =>
      if response.response.status != 429 || attempt == retryAttempts then
        ⟨[.send], .returned (.ok response)⟩
      else if quotaExhausted response.headers then ⟨[.send], .returned (.ok response)⟩
      else
        match env.delay baseDelayMs attempt response with
        | .error text => ⟨[.send], .panicked text⟩
        | .ok delay =>
          let rest := retryFrom attempts
          ⟨.send :: .sleep delay :: rest.steps, rest.ending⟩

/-- `send_with_429_retry`. -/
def sendWith429Retry : RetryRun :=
  env.retryFrom retryAttempts baseDelayMs (List.range' 0 (retryAttempts + 1))

/-! ## Runs -/

/-- The outcome of the `n`-th send is a `429`, and the quota is not exhausted. -/
def Retried (n : Nat) : Prop :=
  ∃ response, env.outcome n = .ok response ∧ response.response.status = 429 ∧
    quotaExhausted response.headers = false

/-- The wait after the `n`-th send. -/
def Waits (n : Nat) (delay : Delay) : Prop :=
  ∃ response, env.outcome n = .ok response ∧ env.delay baseDelayMs n response = .ok delay

/-- From the `attempt`-th send on, `count` outcomes are retried, each after its wait, and the next one is
returned. -/
structure RetriesUpTo (attempt count : Nat) (run : RetryRun) : Prop where
  bounded : attempt + count ≤ retryAttempts
  retried : ∀ i < count, env.Retried (attempt + i)
  final : attempt + count = retryAttempts ∨ ¬env.Retried (attempt + count)
  ending : run.ending = .returned (env.outcome (attempt + count))
  steps : ∃ delays : List Delay, delays.length = count ∧
    (∀ i delay, delays[i]? = some delay → env.Waits baseDelayMs (attempt + i) delay) ∧
    run.steps = sendsAndWaits delays

variable {env retryAttempts baseDelayMs}

/-- A run of one send. -/
theorem RetriesUpTo.single {attempt : Nat} (hle : attempt ≤ retryAttempts)
    (hfinal : attempt = retryAttempts ∨ ¬env.Retried attempt) :
    env.RetriesUpTo retryAttempts baseDelayMs attempt 0
      ⟨[.send], .returned (env.outcome attempt)⟩ where
  bounded := hle
  retried i hi := absurd hi (Nat.not_lt_zero i)
  final := hfinal
  ending := rfl
  steps := ⟨[], rfl, fun _ _ hdelay => (by cases hdelay), rfl⟩

/-- A send and a wait before a run. -/
theorem RetriesUpTo.cons {attempt count : Nat} {delay : Delay} {run : RetryRun}
    (h : env.RetriesUpTo retryAttempts baseDelayMs (attempt + 1) count run)
    (hretried : env.Retried attempt) (hwaits : env.Waits baseDelayMs attempt delay) :
    env.RetriesUpTo retryAttempts baseDelayMs attempt (count + 1)
      ⟨.send :: .sleep delay :: run.steps, run.ending⟩ where
  bounded := by have := h.bounded; omega
  retried i hi := by
    cases i with
    | zero => exact hretried
    | succ i =>
      rw [Nat.add_comm i 1, ← Nat.add_assoc]
      exact h.retried i (by omega)
  final := by
    rw [Nat.add_comm count 1, ← Nat.add_assoc]
    exact h.final
  ending := by
    rw [Nat.add_comm count 1, ← Nat.add_assoc]
    exact h.ending
  steps := by
    obtain ⟨delays, hlength, hdelays, hsteps⟩ := h.steps
    refine ⟨delay :: delays, congrArg (· + 1) hlength, fun i delay' hdelay => ?_, by rw [hsteps]; rfl⟩
    cases i with
    | zero =>
      cases hdelay
      exact hwaits
    | succ i =>
      rw [Nat.add_comm i 1, ← Nat.add_assoc]
      exact hdelays i delay' hdelay

/-- The last outcome, and one that is not retried, are returned at once. -/
theorem retryFrom_final {attempt : Nat} (attempts : List Nat)
    (hfinal : attempt = retryAttempts ∨ ¬env.Retried attempt) :
    env.retryFrom retryAttempts baseDelayMs (attempt :: attempts) =
      ⟨[.send], .returned (env.outcome attempt)⟩ := by
  rw [retryFrom]
  cases ho : env.outcome attempt with
  | error e => rfl
  | ok response =>
    dsimp only
    split
    · rfl
    · next hmore =>
      rw [Bool.or_eq_true, not_or, bne_iff_ne, not_not, beq_iff_eq] at hmore
      obtain ⟨hstatus, hnot⟩ := hmore
      split
      · rfl
      · next hquota =>
        rcases hfinal with hlast | hdone
        · exact absurd hlast hnot
        · exact absurd ⟨response, ho, hstatus, Bool.eq_false_iff.mpr hquota⟩ hdone

/-- An outcome that is retried is followed by its wait and the rest of the loop. -/
theorem retryFrom_retried {attempt : Nat} {response : HttpResponse} {delay : Delay}
    (attempts : List Nat) (hmore : attempt ≠ retryAttempts)
    (ho : env.outcome attempt = .ok response) (hstatus : response.response.status = 429)
    (hquota : quotaExhausted response.headers = false)
    (hdelay : env.delay baseDelayMs attempt response = .ok delay) :
    env.retryFrom retryAttempts baseDelayMs (attempt :: attempts) =
      ⟨.send :: .sleep delay :: (env.retryFrom retryAttempts baseDelayMs attempts).steps,
        (env.retryFrom retryAttempts baseDelayMs attempts).ending⟩ := by
  have hnot : (response.response.status != 429 || attempt == retryAttempts) = false := by
    rw [hstatus, bne_self_eq_false, Bool.false_or, beq_eq_false_iff_ne]
    exact hmore
  simp only [retryFrom, ho, hnot, hquota, hdelay, Bool.false_eq_true, if_false]

variable (env) in
/-- **The loop.** Without an overflow, it runs up to the first final outcome. -/
theorem retryFrom_retriesUpTo
    (hsafe : ∀ attempt < retryAttempts, ∀ headers nanos,
      ∃ delay, retryDelay baseDelayMs attempt headers nanos = .ok delay)
    {n attempt : Nat} (hn : attempt + n = retryAttempts) :
    ∃ count, env.RetriesUpTo retryAttempts baseDelayMs attempt count
      (env.retryFrom retryAttempts baseDelayMs (List.range' attempt (n + 1))) := by
  induction n generalizing attempt with
  | zero =>
    have hlast : attempt = retryAttempts := hn
    rw [List.range'_one, retryFrom_final [] (.inl hlast)]
    exact ⟨0, .single hlast.le (.inl hlast)⟩
  | succ n ih =>
    rw [List.range'_succ]
    by_cases hretried : env.Retried attempt
    · obtain ⟨response, ho, hstatus, hquota⟩ := id hretried
      obtain ⟨delay, hdelay⟩ := hsafe attempt (by omega) response.headers (env.subsecNanos attempt)
      obtain ⟨count, hrun⟩ := ih (by omega : attempt + 1 + n = retryAttempts)
      rw [retryFrom_retried _ (by omega) ho hstatus hquota hdelay]
      exact ⟨count + 1, hrun.cons hretried ⟨response, ho, hdelay⟩⟩
    · rw [retryFrom_final _ (.inr hretried)]
      exact ⟨0, .single (by omega) (.inr hretried)⟩

/-! ## The contract -/

variable (env retryAttempts baseDelayMs) in
/-- What the caller of `send_with_429_retry` relies on. -/
structure KeepsContract (run : RetryRun) : Prop where
  sends_le : run.sends ≤ retryAttempts + 1
  sends_again : ∀ n < run.sends, n + 1 < run.sends ↔ n < retryAttempts ∧ env.Retried n
  returns_last : 0 < run.sends ∧ run.ending = .returned (env.outcome (run.sends - 1))
  waits : ∃ delays : List Delay, delays.length + 1 = run.sends ∧
    (∀ i delay, delays[i]? = some delay → env.Waits baseDelayMs i delay) ∧
    run.steps = sendsAndWaits delays
  retryAfter_le : ∀ millis, .sleep (.retryAfter millis) ∈ run.steps → millis ≤ 4 * baseDelayMs

theorem retryAfterCap_le (baseDelayMs : Nat) : retryAfterCap baseDelayMs ≤ 4 * baseDelayMs := by
  unfold retryAfterCap
  omega

/-- A wait taken from `Retry-After` is capped. -/
theorem retryDelay_retryAfter_le {attempt millis : Nat} {headers : HeaderMap} {nanos : Option Nat}
    (h : retryDelay baseDelayMs attempt headers nanos = .ok (.retryAfter millis)) :
    millis ≤ 4 * baseDelayMs := by
  unfold retryDelay at h
  split at h
  · next secs _ =>
    cases h
    exact (Nat.min_le_right _ _).trans (retryAfterCap_le baseDelayMs)
  · cases hbackoff : backoffMillis baseDelayMs attempt nanos <;> rw [hbackoff] at h <;> cases h

example : retryDelay 2000 0 [("retry-after", .ofStr "9")] none = .ok (.retryAfter 8000) := by rfl

theorem RetriesUpTo.sends_eq {attempt count : Nat} {run : RetryRun}
    (h : env.RetriesUpTo retryAttempts baseDelayMs attempt count run) : run.sends = count + 1 := by
  obtain ⟨delays, hlength, -, hsteps⟩ := h.steps
  rw [RetryRun.sends, hsteps, count_sendsAndWaits, hlength]

/-- A run that stops at the first final outcome keeps the contract. -/
theorem RetriesUpTo.keepsContract {count : Nat} {run : RetryRun}
    (h : env.RetriesUpTo retryAttempts baseDelayMs 0 count run) :
    env.KeepsContract retryAttempts baseDelayMs run := by
  have hsends := h.sends_eq
  have hbounded := h.bounded
  have hretried := h.retried
  have hfinal := h.final
  have hending := h.ending
  rw [Nat.zero_add] at hbounded hfinal hending
  simp only [Nat.zero_add] at hretried
  obtain ⟨delays, hlength, hdelays, hsteps⟩ := h.steps
  simp only [Nat.zero_add] at hdelays
  refine ⟨by omega, fun n hn => ⟨fun hmore => ?_, fun hmore => ?_⟩, ⟨by omega, ?_⟩,
    ⟨delays, by omega, hdelays, hsteps⟩, fun millis hmem => ?_⟩
  · exact ⟨by omega, hretried n (by omega)⟩
  · obtain ⟨hleft, hagain⟩ := hmore
    by_contra hlast
    obtain rfl : n = count := by omega
    rcases hfinal with hall | hnot
    · omega
    · exact hnot hagain
  · rw [hending, hsends, Nat.add_sub_cancel]
  · rw [hsteps, mem_sendsAndWaits] at hmem
    obtain ⟨i, hi⟩ := List.mem_iff_getElem?.mp hmem
    obtain ⟨response, -, hok⟩ := hdelays i _ hi
    exact retryDelay_retryAfter_le hok

/-- The jitter is at most 1.3. -/
theorem randFactor_le (nanos : Option Nat) : randFactor nanos ≤ 13 / 10 := by
  cases nanos with
  | none => norm_num [randFactor]
  | some nanos =>
    have hlt : ((nanos % 1000 : Nat) : ℚ) ≤ 1000 := by
      exact_mod_cast (Nat.mod_lt nanos (by decide)).le
    unfold randFactor
    linarith

theorem randFactor_nonneg (nanos : Option Nat) : 0 ≤ randFactor nanos := by
  cases nanos with
  | none => norm_num [randFactor]
  | some nanos =>
    have hnonneg : (0 : ℚ) ≤ ((nanos % 1000 : Nat) : ℚ) := Nat.cast_nonneg _
    unfold randFactor
    linarith

/-- No wait overflows with five retries and a base delay of ten seconds. -/
theorem retryDelay_ok {attempt : Nat} (hattempt : attempt < 5) (hbase : baseDelayMs ≤ 10000)
    (headers : HeaderMap) (nanos : Option Nat) :
    ∃ delay, retryDelay baseDelayMs attempt headers nanos = .ok delay := by
  unfold retryDelay
  split
  · exact ⟨_, rfl⟩
  · have hshift : shiftedOne attempt = .ok (2 ^ attempt) := if_pos (by omega)
    have hpow : ((2 ^ attempt : Nat) : ℚ) ≤ 2 ^ 5 := by
      exact_mod_cast Nat.pow_le_pow_right (by decide) hattempt.le
    have hmillis : (baseDelayMs : ℚ) * (randFactor nanos * (2 ^ attempt : Nat)) < 1000 * 2 ^ 64 :=
      calc (baseDelayMs : ℚ) * (randFactor nanos * (2 ^ attempt : Nat))
          ≤ 10000 * (13 / 10 * 2 ^ 5) := by
            have hcast : (baseDelayMs : ℚ) ≤ 10000 := by exact_mod_cast hbase
            have hjitter := randFactor_le nanos
            have hnonneg := randFactor_nonneg nanos
            gcongr
        _ < 1000 * 2 ^ 64 := by norm_num
    refine ⟨.backoff (baseDelayMs * (randFactor nanos * (2 ^ attempt : Nat))), ?_⟩
    rw [backoffMillis, hshift]
    exact congrArg (Except.map Delay.backoff) (if_pos hmillis)

end RetryEnv

/-- **Retries.** With the settings of a valid configuration, every call keeps the contract, whatever the
outcomes are. -/
theorem retry_contract {parse : UrlParser} {debug : Bool} {config : Config}
    (h : config.validate parse debug = .ok ()) (env : RetryEnv) :
    env.KeepsContract config.http.upstreamRetryAttempts config.http.upstreamRetryBaseDelayMs
      (env.sendWith429Retry config.http.upstreamRetryAttempts config.http.upstreamRetryBaseDelayMs) := by
  obtain ⟨hattempts, hbase⟩ := Config.retry_bounds h
  obtain ⟨count, hrun⟩ := env.retryFrom_retriesUpTo
    (fun attempt hlt => RetryEnv.retryDelay_ok (hlt.trans_le hattempts) hbase)
    (Nat.zero_add config.http.upstreamRetryAttempts)
  exact hrun.keepsContract

/-- A `429` that is to be sent again after three seconds, then an answer. -/
def busyUpstream : RetryEnv where
  outcome
    | 0 => .ok ⟨⟨429, ⟨0, "", true⟩, []⟩, [("retry-after", .ofStr "3")]⟩
    | _ => .ok ⟨⟨200, ⟨2, "\x7b\x7d", true⟩, []⟩, []⟩
  subsecNanos _ := none

theorem retry_contract_busyUpstream :
    busyUpstream.KeepsContract 2 2000 (busyUpstream.sendWith429Retry 2 2000) :=
  @retry_contract localUrls false localConfig (by rfl) busyUpstream

/-! ## The loop of the network -/

/-- The part of a response that the network has. -/
def HttpResponse.toReply (response : HttpResponse) : HttpReply where
  response := response.response
  rateLimitRemaining := ((response.headers.get "x-ratelimit-remaining").bind HeaderValue.toStr).map
    String.ofList

theorem HttpResponse.retried_toReply (response : HttpResponse) :
    response.toReply.retried =
      (response.response.status == 429 && !quotaExhausted response.headers) := by
  unfold toReply HttpReply.retried quotaExhausted
  simp [Function.comp_def]

/-- The sends to the host have these outcomes: a host without an address is an error. -/
def RetryEnv.OnNetwork (env : RetryEnv) (net : Network) (host : Host) : Prop :=
  ∀ n, (env.outcome n).map HttpResponse.toReply =
    if (net.connected host n).isSome then net.reply n else .error ()

section

variable {env : RetryEnv} {net : Network} {host : Host}

/-- The result of one round in terms of the next. -/
theorem sendWith429Retry_round (h : env.OnNetwork net host) (left n : Nat) :
    (net.sendWith429Retry host left n).result = match env.outcome n with
      | .error _ => .error ()
      | .ok response => match left with
        | 0 => .ok response.response
        | left + 1 =>
          if response.toReply.retried then (net.sendWith429Retry host left (n + 1)).result
          else .ok response.response := by
  have hn := h n
  rw [Network.sendWith429Retry.eq_def]
  cases hip : net.connected host n with
  | none =>
    rw [hip] at hn
    cases ho : env.outcome n with
    | error e => rfl
    | ok response =>
      rw [ho] at hn
      cases hn
  | some ip =>
    rw [hip, Option.isSome_some, if_pos rfl] at hn
    rw [← hn]
    cases env.outcome n with
    | error e => rfl
    | ok response =>
      cases left with
      | zero => rfl
      | succ left =>
        simp only [Except.map]
        split <;> rfl

/-- The loop of the network is this one without the waits. -/
theorem sendWith429Retry_result (h : env.OnNetwork net host)
    {retryAttempts baseDelayMs attempt count : Nat} {run : RetryRun}
    (hrun : env.RetriesUpTo retryAttempts baseDelayMs attempt count run) :
    (net.sendWith429Retry host (retryAttempts - attempt) attempt).result =
      (env.outcome (attempt + count)).map (·.response) := by
  have hbounded := hrun.bounded
  have hretried := hrun.retried
  have hfinal := hrun.final
  clear hrun
  induction count generalizing attempt with
  | zero =>
    rw [Nat.add_zero] at hfinal ⊢
    rw [sendWith429Retry_round h]
    cases ho : env.outcome attempt with
    | error e => rfl
    | ok response =>
      cases hleft : retryAttempts - attempt with
      | zero => rfl
      | succ left =>
        have hnot : response.toReply.retried = false := by
          rw [Bool.eq_false_iff]
          intro hretry
          rw [response.retried_toReply, Bool.and_eq_true, beq_iff_eq, Bool.not_eq_true'] at hretry
          rcases hfinal with hlast | hnot
          · omega
          · exact hnot ⟨response, ho, hretry⟩
        dsimp only
        rw [hnot]
        rfl
  | succ count ih =>
    obtain ⟨response, ho, hstatus, hquota⟩ := hretried 0 (Nat.succ_pos count)
    obtain ⟨left, hleft⟩ : ∃ left, retryAttempts - attempt = left + 1 :=
      ⟨retryAttempts - attempt - 1, by omega⟩
    have hretry : response.toReply.retried = true := by
      rw [response.retried_toReply, hstatus, hquota]
      rfl
    have hnext : retryAttempts - (attempt + 1) = left := by omega
    have hshift : ∀ i, attempt + 1 + i = attempt + (i + 1) := fun i => by omega
    have ih := @ih (attempt + 1) (by omega) (fun i hi => by
      rw [hshift]
      exact hretried (i + 1) (by omega)) (by rw [hshift]; exact hfinal)
    rw [hnext, hshift] at ih
    rw [sendWith429Retry_round h, hleft, ← ih]
    rw [Nat.add_zero] at ho
    rw [ho]
    dsimp only
    rw [hretry]
    rfl

end

end ApertureRouter
