import Mathlib.Algebra.BigOperators.Intervals
import Mathlib.Algebra.BigOperators.Ring.Finset
import Mathlib.Algebra.Order.BigOperators.Group.Finset
import ApertureRouter.Proxy.Retry
import ApertureRouter.Routes.Isolation
import ApertureRouter.Routes.Queries

/-!
# The load of a request

A query of a handler is one call of `send_with_429_retry`, which sends again and waits in between. What the
handler asks next depends on how the call ends.

* `callRuns`: the calls of a request, one after the other. The `n`-th one meets the outcomes of `envs n`.
* `request_load`: with a valid configuration no call panics, and there are bounds for the requests that are
  sent to the upstreams and for the time that is waited.
-/

namespace ApertureRouter

/-! ## Queries of the routes -/

section

variable (state : AppState) (env : Env)

theorem chatCompletions_atMost (request : Openai.ChatCompletionRequest) :
    (chatCompletions state env request).AtMost maxFailoverAttempts := by
  unfold chatCompletions
  dsimp only
  split
  · exact .done _ _
  · split
    · exact .done _ _
    · exact proxyHandlerMulti_atMost _ _ _ _

theorem routeAnthropic_atMost (request : Anthropic.MessageRequest) :
    (routeAnthropic state env request).AtMost maxFailoverAttempts := by
  unfold routeAnthropic
  dsimp only
  split
  · split
    · exact (handleAnthropicDirectStreaming_atMost _ _).bind_done fun _ => ⟨_, rfl⟩
    · exact proxyHandlerMulti_atMost _ _ _ _
  · split
    · exact (handleStreamingConversion_atMost _ _).bind_done fun _ => ⟨_, rfl⟩
    · exact handleNonStreamingConversion_atMost _ _

theorem handle_atMost (request : RouterRequest) :
    (handle state env request).AtMost maxFailoverAttempts := by
  cases request with
  | chat request => exact chatCompletions_atMost state env request
  | messages request =>
    unfold handle anthropicMessages
    dsimp only
    split
    · exact .done _ _
    · exact routeAnthropic_atMost state env _
  | proxy request => exact (handleProxyStream_atMost request).mono (by decide)

end

/-! ## Calls -/

/-- What the handler sees of a call. -/
def RetryEnd.reply : RetryEnd → Reply
  | .returned (.ok response) => .ok response.response
  | .returned (.error e) => .error e
  | .panicked _ => .error ()

def Delay.millis : Delay → ℚ
  | retryAfter millis => millis
  | backoff millis => millis

/-- The time that a step waits, in milliseconds. -/
def RetryStep.millis : RetryStep → ℚ
  | send => 0
  | sleep delay => delay.millis

/-- The time that a call waits between its sends. -/
def RetryRun.waited (run : RetryRun) : ℚ := (run.steps.map RetryStep.millis).sum

/-- The `n`-th call. -/
def callRun (http : HttpConfig) (envs : Nat → RetryEnv) (n : Nat) : RetryRun :=
  (envs n).sendWith429Retry http.upstreamRetryAttempts http.upstreamRetryBaseDelayMs

/-- The calls of a program. What is not admitted is not sent. -/
def callRuns {α : Type} (http : HttpConfig) (envs : Nat → RetryEnv) (calls : Calls α) : List RetryRun :=
  ((calls.trace fun n => (callRun http envs n).ending.reply).zipIdx.filter (·.1.admitted)).map fun e =>
    callRun http envs e.2

/-! ## The waits of a call -/

/-- The longest wait after the `attempt`-th send, in base delays. -/
def maxWait (attempt : Nat) : ℚ := max 4 (13 / 10 * 2 ^ attempt)

theorem maxWait_nonneg (attempt : Nat) : 0 ≤ maxWait attempt := le_max_of_le_left (by norm_num)

theorem waited_sendsAndWaits (delays : List Delay) :
    ((sendsAndWaits delays).map RetryStep.millis).sum = (delays.map Delay.millis).sum := by
  induction delays with
  | nil => simp [sendsAndWaits, RetryStep.millis]
  | cons delay delays ih =>
    have hcons : sendsAndWaits (delay :: delays) = .send :: .sleep delay :: sendsAndWaits delays := rfl
    rw [hcons, List.map_cons, List.map_cons, List.sum_cons, List.sum_cons, ih, List.map_cons, List.sum_cons]
    exact zero_add _

/-- Waits with a bound for each. -/
theorem sum_millis_le (bound : Nat → ℚ) {delays : List Delay} {attempt : Nat}
    (h : ∀ i delay, delays[i]? = some delay → delay.millis ≤ bound (attempt + i)) :
    (delays.map Delay.millis).sum ≤ ∑ k ∈ Finset.Ico attempt (attempt + delays.length), bound k := by
  induction delays generalizing attempt with
  | nil => simp
  | cons delay delays ih =>
    have hfirst := h 0 delay rfl
    have hrest : ∀ i delay, delays[i]? = some delay → delay.millis ≤ bound (attempt + 1 + i) := by
      intro i delay' hdelay
      have hnext := h (i + 1) delay' hdelay
      rwa [Nat.add_comm i 1, ← Nat.add_assoc] at hnext
    have hlength : attempt + (delay :: delays).length = attempt + 1 + delays.length := by
      rw [List.length_cons]
      omega
    rw [hlength, Finset.sum_eq_sum_Ico_succ_bot (by omega), List.map_cons, List.sum_cons]
    exact add_le_add hfirst (ih hrest)

namespace RetryEnv

variable {env : RetryEnv} {retryAttempts baseDelayMs : Nat}

/-- A wait from `Retry-After` is four base delays at most, and one of the backoff has its jitter. -/
theorem retryDelay_millis_le {attempt : Nat} {headers : HeaderMap} {nanos : Option Nat} {delay : Delay}
    (h : retryDelay baseDelayMs attempt headers nanos = .ok delay) :
    delay.millis ≤ maxWait attempt * baseDelayMs := by
  have hbase : (0 : ℚ) ≤ baseDelayMs := Nat.cast_nonneg _
  cases delay with
  | retryAfter millis =>
    have hcap : (millis : ℚ) ≤ 4 * baseDelayMs := by exact_mod_cast retryDelay_retryAfter_le h
    exact hcap.trans (mul_le_mul_of_nonneg_right (le_max_left _ _) hbase)
  | backoff millis =>
    have hbackoff : backoffMillis baseDelayMs attempt nanos = .ok millis := by
      unfold retryDelay at h
      split at h
      · cases h
      · cases hmillis : backoffMillis baseDelayMs attempt nanos with
        | error text =>
          rw [hmillis] at h
          cases h
        | ok millis' =>
          rw [hmillis] at h
          cases h
          rfl
    obtain ⟨shifted, hshift, hmul⟩ := Config.bind_eq_ok.mp hbackoff
    unfold shiftedOne at hshift
    split at hshift
    · obtain rfl := Except.ok.inj hshift
      unfold mulF64 at hmul
      split at hmul
      · obtain rfl := Except.ok.inj hmul
        have hjitter : randFactor nanos * (2 ^ attempt : Nat) ≤ 13 / 10 * 2 ^ attempt := by
          push_cast
          exact mul_le_mul_of_nonneg_right (randFactor_le nanos) (by positivity)
        rw [Delay.millis, mul_comm]
        exact mul_le_mul_of_nonneg_right (hjitter.trans (le_max_right _ _)) hbase
      · cases hmul
    · cases hshift

/-- The waits of a call. -/
theorem RetriesUpTo.waited_le {count : Nat} {run : RetryRun}
    (h : env.RetriesUpTo retryAttempts baseDelayMs 0 count run) :
    run.waited ≤ (∑ k ∈ Finset.range retryAttempts, maxWait k) * baseDelayMs := by
  have hbase : (0 : ℚ) ≤ baseDelayMs := Nat.cast_nonneg _
  have hbounded := h.bounded
  obtain ⟨delays, hlength, hdelays, hsteps⟩ := h.steps
  have hbound : ∀ i delay, delays[i]? = some delay → delay.millis ≤ maxWait (0 + i) * baseDelayMs := by
    intro i delay hdelay
    obtain ⟨response, -, hok⟩ := hdelays i delay hdelay
    exact retryDelay_millis_le hok
  have hsum := sum_millis_le (fun k => maxWait k * baseDelayMs) hbound
  rw [RetryRun.waited, hsteps, waited_sendsAndWaits, Finset.sum_mul]
  refine hsum.trans (Finset.sum_le_sum_of_subset_of_nonneg ?_ ?_)
  · intro k hk
    rw [Finset.mem_Ico] at hk
    exact Finset.mem_range.mpr (by omega)
  · exact fun k _ _ => mul_nonneg (maxWait_nonneg k) hbase

end RetryEnv

/-! ## The calls of a request -/

variable {parse : UrlParser} {debug : Bool} {config : Config}

/-- A call with the settings of a valid configuration. -/
theorem callRun_retriesUpTo (h : config.validate parse debug = .ok ()) (envs : Nat → RetryEnv) (n : Nat) :
    ∃ count, (envs n).RetriesUpTo config.http.upstreamRetryAttempts config.http.upstreamRetryBaseDelayMs 0
      count (callRun config.http envs n) := by
  obtain ⟨hattempts, hbase⟩ := Config.retry_bounds h
  exact (envs n).retryFrom_retriesUpTo
    (fun attempt hlt => RetryEnv.retryDelay_ok (hlt.trans_le hattempts) hbase)
    (Nat.zero_add config.http.upstreamRetryAttempts)

theorem length_callRuns_le {α : Type} {http : HttpConfig} {envs : Nat → RetryEnv} {calls : Calls α}
    {n : Nat} (h : calls.AtMost n) : (callRuns http envs calls).length ≤ n := by
  rw [callRuns, List.length_map]
  refine (List.length_filter_le _ _).trans ?_
  rw [List.length_zipIdx]
  exact h.length_trace _

/-- The waits of five retries, in base delays. -/
theorem sum_maxWait_le {retryAttempts : Nat} (h : retryAttempts ≤ 5) :
    ∑ k ∈ Finset.range retryAttempts, maxWait k ≤ 222 / 5 := by
  have hsubset : Finset.range retryAttempts ⊆ Finset.range 5 := Finset.range_subset_range.mpr h
  refine (Finset.sum_le_sum_of_subset_of_nonneg hsubset fun k _ _ => maxWait_nonneg k).trans ?_
  simp only [Finset.sum_range_succ, Finset.sum_range_zero, maxWait]
  norm_num

/-- Each call of a request. -/
theorem callRuns_retriesUpTo {α : Type} (h : config.validate parse debug = .ok ()) {envs : Nat → RetryEnv}
    {calls : Calls α} {run : RetryRun} (hrun : run ∈ callRuns config.http envs calls) :
    ∃ n count, (envs n).RetriesUpTo config.http.upstreamRetryAttempts
      config.http.upstreamRetryBaseDelayMs 0 count run := by
  obtain ⟨e, -, rfl⟩ := List.mem_map.mp hrun
  exact ⟨e.2, callRun_retriesUpTo h envs e.2⟩

section

variable {envs : Nat → RetryEnv} {retryAttempts baseDelayMs : Nat} {runs : List RetryRun}

/-- What some calls send. -/
theorem sum_sends_le
    (h : ∀ run ∈ runs, ∃ n count, (envs n).RetriesUpTo retryAttempts baseDelayMs 0 count run) :
    (runs.map (·.sends)).sum ≤ runs.length * (retryAttempts + 1) := by
  have heach : ∀ sends ∈ runs.map (·.sends), sends ≤ retryAttempts + 1 := by
    intro sends hmem
    obtain ⟨run, hrun, rfl⟩ := List.mem_map.mp hmem
    obtain ⟨n, count, hretries⟩ := h run hrun
    have hbounded := hretries.bounded
    rw [hretries.sends_eq]
    omega
  have hsum := List.sum_le_card_nsmul _ _ heach
  rwa [List.length_map] at hsum

/-- And how long they wait. -/
theorem sum_waited_le
    (h : ∀ run ∈ runs, ∃ n count, (envs n).RetriesUpTo retryAttempts baseDelayMs 0 count run) :
    (runs.map (·.waited)).sum ≤
      runs.length * ((∑ k ∈ Finset.range retryAttempts, maxWait k) * baseDelayMs) := by
  have heach : ∀ waited ∈ runs.map (·.waited),
      waited ≤ (∑ k ∈ Finset.range retryAttempts, maxWait k) * baseDelayMs := by
    intro waited hmem
    obtain ⟨run, hrun, rfl⟩ := List.mem_map.mp hmem
    obtain ⟨n, count, hretries⟩ := h run hrun
    exact hretries.waited_le
  have hsum := List.sum_le_card_nsmul _ _ heach
  rwa [List.length_map, nsmul_eq_mul] at hsum

end

/-- **The load of a request.** With a valid configuration, whatever the upstreams do: every call of a request
returns, and together they send `MAX_FAILOVER_ATTEMPTS * (retry_attempts + 1)` requests at most, which are 18
at most, and wait for less than 23 minutes. -/
theorem request_load (h : config.validate parse debug = .ok ()) (state : AppState) (env : Env)
    (request : RouterRequest) (envs : Nat → RetryEnv) :
    let runs := callRuns config.http envs (handle state env request)
    (∀ run ∈ runs, ∃ result, run.ending = .returned result) ∧
      (runs.map (·.sends)).sum ≤ maxFailoverAttempts * (config.http.upstreamRetryAttempts + 1) ∧
      (runs.map (·.sends)).sum ≤ 18 ∧
      (runs.map (·.waited)).sum ≤ maxFailoverAttempts *
        ((∑ k ∈ Finset.range config.http.upstreamRetryAttempts, maxWait k) *
          config.http.upstreamRetryBaseDelayMs) ∧
      (runs.map (·.waited)).sum < 23 * 60 * 1000 := by
  intro runs
  obtain ⟨hattempts, hbase⟩ := Config.retry_bounds h
  have hlength : runs.length ≤ maxFailoverAttempts := length_callRuns_le (handle_atMost state env request)
  have hcall : ∀ run ∈ runs, ∃ n count, (envs n).RetriesUpTo config.http.upstreamRetryAttempts
      config.http.upstreamRetryBaseDelayMs 0 count run := fun run hrun => callRuns_retriesUpTo h hrun
  have hsends := (sum_sends_le hcall).trans (Nat.mul_le_mul_right _ hlength)
  have hwaited : (runs.map (·.waited)).sum ≤ maxFailoverAttempts *
      ((∑ k ∈ Finset.range config.http.upstreamRetryAttempts, maxWait k) *
        config.http.upstreamRetryBaseDelayMs) := by
    refine (sum_waited_le hcall).trans ?_
    refine mul_le_mul_of_nonneg_right (by exact_mod_cast hlength) ?_
    exact mul_nonneg (Finset.sum_nonneg fun k _ => maxWait_nonneg k) (Nat.cast_nonneg _)
  have hthree : maxFailoverAttempts = 3 := rfl
  refine ⟨fun run hrun => ?_, hsends, ?_, hwaited, ?_⟩
  · obtain ⟨n, count, hretries⟩ := hcall run hrun
    exact ⟨_, hretries.ending⟩
  · rw [hthree] at hsends
    omega
  · have hdelay : (config.http.upstreamRetryBaseDelayMs : ℚ) ≤ 10000 := by exact_mod_cast hbase
    have hwaits := mul_le_mul (sum_maxWait_le hattempts) hdelay (Nat.cast_nonneg _) (by norm_num)
    rw [hthree] at hwaited
    push_cast at hwaited
    linarith

theorem request_load_busyUpstream :
    let runs := callRuns localConfig.http (fun _ => busyUpstream)
      (handle otherVendorState plainEnv streamedRequest)
    (∀ run ∈ runs, ∃ result, run.ending = .returned result) ∧
      (runs.map (·.sends)).sum ≤ maxFailoverAttempts * (localConfig.http.upstreamRetryAttempts + 1) ∧
      (runs.map (·.sends)).sum ≤ 18 ∧
      (runs.map (·.waited)).sum ≤ maxFailoverAttempts *
        ((∑ k ∈ Finset.range localConfig.http.upstreamRetryAttempts, maxWait k) *
          localConfig.http.upstreamRetryBaseDelayMs) ∧
      (runs.map (·.waited)).sum < 23 * 60 * 1000 :=
  @request_load localUrls false localConfig (by rfl) otherVendorState plainEnv streamedRequest
    fun _ => busyUpstream

/-- The provider is asked twice for it. -/
example : (callRuns localConfig.http (fun _ => busyUpstream)
    (handle otherVendorState plainEnv streamedRequest)).map (·.sends) = [2] := by
  decide +kernel

end ApertureRouter
