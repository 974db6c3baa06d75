import ApertureRouter.Discovery.Fetch
import ApertureRouter.Routes.Handlers

/-!
# How many upstreams a request asks

Every way to the upstreams is one query, or a failover of `MAX_FAILOVER_ATTEMPTS` at most
(`failover_atMost`). A fetch of the models asks three times at most (`fetchModels_atMost`).
-/

namespace ApertureRouter

section

variable {state : AppState} {env : Env} {client : ProxyClient}

theorem forwardRequest_atMost (endpoint : String) (body : Value) :
    (client.forwardRequest endpoint body).AtMost 1 :=
  (Dialog.AtMost.once _ _).bind_done fun _ => ⟨_, rfl⟩

theorem forwardRequestStream_atMost (endpoint : String) (body : Value) :
    (client.forwardRequestStream endpoint body).AtMost 1 := by
  refine (Dialog.AtMost.once _ _).bind_done fun r => ?_
  cases r <;> exact ⟨_, rfl⟩

theorem forwardRequestStreamToUrl_atMost (url : EndpointUrl) (body : Value) (apiKey : Option String)
    (style : EndpointStyle) : (client.forwardRequestStreamToUrl url body apiKey style).AtMost 1 := by
  refine (Dialog.AtMost.once _ _).bind_done fun r => ?_
  cases successOnly r <;> exact ⟨_, rfl⟩

theorem tryProvider_atMost (body : Value) (endpoint : String) (provider : Provider) :
    (tryProvider client body endpoint provider).AtMost 1 := by
  refine (Dialog.AtMost.once _ _).bind_done fun r => ?_
  cases r with
  | error e => exact ⟨_, rfl⟩
  | ok response =>
    dsimp only
    split <;> exact ⟨_, rfl⟩

/-- **Failover.** Each try is one query. -/
theorem failover_atMost {α : Type} {try_ : Provider → Calls (Except Nat α)}
    (h : ∀ p, (try_ p).AtMost 1) (lastError : Nat) (providers : List Provider) :
    (Dialog.firstOk try_ lastError (providers.take maxFailoverAttempts)).AtMost
      maxFailoverAttempts := by
  refine (Dialog.AtMost.firstOk (fun p _ => h p) lastError).mono ?_
  rw [Nat.mul_one]
  exact List.length_take_le _ _

theorem proxyToDefaultGateway_atMost (body : Value) (endpoint : String) :
    (proxyToDefaultGateway client body endpoint).AtMost 1 := by
  refine (forwardRequest_atMost endpoint body).bind_done fun r => ?_
  cases r <;> exact ⟨_, rfl⟩

theorem proxyHandlerMulti_atMost (providers : List Provider) (body : Value) (endpoint : String)
    (multi : Bool) :
    (proxyHandlerMulti client providers body endpoint multi).AtMost maxFailoverAttempts := by
  have hone : 1 ≤ maxFailoverAttempts := by decide
  unfold proxyHandlerMulti
  split
  · exact (proxyToDefaultGateway_atMost body endpoint).mono hone
  · match providers with
    | [] => exact (proxyToDefaultGateway_atMost body endpoint).mono hone
    | [p] =>
      refine ((tryProvider_atMost body endpoint p).mono hone).bind_done fun r => ?_
      cases r <;> exact ⟨_, rfl⟩
    | p :: q :: rest =>
      refine (failover_atMost (tryProvider_atMost body endpoint) _ _).bind_done fun r => ?_
      cases r <;> exact ⟨_, rfl⟩

theorem tryProviderNonStreaming_atMost (openaiBody : Value) (provider : Provider) :
    (tryProviderNonStreaming state env openaiBody provider).AtMost 1 :=
  (Dialog.AtMost.once _ _).bind_done fun _ => ⟨_, rfl⟩

theorem handleNonStreamingConversion_atMost (anthropicValue : Value) (providers : List Provider) :
    (handleNonStreamingConversion state env anthropicValue providers).AtMost maxFailoverAttempts := by
  have hone : 1 ≤ maxFailoverAttempts := by decide
  unfold handleNonStreamingConversion
  match providers with
  | [] => exact ((forwardRequest_atMost _ _).mono hone).bind_done fun _ => ⟨_, rfl⟩
  | [p] =>
    refine ((tryProviderNonStreaming_atMost _ p).mono hone).bind_done fun r => ?_
    cases r <;> exact ⟨_, rfl⟩
  | p :: q :: rest =>
    refine (failover_atMost (tryProviderNonStreaming_atMost _) _ _).bind_done fun r => ?_
    cases r <;> exact ⟨_, rfl⟩

theorem tryProviderStreaming_atMost (openaiBody : Value) (provider : Provider) :
    (tryProviderStreaming state openaiBody provider).AtMost 1 := by
  refine (forwardRequestStreamToUrl_atMost _ _ _ _).bind_done fun r => ?_
  cases r <;> exact ⟨_, rfl⟩

theorem handleStreamingConversion_atMost (anthropicValue : Value) (providers : List Provider) :
    (handleStreamingConversion state env anthropicValue providers).AtMost maxFailoverAttempts := by
  have hone : 1 ≤ maxFailoverAttempts := by decide
  unfold handleStreamingConversion
  match providers with
  | [] =>
    refine ((forwardRequestStream_atMost _ _).mono hone).bind_done fun r => ?_
    cases r <;> exact ⟨_, rfl⟩
  | [p] =>
    refine ((tryProviderStreaming_atMost _ p).mono hone).bind_done fun r => ?_
    cases r <;> exact ⟨_, rfl⟩
  | p :: q :: rest =>
    refine (failover_atMost (tryProviderStreaming_atMost _) _ _).bind_done fun r => ?_
    cases r <;> exact ⟨_, rfl⟩

theorem handleAnthropicDirectStreaming_atMost (body : Value) (providers : List Provider) :
    (handleAnthropicDirectStreaming state body providers).AtMost maxFailoverAttempts := by
  refine failover_atMost (fun p => ?_) _ _
  refine (forwardRequestStreamToUrl_atMost _ _ _ _).bind_done fun r => ?_
  cases r <;> exact ⟨_, rfl⟩

theorem handleProxyStream_atMost (request : Value) :
    (handleProxyStream state env request).AtMost 1 := by
  unfold handleProxyStream
  dsimp only
  split
  · exact .done _ _
  · refine (forwardRequestStream_atMost _ _).bind_done fun r => ?_
    cases r <;> exact ⟨_, rfl⟩

end

namespace FetchEnv

/-- Nothing is asked if the base URL is no URL of HTTP. -/
theorem fetchModels_atMost (env : FetchEnv) (baseUrl : String) (apiKey : Option String) :
    (env.fetchModels baseUrl apiKey).AtMost maxRetries := by
  unfold fetchModels
  cases env.modelsUrl baseUrl with
  | error e => exact .done _ _
  | ok url =>
    have htry : ∀ attempt ∈ List.range maxRetries, (env.tryFetch url apiKey attempt).AtMost 1 :=
      fun attempt _ => .once _ _
    exact (Dialog.AtMost.firstOk htry _).bind_done fun _ => ⟨_, rfl⟩

end FetchEnv

end ApertureRouter
