import ApertureRouter.Routes.Admission
import ApertureRouter.Routes.Passthrough
import ApertureRouter.Types.Request

/-!
# The upstreams of `/v1/messages`

The paths that `anthropic_messages` (`src/routes/messages.rs`) has of its own: to an
Anthropic-style provider as it is and streamed, and converted to a provider of any style, streamed
or not. Each picks its providers from the registry and tries them in order.

* `onlyToGateway_directStreaming_iff`, `onlyToGateway_streamingConversion_iff`,
  `onlyToGateway_nonStreamingConversion_iff`: a path asks only the gateway exactly if the providers
  that it can try, and whose URLs are admitted, are at the gateway's URL.
-/

namespace ApertureRouter

section

variable (state : AppState) (env : Env)

/-- `convert_openai_error_to_anthropic`. -/
def convertOpenaiErrorToAnthropic (openaiErrorBody : String) : Value :=
  let error := env.serde.fromStr openaiErrorBody >>= (·.get "error")
  anthropicErrorBody ((error >>= (·.get "type") >>= Value.asStr).getD "api_error")
    ((error >>= (·.get "message") >>= Value.asStr).getD "Upstream error")

/-- What `try_provider_non_streaming` makes of a reply: a status that the next provider may better, or
a response. -/
def convertProviderReply : Reply → Except Nat RouterResponse
  | .ok response =>
    if isServerError response.status then .error response.status
    else if !isSuccess response.status then
      let body := (response.body.readCapped maxErrorBodyBytes).getD ""
      .ok (.json response.status (convertOpenaiErrorToAnthropic env body))
    else
      match response.body.readCapped maxNonStreamingResponseBytes with
      | none => .error badGateway
      | some body =>
        match env.serde.fromStr body with
        | none => .error badGateway
        | some openai => .ok (.json 200 (openaiResponseToAnthropic env.serde env.uuid openai))
  | .error _ => .error badGateway

/-- `try_provider_non_streaming`. -/
def tryProviderNonStreaming (openaiBody : Value) (provider : Provider) :
    Calls (Except Nat RouterResponse) := do
  let reply ← state.proxyClient.forwardRequestToUrlRaw
    (buildEndpointUrl provider "v1/chat/completions") openaiBody
    (state.proxyClient.keyFor provider) provider.endpointStyle
  return convertProviderReply env reply

/-- `try_provider_streaming`. -/
def tryProviderStreaming (openaiBody : Value) (provider : Provider) :
    Calls (Except Nat (List (Except String (List Char)))) := do
  match ← state.proxyClient.forwardRequestStreamToUrl
      (buildEndpointUrl provider "v1/chat/completions") openaiBody
      (state.proxyClient.keyFor provider) provider.endpointStyle with
  | .ok stream => return .ok stream
  | .error _ => return .error badGateway

/-- What `handle_non_streaming_conversion` answers with the reply of the default gateway. -/
def convertGatewayReply : Reply → RouterResponse
  | .ok response =>
    if !isSuccess response.status then
      anthropicServerError badGateway "Service temporarily unavailable"
    else
      match response.body.readCapped maxNonStreamingResponseBytes with
      | none => anthropicServerError badGateway "Upstream response too large"
      | some body =>
        match env.serde.fromStr body with
        | none => anthropicServerError badGateway "Invalid upstream response"
        | some openai => .json 200 (openaiResponseToAnthropic env.serde env.uuid openai)
  | .error _ => anthropicServerError badGateway "Failed to forward request"

/-- `handle_non_streaming_conversion`. -/
def handleNonStreamingConversion (anthropicValue : Value) (providers : List Provider) :
    Calls RouterResponse :=
  let openaiBody := anthropicRequestToOpenai env.serde anthropicValue
  match providers with
  | [] => do
    let reply ← state.proxyClient.forwardRequest "v1/chat/completions" openaiBody
    return convertGatewayReply env reply
  | [provider] => do
    match ← tryProviderNonStreaming state env openaiBody provider with
    | .ok response => return response
    | .error _ => return anthropicServerError badGateway "Failed to forward request"
  | _ => do
    match ← Dialog.firstOk (tryProviderNonStreaming state env openaiBody) badGateway
        (providers.take maxFailoverAttempts) with
    | .ok response => return response
    | .error lastError => return anthropicServerError lastError "All providers failed"

/-- `handle_streaming_conversion`. -/
def handleStreamingConversion (anthropicValue : Value) (providers : List Provider) :
    Calls (Except Nat RouterResponse) :=
  let model := ((anthropicValue.get "model") >>= Value.asStr).getD "unknown"
  let openaiBody := (anthropicRequestToOpenai env.serde anthropicValue).set "stream" (.bool true)
  let sse (rawStream : List (Except String (List Char))) : RouterResponse :=
    .converted (buildAnthropicSse env.slotOrder env.serde env.uuid model rawStream)
  match providers with
  | [] => do
    match ← state.proxyClient.forwardRequestStream "v1/chat/completions" openaiBody with
    | .ok stream => return .ok (sse stream)
    | .error _ => return .error badGateway
  | [provider] => do
    match ← tryProviderStreaming state openaiBody provider with
    | .ok stream => return .ok (sse stream)
    | .error status => return .error status
  | _ => do
    match ← Dialog.firstOk (tryProviderStreaming state openaiBody) badGateway
        (providers.take maxFailoverAttempts) with
    | .ok stream => return .ok (sse stream)
    | .error lastStatus => return .error lastStatus

/-- One provider of `handle_anthropic_direct_streaming`. -/
def tryProviderDirect (body : Value) (provider : Provider) : Calls (Except Nat RouterResponse) := do
  match ← state.proxyClient.forwardRequestStreamToUrl (buildEndpointUrl provider "v1/messages") body
      (state.proxyClient.keyFor provider) .anthropic with
  | .ok rawStream => return .ok (.events (anthropicDirectEvents rawStream))
  | .error _ => return .error badGateway

/-- `handle_anthropic_direct_streaming`. -/
def handleAnthropicDirectStreaming (body : Value) (providers : List Provider) :
    Calls (Except Nat RouterResponse) :=
  Dialog.firstOk (tryProviderDirect state body) badGateway (providers.take maxFailoverAttempts)

end

/-! ## Where requests go -/

section

variable {state : AppState} {env : Env}

/-- The transport can fail. -/
theorem returns_send_error (q : UpstreamRequest) : (send q).Returns (.error ()) :=
  ⟨.error (), by split <;> rfl⟩

theorem returns_forwardRequestStreamToUrl_error (client : ProxyClient) (url : EndpointUrl)
    (body : Value) (apiKey : Option String) (style : EndpointStyle) :
    (client.forwardRequestStreamToUrl url body apiKey style).Returns (.error ()) :=
  Dialog.returns_bind.mpr ⟨_, returns_send_error _, rfl⟩

theorem canFail_tryProviderNonStreaming (openaiBody : Value) (provider : Provider) :
    (tryProviderNonStreaming state env openaiBody provider).CanFail :=
  ⟨badGateway, Dialog.returns_bind.mpr ⟨_, returns_send_error _, rfl⟩⟩

theorem canFail_tryProviderStreaming (openaiBody : Value) (provider : Provider) :
    (tryProviderStreaming state openaiBody provider).CanFail :=
  ⟨badGateway, Dialog.returns_bind.mpr ⟨_, returns_forwardRequestStreamToUrl_error .., rfl⟩⟩

theorem canFail_tryProviderDirect (body : Value) (provider : Provider) :
    (tryProviderDirect state body provider).CanFail :=
  ⟨badGateway, Dialog.returns_bind.mpr ⟨_, returns_forwardRequestStreamToUrl_error .., rfl⟩⟩

theorem onlyToGateway_tryProviderNonStreaming (openaiBody : Value) (provider : Provider) :
    OnlyToGateway state.proxyClient (tryProviderNonStreaming state env openaiBody provider) ↔
      GatewayIfSent state.proxyClient "v1/chat/completions" provider :=
  (onlyToGateway_bind_done fun reply => ⟨convertProviderReply env reply, rfl⟩).trans
    (onlyToGateway_forwardRequestToUrlRaw ..)

theorem onlyToGateway_tryProviderStreaming (openaiBody : Value) (provider : Provider) :
    OnlyToGateway state.proxyClient (tryProviderStreaming state openaiBody provider) ↔
      GatewayIfSent state.proxyClient "v1/chat/completions" provider := by
  refine (onlyToGateway_bind_done fun r => ?_).trans (onlyToGateway_forwardRequestStreamToUrl ..)
  cases r <;> exact ⟨_, rfl⟩

theorem onlyToGateway_tryProviderDirect (body : Value) (provider : Provider) :
    OnlyToGateway state.proxyClient (tryProviderDirect state body provider) ↔
      GatewayIfSent state.proxyClient "v1/messages" provider := by
  refine (onlyToGateway_bind_done fun r => ?_).trans (onlyToGateway_forwardRequestStreamToUrl ..)
  cases r <;> exact ⟨_, rfl⟩

/-- The providers that are tried are at the gateway's URL, as far as requests to them are sent. -/
def GatewayIfTried (client : ProxyClient) (endpoint : String) (providers : List Provider) : Prop :=
  ∀ p ∈ providers.take maxFailoverAttempts, GatewayIfSent client endpoint p

/-- Failover: each try can fail, so all of them can be made. -/
theorem onlyToGateway_firstOk {α : Type} {client : ProxyClient} {endpoint : String}
    {try_ : Provider → Calls (Except Nat α)} (hfail : ∀ p, (try_ p).CanFail)
    (htry : ∀ p, OnlyToGateway client (try_ p) ↔ GatewayIfSent client endpoint p)
    (lastError : Nat) (providers : List Provider) :
    OnlyToGateway client (Dialog.firstOk try_ lastError (providers.take maxFailoverAttempts)) ↔
      GatewayIfTried client endpoint providers :=
  (Dialog.asks_firstOk fun p _ => hfail p).trans (forall₂_congr fun p _ => htry p)

/-- **Direct streaming.** -/
theorem onlyToGateway_directStreaming_iff (body : Value) (providers : List Provider) :
    OnlyToGateway state.proxyClient (handleAnthropicDirectStreaming state body providers) ↔
      GatewayIfTried state.proxyClient "v1/messages" providers :=
  onlyToGateway_firstOk (canFail_tryProviderDirect body) (onlyToGateway_tryProviderDirect body) _ _

theorem gatewayIfTried_singleton {client : ProxyClient} {endpoint : String} {provider : Provider} :
    GatewayIfTried client endpoint [provider] ↔ GatewayIfSent client endpoint provider := by
  simp [GatewayIfTried, maxFailoverAttempts]

/-- **Converted, not streamed.** -/
theorem onlyToGateway_nonStreamingConversion_iff (anthropicValue : Value)
    (providers : List Provider) :
    OnlyToGateway state.proxyClient
        (handleNonStreamingConversion state env anthropicValue providers) ↔
      GatewayIfTried state.proxyClient "v1/chat/completions" providers := by
  unfold handleNonStreamingConversion
  match providers with
  | [] =>
    refine iff_of_true ?_ (by simp [GatewayIfTried])
    exact (onlyToGateway_bind_done fun r => ⟨_, rfl⟩).mpr (onlyToGateway_forwardRequest ..)
  | [provider] =>
    rw [gatewayIfTried_singleton]
    refine (onlyToGateway_bind_done fun r => ?_).trans (onlyToGateway_tryProviderNonStreaming ..)
    cases r <;> exact ⟨_, rfl⟩
  | p :: q :: rest =>
    refine (onlyToGateway_bind_done fun r => ?_).trans ?_
    · cases r <;> exact ⟨_, rfl⟩
    · exact onlyToGateway_firstOk (canFail_tryProviderNonStreaming _)
        (onlyToGateway_tryProviderNonStreaming _) _ _

/-- **Converted and streamed.** -/
theorem onlyToGateway_streamingConversion_iff (anthropicValue : Value) (providers : List Provider) :
    OnlyToGateway state.proxyClient
        (handleStreamingConversion state env anthropicValue providers) ↔
      GatewayIfTried state.proxyClient "v1/chat/completions" providers := by
  unfold handleStreamingConversion
  match providers with
  | [] =>
    refine iff_of_true ?_ (by simp [GatewayIfTried])
    refine (onlyToGateway_bind_done fun r => ?_).mpr (onlyToGateway_forwardRequestStream ..)
    cases r <;> exact ⟨_, rfl⟩
  | [provider] =>
    rw [gatewayIfTried_singleton]
    refine (onlyToGateway_bind_done fun r => ?_).trans (onlyToGateway_tryProviderStreaming ..)
    cases r <;> exact ⟨_, rfl⟩
  | p :: q :: rest =>
    refine (onlyToGateway_bind_done fun r => ?_).trans ?_
    · cases r <;> exact ⟨_, rfl⟩
    · exact onlyToGateway_firstOk (canFail_tryProviderStreaming _)
        (onlyToGateway_tryProviderStreaming _) _ _

end

end ApertureRouter
