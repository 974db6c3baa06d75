import ApertureRouter.Routes.Handlers

/-!
# Single-gateway mode

With `multi_provider_enabled = false` every request is to go to the Aperture gateway, whatever the
registry holds. `/v1/chat/completions` and `/v1/proxy` keep to this. `/v1/messages` asks
`proxy_handler_multi`, which knows the switch, on one of its four paths; the other three send to the
providers of the registry.

* `singleGateway_isolated_iff`: a request is sent to the gateway only, exactly if it is not one of
  `/v1/messages` that a provider at another URL can be tried for.
-/

namespace ApertureRouter

/-- Whatever the replies are, what is sent goes to the gateway. -/
theorem onlyToGateway_iff_trace {α : Type} {client : ProxyClient} {d : Calls α} :
    OnlyToGateway client d ↔
      ∀ replies, ∀ q ∈ d.trace replies, q.admitted = true → q.ToGateway client :=
  Dialog.asks_iff_trace

section

variable (state : AppState) (env : Env)

/-- The providers that a request of `/v1/messages`, if it is not refused, can be sent to are at the
gateway's URL. They are the Anthropic-style ones of its model if it has any and is to be streamed,
and all of its model if it has no Anthropic-style one. -/
def MessagesIsolated (request : Anthropic.MessageRequest) : Prop :=
  checkAnthropic state env request = none →
    if state.anthropicProviders env request.model = [] then
      GatewayIfTried state.proxyClient "v1/chat/completions" (state.providersFor env request.model)
    else request.stream.getD false = true →
      GatewayIfTried state.proxyClient "v1/messages" (state.anthropicProviders env request.model)

/-- The condition of a request: only `/v1/messages` has one. -/
def Isolated : RouterRequest → Prop
  | .messages request =>
    MessagesIsolated state env { request with model := state.config.resolveModelAlias request.model }
  | .chat _ => True
  | .proxy _ => True

variable {state env}

theorem onlyToGateway_chatCompletions (h : state.config.multiProviderEnabled = false)
    (request : Openai.ChatCompletionRequest) :
    OnlyToGateway state.proxyClient (chatCompletions state env request) := by
  unfold chatCompletions
  simp only
  split
  · exact onlyToGateway_done _
  · split
    · exact onlyToGateway_done _
    · rw [h]
      exact onlyToGateway_proxyHandlerMulti ..

theorem onlyToGateway_handleProxyStream (request : Value) :
    OnlyToGateway state.proxyClient (handleProxyStream state env request) := by
  unfold handleProxyStream
  simp only
  split
  · exact onlyToGateway_done _
  · refine (onlyToGateway_bind_done fun r => ?_).mpr (onlyToGateway_forwardRequestStream ..)
    cases r <;> exact ⟨_, rfl⟩

/-- The four paths of `/v1/messages`. -/
theorem onlyToGateway_routeAnthropic (h : state.config.multiProviderEnabled = false)
    (request : Anthropic.MessageRequest) :
    OnlyToGateway state.proxyClient (routeAnthropic state env request) ↔
      if state.anthropicProviders env request.model = [] then
        GatewayIfTried state.proxyClient "v1/chat/completions" (state.providersFor env request.model)
      else request.stream.getD false = true →
        GatewayIfTried state.proxyClient "v1/messages" (state.anthropicProviders env request.model) := by
  unfold routeAnthropic
  simp only [Bool.not_eq_true', List.isEmpty_eq_false_iff]
  by_cases hp : state.anthropicProviders env request.model = []
  · rw [if_neg (not_not.mpr hp), if_pos hp]
    cases hs : request.stream.getD false with
    | true =>
      rw [if_pos rfl]
      refine (onlyToGateway_bind_done fun r => ⟨_, rfl⟩).trans ?_
      exact onlyToGateway_streamingConversion_iff ..
    | false =>
      rw [if_neg Bool.false_ne_true]
      exact onlyToGateway_nonStreamingConversion_iff ..
  · rw [if_pos hp, if_neg hp]
    cases hs : request.stream.getD false with
    | true =>
      rw [if_pos rfl, eq_self_iff_true, true_implies]
      refine (onlyToGateway_bind_done fun r => ⟨_, rfl⟩).trans ?_
      exact onlyToGateway_directStreaming_iff ..
    | false =>
      -- `proxy_handler_multi` looks at the switch.
      rw [if_neg Bool.false_ne_true, h]
      exact iff_of_true (onlyToGateway_proxyHandlerMulti ..) (by simp)

theorem onlyToGateway_anthropicMessages (h : state.config.multiProviderEnabled = false)
    (request : Anthropic.MessageRequest) :
    OnlyToGateway state.proxyClient (anthropicMessages state env request) ↔
      Isolated state env (.messages request) := by
  unfold anthropicMessages Isolated MessagesIsolated
  simp only
  cases hc : checkAnthropic state env
      { request with model := state.config.resolveModelAlias request.model } with
  | some refusal => exact iff_of_true (onlyToGateway_done _) (by simp)
  | none =>
    rw [eq_self_iff_true, true_implies]
    exact onlyToGateway_routeAnthropic h _

/-- **Single-gateway mode.** Whatever the replies are, a request is sent only to the gateway exactly
if it is none of `/v1/messages` that a provider at another URL can be tried for. -/
theorem singleGateway_isolated_iff (h : state.config.multiProviderEnabled = false)
    (request : RouterRequest) :
    (∀ replies, ∀ q ∈ (handle state env request).trace replies,
        q.admitted = true → q.ToGateway state.proxyClient) ↔
      Isolated state env request := by
  rw [← onlyToGateway_iff_trace]
  cases request with
  | chat request => exact iff_of_true (onlyToGateway_chatCompletions h request) trivial
  | messages request => exact onlyToGateway_anthropicMessages h request
  | proxy request => exact iff_of_true (onlyToGateway_handleProxyStream request) trivial

end

/-! ## A configured provider -/

/-- A provider of another vendor, configured while multi-provider routing is off. -/
def otherVendor : Provider where
  name := "other"
  baseUrl := "https://other.example"
  apiKey := none
  endpointStyle := .anthropic
  models := ["m"]
  enabled := true

def otherVendorState : AppState where
  config := {
    multiProviderEnabled := false
    modelAliases := ∅
    maxMessages := 100
    maxJsonDepth := 64 }
  proxyClient := {
    baseUrl := "https://gateway.example"
    apiKey := none
    admitsGateway := fun _ => true
    admitsProvider := fun _ => true }
  registry := .new [otherVendor]
  discoveredModels := []

def plainEnv : Env where
  serde := tableSerde []
  display _ := ""
  fieldOrder := .entries
  providerOrder := .entries
  slotOrder := .entries
  uuid := "0"

def streamedRequest : RouterRequest := .messages {
  model := "m"
  messages := [{ role := "user", content := .text "hi" }]
  stream := some true }

instance (client : ProxyClient) (q : UpstreamRequest) : Decidable (q.ToGateway client) :=
  inferInstanceAs (Decidable (_ = _))

theorem singleGateway_isolated_iff_otherVendor :
    (∀ replies, ∀ q ∈ (handle otherVendorState plainEnv streamedRequest).trace replies,
        q.admitted = true → q.ToGateway otherVendorState.proxyClient) ↔
      Isolated otherVendorState plainEnv streamedRequest :=
  singleGateway_isolated_iff rfl streamedRequest

/-- The request is streamed from the other vendor. -/
theorem otherVendor_contacted :
    otherVendorState.config.multiProviderEnabled = false ∧
      (((handle otherVendorState plainEnv streamedRequest).trace fun _ => .error ()).map fun q =>
        (q.url.text, q.admitted)) = [("https://other.example/v1/messages", true)] ∧
      ¬∀ replies, ∀ q ∈ (handle otherVendorState plainEnv streamedRequest).trace replies,
        q.admitted = true → q.ToGateway otherVendorState.proxyClient := by
  refine ⟨rfl, by decide +kernel, fun h => ?_⟩
  have := h fun _ => .error ()
  revert this
  decide +kernel

end ApertureRouter
