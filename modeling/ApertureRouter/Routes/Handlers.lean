import ApertureRouter.Routes.Conversion
import ApertureRouter.Routes.Streaming

/-!
# The POST routes

The handlers of `/v1/chat/completions` (`src/routes/chat.rs`), `/v1/messages`
(`src/routes/messages.rs`) and `/v1/proxy` (`src/routes/streaming.rs`), from the request that axum
has read to the response. A JSON value is always serialised, so the branches for a failure of that
are left out.
-/

namespace ApertureRouter

variable (state : AppState) (env : Env)

/-! ## `/v1/chat/completions` -/

/-- The refusal of a model that only Anthropic-style providers serve. -/
def checkChatProviders (model : String) (providers : List Provider) : Option RouterResponse :=
  refuseIf (providers.isEmpty && state.config.multiProviderEnabled &&
      (state.providersFor env model).any (·.endpointStyle = .anthropic))
    (invalidRequest "wrong_endpoint_for_provider"
      s!"Model '{model}' is served by an Anthropic-style provider; send requests to /v1/messages")

/-- `chat_completions`. -/
def chatCompletions (request : Openai.ChatCompletionRequest) : Calls RouterResponse :=
  let request := { request with model := state.config.resolveModelAlias request.model }
  match checkChat state env request with
  | some refusal => .done refusal
  | none =>
    let providers := (state.providersFor env request.model).filter (·.endpointStyle ≠ .anthropic)
    match checkChatProviders state env request.model providers with
    | some refusal => .done refusal
    | none => proxyHandlerMulti state.proxyClient providers (request.toValue env.fieldOrder)
        "v1/chat/completions" state.config.multiProviderEnabled

/-! ## `/v1/messages` -/

/-- The response to a stream that could not be opened. -/
def streamResponse : Except Nat RouterResponse → RouterResponse
  | .ok sse => sse
  | .error status => anthropicServerError status "Streaming request failed"

/-- The Anthropic-style providers of a model. -/
def AppState.anthropicProviders (model : String) : List Provider :=
  (state.providersFor env model).filter (·.endpointStyle = .anthropic)

/-- `anthropic_messages`, behind its checks. -/
def routeAnthropic (request : Anthropic.MessageRequest) : Calls RouterResponse :=
  let body := request.toValue env.fieldOrder
  let isStreaming := request.stream.getD false
  let anthropicProviders := state.anthropicProviders env request.model
  if !anthropicProviders.isEmpty then
    if isStreaming then do
      let sse ← handleAnthropicDirectStreaming state body anthropicProviders
      return streamResponse sse
    else proxyHandlerMulti state.proxyClient anthropicProviders body "v1/messages"
      state.config.multiProviderEnabled
  else
    let openaiProviders := state.providersFor env request.model
    if isStreaming then do
      let sse ← handleStreamingConversion state env body openaiProviders
      return streamResponse sse
    else handleNonStreamingConversion state env body openaiProviders

/-- `anthropic_messages`. -/
def anthropicMessages (request : Anthropic.MessageRequest) : Calls RouterResponse :=
  let request := { request with model := state.config.resolveModelAlias request.model }
  match checkAnthropic state env request with
  | some refusal => .done refusal
  | none => routeAnthropic state env request

/-! ## `/v1/proxy` -/

/-- `detect_wire_format`. -/
def detectWireFormat (request : Value) : String :=
  if ["system", "stop_sequences", "thinking", "top_k"].any fun k => (request.get k).isSome then
    "v1/messages"
  else if ["max_completion_tokens", "frequency_penalty", "presence_penalty", "logit_bias", "n",
      "response_format", "seed"].any fun k => (request.get k).isSome then
    "v1/chat/completions"
  else if (request.get "max_tokens").isSome then "v1/messages"
  else "v1/chat/completions"

/-- The request with its model resolved. -/
def resolveRequestModel (request : Value) : Value :=
  match request.get "model" >>= Value.asStr with
  | some model =>
    let resolved := state.config.resolveModelAlias model
    if resolved ≠ model then request.set "model" (.string resolved) else request
  | none => request

/-- `handle_proxy_stream`. -/
def handleProxyStream (request : Value) : Calls RouterResponse :=
  let request := resolveRequestModel state request
  match checkProxy state request with
  | some refusal => .done refusal
  | none => do
    let includeThinking := ((request.get "include_thinking") >>= Value.asBool).getD false
    match ← state.proxyClient.forwardRequestStream (detectWireFormat request) request with
    | .ok response =>
      return .events (proxyEvents env.serde includeThinking state.config.maxJsonDepth response)
    | .error _ =>
      return .json badGateway (.object [("error", .object [
        ("message", .string "Failed to forward streaming request"),
        ("type", .string "invalid_request_error"), ("code", .string "upstream_error")])])

/-! ## The routes together -/

/-- A request to one of the POST routes. -/
inductive RouterRequest where
  | chat (request : Openai.ChatCompletionRequest)
  | messages (request : Anthropic.MessageRequest)
  | proxy (request : Value)

/-- The handler of the route. -/
def handle : RouterRequest → Calls RouterResponse
  | .chat request => chatCompletions state env request
  | .messages request => anthropicMessages state env request
  | .proxy request => handleProxyStream state env request

end ApertureRouter
