import ApertureRouter.Routes.Proxy
import ApertureRouter.Types.Validation
import ApertureRouter.Types.Wire

/-!
# Admission of requests

What the POST routes check before they send a request on: `chat_completions`
(`src/routes/chat.rs`), `anthropic_messages` (`src/routes/messages.rs`) and `handle_proxy_stream`
(`src/routes/streaming.rs`). A check gives the response of a request that it refuses. The checks of
a route are made in order, and the first refusal is the answer.
-/

namespace ApertureRouter

/-! ## Configuration and state -/

/-- What the routes read of `Config`. -/
structure RouterConfig where
  multiProviderEnabled : Bool
  modelAliases : HashMap String String
  maxMessages : Nat
  maxJsonDepth : Nat

/-- `Config::resolve_model_alias`. -/
def RouterConfig.resolveModelAlias (config : RouterConfig) (model : String) : String :=
  (config.modelAliases.get model).getD model

/-- What the routes read of `AppState`. The registry and the models of the discovery are as they are
while the request is handled. -/
structure AppState where
  config : RouterConfig
  proxyClient : ProxyClient
  registry : RegistryInner
  discoveredModels : List String

/-- What the routes take from elsewhere: `serde_json`, the `Display` of an `f32`, the orders of
their hash maps and the random part of a message id. -/
structure Env where
  serde : Serde
  display : Float32 → String
  fieldOrder : IterOrder String Value
  providerOrder : IterOrder String Provider
  slotOrder : IterOrder Nat ToolBlockState
  uuid : String

/-- The providers of a model, as `get_providers_for_model` lists them. -/
def AppState.providersFor (state : AppState) (env : Env) (model : String) : List Provider :=
  state.registry.getProvidersForModel env.providerOrder model

/-! ## Refusals -/

/-- The error of the OpenAI routes: `json_error_response`, and the same body in the others. -/
def invalidRequest (code message : String) : RouterResponse :=
  .json badRequest (.object [("error", .object [("message", .string message),
    ("type", .string "invalid_request_error"), ("code", .string code)])])

/-- The body of an error as Anthropic has it. -/
def anthropicErrorBody (errorType message : String) : Value :=
  .object [("type", .string "error"),
    ("error", .object [("type", .string errorType), ("message", .string message)])]

/-- `anthropic_error`. -/
def anthropicError (status : Nat) (errorType message : String) : RouterResponse :=
  .json status (anthropicErrorBody errorType message)

/-- `anthropic_server_error`. -/
def anthropicServerError (status : Nat) (message : String) : RouterResponse :=
  anthropicError status "api_error" message

/-- The refusal that a failed validation gives. -/
def refuse (validation : Except String Unit) (response : String → RouterResponse) :
    Option RouterResponse :=
  match validation with
  | .ok _ => none
  | .error e => some (response e)

/-- The refusal if a condition holds. -/
def refuseIf (condition : Bool) (response : RouterResponse) : Option RouterResponse :=
  if condition then some response else none

/-- `validate_model_or_error`. -/
def checkModel (model : String) : Option RouterResponse :=
  refuse (validateModelName model) (invalidRequest "invalid_model_name")

def checkMaxTokens (maxTokens : Option UInt32) : Option RouterResponse :=
  maxTokens.bind fun n => refuse (validateMaxTokens n) (invalidRequest "invalid_max_tokens")

/-- The number of messages. -/
def checkMessageCount (config : RouterConfig) (count : Nat) : Option RouterResponse :=
  refuseIf (config.maxMessages < count)
    (invalidRequest "too_many_messages" s!"Too many messages (max {config.maxMessages})")

/-- The role and the text of each message. -/
def checkMessages (messages : List (String × Option String)) : Option RouterResponse :=
  messages.zipIdx.findSome? fun ((role, text), i) =>
    refuse (validateRole role)
      (fun e => invalidRequest "invalid_role" s!"Invalid role in message {i}: {e}") <|>
    text.bind fun text => refuse (validateMessageContent text)
      (fun e => invalidRequest "invalid_content" s!"Invalid content in message {i}: {e}")

/-- The number of fields that the request type does not name. -/
def checkOtherFields (count : Nat) : Option RouterResponse :=
  refuseIf (maxOtherFields < count)
    (invalidRequest "too_many_fields" s!"Too many extra fields (max {maxOtherFields})")

/-- The model is served by a provider or known to discovery. -/
def modelKnown (state : AppState) (env : Env) (model : String) : Bool :=
  (state.providersFor env model).any (·.enabled) || state.discoveredModels.contains model

/-! ## The routes -/

/-- The checks of `chat_completions`, up to the choice of providers. -/
def checkChat (state : AppState) (env : Env) (request : Openai.ChatCompletionRequest) :
    Option RouterResponse :=
  checkModel request.model <|>
  checkMaxTokens request.maxTokens <|>
  checkMessageCount state.config request.messages.length <|>
  checkMessages (request.messages.map fun m => (m.role, m.content >>= Value.asStr)) <|>
  checkOtherFields request.other.entries.length <|>
  refuseIf (state.config.multiProviderEnabled && !modelKnown state env request.model)
    (invalidRequest "model_not_found" s!"Model '{request.model}' not found")

/-- The check of `temperature`. -/
def checkTemperature (env : Env) (temperature : Option Float32) : Option RouterResponse :=
  temperature.bind fun t => refuse (validateTemperature env.display t)
    (anthropicError badRequest "invalid_request_error")

/-- `Value::as_f64`. -/
def Value.asF64 : Value → Option Float
  | number (.posInt n) => some n.toFloat
  | number (.negInt n) => some n.toFloat
  | number (.float bits) => some (Float.ofBits bits)
  | _ => none

/-- The check of `top_p`. -/
def checkTopP (env : Env) (topP : Option Value) : Option RouterResponse :=
  (topP >>= Value.asF64).bind fun v => refuse (validateTopP env.display v.toFloat32)
    (anthropicError badRequest "invalid_request_error")

/-- The checks of `anthropic_messages`. -/
def checkAnthropic (state : AppState) (env : Env) (request : Anthropic.MessageRequest) :
    Option RouterResponse :=
  checkModel request.model <|>
  checkMaxTokens request.maxTokens <|>
  checkMessageCount state.config request.messages.length <|>
  checkMessages (request.messages.map fun m => (m.role, some m.content.asText)) <|>
  checkOtherFields request.other.entries.length <|>
  checkTemperature env request.temperature <|>
  checkTopP env (request.other.get "top_p") <|>
  refuseIf (state.config.multiProviderEnabled && !modelKnown state env request.model)
    (anthropicError badRequest "invalid_request_error" s!"Model '{request.model}' not found")

/-- `MAX_CONTENT_SIZE`: 1 MiB. -/
def maxContentSize : Nat := 1024 * 1024

/-- The content of a message of `/v1/proxy`, if it is a string. -/
def checkProxyText (content : String) : Option RouterResponse :=
  refuseIf (maxContentSize < content.utf8ByteSize)
    (invalidRequest "invalid_content" "Content too large") <|>
  refuse (validateMessageContent content) (invalidRequest "invalid_content")

/-- The content of a message of `/v1/proxy`, if it is an array. -/
def checkProxyBlocks (blocks : List Value) : Option RouterResponse :=
  refuseIf (100 < blocks.length) (invalidRequest "too_many_content_blocks" "Too many content blocks") <|>
  blocks.findSome? fun block => (block.get "text" >>= Value.asStr).bind fun text =>
    refuseIf (maxContentSize < text.utf8ByteSize)
      (invalidRequest "invalid_content" "Content block too large")

/-- A message of `/v1/proxy`. -/
def checkProxyMessage (message : Value) (i : Nat) : Option RouterResponse :=
  ((message.get "role" >>= Value.asStr).bind fun role => refuse (validateRole role)
    fun e => invalidRequest "invalid_role" s!"Invalid role in message {i}: {e}") <|>
  (message.get "content" >>= Value.asStr).bind checkProxyText <|>
  (message.get "content" >>= Value.asArray).bind checkProxyBlocks

/-- `max_tokens` of a request of `/v1/proxy`: one that is no `u32` is not checked. -/
def checkProxyMaxTokens (request : Value) : Option RouterResponse :=
  (request.get "max_tokens" >>= Value.asU64).bind fun n =>
    if n.toNat < UInt32.size then checkMaxTokens (some n.toUInt32) else none

/-- The fields of a JSON object. -/
def Value.asObject : Value → Option (List (String × Value))
  | object m => some m
  | _ => none

/-- The checks of `handle_proxy_stream`. -/
def checkProxy (state : AppState) (request : Value) : Option RouterResponse :=
  ((request.get "model" >>= Value.asStr).bind checkModel) <|>
  ((request.get "messages" >>= Value.asArray).bind fun messages =>
    checkMessageCount state.config messages.length <|>
    messages.zipIdx.findSome? fun (message, i) => checkProxyMessage message i) <|>
  (request.asObject.bind fun obj => checkOtherFields obj.length) <|>
  checkProxyMaxTokens request <|>
  refuseIf (!((request.get "stream" >>= Value.asBool).getD false))
    (invalidRequest "invalid_request" "Stream must be set to true for this endpoint")

end ApertureRouter
