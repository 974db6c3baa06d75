import ApertureRouter.Lib.Sse
import ApertureRouter.Proxy.Client
import ApertureRouter.Routes.Messages

/-!
# Sending a request to its upstreams

`proxy_handler_multi` (`src/routes/proxy.rs`) sends a request to the default gateway, to its
provider, or to one provider after the other; `provider_api_key` (`src/routes/shared.rs`) chooses
the key. The functions that log only, and a response builder that fails, are left out.

* `onlyToGateway_proxyHandlerMulti`: without multi-provider routing only the gateway is asked.
-/

namespace ApertureRouter

open Text

/-! ## Responses -/

/-- What the router answers: JSON that it made, text that it passes on, or a stream of events. -/
inductive RouterResponse where
  | json (status : Nat) (body : Value)
  | text (status : Nat) (body : String)
  | events (es : List Sse.Event)
  | converted (es : List ClientEvent)

/-- `json_error` of `src/routes/proxy.rs`. -/
def jsonError (status : Nat) (message : String) : RouterResponse :=
  .json status (.object [("error", .string message)])

/-- `StatusCode::BAD_REQUEST`. -/
def badRequest : Nat := 400

/-- `StatusCode::BAD_GATEWAY`. -/
def badGateway : Nat := 502

/-! ## Keys -/

/-- `MAX_FAILOVER_ATTEMPTS`. -/
def maxFailoverAttempts : Nat := 3

/-- `MAX_OTHER_FIELDS`. -/
def maxOtherFields : Nat := 50

/-- `MAX_NON_STREAMING_RESPONSE_BYTES`: 10 MiB. -/
def maxNonStreamingResponseBytes : Nat := 10 * 1024 * 1024

/-- `MAX_ERROR_BODY_BYTES`: 64 KiB. -/
def maxErrorBodyBytes : Nat := 64 * 1024

/-- `provider_api_key`: the provider's own key, or the gateway's for a provider at its URL. -/
def providerApiKey (provider : Provider) (defaultKey : Option String) (gatewayUrl : String) :
    Option String :=
  match provider.apiKey with
  | some key => some key
  | none => if trimSlashes provider.baseUrl = trimSlashes gatewayUrl then defaultKey else none

/-- The key that the client sends to a provider. -/
def ProxyClient.keyFor (client : ProxyClient) (provider : Provider) : Option String :=
  providerApiKey provider client.apiKey client.baseUrl

namespace ProxyClient

variable {client : ProxyClient} {provider : Provider}

theorem keyFor_own {key : String} (h : provider.apiKey = some key) :
    client.keyFor provider = some key := by
  rw [keyFor, providerApiKey, h]

theorem keyFor_gateway (h : provider.apiKey = none)
    (hbase : trimSlashes provider.baseUrl = trimSlashes client.baseUrl) :
    client.keyFor provider = client.apiKey := by
  rw [keyFor, providerApiKey, h]
  exact if_pos hbase

theorem keyFor_other (h : provider.apiKey = none)
    (hbase : trimSlashes provider.baseUrl ≠ trimSlashes client.baseUrl) :
    client.keyFor provider = none := by
  rw [keyFor, providerApiKey, h]
  exact if_neg hbase

end ProxyClient

/-! ## `proxy_handler_multi` -/

/-- `process_upstream_response`. -/
def processUpstreamResponse (response : UpstreamResponse) : RouterResponse :=
  match response.body.readCapped maxNonStreamingResponseBytes with
  | some body => .text response.status body
  | none => jsonError badGateway "Response too large"

section

variable (client : ProxyClient)

/-- `proxy_to_default_gateway`. -/
def proxyToDefaultGateway (body : Value) (endpoint : String) : Calls RouterResponse := do
  match ← client.forwardRequest endpoint body with
  | .ok response => return processUpstreamResponse response
  | .error _ => return jsonError badGateway "Failed to forward request"

/-- `try_provider`. -/
def tryProvider (body : Value) (defaultEndpoint : String) (provider : Provider) :
    Calls (Except Nat RouterResponse) := do
  match ← client.forwardRequestToUrlRaw (buildEndpointUrl provider defaultEndpoint) body
      (client.keyFor provider) provider.endpointStyle with
  | .ok response =>
    if isServerError response.status then return .error response.status
    else return .ok (processUpstreamResponse response)
  | .error _ => return .error badGateway

/-- `proxy_handler_multi`. -/
def proxyHandlerMulti (providers : List Provider) (body : Value) (defaultEndpoint : String)
    (multiProviderEnabled : Bool) : Calls RouterResponse :=
  if !multiProviderEnabled then proxyToDefaultGateway client body defaultEndpoint
  else match providers with
    | [] => proxyToDefaultGateway client body defaultEndpoint
    | [provider] => do
      match ← tryProvider client body defaultEndpoint provider with
      | .ok response => return response
      | .error _ => return jsonError badGateway "Failed to forward request"
    | _ => do
      match ← Dialog.firstOk (tryProvider client body defaultEndpoint) badGateway
          (providers.take maxFailoverAttempts) with
      | .ok response => return response
      | .error lastError => return jsonError lastError "All providers failed"

/-! ## Where requests go -/

variable {client}

theorem onlyToGateway_proxyToDefaultGateway (body : Value) (endpoint : String) :
    OnlyToGateway client (proxyToDefaultGateway client body endpoint) := by
  refine (onlyToGateway_bind_done fun reply => ?_).mpr (onlyToGateway_forwardRequest endpoint body)
  cases reply <;> exact ⟨_, rfl⟩

/-- Without multi-provider routing only the gateway is asked. -/
theorem onlyToGateway_proxyHandlerMulti (providers : List Provider) (body : Value)
    (defaultEndpoint : String) :
    OnlyToGateway client (proxyHandlerMulti client providers body defaultEndpoint false) :=
  onlyToGateway_proxyToDefaultGateway body defaultEndpoint

end

end ApertureRouter
