import ApertureRouter.Json
import ApertureRouter.Lib.Dialog
import ApertureRouter.Lib.Text
import ApertureRouter.Provider.Registry

/-!
# The client of the upstreams

`ProxyClient` (`src/proxy/client.rs`) sends the requests of the routes to the gateway and to the
providers, and `ProviderRegistry::build_endpoint_url` makes their URLs. What is sent, and which
replies come back, is a `Dialog`.

* One query stands for all sends of `send_with_429_retry`: they have one URL, one header and one
  body.
* The checks of URLs and hosts are two predicates of the client: the answers of the name server at
  the time of the request are in them. A request whose URL does not pass (`admitted`) is not sent.
* A body is the JSON value whose text is sent. The client's own errors are only logged.
-/

namespace ApertureRouter

open Text

/-! ## URLs -/

/-- `str::trim_end_matches('/')`. -/
def trimSlashes (s : String) : String := String.ofList (trimEndMatches '/' s.toList)

/-- The URL of an endpoint: a base URL without the `/` at its end, and a path. -/
structure EndpointUrl where
  base : String
  path : String
  deriving DecidableEq, Repr

def EndpointUrl.text (url : EndpointUrl) : String := url.base ++ "/" ++ url.path

/-- `ProviderRegistry::build_endpoint_url`. -/
def buildEndpointUrl (provider : Provider) (endpoint : String) : EndpointUrl where
  base := trimSlashes provider.baseUrl
  path :=
    match provider.endpointStyle with
    | .openaiV1 => endpoint
    | .openaiDirect =>
      ((stripPrefix "v1/".toList endpoint.toList).map String.ofList).getD endpoint
    | .anthropic => "v1/messages"

/-! ## Requests and replies -/

/-- A request to an upstream, sent if its URL is `admitted`. -/
structure UpstreamRequest where
  url : EndpointUrl
  header : Option (String × String)
  body : Value
  admitted : Bool

/-- The body of a reply as `read_body_capped` meets it: its length in bytes, its text
(`String::from_utf8_lossy`), and whether it can be read to its end. -/
structure ResponseBody where
  size : Nat
  text : String
  complete : Bool

/-- `read_body_capped`, then `from_utf8_lossy`. -/
def ResponseBody.readCapped (body : ResponseBody) (maxBytes : Nat) : Option String :=
  if body.complete ∧ body.size ≤ maxBytes then some body.text else none

/-- The reply of an upstream. `chunks` is what `make_utf8_stream` makes of its body. -/
structure UpstreamResponse where
  status : Nat
  body : ResponseBody
  chunks : List (Except String (List Char))

/-- `StatusCode::is_success`. -/
def isSuccess (status : Nat) : Bool := 200 ≤ status && status < 300

/-- `StatusCode::is_server_error`. -/
def isServerError (status : Nat) : Bool := 500 ≤ status && status < 600

/-- A response, or a transport error or timeout. -/
abbrev Reply := Except Unit UpstreamResponse

instance : Nonempty Reply := ⟨.error ()⟩

/-- A program that sends requests to upstreams. -/
abbrev Calls := Dialog UpstreamRequest Reply

/-! ## The client -/

structure ProxyClient where
  baseUrl : String
  apiKey : Option String
  /-- The URL passes the checks of `validate_endpoint` that come after the list of endpoints. -/
  admitsGateway : String → Bool
  /-- `Url::parse`, the check of the scheme and `validate_provider_url_host` accept the URL. -/
  admitsProvider : String → Bool

/-- `ALLOWED_ENDPOINTS`. -/
def allowedEndpoints : List String :=
  ["v1/chat/completions", "v1/messages", "v1/models", "v1/embeddings"]

/-- `add_auth_header`. -/
def authHeader (key : String) : EndpointStyle → String × String
  | .anthropic => ("x-api-key", key)
  | _ => ("authorization", "Bearer " ++ key)

/-- Sends a request if its URL is admitted. -/
def send (request : UpstreamRequest) : Calls Reply :=
  .ask request fun reply => .done (if request.admitted then reply else .error ())

/-- A reply with a status other than a success is an error. -/
def successOnly : Reply → Reply
  | .ok response => if isSuccess response.status then .ok response else .error ()
  | .error e => .error e

namespace ProxyClient

variable (client : ProxyClient)

/-- A request to an endpoint of the gateway. -/
def gatewayRequest (endpoint : String) (body : Value) : UpstreamRequest :=
  let url : EndpointUrl := { base := trimSlashes client.baseUrl, path := endpoint }
  { url := url
    header := client.apiKey.map fun key => ("x-api-key", key)
    body := body
    admitted := allowedEndpoints.contains endpoint && client.admitsGateway url.text }

/-- A request to a URL of a provider. -/
def providerRequest (url : EndpointUrl) (body : Value) (apiKey : Option String)
    (style : EndpointStyle) : UpstreamRequest where
  url := url
  header := apiKey.map fun key => authHeader key style
  body := body
  admitted := client.admitsProvider url.text

/-- `forward_request`. -/
def forwardRequest (endpoint : String) (body : Value) : Calls Reply := do
  let reply ← send (client.gatewayRequest endpoint body)
  return successOnly reply

/-- What a stream says after a status other than a success. -/
def unavailable : List (Except String (List Char)) := [.error "Service temporarily unavailable"]

/-- `forward_request_stream`. -/
def forwardRequestStream (endpoint : String) (body : Value) :
    Calls (Except Unit (List (Except String (List Char)))) := do
  match ← send (client.gatewayRequest endpoint body) with
  | .ok response => return .ok (if isSuccess response.status then response.chunks else unavailable)
  | .error e => return .error e

/-- `forward_request_to_url_raw`. -/
def forwardRequestToUrlRaw (url : EndpointUrl) (body : Value) (apiKey : Option String)
    (style : EndpointStyle) : Calls Reply :=
  send (client.providerRequest url body apiKey style)

/-- `forward_request_stream_to_url`. -/
def forwardRequestStreamToUrl (url : EndpointUrl) (body : Value) (apiKey : Option String)
    (style : EndpointStyle) : Calls (Except Unit (List (Except String (List Char)))) := do
  match successOnly (← send (client.providerRequest url body apiKey style)) with
  | .ok response => return .ok response.chunks
  | .error e => return .error e

end ProxyClient

/-! ## What is sent -/

/-- The base URL of the request is the gateway's, up to the `/` at their ends. -/
def UpstreamRequest.ToGateway (client : ProxyClient) (q : UpstreamRequest) : Prop :=
  q.url.base = trimSlashes client.baseUrl

/-- Whatever the replies are, a request that is sent goes to the gateway. -/
def OnlyToGateway {α : Type} (client : ProxyClient) (d : Calls α) : Prop :=
  d.Asks fun q => q.admitted = true → q.ToGateway client

section

variable {client : ProxyClient}

theorem onlyToGateway_done {α : Type} (a : α) : OnlyToGateway client (.done a) := trivial

theorem onlyToGateway_send (q : UpstreamRequest) :
    OnlyToGateway client (send q) ↔ (q.admitted = true → q.ToGateway client) :=
  and_iff_left fun _ => trivial

/-- What is done with the replies without asking does not matter. -/
theorem onlyToGateway_bind_done {α β : Type} {d : Calls α} {f : α → Calls β}
    (h : ∀ a, ∃ b, f a = .done b) : OnlyToGateway client (d >>= f) ↔ OnlyToGateway client d :=
  Dialog.asks_bind_done h

theorem onlyToGateway_forwardRequest (endpoint : String) (body : Value) :
    OnlyToGateway client (client.forwardRequest endpoint body) :=
  (onlyToGateway_bind_done fun reply => ⟨successOnly reply, rfl⟩).mpr
    ((onlyToGateway_send _).mpr fun _ => rfl)

theorem onlyToGateway_forwardRequestStream (endpoint : String) (body : Value) :
    OnlyToGateway client (client.forwardRequestStream endpoint body) := by
  refine (onlyToGateway_bind_done fun reply => ?_).mpr ((onlyToGateway_send _).mpr fun _ => rfl)
  cases reply <;> exact ⟨_, rfl⟩

/-- The request to the provider, if it is sent, goes to the gateway. -/
def GatewayIfSent (client : ProxyClient) (endpoint : String) (provider : Provider) : Prop :=
  client.admitsProvider (buildEndpointUrl provider endpoint).text = true →
    trimSlashes provider.baseUrl = trimSlashes client.baseUrl

theorem onlyToGateway_forwardRequestToUrlRaw (provider : Provider) (endpoint : String) (body : Value)
    (apiKey : Option String) (style : EndpointStyle) :
    OnlyToGateway client
        (client.forwardRequestToUrlRaw (buildEndpointUrl provider endpoint) body apiKey style) ↔
      GatewayIfSent client endpoint provider :=
  onlyToGateway_send _

theorem onlyToGateway_forwardRequestStreamToUrl (provider : Provider) (endpoint : String)
    (body : Value) (apiKey : Option String) (style : EndpointStyle) :
    OnlyToGateway client
        (client.forwardRequestStreamToUrl (buildEndpointUrl provider endpoint) body apiKey style) ↔
      GatewayIfSent client endpoint provider := by
  refine (onlyToGateway_bind_done fun reply => ?_).trans (onlyToGateway_send _)
  cases successOnly reply <;> exact ⟨_, rfl⟩

end

end ApertureRouter
