import ApertureRouter.Config
import ApertureRouter.Provider.Convergence
import ApertureRouter.Proxy.Client
import ApertureRouter.Proxy.LocalAddresses

/-!
# Two ways to the gateway

A request goes to the gateway as such (`validate_endpoint`, `src/proxy/client.rs`), or through a
provider that discovery has added, whose base URL is the gateway's. `validate_endpoint` lets the
configured host through. The forwarders to a provider do not know it
(`validate_provider_url_host`).

* `autoAdded_baseUrl`: the base URL of an added provider, over all updates.
* `gatewayHostCheck_of_host`: the first way is always open.
* `gateway_agrees_iff`: both are open exactly if the gateway would do as any provider.
-/

namespace ApertureRouter

/-- `host_str` of a URL. -/
def ParsedUrl.hostStr (url : ParsedUrl) : Option String := url.host.map Host.str

/-- A path after a base URL does not change its host. -/
def UrlParser.KeepsHost (parse : UrlParser) : Prop :=
  ∀ baseUrl path base url, parse baseUrl = .ok base → base.scheme = "http" ∨ base.scheme = "https" →
    parse (trimSlashes baseUrl ++ "/" ++ path) = .ok url → url.host = base.host

section

variable (parse : UrlParser) (baseUrl : String)

/-- How `fetch_models` begins: there is no snapshot if the base URL is not one of these. -/
def fetchBaseUrl : Except String ParsedUrl :=
  match parse baseUrl with
  | .error e => .error ("Invalid base_url: " ++ e)
  | .ok url =>
    if url.scheme ≠ "http" ∧ url.scheme ≠ "https" then
      .error ("Invalid URL scheme: " ++ url.scheme ++ ". Only http and https are allowed.")
    else .ok url

/-! ## `validate_endpoint` -/

/-- The check of the host. The one of the configured base URL passes. -/
def gatewayHostCheck (url : ParsedUrl) : Bool :=
  match url.hostStr with
  | none => true
  | some host =>
    let baseUrlHost := (parse baseUrl).toOption.bind ParsedUrl.hostStr
    let isConfiguredGateway := baseUrlHost == some host
    isConfiguredGateway || !(isInternalIp host || isMetadataEndpoint host)

def validateEndpoint (endpoint : String) : Except String ParsedUrl :=
  if allowedEndpoints.contains endpoint then
    match parse (trimSlashes baseUrl ++ "/" ++ endpoint) with
    | .error e => .error e
    | .ok url =>
      if url.scheme ≠ "https" ∧ url.scheme ≠ "http" then
        .error "Invalid URL scheme in endpoint. Only http and https are allowed."
      else if gatewayHostCheck parse baseUrl url then .ok url
      else .error ("Access to internal hosts '" ++ url.hostStr.getD "" ++
        "' is blocked (SSRF protection)")
  else .error ("Endpoint '" ++ endpoint ++ "' is not in the allowed list")

end

variable {parse : UrlParser} {baseUrl : String} {base url : ParsedUrl}

theorem fetchBaseUrl_ok (h : fetchBaseUrl parse baseUrl = .ok base) :
    parse baseUrl = .ok base ∧ (base.scheme = "http" ∨ base.scheme = "https") := by
  unfold fetchBaseUrl at h
  split at h
  · cases h
  · next url hparse =>
    split at h
    · cases h
    · next hscheme =>
      obtain rfl := Except.ok.inj h
      exact ⟨hparse, by tauto⟩

/-- The host of the gateway passes, whatever it is. -/
theorem gatewayHostCheck_of_host (hparse : parse baseUrl = .ok base) (hhost : url.host = base.host) :
    gatewayHostCheck parse baseUrl url = true := by
  have hstr : url.hostStr = base.hostStr := congrArg (Option.map Host.str) hhost
  unfold gatewayHostCheck
  rw [hparse, hstr]
  cases hbase : base.hostStr with
  | none => rfl
  | some host =>
    show ((base.hostStr == some host) || _) = true
    rw [hbase, beq_self_eq_true, Bool.true_or]

/-- Nor does anything else keep a request to an allowed endpoint from the gateway. -/
theorem validateEndpoint_gateway {endpoint : String} (hkeeps : parse.KeepsHost)
    (hfetch : fetchBaseUrl parse baseUrl = .ok base)
    (hallowed : allowedEndpoints.contains endpoint = true)
    (hurl : parse (trimSlashes baseUrl ++ "/" ++ endpoint) = .ok url)
    (hscheme : url.scheme = base.scheme) : validateEndpoint parse baseUrl endpoint = .ok url := by
  obtain ⟨hparse, hbase⟩ := fetchBaseUrl_ok hfetch
  have hhost : url.host = base.host := hkeeps _ _ _ _ hparse hbase hurl
  rw [← hscheme] at hbase
  rw [validateEndpoint, if_pos hallowed, hurl]
  dsimp only
  rw [if_neg (by tauto), if_pos (gatewayHostCheck_of_host hparse hhost)]

/-! ## Providers that discovery has added -/

namespace RegistryInner

/-- The provider is in the registry, and not from the configuration. -/
structure AutoAdded (inner : RegistryInner) (provider : Provider) : Prop where
  registered : inner.providers.get provider.name = some provider
  notStatic : provider.name ∉ inner.staticProviders

/-- All updates come with one URL, and it stays the base URL of what they add. -/
theorem autoAdded_baseUrl {providers : List Provider} (hnodup : (providers.map (·.name)).Nodup)
    {updates : List Update} {apertureUrl : String}
    (hurl : ∀ u ∈ updates, u.apertureUrl = apertureUrl) {provider : Provider}
    (h : (afterUpdates providers updates).AutoAdded provider) :
    provider.baseUrl = apertureUrl := by
  obtain ⟨hget, hstatic⟩ := h
  generalize provider.name = name at hget hstatic
  induction updates using List.reverseRecOn generalizing provider with
  | nil =>
    have hconfigured := configured_new hnodup
    exact absurd ((hconfigured.names name).mpr ⟨provider, (hconfigured.table name provider).mp hget⟩)
      hstatic
  | append_singleton updates u ih =>
    have hframed := (frames_afterUpdates hnodup updates).1
    have hu : u.apertureUrl = apertureUrl := hurl u (by simp)
    rw [afterUpdates_concat] at hget hstatic
    rw [(hframed.frames_update u).staticProviders] at hstatic
    rw [hframed.update_provider, if_neg hstatic] at hget
    split at hget
    · cases hget
    · obtain ⟨models, -, rfl⟩ := Option.map_eq_some_iff.mp hget
      unfold updatedProvider
      cases hold : (afterUpdates providers updates).providers.get name with
      | none => exact hu
      | some old =>
        dsimp only
        rw [if_neg hstatic]
        show old.baseUrl = apertureUrl
        exact ih (fun u' hmem => hurl u' (List.mem_append_left _ hmem)) hold hstatic

end RegistryInner

/-! ## The two ways -/

namespace Network

variable (net : Network)

/-- **The two ways to the gateway.** A request to an added provider passes exactly when the one to
the gateway does, if the host of the gateway would do for any provider. -/
theorem gateway_agrees_iff {debug : Bool} {config : Config} {updates : List Update}
    {provider : Provider} {endpoint : String} {gatewayUrl providerUrl : ParsedUrl}
    (hkeeps : parse.KeepsHost) (hvalid : config.validate parse debug = .ok ())
    (hfetch : fetchBaseUrl parse config.aperture.baseUrl = .ok base)
    (hupdates : ∀ u ∈ updates, u.apertureUrl = config.aperture.baseUrl)
    (hauto : (RegistryInner.afterUpdates config.providers updates).AutoAdded provider)
    (hgateway : parse (trimSlashes config.aperture.baseUrl ++ "/" ++ endpoint) = .ok gatewayUrl)
    (hprovider : parse (buildEndpointUrl provider endpoint).text = .ok providerUrl) :
    (net.validateProviderUrlHost providerUrl = true ↔
        gatewayHostCheck parse config.aperture.baseUrl gatewayUrl = true) ↔ net.Reaches base := by
  obtain ⟨hparse, hscheme⟩ := fetchBaseUrl_ok hfetch
  have hurl := RegistryInner.autoAdded_baseUrl (Config.names_nodup hvalid) hupdates hauto
  have hgatewayHost : gatewayUrl.host = base.host :=
    hkeeps _ _ _ _ hparse hscheme hgateway
  have hproviderHost : providerUrl.host = base.host := by
    refine hkeeps _ (buildEndpointUrl provider endpoint).path _ _ hparse hscheme ?_
    rw [← hprovider, EndpointUrl.text, ← hurl]
    rfl
  rw [validateProviderUrlHost_iff, gatewayHostCheck_of_host hparse hgatewayHost]
  simp only [Reaches, ParsedUrl.namesMetadata, denoted, hproviderHost, iff_true]

end Network

/-- The default gateway, with a key for the clients. -/
def localConfig : Config where
  security := { apiKeys := ["abcdefghijklmnopqrstuvwxyz0123456789"] }

def localUrl : ParsedUrl := ⟨"http", some (.domain "localhost")⟩

/-- `Url::parse` on the URLs of the default gateway. -/
def localUrls (text : String) : Except String ParsedUrl :=
  if text ∈ ["http://localhost:8080", "http://localhost:8080/v1/chat/completions",
    "http://localhost:8080/chat/completions"] then .ok localUrl
  else .error "relative URL without a base"

/-- A snapshot with one model. -/
def localUpdate : Update where
  modelsByProvider := HashMap.insertAll ∅ [("zai", ["glm-5.1"])]
  apertureUrl := "http://localhost:8080"
  groupOrder := .entries
  providerOrder := .entries

/-- What `localUpdate` adds. -/
def localProvider : Provider where
  name := "zai"
  baseUrl := "http://localhost:8080"
  apiKey := none
  endpointStyle := .openaiDirect
  models := ["glm-5.1"]
  enabled := true

theorem localProvider_eq :
    RegistryInner.autoProvider "http://localhost:8080" "zai" ["glm-5.1"] = localProvider := by
  simp [RegistryInner.autoProvider, RegistryInner.inferredStyle, localProvider]

/-- The name server has the loopback address for `localhost`. -/
def localNetwork : Network := { rebound with answer := fun _ => .ok [.v4 ⟨127, 0, 0, 1⟩] }

theorem localProvider_autoAdded :
    (RegistryInner.afterUpdates localConfig.providers [localUpdate]).AutoAdded localProvider := by
  refine ⟨?_, by decide +kernel⟩
  rw [← localProvider_eq]
  rfl

theorem localGateway_disagrees :
    localConfig.validate localUrls false = .ok () ∧
    (RegistryInner.afterUpdates localConfig.providers [localUpdate]).getProviderForModel "glm-5.1" =
      some localProvider ∧
    validateEndpoint localUrls localConfig.aperture.baseUrl "v1/chat/completions" = .ok localUrl ∧
    localUrls (buildEndpointUrl localProvider "v1/chat/completions").text = .ok localUrl ∧
    localNetwork.validateProviderUrlHost localUrl = false := by
  refine ⟨by rfl, ?_, by rfl, by rfl, by decide⟩
  rw [← localProvider_eq]
  rfl

theorem localUrls_keepsHost : UrlParser.KeepsHost localUrls := by
  have hlocal : ∀ text url, localUrls text = .ok url → url = localUrl := by
    intro text url h
    unfold localUrls at h
    split at h
    · exact (Except.ok.inj h).symm
    · cases h
  intro baseUrl path base url hbase _ hurl
  rw [hlocal _ _ hbase, hlocal _ _ hurl]

theorem gateway_agrees_iff_localGateway :
    (localNetwork.validateProviderUrlHost localUrl = true ↔
        gatewayHostCheck localUrls localConfig.aperture.baseUrl localUrl = true) ↔
      localNetwork.Reaches localUrl :=
  @Network.gateway_agrees_iff localUrls localUrl localNetwork false localConfig [localUpdate]
    localProvider "v1/chat/completions" localUrl localUrl localUrls_keepsHost rfl rfl (by decide)
    localProvider_autoAdded rfl rfl

end ApertureRouter
