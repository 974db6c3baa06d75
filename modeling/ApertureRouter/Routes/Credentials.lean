import ApertureRouter.Routes.Isolation

/-!
# The keys of the upstreams

A request carries the gateway's key or the key of a provider, and only to where it belongs. To see
that a key is from where it should be, and does not just read the same, the keys are changed: two
states with different keys ask the same upstreams in the same order (`alike_handle`), so they differ
in nothing but the keys that those upstreams get.

* `SameUpstream`: two requests that the two states make of one upstream.
* `credentials_stay`: what this says of the keys of each run, and of a change of one key.
-/

namespace ApertureRouter

/-! ## Other keys -/

/-- The providers are the same but for their keys. -/
def KeyChange (f : Provider → Provider) : Prop := ∀ p, ∃ key, f p = { p with apiKey := key }

def RegistryInner.mapProviders (f : Provider → Provider) (inner : RegistryInner) : RegistryInner :=
  { inner with providers := inner.providers.mapValues f }

/-- The registry has the provider. -/
def RegistryInner.Registered (inner : RegistryInner) (p : Provider) : Prop :=
  ∃ name, inner.providers.get name = some p

namespace AppState

/-- The gateway and the providers have other keys. -/
def withKeys (state : AppState) (gatewayKey : Option String) (f : Provider → Provider) : AppState :=
  { state with
    proxyClient := { state.proxyClient with apiKey := gatewayKey }
    registry := state.registry.mapProviders f }

theorem withKeys_config (state : AppState) (gatewayKey : Option String) (f : Provider → Provider) :
    (state.withKeys gatewayKey f).config = state.config := rfl

/-- The gateway has another key. -/
def withGatewayKey (state : AppState) (key : Option String) : AppState :=
  { state with proxyClient := { state.proxyClient with apiKey := key } }

/-- The key of the provider of a name, if it is this one. -/
def setKey (name : String) (key : Option String) (p : Provider) : Provider :=
  if p.name = name then { p with apiKey := key } else p

/-- The provider of a name has another key. -/
def withProviderKey (state : AppState) (name : String) (key : Option String) : AppState :=
  { state with registry := state.registry.mapProviders (setKey name key) }

end AppState

/-! ## The providers of a model -/

namespace RegistryInner

variable {inner : RegistryInner} {order : IterOrder String Provider} {f : Provider → Provider}

theorem registered_of_mem_getProvidersForModel {model : String} {p : Provider}
    (h : p ∈ inner.getProvidersForModel order model) : inner.Registered p := by
  unfold getProvidersForModel at h
  dsimp only at h
  have hentries : ∀ e ∈ order.list inner.providers, inner.Registered e.2 :=
    fun e he => ⟨e.1, (order.mem_list).mp he⟩
  have hrouted : ∀ r ∈ ((inner.getProviderForModel model).filter (·.enabled)).toList,
      inner.Registered r := by
    intro r hr
    obtain ⟨hget, -⟩ := Option.filter_eq_some_iff.mp (Option.mem_toList.mp hr)
    obtain ⟨name, -, hname⟩ := Option.bind_eq_some_iff.mp hget
    exact ⟨name, hname⟩
  generalize ((inner.getProviderForModel model).filter (·.enabled)).toList = result at h hrouted
  generalize order.list inner.providers = entries at h hentries
  induction entries generalizing result with
  | nil => exact hrouted p h
  | cons e entries ih =>
    obtain ⟨he, hentries⟩ := List.forall_mem_cons.mp hentries
    rw [List.foldl_cons] at h
    refine ih _ (fun r hr => ?_) h hentries
    split at hr
    · rcases List.mem_append.mp hr with hr | hr
      · exact hrouted r hr
      · rw [List.mem_singleton.mp hr]
        exact he
    · exact hrouted r hr

theorem getProviderForModel_mapProviders (model : String) :
    (inner.mapProviders f).getProviderForModel model = (inner.getProviderForModel model).map f := by
  unfold getProviderForModel mapProviders
  cases inner.modelToProvider.get model with
  | none => rfl
  | some name => exact HashMap.get_mapValues _ _ _

theorem getProvidersForModel_mapProviders (hf : KeyChange f) (horder : order.IgnoresValues)
    (model : String) :
    (inner.mapProviders f).getProvidersForModel order model =
      (inner.getProvidersForModel order model).map f := by
  have hkept : ∀ p, (f p).enabled = p.enabled ∧ (f p).models = p.models ∧ (f p).name = p.name := by
    intro p
    obtain ⟨key, hkey⟩ := hf p
    rw [hkey]
    exact ⟨rfl, rfl, rfl⟩
  have hrouted : (((inner.getProviderForModel model).map f).filter (·.enabled)).toList =
      ((inner.getProviderForModel model).filter (·.enabled)).toList.map f := by
    cases inner.getProviderForModel model with
    | none => rfl
    | some p =>
      rw [Option.map_some, Option.filter_some, Option.filter_some, (hkept p).1]
      cases p.enabled <;> rfl
  unfold getProvidersForModel
  dsimp only
  rw [getProviderForModel_mapProviders, hrouted, mapProviders, horder]
  generalize ((inner.getProviderForModel model).filter (·.enabled)).toList = result
  induction order.list inner.providers generalizing result with
  | nil => rfl
  | cons e entries ih =>
    have hnames : (∀ r ∈ result.map f, r.name ≠ e.2.name) ↔ ∀ r ∈ result, r.name ≠ e.2.name := by
      simp only [List.forall_mem_map, (hkept _).2.2]
    rw [List.map_cons, List.foldl_cons, List.foldl_cons]
    simp only [(hkept e.2).1, (hkept e.2).2.1, (hkept e.2).2.2, hnames]
    split
    · rw [← List.map_singleton, ← List.map_append]
      exact ih _
    · exact ih _

end RegistryInner

/-! ## One upstream, two states -/

/-- The requests that a state and the one with other keys make of an upstream. -/
inductive SameUpstream (state : AppState) (gatewayKey : Option String) (f : Provider → Provider) :
    UpstreamRequest → UpstreamRequest → Prop where
  | gateway (endpoint : String) (body : Value) :
      SameUpstream state gatewayKey f (state.proxyClient.gatewayRequest endpoint body)
        ((state.withKeys gatewayKey f).proxyClient.gatewayRequest endpoint body)
  | provider {p : Provider} (hp : state.registry.Registered p) (endpoint : String) (body : Value)
      (style : EndpointStyle) :
      SameUpstream state gatewayKey f
        (state.proxyClient.providerRequest (buildEndpointUrl p endpoint) body
          (state.proxyClient.keyFor p) style)
        ((state.withKeys gatewayKey f).proxyClient.providerRequest (buildEndpointUrl p endpoint) body
          ((state.withKeys gatewayKey f).proxyClient.keyFor (f p)) style)

section

variable {state : AppState} {gatewayKey : Option String} {f : Provider → Provider} {α : Type}

/-- `d` and `d'` are the same program of the two states. -/
def Alike (state : AppState) (gatewayKey : Option String) (f : Provider → Provider)
    (d d' : Calls α) : Prop :=
  d.Related (SameUpstream state gatewayKey f) d'

theorem alike_done (a : α) : Alike state gatewayKey f (.done a) (.done a) := .done a

theorem alike_send {q q' : UpstreamRequest} (h : SameUpstream state gatewayKey f q q') :
    Alike state gatewayKey f (send q) (send q') := by
  have hadmitted : q.admitted = q'.admitted := by
    cases h with
    | gateway => rfl
    | provider => rfl
  refine .ask h fun reply => ?_
  rw [hadmitted]
  exact .done _

theorem alike_forwardRequest (endpoint : String) (body : Value) :
    Alike state gatewayKey f (state.proxyClient.forwardRequest endpoint body)
      ((state.withKeys gatewayKey f).proxyClient.forwardRequest endpoint body) :=
  (alike_send (.gateway endpoint body)).bind_done fun reply => ⟨successOnly reply, rfl⟩

theorem alike_forwardRequestStream (endpoint : String) (body : Value) :
    Alike state gatewayKey f (state.proxyClient.forwardRequestStream endpoint body)
      ((state.withKeys gatewayKey f).proxyClient.forwardRequestStream endpoint body) := by
  refine (alike_send (.gateway endpoint body)).bind_done fun reply => ?_
  cases reply <;> exact ⟨_, rfl⟩

theorem KeyChange.buildEndpointUrl_eq (hf : KeyChange f) (p : Provider) (endpoint : String) :
    buildEndpointUrl (f p) endpoint = buildEndpointUrl p endpoint := by
  obtain ⟨key, hkey⟩ := hf p
  rw [hkey]
  rfl

theorem KeyChange.endpointStyle_eq (hf : KeyChange f) (p : Provider) :
    (f p).endpointStyle = p.endpointStyle := by
  obtain ⟨key, hkey⟩ := hf p
  rw [hkey]

variable {p : Provider}

theorem alike_forwardRequestToUrlRaw (hf : KeyChange f) (hp : state.registry.Registered p)
    (endpoint : String) (body : Value) (style : EndpointStyle) :
    Alike state gatewayKey f
      (state.proxyClient.forwardRequestToUrlRaw (buildEndpointUrl p endpoint) body
        (state.proxyClient.keyFor p) style)
      ((state.withKeys gatewayKey f).proxyClient.forwardRequestToUrlRaw
        (buildEndpointUrl (f p) endpoint) body
        ((state.withKeys gatewayKey f).proxyClient.keyFor (f p)) style) := by
  rw [hf.buildEndpointUrl_eq]
  exact alike_send (.provider hp endpoint body style)

theorem alike_forwardRequestStreamToUrl (hf : KeyChange f) (hp : state.registry.Registered p)
    (endpoint : String) (body : Value) (style : EndpointStyle) :
    Alike state gatewayKey f
      (state.proxyClient.forwardRequestStreamToUrl (buildEndpointUrl p endpoint) body
        (state.proxyClient.keyFor p) style)
      ((state.withKeys gatewayKey f).proxyClient.forwardRequestStreamToUrl
        (buildEndpointUrl (f p) endpoint) body
        ((state.withKeys gatewayKey f).proxyClient.keyFor (f p)) style) := by
  rw [hf.buildEndpointUrl_eq]
  refine (alike_send (.provider hp endpoint body style)).bind_done fun reply => ?_
  cases successOnly reply <;> exact ⟨_, rfl⟩

/-! ## The paths -/

theorem alike_proxyToDefaultGateway (body : Value) (endpoint : String) :
    Alike state gatewayKey f (proxyToDefaultGateway state.proxyClient body endpoint)
      (proxyToDefaultGateway (state.withKeys gatewayKey f).proxyClient body endpoint) := by
  refine (alike_forwardRequest endpoint body).bind_done fun reply => ?_
  cases reply <;> exact ⟨_, rfl⟩

theorem alike_tryProvider (hf : KeyChange f) (hp : state.registry.Registered p) (body : Value)
    (endpoint : String) :
    Alike state gatewayKey f (tryProvider state.proxyClient body endpoint p)
      (tryProvider (state.withKeys gatewayKey f).proxyClient body endpoint (f p)) := by
  unfold tryProvider
  rw [hf.endpointStyle_eq]
  refine (alike_forwardRequestToUrlRaw hf hp endpoint body _).bind_done fun reply => ?_
  cases reply with
  | error e => exact ⟨_, rfl⟩
  | ok response =>
    dsimp only
    split <;> exact ⟨_, rfl⟩

/-- Failover over the first providers. -/
theorem alike_firstOk {ε : Type} {try_ try_' : Provider → Calls (Except ε α)}
    {providers : List Provider}
    (h : ∀ p ∈ providers, Alike state gatewayKey f (try_ p) (try_' (f p))) (e : ε) :
    Alike state gatewayKey f (Dialog.firstOk try_ e (providers.take maxFailoverAttempts))
      (Dialog.firstOk try_' e ((providers.map f).take maxFailoverAttempts)) := by
  rw [← List.map_take]
  exact .firstOk (fun p hp => h p (List.mem_of_mem_take hp)) e

variable {providers : List Provider}

theorem alike_proxyHandlerMulti (hf : KeyChange f)
    (hproviders : ∀ p ∈ providers, state.registry.Registered p) (body : Value) (endpoint : String)
    (multiProviderEnabled : Bool) :
    Alike state gatewayKey f
      (proxyHandlerMulti state.proxyClient providers body endpoint multiProviderEnabled)
      (proxyHandlerMulti (state.withKeys gatewayKey f).proxyClient (providers.map f) body endpoint
        multiProviderEnabled) := by
  unfold proxyHandlerMulti
  split
  · exact alike_proxyToDefaultGateway body endpoint
  · match providers with
    | [] => exact alike_proxyToDefaultGateway body endpoint
    | [p] =>
      refine (alike_tryProvider hf (hproviders p List.mem_cons_self) body endpoint).bind_done ?_
      intro r
      cases r <;> exact ⟨_, rfl⟩
    | p :: p' :: rest =>
      refine (alike_firstOk (fun p hp => ?_) badGateway).bind_done fun r => ?_
      · exact alike_tryProvider hf (hproviders p hp) body endpoint
      · cases r <;> exact ⟨_, rfl⟩

variable {env : Env}

theorem alike_tryProviderNonStreaming (hf : KeyChange f) (hp : state.registry.Registered p)
    (openaiBody : Value) :
    Alike state gatewayKey f (tryProviderNonStreaming state env openaiBody p)
      (tryProviderNonStreaming (state.withKeys gatewayKey f) env openaiBody (f p)) := by
  unfold tryProviderNonStreaming
  rw [hf.endpointStyle_eq]
  exact (alike_forwardRequestToUrlRaw hf hp _ openaiBody _).bind_done fun reply => ⟨_, rfl⟩

theorem alike_tryProviderStreaming (hf : KeyChange f) (hp : state.registry.Registered p)
    (openaiBody : Value) :
    Alike state gatewayKey f (tryProviderStreaming state openaiBody p)
      (tryProviderStreaming (state.withKeys gatewayKey f) openaiBody (f p)) := by
  unfold tryProviderStreaming
  rw [hf.endpointStyle_eq]
  refine (alike_forwardRequestStreamToUrl hf hp _ openaiBody _).bind_done fun r => ?_
  cases r <;> exact ⟨_, rfl⟩

theorem alike_tryProviderDirect (hf : KeyChange f) (hp : state.registry.Registered p)
    (body : Value) :
    Alike state gatewayKey f (tryProviderDirect state body p)
      (tryProviderDirect (state.withKeys gatewayKey f) body (f p)) := by
  refine (alike_forwardRequestStreamToUrl hf hp _ body _).bind_done fun r => ?_
  cases r <;> exact ⟨_, rfl⟩

theorem alike_directStreaming (hf : KeyChange f)
    (hproviders : ∀ p ∈ providers, state.registry.Registered p) (body : Value) :
    Alike state gatewayKey f (handleAnthropicDirectStreaming state body providers)
      (handleAnthropicDirectStreaming (state.withKeys gatewayKey f) body (providers.map f)) :=
  alike_firstOk (fun p hp => alike_tryProviderDirect hf (hproviders p hp) body) badGateway

theorem alike_nonStreamingConversion (hf : KeyChange f)
    (hproviders : ∀ p ∈ providers, state.registry.Registered p) (anthropicValue : Value) :
    Alike state gatewayKey f (handleNonStreamingConversion state env anthropicValue providers)
      (handleNonStreamingConversion (state.withKeys gatewayKey f) env anthropicValue
        (providers.map f)) := by
  unfold handleNonStreamingConversion
  match providers with
  | [] => exact (alike_forwardRequest ..).bind_done fun reply => ⟨_, rfl⟩
  | [p] =>
    refine (alike_tryProviderNonStreaming hf (hproviders p List.mem_cons_self) _).bind_done ?_
    intro r
    cases r <;> exact ⟨_, rfl⟩
  | p :: p' :: rest =>
    refine (alike_firstOk (fun p hp => ?_) badGateway).bind_done fun r => ?_
    · exact alike_tryProviderNonStreaming hf (hproviders p hp) _
    · cases r <;> exact ⟨_, rfl⟩

theorem alike_streamingConversion (hf : KeyChange f)
    (hproviders : ∀ p ∈ providers, state.registry.Registered p) (anthropicValue : Value) :
    Alike state gatewayKey f (handleStreamingConversion state env anthropicValue providers)
      (handleStreamingConversion (state.withKeys gatewayKey f) env anthropicValue
        (providers.map f)) := by
  unfold handleStreamingConversion
  match providers with
  | [] =>
    refine (alike_forwardRequestStream ..).bind_done fun r => ?_
    cases r <;> exact ⟨_, rfl⟩
  | [p] =>
    refine (alike_tryProviderStreaming hf (hproviders p List.mem_cons_self) _).bind_done ?_
    intro r
    cases r <;> exact ⟨_, rfl⟩
  | p :: p' :: rest =>
    refine (alike_firstOk (fun p hp => ?_) badGateway).bind_done fun r => ?_
    · exact alike_tryProviderStreaming hf (hproviders p hp) _
    · cases r <;> exact ⟨_, rfl⟩

/-! ## The routes -/

/-- The providers of each model are the same, but for their keys. -/
def SameProviders (state : AppState) (env : Env) (gatewayKey : Option String)
    (f : Provider → Provider) : Prop :=
  ∀ model, (state.withKeys gatewayKey f).providersFor env model = (state.providersFor env model).map f

theorem registered_of_mem_providersFor {model : String} {provider : Provider}
    (h : provider ∈ state.providersFor env model) : state.registry.Registered provider :=
  RegistryInner.registered_of_mem_getProvidersForModel h

theorem KeyChange.filter_map (hf : KeyChange f) (keep : EndpointStyle → Bool)
    (providers : List Provider) :
    (providers.map f).filter (fun p => keep p.endpointStyle) =
      (providers.filter fun p => keep p.endpointStyle).map f := by
  rw [List.filter_map]
  congr 1
  refine List.filter_congr fun p _ => ?_
  rw [Function.comp_apply, hf.endpointStyle_eq]

theorem KeyChange.any_map (hf : KeyChange f) (providers : List Provider) :
    (providers.map f).any (·.enabled) = providers.any (·.enabled) ∧
      ∀ style, (providers.map f).any (·.endpointStyle = style) =
        providers.any (·.endpointStyle = style) := by
  have henabled : ((·.enabled) : Provider → Bool) ∘ f = (·.enabled) := by
    funext p
    obtain ⟨key, hkey⟩ := hf p
    rw [Function.comp_apply, hkey]
  refine ⟨by rw [List.any_map, henabled], fun style => ?_⟩
  rw [List.any_map]
  congr 1
  funext p
  rw [Function.comp_apply, hf.endpointStyle_eq]

section

variable (hf : KeyChange f) (hsame : SameProviders state env gatewayKey f)
include hf hsame

theorem modelKnown_withKeys (model : String) :
    modelKnown (state.withKeys gatewayKey f) env model = modelKnown state env model := by
  unfold modelKnown
  rw [hsame, (hf.any_map _).1]
  rfl

theorem checkChat_withKeys (request : Openai.ChatCompletionRequest) :
    checkChat (state.withKeys gatewayKey f) env request = checkChat state env request := by
  unfold checkChat
  rw [modelKnown_withKeys hf hsame]
  rfl

theorem checkAnthropic_withKeys (request : Anthropic.MessageRequest) :
    checkAnthropic (state.withKeys gatewayKey f) env request = checkAnthropic state env request := by
  unfold checkAnthropic
  rw [modelKnown_withKeys hf hsame]
  rfl

theorem checkChatProviders_withKeys (model : String) (providers : List Provider) :
    checkChatProviders (state.withKeys gatewayKey f) env model (providers.map f) =
      checkChatProviders state env model providers := by
  unfold checkChatProviders
  rw [hsame, (hf.any_map _).2, List.isEmpty_map]
  rfl

theorem alike_chatCompletions (request : Openai.ChatCompletionRequest) :
    Alike state gatewayKey f (chatCompletions state env request)
      (chatCompletions (state.withKeys gatewayKey f) env request) := by
  unfold chatCompletions
  dsimp only
  rw [checkChat_withKeys hf hsame, hsame, hf.filter_map (fun style => decide (style ≠ .anthropic)),
    checkChatProviders_withKeys hf hsame, AppState.withKeys_config]
  split
  · exact alike_done _
  · split
    · exact alike_done _
    · refine alike_proxyHandlerMulti hf (fun p hp => ?_) _ _ _
      exact registered_of_mem_providersFor (List.mem_of_mem_filter hp)

theorem alike_routeAnthropic (request : Anthropic.MessageRequest) :
    Alike state gatewayKey f (routeAnthropic state env request)
      (routeAnthropic (state.withKeys gatewayKey f) env request) := by
  have hanthropic : (state.withKeys gatewayKey f).anthropicProviders env request.model =
      (state.anthropicProviders env request.model).map f := by
    unfold AppState.anthropicProviders
    rw [hsame]
    exact hf.filter_map (fun style => decide (style = .anthropic)) _
  have hregistered : ∀ p ∈ state.providersFor env request.model, state.registry.Registered p :=
    fun p hp => registered_of_mem_providersFor hp
  have hstyled : ∀ p ∈ state.anthropicProviders env request.model, state.registry.Registered p :=
    fun p hp => hregistered p (List.mem_of_mem_filter hp)
  unfold routeAnthropic
  dsimp only
  rw [hanthropic, hsame, List.isEmpty_map]
  split
  · split
    · exact (alike_directStreaming hf hstyled _).bind_done fun r => ⟨_, rfl⟩
    · exact alike_proxyHandlerMulti hf hstyled _ _ _
  · split
    · exact (alike_streamingConversion hf hregistered _).bind_done fun r => ⟨_, rfl⟩
    · exact alike_nonStreamingConversion hf hregistered _

/-- **Two states.** With other keys, the same upstreams are asked in the same order. -/
theorem alike_handle (request : RouterRequest) :
    Alike state gatewayKey f (handle state env request)
      (handle (state.withKeys gatewayKey f) env request) := by
  cases request with
  | chat request => exact alike_chatCompletions hf hsame request
  | messages request =>
    unfold handle anthropicMessages
    dsimp only
    rw [checkAnthropic_withKeys hf hsame, AppState.withKeys_config]
    split
    · exact alike_done _
    · exact alike_routeAnthropic hf hsame _
  | proxy request =>
    have hresolved : resolveRequestModel (state.withKeys gatewayKey f) request =
        resolveRequestModel state request := rfl
    have hchecks : ∀ request, checkProxy (state.withKeys gatewayKey f) request =
        checkProxy state request := fun _ => rfl
    unfold handle handleProxyStream
    dsimp only
    rw [hresolved, hchecks, AppState.withKeys_config]
    split
    · exact alike_done _
    · refine (alike_forwardRequestStream ..).bind_done fun r => ?_
      cases r <;> exact ⟨_, rfl⟩

end

/-! ## The keys of a run -/

/-- The request has the key in its header. -/
def UpstreamRequest.Carries (q : UpstreamRequest) (key : String) : Prop :=
  ∃ style, q.header = some (authHeader key style)

/-- What a request may carry: the gateway's key to the gateway's base URL, and the key of a provider
to that provider. -/
inductive Credential (state : AppState) (q : UpstreamRequest) : Prop where
  | none (h : q.header = none)
  | gateway {key : String} (hkey : state.proxyClient.apiKey = some key) (h : q.Carries key)
      (hbase : q.ToGateway state.proxyClient)
  | own {p : Provider} {key : String} (hp : state.registry.Registered p)
      (hkey : p.apiKey = some key) (h : q.Carries key)
      (hurl : ∃ endpoint, q.url = buildEndpointUrl p endpoint)

namespace SameUpstream

variable {q q' : UpstreamRequest}

theorem credential (h : SameUpstream state gatewayKey f q q') : Credential state q := by
  cases h with
  | gateway endpoint body =>
    cases hkey : state.proxyClient.apiKey with
    | none => exact .none (congrArg (Option.map fun key => ("x-api-key", key)) hkey)
    | some key =>
      exact .gateway hkey ⟨.anthropic, congrArg (Option.map fun key => ("x-api-key", key)) hkey⟩ rfl
  | @provider p hp endpoint body style =>
    have hheader : ∀ {key}, state.proxyClient.keyFor p = key →
        (state.proxyClient.providerRequest (buildEndpointUrl p endpoint) body
          (state.proxyClient.keyFor p) style).header = key.map fun key => authHeader key style :=
      fun h => congrArg (Option.map fun key => authHeader key style) h
    cases hown : p.apiKey with
    | some key =>
      exact .own hp hown ⟨style, hheader (ProxyClient.keyFor_own hown)⟩ ⟨endpoint, rfl⟩
    | none =>
      by_cases hbase : trimSlashes p.baseUrl = trimSlashes state.proxyClient.baseUrl
      · have hfor := ProxyClient.keyFor_gateway hown hbase
        cases hkey : state.proxyClient.apiKey with
        | none => exact .none (hheader (hfor.trans hkey))
        | some key => exact .gateway hkey ⟨style, hheader (hfor.trans hkey)⟩ hbase
      · exact .none (hheader (ProxyClient.keyFor_other hown hbase))

theorem base_eq (h : SameUpstream state gatewayKey f q q') : q'.url.base = q.url.base := by
  cases h <;> rfl

/-- The requests are the same if no key of an upstream at their base URL is another. -/
theorem eq (h : SameUpstream state gatewayKey f q q')
    (hgateway : q.url.base = trimSlashes state.proxyClient.baseUrl →
      gatewayKey = state.proxyClient.apiKey)
    (hproviders : ∀ p, state.registry.Registered p → trimSlashes p.baseUrl = q.url.base → f p = p) :
    q' = q := by
  cases h with
  | gateway endpoint body =>
    rw [hgateway rfl]
    rfl
  | @provider p hp endpoint body style =>
    rw [hproviders p hp rfl]
    have hkey : (state.withKeys gatewayKey f).proxyClient.keyFor p = state.proxyClient.keyFor p := by
      cases hown : p.apiKey with
      | some key => rw [ProxyClient.keyFor_own hown, ProxyClient.keyFor_own hown]
      | none =>
        by_cases hbase : trimSlashes p.baseUrl = trimSlashes state.proxyClient.baseUrl
        · rw [ProxyClient.keyFor_gateway hown hbase]
          refine Eq.trans ?_ (hgateway hbase)
          exact @ProxyClient.keyFor_gateway (state.withKeys gatewayKey f).proxyClient p hown hbase
        · rw [ProxyClient.keyFor_other hown hbase]
          exact ProxyClient.keyFor_other hown hbase
    rw [hkey]
    rfl

end SameUpstream

/-- What is asked in a run. -/
def sent (state : AppState) (env : Env) (request : RouterRequest) (replies : Nat → Reply) :
    List UpstreamRequest :=
  (handle state env request).trace replies

/-- The requests to a base URL. -/
def requestsTo (base : String) (qs : List UpstreamRequest) : List UpstreamRequest :=
  qs.filter (·.url.base == base)

theorem requestsTo_congr {base : String} {qs qs' : List UpstreamRequest}
    (h : List.Forall₂ (SameUpstream state gatewayKey f) qs qs')
    (heq : ∀ q q', SameUpstream state gatewayKey f q q' → q.url.base = base → q' = q) :
    requestsTo base qs' = requestsTo base qs := by
  unfold requestsTo
  induction h with
  | nil => rfl
  | @cons q q' _ _ hq _ ih =>
    rw [List.filter_cons, List.filter_cons, hq.base_eq, ih]
    split
    · rename_i hbase
      rw [heq q q' hq (beq_iff_eq.mp hbase)]
    · rfl

theorem keyChange_id : KeyChange id := fun p => ⟨p.apiKey, rfl⟩

theorem keyChange_setKey (name : String) (key : Option String) :
    KeyChange (AppState.setKey name key) := by
  intro p
  unfold AppState.setKey
  split
  · exact ⟨key, rfl⟩
  · exact ⟨p.apiKey, rfl⟩

theorem withKeys_id : state.withKeys gatewayKey id = state.withGatewayKey gatewayKey := by
  unfold AppState.withKeys AppState.withGatewayKey RegistryInner.mapProviders
  rw [HashMap.mapValues_id]

theorem sameProviders_id : SameProviders state env gatewayKey id := by
  intro model
  rw [withKeys_id, List.map_id]
  rfl

theorem sameProviders_of_ignoresValues (hf : KeyChange f)
    (horder : env.providerOrder.IgnoresValues) : SameProviders state env gatewayKey f :=
  fun model => RegistryInner.getProvidersForModel_mapProviders hf horder model

/-- **The keys.** Every key of a run is from where the request goes to. A run with another key of the
gateway, or of a provider, has the same requests to every base URL that is not the gateway's, or not
that of the provider. -/
theorem credentials_stay (horder : env.providerOrder.IgnoresValues) (request : RouterRequest)
    (replies : Nat → Reply) :
    (∀ q ∈ sent state env request replies, Credential state q) ∧
    (∀ key base, base ≠ trimSlashes state.proxyClient.baseUrl →
      requestsTo base (sent (state.withGatewayKey key) env request replies) =
        requestsTo base (sent state env request replies)) ∧
    (∀ name key base,
      (∀ p, state.registry.Registered p → p.name = name → trimSlashes p.baseUrl ≠ base) →
      requestsTo base (sent (state.withProviderKey name key) env request replies) =
        requestsTo base (sent state env request replies)) := by
  have hgateway : ∀ key, List.Forall₂ (SameUpstream state key id) (sent state env request replies)
      (sent (state.withGatewayKey key) env request replies) := by
    intro key
    rw [← withKeys_id]
    exact (alike_handle keyChange_id sameProviders_id request).trace replies
  refine ⟨fun q hq => ?_, fun key base hbase => ?_, fun name key base hbase => ?_⟩
  · obtain ⟨i, hi, rfl⟩ := List.getElem_of_mem hq
    have hlen := (hgateway none).length_eq
    exact ((hgateway none).get hi (hlen ▸ hi)).credential
  · refine requestsTo_congr (hgateway key) fun q q' h hq => h.eq (fun hbase' => ?_) fun p _ _ => rfl
    exact absurd (hq.symm.trans hbase') hbase
  · have hchange := keyChange_setKey name key
    have h : List.Forall₂ (SameUpstream state state.proxyClient.apiKey (AppState.setKey name key))
        (sent state env request replies)
        (sent (state.withProviderKey name key) env request replies) :=
      (alike_handle hchange (sameProviders_of_ignoresValues hchange horder) request).trace replies
    refine requestsTo_congr h fun q q' h hq => h.eq (fun _ => rfl) fun p hp hbase' => ?_
    exact if_neg fun hname => hbase p hp hname (hbase'.trans hq)

end

/-- The gateway and the other vendor with a key each. -/
def keyedState : AppState where
  config := otherVendorState.config
  proxyClient := { otherVendorState.proxyClient with apiKey := some "gateway-key" }
  registry := .new [{ otherVendor with apiKey := some "vendor-key" }]
  discoveredModels := []

theorem credentials_stay_keyedState :
    (∀ q ∈ sent keyedState plainEnv streamedRequest fun _ => .error (), Credential keyedState q) ∧
    (∀ key base, base ≠ trimSlashes keyedState.proxyClient.baseUrl →
      requestsTo base
          (sent (keyedState.withGatewayKey key) plainEnv streamedRequest fun _ => .error ()) =
        requestsTo base (sent keyedState plainEnv streamedRequest fun _ => .error ())) ∧
    (∀ name key base,
      (∀ p, keyedState.registry.Registered p → p.name = name → trimSlashes p.baseUrl ≠ base) →
      requestsTo base
          (sent (keyedState.withProviderKey name key) plainEnv streamedRequest fun _ => .error ()) =
        requestsTo base (sent keyedState plainEnv streamedRequest fun _ => .error ())) :=
  credentials_stay IterOrder.entries_ignoresValues streamedRequest _

example : (sent keyedState plainEnv streamedRequest fun _ => .error ()).map
    (fun q => (q.url.base, q.header)) =
      [("https://other.example", some ("x-api-key", "vendor-key"))] := by decide +kernel

end ApertureRouter
