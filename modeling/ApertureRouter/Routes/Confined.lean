import ApertureRouter.Routes.Credentials

/-!
# What a handler may ask

Every upstream request of a handler goes to the gateway or to a provider that the handler was given, with
the key that is for it (`Confined`). A provider that discovery has added is at the gateway's URL and has no
key, so what is sent to it is a request to the gateway (`Placed`).

* `confined_proxyHandlerMulti`, `confined_nonStreamingConversion`, `confined_streamingConversion`,
  `confined_directStreaming`, `confined_handleProxyStream`: the ways to the upstreams.
-/

namespace ApertureRouter

/-- The request goes to the gateway with no key but the gateway's, or to one of these providers with no key
but its own. -/
inductive Confined (client : ProxyClient) (among : Provider → Prop) (q : UpstreamRequest) : Prop where
  | gateway (hurl : q.ToGateway client)
      (hkey : q.header = none ∨ ∃ key, client.apiKey = some key ∧ q.Carries key)
  | provider {p : Provider} (hp : among p) (hurl : ∃ endpoint, q.url = buildEndpointUrl p endpoint)
      (hkey : q.header = none ∨ ∃ key, p.apiKey = some key ∧ q.Carries key)

/-- The provider is one of these, or is at the gateway's URL and has no key of its own. -/
def Placed (client : ProxyClient) (among : Provider → Prop) (p : Provider) : Prop :=
  among p ∨ trimSlashes p.baseUrl = trimSlashes client.baseUrl ∧ p.apiKey = none

section

variable {client : ProxyClient} {among : Provider → Prop} {p : Provider}

/-- The key that belongs to a request, if there is one. -/
theorem header_cases {key : Option String} {q : UpstreamRequest} (style : EndpointStyle)
    (h : q.header = key.map fun key => authHeader key style) :
    q.header = none ∨ ∃ k, key = some k ∧ q.Carries k := by
  cases key with
  | none => exact .inl h
  | some k => exact .inr ⟨k, rfl, style, h⟩

theorem confined_gatewayRequest (endpoint : String) (body : Value) :
    Confined client among (client.gatewayRequest endpoint body) :=
  .gateway rfl (header_cases .anthropic rfl)

theorem confined_providerRequest (hp : Placed client among p) (endpoint : String) (body : Value)
    (style : EndpointStyle) :
    Confined client among
      (client.providerRequest (buildEndpointUrl p endpoint) body (client.keyFor p) style) := by
  cases hown : p.apiKey with
  | some key =>
    rcases hp with hp | ⟨-, hnone⟩
    · exact .provider hp ⟨endpoint, rfl⟩
        (.inr ⟨key, hown, style, by rw [ProxyClient.keyFor_own hown]; rfl⟩)
    · rw [hown] at hnone
      cases hnone
  | none =>
    by_cases hbase : trimSlashes p.baseUrl = trimSlashes client.baseUrl
    · rw [ProxyClient.keyFor_gateway hown hbase]
      exact .gateway hbase (header_cases style rfl)
    · rcases hp with hp | ⟨hgateway, -⟩
      · exact .provider hp ⟨endpoint, rfl⟩ (.inl (by rw [ProxyClient.keyFor_other hown hbase]; rfl))
      · exact absurd hgateway hbase

/-! ## One request -/

/-- Whatever the replies are, all that is asked is confined. -/
abbrev ConfinedCalls {α : Type} (client : ProxyClient) (among : Provider → Prop) (d : Calls α) : Prop :=
  d.Asks (Confined client among)

theorem confined_send {q : UpstreamRequest} (h : Confined client among q) :
    ConfinedCalls client among (send q) := ⟨h, fun _ => trivial⟩

theorem confined_forwardRequest (endpoint : String) (body : Value) :
    ConfinedCalls client among (client.forwardRequest endpoint body) :=
  (Dialog.asks_bind_done fun _ => ⟨_, rfl⟩).mpr (confined_send (confined_gatewayRequest endpoint body))

theorem confined_forwardRequestStream (endpoint : String) (body : Value) :
    ConfinedCalls client among (client.forwardRequestStream endpoint body) := by
  refine (Dialog.asks_bind_done fun reply => ?_).mpr
    (confined_send (confined_gatewayRequest endpoint body))
  cases reply <;> exact ⟨_, rfl⟩

theorem confined_forwardRequestToUrlRaw (hp : Placed client among p) (endpoint : String) (body : Value)
    (style : EndpointStyle) :
    ConfinedCalls client among
      (client.forwardRequestToUrlRaw (buildEndpointUrl p endpoint) body (client.keyFor p) style) :=
  confined_send (confined_providerRequest hp endpoint body style)

theorem confined_forwardRequestStreamToUrl (hp : Placed client among p) (endpoint : String)
    (body : Value) (style : EndpointStyle) :
    ConfinedCalls client among
      (client.forwardRequestStreamToUrl (buildEndpointUrl p endpoint) body (client.keyFor p) style) := by
  refine (Dialog.asks_bind_done fun reply => ?_).mpr
    (confined_send (confined_providerRequest hp endpoint body style))
  cases successOnly reply <;> exact ⟨_, rfl⟩

/-! ## The ways to the upstreams -/

/-- Failover over the first providers. -/
theorem confined_failover {α : Type} {try_ : Provider → Calls (Except Nat α)} {providers : List Provider}
    (h : ∀ p ∈ providers, ConfinedCalls client among (try_ p)) :
    ConfinedCalls client among
      (Dialog.firstOk try_ badGateway (providers.take maxFailoverAttempts)) :=
  .firstOk (fun p hp => h p (List.mem_of_mem_take hp)) badGateway

theorem confined_proxyToDefaultGateway (body : Value) (endpoint : String) :
    ConfinedCalls client among (proxyToDefaultGateway client body endpoint) := by
  refine (Dialog.asks_bind_done fun reply => ?_).mpr (confined_forwardRequest endpoint body)
  cases reply <;> exact ⟨_, rfl⟩

theorem confined_tryProvider (hp : Placed client among p) (body : Value) (endpoint : String) :
    ConfinedCalls client among (tryProvider client body endpoint p) := by
  refine (Dialog.asks_bind_done fun reply => ?_).mpr
    (confined_forwardRequestToUrlRaw hp endpoint body p.endpointStyle)
  cases reply with
  | error e => exact ⟨_, rfl⟩
  | ok response =>
    dsimp only
    split <;> exact ⟨_, rfl⟩

variable {providers : List Provider}

theorem confined_proxyHandlerMulti (hproviders : ∀ p ∈ providers, Placed client among p) (body : Value)
    (endpoint : String) (multi : Bool) :
    ConfinedCalls client among (proxyHandlerMulti client providers body endpoint multi) := by
  unfold proxyHandlerMulti
  split
  · exact confined_proxyToDefaultGateway body endpoint
  · match providers with
    | [] => exact confined_proxyToDefaultGateway body endpoint
    | [p] =>
      refine (Dialog.asks_bind_done fun r => ?_).mpr
        (confined_tryProvider (hproviders p List.mem_cons_self) body endpoint)
      cases r <;> exact ⟨_, rfl⟩
    | p :: p' :: rest =>
      refine (Dialog.asks_bind_done fun r => ?_).mpr
        (confined_failover fun p hp => confined_tryProvider (hproviders p hp) body endpoint)
      cases r <;> exact ⟨_, rfl⟩

end

section

variable {state : AppState} {env : Env} {among : Provider → Prop} {p : Provider}
  {providers : List Provider}

theorem confined_tryProviderNonStreaming (hp : Placed state.proxyClient among p) (openaiBody : Value) :
    ConfinedCalls state.proxyClient among (tryProviderNonStreaming state env openaiBody p) :=
  (Dialog.asks_bind_done fun _ => ⟨_, rfl⟩).mpr
    (confined_forwardRequestToUrlRaw hp _ openaiBody p.endpointStyle)

theorem confined_nonStreamingConversion (hproviders : ∀ p ∈ providers, Placed state.proxyClient among p)
    (anthropicValue : Value) :
    ConfinedCalls state.proxyClient among
      (handleNonStreamingConversion state env anthropicValue providers) := by
  unfold handleNonStreamingConversion
  match providers with
  | [] => exact (Dialog.asks_bind_done fun _ => ⟨_, rfl⟩).mpr (confined_forwardRequest _ _)
  | [p] =>
    refine (Dialog.asks_bind_done fun r => ?_).mpr
      (confined_tryProviderNonStreaming (hproviders p List.mem_cons_self) _)
    cases r <;> exact ⟨_, rfl⟩
  | p :: p' :: rest =>
    refine (Dialog.asks_bind_done fun r => ?_).mpr
      (confined_failover fun p hp => confined_tryProviderNonStreaming (hproviders p hp) _)
    cases r <;> exact ⟨_, rfl⟩

theorem confined_tryProviderStreaming (hp : Placed state.proxyClient among p) (openaiBody : Value) :
    ConfinedCalls state.proxyClient among (tryProviderStreaming state openaiBody p) := by
  refine (Dialog.asks_bind_done fun r => ?_).mpr
    (confined_forwardRequestStreamToUrl hp _ openaiBody p.endpointStyle)
  cases r <;> exact ⟨_, rfl⟩

theorem confined_streamingConversion (hproviders : ∀ p ∈ providers, Placed state.proxyClient among p)
    (anthropicValue : Value) :
    ConfinedCalls state.proxyClient among
      (handleStreamingConversion state env anthropicValue providers) := by
  unfold handleStreamingConversion
  match providers with
  | [] =>
    refine (Dialog.asks_bind_done fun r => ?_).mpr (confined_forwardRequestStream _ _)
    cases r <;> exact ⟨_, rfl⟩
  | [p] =>
    refine (Dialog.asks_bind_done fun r => ?_).mpr
      (confined_tryProviderStreaming (hproviders p List.mem_cons_self) _)
    cases r <;> exact ⟨_, rfl⟩
  | p :: p' :: rest =>
    refine (Dialog.asks_bind_done fun r => ?_).mpr
      (confined_failover fun p hp => confined_tryProviderStreaming (hproviders p hp) _)
    cases r <;> exact ⟨_, rfl⟩

theorem confined_tryProviderDirect (hp : Placed state.proxyClient among p) (body : Value) :
    ConfinedCalls state.proxyClient among (tryProviderDirect state body p) := by
  refine (Dialog.asks_bind_done fun r => ?_).mpr
    (confined_forwardRequestStreamToUrl hp _ body .anthropic)
  cases r <;> exact ⟨_, rfl⟩

theorem confined_directStreaming (hproviders : ∀ p ∈ providers, Placed state.proxyClient among p)
    (body : Value) :
    ConfinedCalls state.proxyClient among (handleAnthropicDirectStreaming state body providers) :=
  confined_failover fun p hp => confined_tryProviderDirect (hproviders p hp) body

theorem confined_handleProxyStream (request : Value) :
    ConfinedCalls state.proxyClient among (handleProxyStream state env request) := by
  unfold handleProxyStream
  dsimp only
  split
  · trivial
  · refine (Dialog.asks_bind_done fun r => ?_).mpr (confined_forwardRequestStream _ _)
    cases r <;> exact ⟨_, rfl⟩

end

end ApertureRouter
