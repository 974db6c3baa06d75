import ApertureRouter.Routes.Isolation

/-!
# Failover

Four loops try the providers of a model one after the other, each with a case of its own for a single
provider, and with its own idea of a failure.

* `FailoverPolicy`: what a path asks a provider, what it makes of the reply, and what it answers when
  nothing is left to try. `FailoverPolicy.Follows`: a path contacts a shortest prefix of its
  providers, and answers with the first reply that is final.
* `proxyPolicy`, `conversionPolicy`, `streamingPolicy`, `directPolicy`: the policies of the paths, and
  which replies are failures (`ServerFailure`, `ConversionFailure`, `StreamFailure`).
* `failover_prefix`: each path follows its policy.
-/

namespace ApertureRouter

/-! ## Policies -/

/-- What the client has of a reply: a request whose URL is not admitted has failed. -/
def UpstreamRequest.received (q : UpstreamRequest) (reply : Reply) : Reply :=
  if q.admitted then reply else .error ()

/-- What a path does with its providers. -/
structure FailoverPolicy (α : Type) where
  /-- The request to a provider. -/
  request : Provider → UpstreamRequest
  /-- The answer, if the reply is final, or the status of the failure. -/
  outcome : Reply → Except Nat α
  /-- The answer when no reply was final, with the status of the last failure. -/
  giveUp : Nat → α

namespace FailoverPolicy

variable {α : Type}

/-- What the policy makes of the reply to a provider. -/
def outcomeOf (policy : FailoverPolicy α) (p : Provider) (reply : Reply) : Except Nat α :=
  policy.outcome ((policy.request p).received reply)

/-- With the `i`-th reply for the `i`-th provider, the path contacts the first `count` of them. All but
the last one fail. The answer is that of the last one if it is final, or else no provider that may be
tried is left. -/
structure FollowsUpTo (policy : FailoverPolicy α) (providers : List Provider) (d : Calls α)
    (replies : Nat → Reply) (count : Nat) : Prop where
  count_le : count ≤ min maxFailoverAttempts providers.length
  contacted : d.trace replies = (providers.take count).map policy.request
  failed : ∀ i p, i + 1 < count → providers[i]? = some p →
    ∃ status, policy.outcomeOf p (replies i) = .error status
  answer : ∃ p, 0 < count ∧ providers[count - 1]? = some p ∧
    ((∃ a, policy.outcomeOf p (replies (count - 1)) = .ok a ∧ d.run replies = a) ∨
      count = min maxFailoverAttempts providers.length ∧
        ∃ status, policy.outcomeOf p (replies (count - 1)) = .error status ∧
          d.run replies = policy.giveUp status)

/-- Whatever the replies are, the path contacts a shortest prefix. -/
def Follows (policy : FailoverPolicy α) (providers : List Provider) (d : Calls α) : Prop :=
  ∀ replies, ∃ count, policy.FollowsUpTo providers d replies count

section

variable {β : Type} {policy : FailoverPolicy α} {providers : List Provider}
  {outcome : Reply → Except Nat β} {answer : β → α} {replies : Nat → Reply}

variable (policy providers outcome replies) in
/-- What the tries make of the replies, with `outcome` in the place of the policy's own. -/
def met : List (Except Nat β) :=
  Dialog.outcomes (fun p reply => outcome ((policy.request p).received reply)) replies
    (providers.take maxFailoverAttempts)

theorem length_met : (policy.met providers outcome replies).length =
    min maxFailoverAttempts providers.length := by
  rw [met, Dialog.length_outcomes, List.length_take]

/-- What is met at a place is what the policy makes of the reply there. -/
theorem outcomeOf_of_met (houtcome : ∀ reply, policy.outcome reply = (outcome reply).map answer)
    {i : Nat} {o : Except Nat β} (h : (policy.met providers outcome replies)[i]? = some o) :
    ∃ p, providers[i]? = some p ∧ policy.outcomeOf p (replies i) = o.map answer := by
  rw [met, Dialog.getElem?_outcomes, Option.map_eq_some_iff] at h
  obtain ⟨p, hp, rfl⟩ := h
  rw [List.getElem?_take] at hp
  split at hp
  · exact ⟨p, hp, houtcome _⟩
  · cases hp

/-- A search that stops at the first success is a run of the policy. -/
theorem followsUpTo_of_stopsAtFirst
    (houtcome : ∀ reply, policy.outcome reply = (outcome reply).map answer)
    (hne : providers ≠ []) {d : Calls α} {count : Nat} {result : Except Nat β}
    (htrace : d.trace replies = (providers.take count).map policy.request)
    (hrun : d.run replies = match result with
      | .ok b => answer b
      | .error status => policy.giveUp status)
    (hstops : Dialog.StopsAtFirst (policy.met providers outcome replies) badGateway count result) :
    policy.FollowsUpTo providers d replies count where
  count_le := hstops.count_le.trans_eq length_met
  contacted := htrace
  failed i p hi hp := by
    obtain ⟨status, hstatus⟩ := hstops.failed i hi
    obtain ⟨p', hp', hout⟩ := outcomeOf_of_met houtcome hstatus
    rw [hp] at hp'
    cases hp'
    exact ⟨status, hout⟩
  answer := by
    rcases hstops.result with ⟨b, rfl, hpos, hlast⟩ | ⟨hall, status, rfl, hlast⟩
    · obtain ⟨p, hp, hout⟩ := outcomeOf_of_met houtcome hlast
      exact ⟨p, hpos, hp, .inl ⟨answer b, hout, hrun⟩⟩
    · have hpos : 0 < count := by
        have hlength := List.length_pos_iff.mpr hne
        have hthree : maxFailoverAttempts = 3 := rfl
        rw [hall, length_met]
        omega
      rw [List.getLast?_eq_getElem?, ← hall, List.getElem?_eq_getElem (by omega),
        Option.getD_some] at hlast
      have hmet := List.getElem?_eq_some_iff.mpr ⟨_, hlast⟩
      obtain ⟨p, hp, hout⟩ := outcomeOf_of_met houtcome hmet
      exact ⟨p, hpos, hp, .inr ⟨hall.trans length_met, status, hout, hrun⟩⟩

/-- A search over the providers, and what is made of its result. -/
theorem follows_of_firstOk {try_ : Provider → Calls (Except Nat β)} (answer : β → α) {d : Calls α}
    (hne : providers ≠ [])
    (htry : ∀ p, try_ p = Dialog.once (policy.request p) fun reply =>
      outcome ((policy.request p).received reply))
    (houtcome : ∀ reply, policy.outcome reply = (outcome reply).map answer)
    (hd : d = Dialog.firstOk try_ badGateway (providers.take maxFailoverAttempts) >>= fun
      | .ok b => .done (answer b)
      | .error status => .done (policy.giveUp status)) : policy.Follows providers d := by
  intro replies
  obtain ⟨count, htrace, hstops⟩ := Dialog.firstOk_stopsAtFirst
    (fun p (_ : p ∈ providers.take maxFailoverAttempts) => htry p) badGateway replies
  have hfinish : ∀ r : Except Nat β, (match r with
      | .ok b => (.done (answer b) : Calls α)
      | .error status => .done (policy.giveUp status)) =
      .done (match r with
        | .ok b => answer b
        | .error status => policy.giveUp status) := by
    intro r
    cases r <;> rfl
  have hcount : count ≤ min maxFailoverAttempts providers.length :=
    hstops.count_le.trans_eq length_met
  refine ⟨count, followsUpTo_of_stopsAtFirst houtcome hne ?_ ?_ hstops⟩
  · rw [hd, Dialog.trace_bind_done hfinish, htrace, List.take_take, Nat.min_eq_left (by omega)]
  · rw [hd]
    exact Dialog.run_bind_done hfinish replies

end

end FailoverPolicy

/-! ## The paths -/

/-- The failures of `proxy_handler_multi`: no reply, or a server error. -/
def ServerFailure : Reply → Prop
  | .error _ => True
  | .ok response => isServerError response.status = true

/-- The failures of the converted path: also a success with a body that cannot be read or parsed. -/
def ConversionFailure (env : Env) : Reply → Prop
  | .error _ => True
  | .ok response => isServerError response.status = true ∨
    isSuccess response.status = true ∧ ∀ body,
      response.body.readCapped maxNonStreamingResponseBytes = some body →
        env.serde.fromStr body = none

/-- The failures of the streaming paths: anything but a stream. -/
def StreamFailure : Reply → Prop
  | .error _ => True
  | .ok response => isSuccess response.status = false

section

variable (state : AppState) (env : Env)

/-- The request of a path to a provider. -/
def failoverRequest (endpoint : String) (body : Value) (p : Provider) : UpstreamRequest :=
  state.proxyClient.providerRequest (buildEndpointUrl p endpoint) body (state.proxyClient.keyFor p)
    p.endpointStyle

/-- `proxy_handler_multi` for `n` providers. -/
def proxyPolicy (body : Value) (endpoint : String) (n : Nat) : FailoverPolicy RouterResponse where
  request := failoverRequest state endpoint body
  outcome
    | .ok response =>
      if isServerError response.status then .error response.status
      else .ok (processUpstreamResponse response)
    | .error _ => .error badGateway
  giveUp status :=
    if n = 1 then jsonError badGateway "Failed to forward request"
    else jsonError status "All providers failed"

/-- `handle_non_streaming_conversion` for `n` providers. -/
def conversionPolicy (anthropicValue : Value) (n : Nat) : FailoverPolicy RouterResponse where
  request := failoverRequest state "v1/chat/completions"
    (anthropicRequestToOpenai env.serde anthropicValue)
  outcome := convertProviderReply env
  giveUp status :=
    if n = 1 then anthropicServerError badGateway "Failed to forward request"
    else anthropicServerError status "All providers failed"

/-- What a streaming path makes of a reply. -/
def streamOutcome {α : Type} (answer : List (Except String (List Char)) → α) : Reply → Except Nat α
  | .ok response =>
    if isSuccess response.status then .ok (answer response.chunks) else .error badGateway
  | .error _ => .error badGateway

/-- What `handle_streaming_conversion` answers with a stream. -/
def streamingAnswer (anthropicValue : Value) (chunks : List (Except String (List Char))) :
    Except Nat RouterResponse :=
  .ok (.converted (buildAnthropicSse env.slotOrder env.serde env.uuid
    ((anthropicValue.get "model" >>= Value.asStr).getD "unknown") chunks))

/-- What `handle_anthropic_direct_streaming` answers with a stream. -/
def directAnswer (chunks : List (Except String (List Char))) : Except Nat RouterResponse :=
  .ok (.events (anthropicDirectEvents chunks))

/-- `handle_streaming_conversion`. -/
def streamingPolicy (anthropicValue : Value) : FailoverPolicy (Except Nat RouterResponse) where
  request := failoverRequest state "v1/chat/completions"
    ((anthropicRequestToOpenai env.serde anthropicValue).set "stream" (.bool true))
  outcome := streamOutcome (streamingAnswer env anthropicValue)
  giveUp status := .error status

/-- `handle_anthropic_direct_streaming`. The requests have the header of Anthropic. -/
def directPolicy (body : Value) : FailoverPolicy (Except Nat RouterResponse) where
  request p := state.proxyClient.providerRequest (buildEndpointUrl p "v1/messages") body
    (state.proxyClient.keyFor p) .anthropic
  outcome := streamOutcome directAnswer
  giveUp status := .error status

variable {state env}

theorem proxyPolicy_failure {body : Value} {endpoint : String} {n : Nat} {reply : Reply} :
    (∃ status, (proxyPolicy state body endpoint n).outcome reply = .error status) ↔
      ServerFailure reply := by
  cases reply with
  | error e => exact iff_of_true ⟨_, rfl⟩ trivial
  | ok response => cases h : isServerError response.status <;> simp [proxyPolicy, ServerFailure, h]

theorem conversionPolicy_failure {anthropicValue : Value} {n : Nat} {reply : Reply} :
    (∃ status, (conversionPolicy state env anthropicValue n).outcome reply = .error status) ↔
      ConversionFailure env reply := by
  cases reply with
  | error e => exact iff_of_true ⟨_, rfl⟩ trivial
  | ok response =>
    cases hserver : isServerError response.status with
    | true => simp [conversionPolicy, convertProviderReply, ConversionFailure, hserver]
    | false =>
      cases hsuccess : isSuccess response.status with
      | false => simp [conversionPolicy, convertProviderReply, ConversionFailure, hserver, hsuccess]
      | true =>
        cases hbody : response.body.readCapped maxNonStreamingResponseBytes with
        | none => simp [conversionPolicy, convertProviderReply, ConversionFailure, hserver, hsuccess, hbody]
        | some body =>
          cases hparsed : env.serde.fromStr body <;>
            simp [conversionPolicy, convertProviderReply, ConversionFailure, hserver, hsuccess, hbody,
              hparsed]

/-- A stream that failed has status 502. -/
theorem streamOutcome_error {α : Type} {answer : List (Except String (List Char)) → α}
    {reply : Reply} {status : Nat} :
    streamOutcome answer reply = .error status ↔ status = badGateway ∧ StreamFailure reply := by
  cases reply with
  | error e => simp [streamOutcome, StreamFailure, eq_comm]
  | ok response =>
    cases h : isSuccess response.status <;> simp [streamOutcome, StreamFailure, h, eq_comm]

/-! ## One provider -/

theorem tryProvider_once (body : Value) (endpoint : String) (n : Nat) (p : Provider) :
    tryProvider state.proxyClient body endpoint p =
      Dialog.once (failoverRequest state endpoint body p) fun reply =>
        (proxyPolicy state body endpoint n).outcome
          ((failoverRequest state endpoint body p).received reply) := by
  have hmade : ∀ reply : Reply, (match reply with
      | .ok response =>
        if isServerError response.status then
          (pure (.error response.status) : Calls (Except Nat RouterResponse))
        else pure (.ok (processUpstreamResponse response))
      | .error _ => pure (.error badGateway)) =
      .done ((proxyPolicy state body endpoint n).outcome reply) := by
    rintro (e | response)
    · rfl
    · cases h : isServerError response.status <;> simp [proxyPolicy, h]
  exact congrArg (Dialog.ask _) (funext fun reply => hmade _)

theorem tryProviderNonStreaming_once (openaiBody : Value) (p : Provider) :
    tryProviderNonStreaming state env openaiBody p =
      Dialog.once (failoverRequest state "v1/chat/completions" openaiBody p) fun reply =>
        convertProviderReply env
          ((failoverRequest state "v1/chat/completions" openaiBody p).received reply) := rfl

theorem forwardRequestStreamToUrl_once {α : Type} (client : ProxyClient) (url : EndpointUrl)
    (body : Value) (key : Option String) (style : EndpointStyle)
    (answer : List (Except String (List Char)) → α) :
    (client.forwardRequestStreamToUrl url body key style >>= fun
      | .ok stream => Dialog.done (Except.ok (answer stream))
      | .error _ => .done (.error badGateway)) =
      Dialog.once (client.providerRequest url body key style) fun reply =>
        streamOutcome answer ((client.providerRequest url body key style).received reply) := by
  have hmade : ∀ reply : Reply, ((match successOnly reply with
      | .ok response => (pure (.ok response.chunks) : Calls (Except Unit _))
      | .error e => pure (.error e)) >>= fun
      | .ok stream => (.done (.ok (answer stream)) : Calls (Except Nat α))
      | .error _ => .done (.error badGateway)) = .done (streamOutcome answer reply) := by
    rintro (e | response)
    · rfl
    · cases h : isSuccess response.status <;> simp [successOnly, streamOutcome, h]
  exact congrArg (Dialog.ask _) (funext fun reply => hmade _)

theorem tryProviderStreaming_once (openaiBody : Value) (p : Provider) :
    tryProviderStreaming state openaiBody p =
      Dialog.once (failoverRequest state "v1/chat/completions" openaiBody p) fun reply =>
        streamOutcome id
          ((failoverRequest state "v1/chat/completions" openaiBody p).received reply) :=
  forwardRequestStreamToUrl_once ..

theorem tryProviderDirect_once (body : Value) (p : Provider) :
    tryProviderDirect state body p =
      Dialog.once ((directPolicy state body).request p) fun reply =>
        streamOutcome (fun chunks => RouterResponse.events (anthropicDirectEvents chunks))
          (((directPolicy state body).request p).received reply) :=
  forwardRequestStreamToUrl_once ..

/-! ## The paths follow their policies -/

/-- A single try is a search in a list of one. -/
theorem firstOk_singleton {β : Type} {try_ : Provider → Calls (Except Nat β)}
    {q : Provider → UpstreamRequest} {f : Provider → Reply → Except Nat β}
    (h : ∀ p, try_ p = Dialog.once (q p) (f p)) (p : Provider) :
    Dialog.firstOk try_ badGateway ([p].take maxFailoverAttempts) = try_ p := by
  have hone : [p].take maxFailoverAttempts = [p] := rfl
  rw [hone, Dialog.firstOk, h p, Dialog.once, Dialog.ask_bind]
  refine congrArg (Dialog.ask _) (funext fun reply => ?_)
  rw [Dialog.done_bind]
  cases f p reply <;> rfl

theorem proxyHandlerMulti_follows (body : Value) (endpoint : String) {providers : List Provider}
    (hne : providers ≠ []) :
    (proxyPolicy state body endpoint providers.length).Follows providers
      (proxyHandlerMulti state.proxyClient providers body endpoint true) := by
  have htry := @tryProvider_once state body endpoint providers.length
  refine FailoverPolicy.follows_of_firstOk id hne htry (fun reply => ?_) ?_
  · cases (proxyPolicy state body endpoint providers.length).outcome reply <;> rfl
  · match providers with
    | [] => exact absurd rfl hne
    | [p] =>
      rw [firstOk_singleton htry]
      exact congrArg (Dialog.bind _) (funext fun r => by cases r <;> rfl)
    | p :: q :: rest =>
      exact congrArg (Dialog.bind _) (funext fun r => by cases r <;> rfl)

theorem nonStreamingConversion_follows (anthropicValue : Value) {providers : List Provider}
    (hne : providers ≠ []) :
    (conversionPolicy state env anthropicValue providers.length).Follows providers
      (handleNonStreamingConversion state env anthropicValue providers) := by
  have htry := @tryProviderNonStreaming_once state env
    (anthropicRequestToOpenai env.serde anthropicValue)
  refine FailoverPolicy.follows_of_firstOk id hne htry (fun reply => ?_) ?_
  · show convertProviderReply env reply = _
    cases convertProviderReply env reply <;> rfl
  · match providers with
    | [] => exact absurd rfl hne
    | [p] =>
      rw [firstOk_singleton htry]
      exact congrArg (Dialog.bind _) (funext fun r => by cases r <;> rfl)
    | p :: q :: rest =>
      exact congrArg (Dialog.bind _) (funext fun r => by cases r <;> rfl)

/-- The streams of the providers, and the answers that are made of them. -/
theorem streamOutcome_map {α β : Type} (f : List (Except String (List Char)) → α) (g : α → β)
    (reply : Reply) : streamOutcome (fun chunks => g (f chunks)) reply =
      (streamOutcome f reply).map g := by
  cases reply with
  | error e => rfl
  | ok response => cases h : isSuccess response.status <;> simp [streamOutcome, h, Except.map]

theorem streamingConversion_follows (anthropicValue : Value) {providers : List Provider}
    (hne : providers ≠ []) :
    (streamingPolicy state env anthropicValue).Follows providers
      (handleStreamingConversion state env anthropicValue providers) := by
  have htry := @tryProviderStreaming_once state
    ((anthropicRequestToOpenai env.serde anthropicValue).set "stream" (.bool true))
  refine FailoverPolicy.follows_of_firstOk _ hne htry
    (streamOutcome_map id (streamingAnswer env anthropicValue)) ?_
  match providers with
  | [] => exact absurd rfl hne
  | [p] =>
    rw [firstOk_singleton htry]
    exact congrArg (Dialog.bind _) (funext fun r => by cases r <;> rfl)
  | p :: q :: rest =>
    exact congrArg (Dialog.bind _) (funext fun r => by cases r <;> rfl)

theorem directStreaming_follows (body : Value) {providers : List Provider} (hne : providers ≠ []) :
    (directPolicy state body).Follows providers
      (handleAnthropicDirectStreaming state body providers) := by
  have houtcome : ∀ reply, (directPolicy state body).outcome reply =
      (streamOutcome (fun chunks => RouterResponse.events (anthropicDirectEvents chunks)) reply).map
        Except.ok :=
    streamOutcome_map (fun chunks => RouterResponse.events (anthropicDirectEvents chunks)) Except.ok
  refine FailoverPolicy.follows_of_firstOk _ hne (tryProviderDirect_once body) houtcome ?_
  unfold handleAnthropicDirectStreaming
  generalize Dialog.firstOk (tryProviderDirect state body) badGateway
    (providers.take maxFailoverAttempts) = d
  induction d with
  | done r => cases r <;> rfl
  | ask q k ih => exact congrArg (Dialog.ask q) (funext ih)

variable (state env) in
/-- **Failover.** Each path contacts a shortest prefix of its providers, three at most, and answers with
the first final reply. What it makes of a reply is a failure exactly if the reply is one of its kind. -/
theorem failover_prefix (body anthropicValue : Value) (endpoint : String)
    {providers : List Provider} (hne : providers ≠ []) :
    ((proxyPolicy state body endpoint providers.length).Follows providers
        (proxyHandlerMulti state.proxyClient providers body endpoint true) ∧
      (conversionPolicy state env anthropicValue providers.length).Follows providers
        (handleNonStreamingConversion state env anthropicValue providers) ∧
      (streamingPolicy state env anthropicValue).Follows providers
        (handleStreamingConversion state env anthropicValue providers) ∧
      (directPolicy state body).Follows providers
        (handleAnthropicDirectStreaming state body providers)) ∧
    ∀ reply,
      ((∃ status, (proxyPolicy state body endpoint providers.length).outcome reply = .error status) ↔
        ServerFailure reply) ∧
      ((∃ status, (conversionPolicy state env anthropicValue providers.length).outcome reply =
        .error status) ↔ ConversionFailure env reply) ∧
      (∀ status, (streamingPolicy state env anthropicValue).outcome reply = .error status ↔
        status = badGateway ∧ StreamFailure reply) ∧
      (∀ status, (directPolicy state body).outcome reply = .error status ↔
        status = badGateway ∧ StreamFailure reply) := by
  refine ⟨⟨proxyHandlerMulti_follows body endpoint hne,
    nonStreamingConversion_follows anthropicValue hne, streamingConversion_follows anthropicValue hne,
    directStreaming_follows body hne⟩, fun reply => ⟨proxyPolicy_failure, conversionPolicy_failure,
    ?_, ?_⟩⟩
  · exact fun _ => @streamOutcome_error _ (streamingAnswer env anthropicValue) reply _
  · exact fun _ => @streamOutcome_error _ directAnswer reply _

end

/-- Four providers of which three are tried. -/
theorem failover_prefix_fourProviders :
    ((proxyPolicy otherVendorState .null "v1/messages" 4).Follows (List.replicate 4 otherVendor)
        (proxyHandlerMulti otherVendorState.proxyClient (List.replicate 4 otherVendor) .null
          "v1/messages" true) ∧
      (conversionPolicy otherVendorState plainEnv .null 4).Follows (List.replicate 4 otherVendor)
        (handleNonStreamingConversion otherVendorState plainEnv .null
          (List.replicate 4 otherVendor)) ∧
      (streamingPolicy otherVendorState plainEnv .null).Follows (List.replicate 4 otherVendor)
        (handleStreamingConversion otherVendorState plainEnv .null (List.replicate 4 otherVendor)) ∧
      (directPolicy otherVendorState .null).Follows (List.replicate 4 otherVendor)
        (handleAnthropicDirectStreaming otherVendorState .null (List.replicate 4 otherVendor))) ∧
    ∀ reply,
      ((∃ status, (proxyPolicy otherVendorState .null "v1/messages" 4).outcome reply =
        .error status) ↔ ServerFailure reply) ∧
      ((∃ status, (conversionPolicy otherVendorState plainEnv .null 4).outcome reply =
        .error status) ↔ ConversionFailure plainEnv reply) ∧
      (∀ status, (streamingPolicy otherVendorState plainEnv .null).outcome reply = .error status ↔
        status = badGateway ∧ StreamFailure reply) ∧
      (∀ status, (directPolicy otherVendorState .null).outcome reply = .error status ↔
        status = badGateway ∧ StreamFailure reply) :=
  failover_prefix otherVendorState plainEnv .null .null "v1/messages"
    (List.cons_ne_nil otherVendor (List.replicate 3 otherVendor))

end ApertureRouter
