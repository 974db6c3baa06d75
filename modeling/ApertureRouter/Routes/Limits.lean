import ApertureRouter.Routes.Isolation
import ApertureRouter.Types.Deserialize

/-!
# Limits on what is forwarded

The three POST routes have the same limits, and each its own checks of them. `/v1/messages` checks
them all. `/v1/chat/completions` does not look at a content that is an array. `/v1/proxy` looks at
such a content block by block, and at a field only if it has the expected type.

* `RequestView`: what the limits are about, in a request of any route.
* `WithinLimits`: the limits. `CheckedBy`: what a route leaves unchecked is within them.
* `checks_of_trace`: a request for which an upstream is asked has passed the checks of its route.
* `limits_uniform_iff`: it is within the limits exactly if what was not checked is.
-/

namespace ApertureRouter

open Value (asStr asArray)

/-! ## What the limits are about -/

/-- A message: its role, if there is one, and its text. -/
structure MessageView where
  role : Option Value
  text : String

/-- The model and `max_tokens`, if there are any, and the messages. -/
structure RequestView where
  model : Option Value
  messages : List MessageView
  maxTokens : Option Value

def Openai.ChatMessage.view (message : Openai.ChatMessage) : MessageView where
  role := some (.string message.role)
  text := extractTextFromContent (message.content.getD .null)

def Anthropic.Message.view (message : Anthropic.Message) : MessageView where
  role := some (.string message.role)
  text := message.content.asText

def Value.messageView (message : Value) : MessageView where
  role := nonNull (message.get "role")
  text := extractTextFromContent ((message.get "content").getD .null)

/-- The messages of a request of `/v1/proxy`. -/
def proxyMessages (request : Value) : List Value := (request.get "messages" >>= asArray).getD []

namespace RouterRequest

/-- The request as it is sent on, with its model resolved. -/
def resolved (state : AppState) : RouterRequest → RouterRequest
  | .chat request => .chat { request with model := state.config.resolveModelAlias request.model }
  | .messages request =>
    .messages { request with model := state.config.resolveModelAlias request.model }
  | .proxy request => .proxy (resolveRequestModel state request)

def view : RouterRequest → RequestView
  | .chat request => {
    model := some (.string request.model)
    messages := request.messages.map (·.view)
    maxTokens := request.maxTokens.map fun n => .number (.posInt n.toUInt64) }
  | .messages request => {
    model := some (.string request.model)
    messages := request.messages.map (·.view)
    maxTokens := request.maxTokens.map fun n => .number (.posInt n.toUInt64) }
  | .proxy request => {
    model := nonNull (request.get "model")
    messages := (proxyMessages request).map (·.messageView)
    maxTokens := nonNull (request.get "max_tokens") }

/-- The checks of the route. -/
def admission (state : AppState) (env : Env) : RouterRequest → Option RouterResponse
  | .chat request => checkChat state env request
  | .messages request => checkAnthropic state env request
  | .proxy request => checkProxy state request

end RouterRequest

/-! ## The limits -/

/-- The number is from 1 to the limit of `max_tokens`. -/
def Number.IsTokenCount : Number → Prop
  | posInt n => 1 ≤ n.toNat ∧ n.toNat ≤ maxTokensLimit.toNat
  | negInt _ => False
  | float bits => 1 ≤ Float.ofBits bits ∧ Float.ofBits bits ≤ maxTokensLimit.toUInt64.toFloat

/-- The length of a text within the limit of `validate_message_content`. -/
def ShortText (text : String) : Prop := text.utf8ByteSize ≤ 1000000

structure WithinLimits (maxMessages : Nat) (request : RequestView) : Prop where
  model : ∀ v, request.model = some v → ∃ name, v = .string name ∧ validateModelName name = .ok ()
  count : request.messages.length ≤ maxMessages
  roles : ∀ message ∈ request.messages, ∀ v, message.role = some v →
    ∃ role, v = .string role ∧ validateRole role = .ok ()
  texts : ∀ message ∈ request.messages, ShortText message.text
  maxTokens : ∀ v, request.maxTokens = some v → ∃ n, v = .number n ∧ n.IsTokenCount

/-! ## What the routes do not check -/

/-- The texts of the content, if it is an array, are short together. -/
def ShortParts (content : Option Value) : Prop :=
  ∀ parts, content = some (.array parts) → ShortText (extractTextFromContent (.array parts))

/-- What `/v1/proxy` does not look at. -/
structure ProxyChecked (request : Value) : Prop where
  model : ∀ v, nonNull (request.get "model") = some v → ∃ name, v = .string name
  roles : ∀ message ∈ proxyMessages request, ∀ v, nonNull (message.get "role") = some v →
    ∃ role, v = .string role
  texts : ∀ message ∈ proxyMessages request, ShortParts (message.get "content")
  maxTokens : ∀ v, nonNull (request.get "max_tokens") = some v →
    (∃ n, v = .number (.posInt n) ∧ n.toNat < UInt32.size) ∨ ∃ n, v = .number n ∧ n.IsTokenCount

/-- What the route does not check is within the limits. -/
def RouterRequest.Checked : RouterRequest → Prop
  | .chat request => ∀ message ∈ request.messages, ShortParts message.content
  | .messages _ => True
  | .proxy request => ProxyChecked request

section

variable {state : AppState} {env : Env}

/-! ## What the checks say -/

theorem orElse_eq_none {α : Type} {a b : Option α} : (a <|> b) = none ↔ a = none ∧ b = none := by
  cases a with
  | none => exact (and_iff_right rfl).symm
  | some a => exact iff_of_false (fun h => by cases h) fun h => by cases h.1

theorem refuse_eq_none {validation : Except String Unit} {response : String → RouterResponse} :
    refuse validation response = none ↔ validation = .ok () := by
  cases validation with
  | error e => exact iff_of_false (fun h => by cases h) fun h => by cases h
  | ok u => exact iff_of_true rfl rfl

theorem refuseIf_eq_none {condition : Bool} {response : RouterResponse} :
    refuseIf condition response = none ↔ condition = false := by
  cases condition with
  | false => exact iff_of_true rfl rfl
  | true => exact iff_of_false (fun h => by cases h) fun h => by cases h

theorem bind_eq_none {α β : Type} {a : Option α} {f : α → Option β} :
    a.bind f = none ↔ ∀ b, a = some b → f b = none := by
  cases a with
  | none => exact iff_of_true rfl fun b h => by cases h
  | some a => exact ⟨fun h b hb => Option.some.inj hb ▸ h, fun h => h a rfl⟩

/-- A check of each element of a list. -/
theorem of_findSome?_zipIdx {α β : Type} {l : List α} {f : α × Nat → Option β}
    (h : l.zipIdx.findSome? f = none) : ∀ a ∈ l, ∃ i, f (a, i) = none := by
  intro a ha
  rw [← List.zipIdx_map_fst 0 l] at ha
  obtain ⟨⟨a, i⟩, hmem, rfl⟩ := List.mem_map.mp ha
  exact ⟨i, List.findSome?_eq_none_iff.mp h _ hmem⟩

theorem validateMessageContent_ok_iff {content : String} :
    validateMessageContent content = .ok () ↔ ShortText content := by
  unfold validateMessageContent ShortText
  split
  · exact iff_of_false (fun h => by cases h) (by omega)
  · exact iff_of_true rfl (by omega)

theorem validateMaxTokens_ok {n : UInt32} (h : validateMaxTokens n = .ok ()) :
    1 ≤ n.toNat ∧ n.toNat ≤ maxTokensLimit.toNat := by
  unfold validateMaxTokens at h
  split at h
  · cases h
  · rename_i hzero
    split at h
    · cases h
    · rename_i hlimit
      have hne : n.toNat ≠ 0 := fun h0 => hzero (UInt32.toNat_inj.mp h0)
      rw [UInt32.lt_iff_toNat_lt] at hlimit
      omega

theorem le_of_checkMessageCount {config : RouterConfig} {count : Nat}
    (h : checkMessageCount config count = none) : count ≤ config.maxMessages := by
  rw [checkMessageCount, refuseIf_eq_none, decide_eq_false_iff_not] at h
  exact Nat.le_of_not_lt h

theorem isTokenCount_of_checked {maxTokens : Option UInt32} (h : checkMaxTokens maxTokens = none) :
    ∀ v, (maxTokens.map fun n => Value.number (.posInt n.toUInt64)) = some v →
      ∃ n, v = .number n ∧ n.IsTokenCount := by
  intro v hv
  obtain ⟨n, hn, rfl⟩ := Option.map_eq_some_iff.mp hv
  refine ⟨_, rfl, ?_⟩
  have hok := validateMaxTokens_ok (refuse_eq_none.mp (bind_eq_none.mp h n hn))
  show 1 ≤ n.toUInt64.toNat ∧ n.toUInt64.toNat ≤ maxTokensLimit.toNat
  rwa [UInt32.toNat_toUInt64]

/-- The roles and the texts of a typed route. -/
theorem of_checkMessages {messages : List (String × Option String)}
    (h : checkMessages messages = none) : ∀ message ∈ messages,
      validateRole message.1 = .ok () ∧ ∀ text, message.2 = some text → ShortText text := by
  rintro ⟨role, text⟩ hmem
  obtain ⟨i, hcheck⟩ := of_findSome?_zipIdx h _ hmem
  obtain ⟨hrole, htext⟩ := orElse_eq_none.mp hcheck
  refine ⟨refuse_eq_none.mp hrole, fun t ht => ?_⟩
  exact validateMessageContent_ok_iff.mp (refuse_eq_none.mp (bind_eq_none.mp htext t ht))

/-- An upstream is asked only for a request that its route has admitted. -/
theorem checks_of_trace {request : RouterRequest} {replies : Nat → Reply} {q : UpstreamRequest}
    (h : q ∈ (handle state env request).trace replies) :
    (request.resolved state).admission state env = none := by
  cases request with
  | chat request =>
    unfold handle chatCompletions at h
    dsimp only at h
    split at h
    · cases h
    · rename_i hcheck
      exact hcheck
  | messages request =>
    unfold handle anthropicMessages at h
    dsimp only at h
    split at h
    · cases h
    · rename_i hcheck
      exact hcheck
  | proxy request =>
    unfold handle handleProxyStream at h
    dsimp only at h
    split at h
    · cases h
    · rename_i hcheck
      exact hcheck

/-! ## The routes -/

/-- A content whose text is checked if it is a string. -/
theorem shortText_iff {content : Option Value}
    (h : ∀ text, content >>= asStr = some text → ShortText text) :
    ShortText (extractTextFromContent (content.getD .null)) ↔ ShortParts content := by
  have hempty : ShortText "" := Nat.zero_le _
  rcases content with _ | content
  · exact iff_of_true hempty fun parts hparts => by cases hparts
  · cases content with
    | string text => exact iff_of_true (h text rfl) fun parts hparts => by cases hparts
    | array parts =>
      refine ⟨fun hshort parts' hparts => ?_, fun hshort => hshort parts rfl⟩
      cases hparts
      exact hshort
    | _ => exact iff_of_true hempty fun parts hparts => by cases hparts

theorem chat_withinLimits_iff {request : Openai.ChatCompletionRequest}
    (h : checkChat state env request = none) :
    WithinLimits state.config.maxMessages (RouterRequest.view (.chat request)) ↔
      RouterRequest.Checked (.chat request) := by
  obtain ⟨hmodel, h⟩ := orElse_eq_none.mp h
  obtain ⟨hmaxTokens, h⟩ := orElse_eq_none.mp h
  obtain ⟨hcount, h⟩ := orElse_eq_none.mp h
  have hmessages := of_checkMessages (orElse_eq_none.mp h).1
  have hmessage : ∀ message ∈ request.messages, validateRole message.role = .ok () ∧
      (ShortText message.view.text ↔ ShortParts message.content) := by
    intro message hmem
    obtain ⟨hrole, htext⟩ := hmessages _ (List.mem_map.mpr ⟨message, hmem, rfl⟩)
    exact ⟨hrole, shortText_iff htext⟩
  constructor
  · intro hwithin message hmem
    exact (hmessage message hmem).2.mp (hwithin.texts _ (List.mem_map.mpr ⟨message, hmem, rfl⟩))
  · intro hchecked
    constructor
    · intro v hv
      exact ⟨request.model, (Option.some.inj hv).symm, refuse_eq_none.mp hmodel⟩
    · exact Nat.le_trans (Nat.le_of_eq (List.length_map _)) (le_of_checkMessageCount hcount)
    · intro view hview v hv
      obtain ⟨message, hmem, rfl⟩ := List.mem_map.mp hview
      exact ⟨message.role, (Option.some.inj hv).symm, (hmessage message hmem).1⟩
    · intro view hview
      obtain ⟨message, hmem, rfl⟩ := List.mem_map.mp hview
      exact (hmessage message hmem).2.mpr (hchecked message hmem)
    · exact isTokenCount_of_checked hmaxTokens

theorem messages_withinLimits {request : Anthropic.MessageRequest}
    (h : checkAnthropic state env request = none) :
    WithinLimits state.config.maxMessages (RouterRequest.view (.messages request)) := by
  obtain ⟨hmodel, h⟩ := orElse_eq_none.mp h
  obtain ⟨hmaxTokens, h⟩ := orElse_eq_none.mp h
  obtain ⟨hcount, h⟩ := orElse_eq_none.mp h
  have hmessages := of_checkMessages (orElse_eq_none.mp h).1
  constructor
  · intro v hv
    exact ⟨request.model, (Option.some.inj hv).symm, refuse_eq_none.mp hmodel⟩
  · exact Nat.le_trans (Nat.le_of_eq (List.length_map _)) (le_of_checkMessageCount hcount)
  · intro view hview v hv
    obtain ⟨message, hmem, rfl⟩ := List.mem_map.mp hview
    exact ⟨message.role, (Option.some.inj hv).symm,
      (hmessages _ (List.mem_map.mpr ⟨message, hmem, rfl⟩)).1⟩
  · intro view hview
    obtain ⟨message, hmem, rfl⟩ := List.mem_map.mp hview
    exact (hmessages _ (List.mem_map.mpr ⟨message, hmem, rfl⟩)).2 _ rfl
  · exact isTokenCount_of_checked hmaxTokens

/-- What `/v1/proxy` has checked of the messages. -/
theorem of_checkProxyMessages {request : Value} {messages : List Value}
    (hmessages : request.get "messages" >>= asArray = some messages)
    (h : (checkMessageCount state.config messages.length <|>
      messages.zipIdx.findSome? fun (message, i) => checkProxyMessage message i) = none) :
    (proxyMessages request).length ≤ state.config.maxMessages ∧
    ∀ message ∈ proxyMessages request,
      (∀ role, message.get "role" >>= asStr = some role → validateRole role = .ok ()) ∧
      ∀ text, message.get "content" >>= asStr = some text → ShortText text := by
  obtain ⟨hcount, hall⟩ := orElse_eq_none.mp h
  have heq : proxyMessages request = messages := by rw [proxyMessages, hmessages, Option.getD_some]
  rw [heq]
  refine ⟨le_of_checkMessageCount hcount, fun message hmem => ?_⟩
  obtain ⟨i, hcheck⟩ := of_findSome?_zipIdx hall message hmem
  obtain ⟨hrole, hcheck⟩ := orElse_eq_none.mp hcheck
  obtain ⟨htext, -⟩ := orElse_eq_none.mp hcheck
  refine ⟨fun role hr => refuse_eq_none.mp (bind_eq_none.mp hrole role hr), fun text ht => ?_⟩
  have hvalid := (orElse_eq_none.mp (bind_eq_none.mp htext text ht)).2
  exact validateMessageContent_ok_iff.mp (refuse_eq_none.mp hvalid)

theorem proxy_withinLimits_iff {request : Value} (h : checkProxy state request = none) :
    WithinLimits state.config.maxMessages (RouterRequest.view (.proxy request)) ↔
      ProxyChecked request := by
  obtain ⟨hmodel, h⟩ := orElse_eq_none.mp h
  obtain ⟨hmessages, h⟩ := orElse_eq_none.mp h
  obtain ⟨-, h⟩ := orElse_eq_none.mp h
  obtain ⟨hmaxTokens, -⟩ := orElse_eq_none.mp h
  have hseen : (proxyMessages request).length ≤ state.config.maxMessages ∧
      ∀ message ∈ proxyMessages request,
        (∀ role, message.get "role" >>= asStr = some role → validateRole role = .ok ()) ∧
        ∀ text, message.get "content" >>= asStr = some text → ShortText text := by
    cases harray : request.get "messages" >>= asArray with
    | none =>
      have hnil : proxyMessages request = [] := by rw [proxyMessages, harray, Option.getD_none]
      rw [hnil]
      exact ⟨Nat.zero_le _, fun _ hmem => absurd hmem List.not_mem_nil⟩
    | some messages => exact of_checkProxyMessages harray (bind_eq_none.mp hmessages messages harray)
  obtain ⟨hcount, hmessage⟩ := hseen
  constructor
  · intro hwithin
    constructor
    · intro v hv
      obtain ⟨name, hname, -⟩ := hwithin.model v hv
      exact ⟨name, hname⟩
    · intro message hmem v hv
      obtain ⟨role, hrole, -⟩ := hwithin.roles _ (List.mem_map.mpr ⟨message, hmem, rfl⟩) v hv
      exact ⟨role, hrole⟩
    · intro message hmem
      exact (shortText_iff (hmessage message hmem).2).mp
        (hwithin.texts _ (List.mem_map.mpr ⟨message, hmem, rfl⟩))
    · exact fun v hv => .inr (hwithin.maxTokens v hv)
  · intro hchecked
    constructor
    · intro v hv
      obtain ⟨name, rfl⟩ := hchecked.model v hv
      exact ⟨name, rfl, refuse_eq_none.mp (bind_eq_none.mp hmodel name (asStr_of_nonNull hv))⟩
    · exact Nat.le_trans (Nat.le_of_eq (List.length_map _)) hcount
    · intro view hview v hv
      obtain ⟨message, hmem, rfl⟩ := List.mem_map.mp hview
      obtain ⟨role, rfl⟩ := hchecked.roles message hmem v hv
      exact ⟨role, rfl, (hmessage message hmem).1 role (asStr_of_nonNull hv)⟩
    · intro view hview
      obtain ⟨message, hmem, rfl⟩ := List.mem_map.mp hview
      exact (shortText_iff (hmessage message hmem).2).mpr (hchecked.texts message hmem)
    · intro v hv
      rcases hchecked.maxTokens v hv with ⟨n, rfl, hlt⟩ | hcount
      · -- A `u32` has been checked.
        have hread : request.get "max_tokens" >>= Value.asU64 = some n := by
          rw [eq_of_nonNull hv]
          rfl
        have hcheck := bind_eq_none.mp hmaxTokens n hread
        rw [if_pos hlt] at hcheck
        have hok := validateMaxTokens_ok (refuse_eq_none.mp hcheck)
        rw [UInt64.toNat_toUInt32, Nat.mod_eq_of_lt hlt] at hok
        exact ⟨_, rfl, hok⟩
      · exact hcount

/-- **The limits.** A request for which an upstream is asked is within the limits exactly if what
its route does not check is. -/
theorem limits_uniform_iff {request : RouterRequest} {replies : Nat → Reply} {q : UpstreamRequest}
    (h : q ∈ (handle state env request).trace replies) :
    WithinLimits state.config.maxMessages (request.resolved state).view ↔
      (request.resolved state).Checked := by
  have hchecks := checks_of_trace h
  cases request with
  | chat request => exact chat_withinLimits_iff hchecks
  | messages request => exact iff_of_true (messages_withinLimits hchecks) trivial
  | proxy request => exact proxy_withinLimits_iff hchecks

end

/-- A request of `/v1/proxy` with a `max_tokens` that is no `u32`. -/
def wideMaxTokens : Value :=
  .object [("model", .string "glm-5.1"), ("stream", .bool true),
    ("max_tokens", .number (.posInt 4294967296)),
    ("messages", .array [.object [("role", .string "user"), ("content", .string "Hello")]])]

/-- What the gateway is sent. -/
def wideMaxTokensSent : UpstreamRequest :=
  otherVendorState.proxyClient.gatewayRequest "v1/messages" wideMaxTokens

theorem wideMaxTokens_sent :
    wideMaxTokensSent ∈
      (handle otherVendorState plainEnv (.proxy wideMaxTokens)).trace fun _ => .error () := by
  have hcheck : checkProxy otherVendorState wideMaxTokens = none := by rfl
  have hresolved : resolveRequestModel otherVendorState wideMaxTokens = wideMaxTokens := by rfl
  have hformat : detectWireFormat wideMaxTokens = "v1/messages" := by decide +kernel
  unfold handle handleProxyStream
  simp only [hresolved, hcheck, hformat]
  exact List.mem_cons_self

theorem limits_uniform_iff_wideMaxTokens :
    WithinLimits otherVendorState.config.maxMessages
        ((RouterRequest.proxy wideMaxTokens).resolved otherVendorState).view ↔
      ((RouterRequest.proxy wideMaxTokens).resolved otherVendorState).Checked :=
  limits_uniform_iff wideMaxTokens_sent

theorem wideMaxTokens_forwarded :
    (∃ replies, wideMaxTokensSent ∈
      (handle otherVendorState plainEnv (.proxy wideMaxTokens)).trace replies) ∧
    wideMaxTokensSent.admitted = true ∧
    ¬ WithinLimits otherVendorState.config.maxMessages
      ((RouterRequest.proxy wideMaxTokens).resolved otherVendorState).view := by
  refine ⟨⟨_, wideMaxTokens_sent⟩, by decide +kernel, fun hwithin => ?_⟩
  obtain ⟨n, hn, hcount⟩ := hwithin.maxTokens (.number (.posInt 4294967296)) rfl
  cases hn
  exact absurd hcount.2 (by decide)

end ApertureRouter
