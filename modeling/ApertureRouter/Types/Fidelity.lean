import ApertureRouter.Types.Deserialize

/-!
# Requests passed through their types

A request is read, and sent on as what `serde` writes of it.

* `SameFields`: two objects have the same fields, but for an optional one that is `null`. The
  fields of one name or another are left to be compared in their own way.
* `SameBlock`, `SameMessage` and `Same`: the values at each level.
* `passthrough_faithful_iff`: the request is the same unless its `temperature` is lost, or, in the
  Anthropic one, a message is not just a role and a content. `Message` has no place for more.

`alike` says which numbers are the same up to their formatting. It is asked about `temperature`, which
is written as an `f32`.
-/

namespace ApertureRouter

/-- A field as it may be left: an optional one without its `null`. -/
def keptField (optional : List String) (v : Value) (key : String) : Option Value :=
  if key ∈ optional then nonNull (v.get key) else v.get key

/-- Two objects with the same fields. The fields of the names in `special` are not compared. -/
structure SameFields (optional special : List String) (v w : Value) : Prop where
  left : ∃ m, v = .object m
  right : ∃ m, w = .object m
  get : ∀ key, key ∉ special → w.get key = keptField optional v key

/-- Two fields with numbers that are alike, or none. -/
inductive SameNumber (alike : Number → Number → Prop) : Option Value → Option Value → Prop where
  | absent : SameNumber alike none none
  | number {n n' : Number} (h : alike n n') :
      SameNumber alike (some (.number n)) (some (.number n'))

/-- The number that is written for one that was read as an `f32`. -/
def Number.viaF32 (n : Number) : Number := .float n.toF32.toFloat.toBits

/-- There is no `temperature`, or an `f32` is near enough to it. -/
def TemperatureKept (alike : Number → Number → Prop) (v : Value) : Prop :=
  ∀ n, v.get "temperature" = some (.number n) → n.toF32.isFinite = true ∧ alike n n.viaF32

namespace Anthropic

def ContentBlock.optional : List String := names.erase "type"

def SameBlock (v w : Value) : Prop := SameFields ContentBlock.optional [] v w

/-- Two contents: strings, or lists of blocks. -/
inductive SameContent : Value → Value → Prop where
  | text (s : String) : SameContent (.string s) (.string s)
  | blocks {a a' : List Value} (h : List.Forall₂ SameBlock a a') :
      SameContent (.array a) (.array a')

structure SameMessage (v w : Value) : Prop where
  fields : SameFields [] ["content"] v w
  content : ∃ c c', v.get "content" = some c ∧ w.get "content" = some c' ∧ SameContent c c'

def MessageRequest.optional : List String := (names.erase "model").erase "messages"

structure MessageRequest.Same (alike : Number → Number → Prop) (v w : Value) : Prop where
  fields : SameFields MessageRequest.optional ["messages", "temperature"] v w
  temperature : SameNumber alike (nonNull (v.get "temperature")) (w.get "temperature")
  messages : ∃ a a', v.get "messages" = some (.array a) ∧ w.get "messages" = some (.array a') ∧
    List.Forall₂ SameMessage a a'

/-- An object without any other fields than those of `Message`. -/
def Plain (v : Value) : Prop :=
  ∃ m, v = .object m ∧ ∀ key, key ≠ "role" → key ≠ "content" → v.get key = none

end Anthropic

namespace Openai

def ChatMessage.optional : List String := names.erase "role"

def SameMessage (v w : Value) : Prop := SameFields ChatMessage.optional [] v w

def ChatCompletionRequest.optional : List String := (names.erase "model").erase "messages"

structure ChatCompletionRequest.Same (alike : Number → Number → Prop) (v w : Value) : Prop where
  fields : SameFields ChatCompletionRequest.optional ["messages", "temperature"] v w
  temperature : SameNumber alike (nonNull (v.get "temperature")) (w.get "temperature")
  messages : ∃ a a', v.get "messages" = some (.array a) ∧ w.get "messages" = some (.array a') ∧
    List.Forall₂ SameMessage a a'

end Openai

/-! ## Objects of named fields and a flattened map -/

/-- The fields that are there, and those of the map. -/
def namedFields (order : IterOrder String Value) (named : List (String × Option Value))
    (other : HashMap String Value) : Value :=
  .object ((named.flatMap fun e => optionalField e.1 e.2) ++ flattened order other)

section

variable {order : IterOrder String Value} {named : List (String × Option Value)}

theorem lookup_optionalField (key key' : String) (v : Option Value) :
    (optionalField key v).lookup key' = if key' = key then v else none := by
  cases v with
  | none => rw [ite_self]; rfl
  | some v => exact Value.lookup_field key' key v []

/-- A key that no field has. -/
theorem lookup_of_notMem {β : Type} {m : List (String × β)} {key : String}
    (h : key ∉ m.map Prod.fst) : m.lookup key = none := by
  rw [List.lookup_eq_none_iff]
  intro e he
  exact bne_iff_ne.mpr fun heq => h (List.mem_map.mpr ⟨e, he, heq.symm⟩)

theorem lookup_named (h : (named.map Prod.fst).Nodup) (key : String) :
    (named.flatMap fun e => optionalField e.1 e.2).lookup key = (named.lookup key).join := by
  induction named with
  | nil => rfl
  | cons e named ih =>
    obtain ⟨k, v⟩ := e
    obtain ⟨hnew, h⟩ := List.nodup_cons.mp h
    rw [List.flatMap_cons, List.lookup_append, lookup_optionalField, ih h]
    by_cases hk : key = k
    · subst hk
      rw [if_pos rfl, lookup_of_notMem hnew, List.lookup_cons_self, Option.join_some, Option.join_none, Option.or_none]
    · rw [if_neg hk, Option.none_or, List.lookup_cons, beq_eq_false_iff_ne.mpr hk]

theorem lookup_iff_mem {β : Type} {m : List (String × β)} (h : (m.map Prod.fst).Nodup) {key : String}
    {v : β} : m.lookup key = some v ↔ (key, v) ∈ m := by
  induction m with
  | nil => exact iff_of_false (fun h => by cases h) List.not_mem_nil
  | cons e m ih =>
    obtain ⟨k, w⟩ := e
    obtain ⟨hnew, h⟩ := List.nodup_cons.mp h
    rw [List.mem_cons, Prod.mk.injEq]
    by_cases hk : key = k
    · subst hk
      have hnot : (key, v) ∉ m := fun hmem => hnew (List.mem_map.mpr ⟨_, hmem, rfl⟩)
      rw [List.lookup_cons_self, Option.some.injEq, or_iff_left hnot, eq_comm]
      exact (and_iff_right rfl).symm
    · rw [List.lookup_cons, beq_eq_false_iff_ne.mpr hk, or_iff_right fun heq => hk heq.1]
      exact ih h

theorem lookup_flattened (other : HashMap String Value) (key : String) :
    (flattened order other).lookup key = other.get key := by
  have hkeys : ((flattened order other).map Prod.fst).Nodup := by
    rw [flattened, List.map_map]
    exact ((order.perm other).map Sigma.fst).nodup_iff.mpr other.nodupKeys
  apply Option.ext
  intro v
  rw [lookup_iff_mem hkeys, ← order.mem_list, flattened, List.mem_map]
  constructor
  · rintro ⟨⟨k, w⟩, he, heq⟩
    cases heq
    exact he
  · exact fun h => ⟨⟨key, v⟩, h, rfl⟩

variable {m : List (String × Value)} {names : List String}

/-- A named field is what the type holds for it. -/
theorem get_named (h : names.Nodup) (hnames : named.map Prod.fst = names) {key : String}
    {v : Option Value} (hmem : (key, v) ∈ named) :
    (namedFields order named (otherFields names m)).get key = v := by
  subst hnames
  rw [namedFields, Value.get_object, List.lookup_append, lookup_named h, lookup_flattened,
    (lookup_iff_mem h).mpr hmem, get_otherFields, if_pos (List.mem_map.mpr ⟨_, hmem, rfl⟩),
    Option.join_some, Option.or_none]

/-- Any other field is as it was. -/
theorem get_unnamed (h : names.Nodup) (hnames : named.map Prod.fst = names) {key : String}
    (hkey : key ∉ names) :
    (namedFields order named (otherFields names m)).get key = m.lookup key := by
  subst hnames
  rw [namedFields, Value.get_object, List.lookup_append, lookup_named h, lookup_flattened,
    lookup_of_notMem hkey, get_otherFields, if_neg hkey, Option.join_none, Option.none_or]

/-- A read and a write keep the fields, if they keep the named ones. -/
theorem sameFields_namedFields {optional special : List String}
    (h : names.Nodup) (hnames : named.map Prod.fst = names)
    (hoptional : optional ⊆ names)
    (hnamed : ∀ e ∈ named, e.1 ∉ special → e.2 = keptField optional (.object m) e.1) :
    SameFields optional special (.object m) (namedFields order named (otherFields names m)) := by
  refine ⟨⟨_, rfl⟩, ⟨_, rfl⟩, fun key hkey => ?_⟩
  by_cases hmem : key ∈ names
  · obtain ⟨⟨key, v⟩, he, rfl⟩ := List.mem_map.mp (hnames ▸ hmem)
    rw [get_named h hnames he]
    exact hnamed _ he hkey
  · rw [get_unnamed h hnames hmem, keptField, if_neg fun hopt => hmem (hoptional hopt)]
    rfl

end

/-! ## What a read field is -/

section

variable {α : Type} {read : Value → Option α} {write : α → Value} {v : Value} {key : String}
  {names : List String}

theorem required_kept (hwrite : ∀ w a, read w = some a → write a = w) (hkey : key ∉ names) {a : α}
    (h : required read v key = some a) : some (write a) = keptField names v key := by
  rw [keptField, if_neg hkey, required_eq_some hwrite h]

theorem optional_kept (hwrite : ∀ w a, read w = some a → write a = w) (hkey : key ∈ names)
    {a : Option α} (h : optional read v key = some a) : a.map write = keptField names v key := by
  rw [keptField, if_pos hkey, optional_eq_some hwrite h]

theorem optional_kept_value (hkey : key ∈ names) {a : Option Value}
    (h : optional some v key = some a) : a = keptField names v key := by
  have hkept : a.map id = keptField names v key := optional_kept id_of_some hkey h
  rwa [Option.map_id] at hkept

/-- A list read and written element by element. -/
theorem forall₂_write_iff {S : Value → Value → Prop} {P : Value → Prop}
    (helement : ∀ v a, read v = some a → (S v (write a) ↔ P v)) {vs : List Value} {as : List α}
    (h : List.Forall₂ (fun v a => read v = some a) vs as) :
    List.Forall₂ S vs (as.map write) ↔ ∀ v ∈ vs, P v := by
  induction h with
  | nil => exact iff_of_true .nil fun _ h => absurd h List.not_mem_nil
  | cons hread _ ih => rw [List.map_cons, List.forall₂_cons, helement _ _ hread, ih, List.forall_mem_cons]

/-- The temperature that was read. -/
theorem sameNumber_temperature_iff {alike : Number → Number → Prop} {t : Option Float32}
    (h : optional Value.asF32 v "temperature" = some t) :
    SameNumber alike (nonNull (v.get "temperature")) (t.map floatValue) ↔ TemperatureKept alike v := by
  unfold optional at h
  unfold TemperatureKept
  generalize v.get "temperature" = temperature at h ⊢
  rcases temperature with _ | temperature
  · obtain rfl := Option.some.inj h
    exact iff_of_true .absent fun n hn => by cases hn
  · cases temperature with
    | null =>
      obtain rfl := Option.some.inj h
      exact iff_of_true .absent fun n hn => by cases hn
    | number n =>
      obtain rfl := Option.some.inj h
      rw [Option.map_some]
      unfold floatValue
      constructor
      · intro hsame n' hn'
        cases hn'
        split at hsame
        · rename_i hfinite
          cases hsame with
          | number halike => exact ⟨hfinite, halike⟩
        · cases hsame
      · intro hkept
        obtain ⟨hfinite, halike⟩ := hkept n rfl
        rw [if_pos hfinite]
        exact .number halike
    | _ => cases h

end

namespace Anthropic

variable {order : IterOrder String Value}

/-! ## The Anthropic request -/

def ContentBlock.named (b : ContentBlock) : List (String × Option Value) :=
  [("type", some (.string b.type)), ("text", b.text.map .string), ("id", b.id.map .string),
    ("name", b.name.map .string), ("input", b.input), ("tool_use_id", b.toolUseId.map .string),
    ("content", b.content), ("is_error", b.isError.map .bool), ("thinking", b.thinking.map .string),
    ("source", b.source)]

theorem ContentBlock.toValue_eq (b : ContentBlock) :
    b.toValue order = namedFields order b.named b.other := by
  simp only [ContentBlock.toValue, namedFields, named, List.flatMap_cons, List.flatMap_nil,
    List.append_nil, List.append_assoc]
  rfl

/-- **A block.** Nothing is lost. -/
theorem sameBlock_toValue {v : Value} {b : ContentBlock} (h : ContentBlock.fromValue v = some b) :
    SameBlock v (b.toValue order) := by
  cases v with
  | object m =>
    simp only [ContentBlock.fromValue, Option.bind_eq_bind, Option.bind_eq_some_iff, Option.pure_def,
      Option.some.injEq] at h
    obtain ⟨type, htype, text, htext, id, hid, name, hname, input, hinput, toolUseId, htoolUseId,
      content, hcontent, isError, hisError, thinking, hthinking, source, hsource, rfl⟩ := h
    rw [ContentBlock.toValue_eq]
    refine sameFields_namedFields (by decide) rfl List.erase_subset ?_
    simp only [ContentBlock.named, List.forall_mem_cons]
    exact ⟨fun _ => required_kept string_of_asStr (by decide) htype,
      fun _ => optional_kept string_of_asStr (by decide) htext,
      fun _ => optional_kept string_of_asStr (by decide) hid,
      fun _ => optional_kept string_of_asStr (by decide) hname,
      fun _ => optional_kept_value (by decide) hinput,
      fun _ => optional_kept string_of_asStr (by decide) htoolUseId,
      fun _ => optional_kept_value (by decide) hcontent,
      fun _ => optional_kept bool_of_asBool (by decide) hisError,
      fun _ => optional_kept string_of_asStr (by decide) hthinking,
      fun _ => optional_kept_value (by decide) hsource, fun _ h => absurd h List.not_mem_nil⟩
  | _ => cases h

theorem sameContent_toValue {v : Value} {c : Content} (h : Content.fromValue v = some c) :
    SameContent v (c.toValue order) := by
  cases v with
  | string s =>
    obtain rfl := Option.some.inj h
    exact .text s
  | array a =>
    obtain ⟨bs, hbs, rfl⟩ := Option.map_eq_some_iff.mp h
    refine .blocks ((forall₂_write_iff (P := fun _ => True) ?_ (forall₂_of_readAll hbs)).mpr
      fun _ _ => trivial)
    exact fun _ _ hb => iff_of_true (sameBlock_toValue hb) trivial
  | _ => cases h

/-- **A message.** It is the same exactly if it has no other fields. -/
theorem sameMessage_toValue_iff {v : Value} {message : Message}
    (h : Message.fromValue v = some message) :
    SameMessage v (message.toValue order) ↔ Plain v := by
  unfold Message.fromValue at h
  split at h
  · rename_i m
    obtain ⟨role, hrole, h⟩ := Option.bind_eq_some_iff.mp h
    obtain ⟨content, hcontent, h⟩ := Option.bind_eq_some_iff.mp h
    obtain rfl := Option.some.inj h
    have hget : ∀ key, key ≠ "content" → (Message.toValue order ⟨role, content⟩).get key =
        if key = "role" then some (.string role) else none := by
      intro key hkey
      rw [Message.toValue, Value.get_object, Value.lookup_field, Value.lookup_field, if_neg hkey]
      rfl
    constructor
    · intro hsame
      refine ⟨m, rfl, fun key hrole hcontent => ?_⟩
      have hkept := hsame.fields.get key (fun hmem => hcontent (List.mem_singleton.mp hmem))
      rw [hget key hcontent, if_neg hrole] at hkept
      exact hkept.symm
    · rintro ⟨_, ⟨⟩, hplain⟩
      refine ⟨⟨⟨m, rfl⟩, ⟨_, rfl⟩, fun key hkey => ?_⟩, ?_⟩
      · have hne : key ≠ "content" := fun h => hkey (List.mem_singleton.mpr h)
        rw [hget key hne, keptField, if_neg List.not_mem_nil]
        split
        · rename_i heq
          rw [heq, required_eq_some string_of_asStr hrole]
        · rename_i hrole
          exact (hplain key hrole hne).symm
      · obtain ⟨c, hc, hread⟩ := Option.bind_eq_some_iff.mp hcontent
        exact ⟨c, content.toValue order, hc, rfl, sameContent_toValue hread⟩
  · exact iff_of_false (fun hsame => by cases hsame.fields.left.choose_spec)
      fun ⟨_, hobject, _⟩ => by cases hobject
  · cases h

def MessageRequest.named (order : IterOrder String Value) (r : MessageRequest) :
    List (String × Option Value) :=
  [("model", some (.string r.model)),
    ("max_tokens", r.maxTokens.map fun n => .number (.posInt n.toUInt64)),
    ("messages", some (.array (r.messages.map (·.toValue order)))), ("system", r.system),
    ("tools", r.tools.map .array), ("tool_choice", r.toolChoice),
    ("temperature", r.temperature.map floatValue), ("stream", r.stream.map .bool),
    ("metadata", r.metadata)]

theorem MessageRequest.toValue_eq (r : MessageRequest) :
    r.toValue order = namedFields order (r.named order) r.other := by
  simp only [MessageRequest.toValue, namedFields, named, List.flatMap_cons, List.flatMap_nil,
    List.append_nil, List.append_assoc]
  rfl

/-- The messages have no other fields than those of `Message`. -/
def PlainMessages (v : Value) : Prop :=
  ∀ a, v.get "messages" = some (.array a) → ∀ message ∈ a, Plain message

/-- What a request that was read has from its fields. -/
theorem MessageRequest.fromValue_spec {v : Value} {r : MessageRequest} (h : fromValue v = some r) :
    SameFields MessageRequest.optional ["messages", "temperature"] v (r.toValue order) ∧
    (∃ a, v.get "messages" = some (.array a) ∧
      (r.toValue order).get "messages" = some (.array (r.messages.map (·.toValue order))) ∧
      List.Forall₂ (fun v a => Message.fromValue v = some a) a r.messages) ∧
    ApertureRouter.optional Value.asF32 v "temperature" = some r.temperature ∧
    (r.toValue order).get "temperature" = r.temperature.map floatValue := by
  cases v with
  | object m =>
    simp only [MessageRequest.fromValue, Option.bind_eq_bind, Option.bind_eq_some_iff,
      Option.pure_def, Option.some.injEq] at h
    obtain ⟨model, hmodel, maxTokens, hmaxTokens, messages, hmessages, system, hsystem, tools, htools,
      toolChoice, htoolChoice, temperature, htemperature, stream, hstream, metadata, hmetadata, rfl⟩ := h
    obtain ⟨w, hw, hread⟩ := Option.bind_eq_some_iff.mp hmessages
    obtain ⟨a, ha, hread⟩ := Option.bind_eq_some_iff.mp hread
    have hnodup : names.Nodup := by decide
    rw [MessageRequest.toValue_eq]
    refine ⟨sameFields_namedFields hnodup rfl ?_ ?_, ⟨a, ?_, ?_, forall₂_of_readAll hread⟩,
      htemperature, ?_⟩
    · exact fun key hkey => List.mem_of_mem_erase (List.mem_of_mem_erase hkey)
    · simp only [MessageRequest.named, List.forall_mem_cons]
      exact ⟨fun _ => required_kept string_of_asStr (by decide) hmodel,
        fun _ => optional_kept number_of_asU32 (by decide) hmaxTokens,
        fun h => absurd (by decide) h,
        fun _ => optional_kept_value (by decide) hsystem,
        fun _ => optional_kept array_of_asArray (by decide) htools,
        fun _ => optional_kept_value (by decide) htoolChoice,
        fun h => absurd (by decide) h,
        fun _ => optional_kept bool_of_asBool (by decide) hstream,
        fun _ => optional_kept_value (by decide) hmetadata, fun _ h => absurd h List.not_mem_nil⟩
    · rw [hw, array_of_asArray w a ha]
    · exact get_named hnodup rfl (by simp [named])
    · exact get_named hnodup rfl (by simp [named])
  | _ => cases h

theorem MessageRequest.same_toValue_iff {alike : Number → Number → Prop} {v : Value}
    {r : MessageRequest} (h : fromValue v = some r) :
    Same alike v (r.toValue order) ↔ PlainMessages v ∧ TemperatureKept alike v := by
  obtain ⟨hfields, ⟨a, ha, hwritten, hread⟩, htemperature, hget⟩ := @fromValue_spec order v r h
  have hmessages := forall₂_write_iff (@sameMessage_toValue_iff order) hread
  have hplain : PlainMessages v ↔ ∀ message ∈ a, Plain message := by
    refine ⟨fun hp => hp a ha, fun hp a' ha' => ?_⟩
    rw [ha] at ha'
    cases ha'
    exact hp
  rw [hplain, ← hmessages, ← sameNumber_temperature_iff htemperature]
  constructor
  · rintro ⟨-, hnumber, a', w', ha', hw', hsame⟩
    rw [ha] at ha'
    rw [hwritten] at hw'
    cases ha'
    cases hw'
    exact ⟨hsame, hget ▸ hnumber⟩
  · rintro ⟨hsame, hnumber⟩
    exact ⟨hfields, hget ▸ hnumber, a, _, ha, hwritten, hsame⟩

end Anthropic

namespace Openai

variable {order : IterOrder String Value}

/-! ## The OpenAI request -/

def ChatMessage.named (message : ChatMessage) : List (String × Option Value) :=
  [("role", some (.string message.role)), ("content", message.content),
    ("tool_calls", message.toolCalls.map .array), ("tool_call_id", message.toolCallId.map .string),
    ("name", message.name.map .string)]

theorem ChatMessage.toValue_eq (message : ChatMessage) :
    message.toValue order = namedFields order message.named message.other := by
  simp only [ChatMessage.toValue, namedFields, named, List.flatMap_cons, List.flatMap_nil,
    List.append_nil, List.append_assoc]
  rfl

/-- **A message.** Nothing is lost. -/
theorem sameMessage_toValue {v : Value} {message : ChatMessage}
    (h : ChatMessage.fromValue v = some message) : SameMessage v (message.toValue order) := by
  cases v with
  | object m =>
    simp only [ChatMessage.fromValue, Option.bind_eq_bind, Option.bind_eq_some_iff, Option.pure_def,
      Option.some.injEq] at h
    obtain ⟨role, hrole, content, hcontent, toolCalls, htoolCalls, toolCallId, htoolCallId, name, hname,
      rfl⟩ := h
    rw [ChatMessage.toValue_eq]
    refine sameFields_namedFields (by decide) rfl List.erase_subset ?_
    simp only [ChatMessage.named, List.forall_mem_cons]
    exact ⟨fun _ => required_kept string_of_asStr (by decide) hrole,
      fun _ => optional_kept_value (by decide) hcontent,
      fun _ => optional_kept array_of_asArray (by decide) htoolCalls,
      fun _ => optional_kept string_of_asStr (by decide) htoolCallId,
      fun _ => optional_kept string_of_asStr (by decide) hname, fun _ h => absurd h List.not_mem_nil⟩
  | _ => cases h

def ChatCompletionRequest.named (order : IterOrder String Value) (r : ChatCompletionRequest) :
    List (String × Option Value) :=
  [("model", some (.string r.model)),
    ("messages", some (.array (r.messages.map (·.toValue order)))), ("stream", r.stream.map .bool),
    ("max_tokens", r.maxTokens.map fun n => .number (.posInt n.toUInt64)),
    ("temperature", r.temperature.map floatValue), ("tools", r.tools.map .array),
    ("tool_choice", r.toolChoice)]

theorem ChatCompletionRequest.toValue_eq (r : ChatCompletionRequest) :
    r.toValue order = namedFields order (r.named order) r.other := by
  simp only [ChatCompletionRequest.toValue, namedFields, named, List.flatMap_cons, List.flatMap_nil,
    List.append_nil, List.append_assoc]
  rfl

/-- What a request that was read has from its fields. -/
theorem ChatCompletionRequest.fromValue_spec {v : Value} {r : ChatCompletionRequest}
    (h : fromValue v = some r) :
    SameFields ChatCompletionRequest.optional ["messages", "temperature"] v (r.toValue order) ∧
    (∃ a, v.get "messages" = some (.array a) ∧
      (r.toValue order).get "messages" = some (.array (r.messages.map (·.toValue order))) ∧
      List.Forall₂ (fun v a => ChatMessage.fromValue v = some a) a r.messages) ∧
    ApertureRouter.optional Value.asF32 v "temperature" = some r.temperature ∧
    (r.toValue order).get "temperature" = r.temperature.map floatValue := by
  cases v with
  | object m =>
    simp only [ChatCompletionRequest.fromValue, Option.bind_eq_bind, Option.bind_eq_some_iff,
      Option.pure_def, Option.some.injEq] at h
    obtain ⟨model, hmodel, messages, hmessages, stream, hstream, maxTokens, hmaxTokens, temperature,
      htemperature, tools, htools, toolChoice, htoolChoice, rfl⟩ := h
    obtain ⟨w, hw, hread⟩ := Option.bind_eq_some_iff.mp hmessages
    obtain ⟨a, ha, hread⟩ := Option.bind_eq_some_iff.mp hread
    have hnodup : names.Nodup := by decide
    rw [ChatCompletionRequest.toValue_eq]
    refine ⟨sameFields_namedFields hnodup rfl ?_ ?_, ⟨a, ?_, ?_, forall₂_of_readAll hread⟩,
      htemperature, ?_⟩
    · exact fun key hkey => List.mem_of_mem_erase (List.mem_of_mem_erase hkey)
    · simp only [ChatCompletionRequest.named, List.forall_mem_cons]
      exact ⟨fun _ => required_kept string_of_asStr (by decide) hmodel,
        fun h => absurd (by decide) h,
        fun _ => optional_kept bool_of_asBool (by decide) hstream,
        fun _ => optional_kept number_of_asU32 (by decide) hmaxTokens,
        fun h => absurd (by decide) h,
        fun _ => optional_kept array_of_asArray (by decide) htools,
        fun _ => optional_kept_value (by decide) htoolChoice, fun _ h => absurd h List.not_mem_nil⟩
    · rw [hw, array_of_asArray w a ha]
    · exact get_named hnodup rfl (by simp [named])
    · exact get_named hnodup rfl (by simp [named])
  | _ => cases h

theorem ChatCompletionRequest.same_toValue_iff {alike : Number → Number → Prop} {v : Value}
    {r : ChatCompletionRequest} (h : fromValue v = some r) :
    Same alike v (r.toValue order) ↔ TemperatureKept alike v := by
  obtain ⟨hfields, ⟨a, ha, hwritten, hread⟩, htemperature, hget⟩ := @fromValue_spec order v r h
  have hmessages : List.Forall₂ SameMessage a (r.messages.map (·.toValue order)) :=
    (forall₂_write_iff (P := fun _ => True)
      (fun _ _ h => iff_of_true (sameMessage_toValue h) trivial) hread).mpr fun _ _ => trivial
  rw [← sameNumber_temperature_iff htemperature, ← hget]
  constructor
  · exact fun hsame => hsame.temperature
  · exact fun hnumber => ⟨hfields, hnumber, a, _, ha, hwritten, hmessages⟩

end Openai

/-! ## The two requests -/

/-- **What goes through the types.** The condition is on the JSON that was read. -/
theorem passthrough_faithful_iff (alike : Number → Number → Prop) (order : IterOrder String Value) :
    (∀ v r, Anthropic.MessageRequest.fromValue v = some r →
      (Anthropic.MessageRequest.Same alike v (r.toValue order) ↔
        Anthropic.PlainMessages v ∧ TemperatureKept alike v)) ∧
    (∀ v r, Openai.ChatCompletionRequest.fromValue v = some r →
      (Openai.ChatCompletionRequest.Same alike v (r.toValue order) ↔ TemperatureKept alike v)) :=
  ⟨fun _ _ h => Anthropic.MessageRequest.same_toValue_iff h,
    fun _ _ h => Openai.ChatCompletionRequest.same_toValue_iff h⟩

/-- A request with the name of its sender in the message, which both types read. -/
def namedSender : Value :=
  .object [("model", .string "glm-5.1"), ("messages", .array [
    .object [("role", .string "user"), ("content", .string "Hello"), ("name", .string "alice")]])]

/-- What `MessageRequest` has of it. -/
def namedSenderRead : Anthropic.MessageRequest where
  model := "glm-5.1"
  messages := [⟨"user", .text "Hello"⟩]

theorem namedSender_lost :
    Anthropic.MessageRequest.fromValue namedSender = some namedSenderRead ∧
    ¬ Anthropic.MessageRequest.Same (fun _ _ => True) namedSender (namedSenderRead.toValue .entries) := by
  refine ⟨by rfl, fun hsame => ?_⟩
  obtain ⟨a, w, ha, hw, hmessages⟩ := hsame.messages
  cases ha
  cases hw
  cases hmessages with
  | cons hmessage _ =>
    have hkept := hmessage.fields.get "name" (by decide)
    cases hkept

/-- What `ChatCompletionRequest` has of it. -/
def namedSenderChat : Openai.ChatCompletionRequest where
  model := "glm-5.1"
  messages := [{ role := "user", content := some (.string "Hello"), name := some "alice" }]

theorem passthrough_faithful_iff_namedSender :
    (Anthropic.MessageRequest.Same (fun _ _ => True) namedSender (namedSenderRead.toValue .entries) ↔
      Anthropic.PlainMessages namedSender ∧ TemperatureKept (fun _ _ => True) namedSender) ∧
    (Openai.ChatCompletionRequest.Same (fun _ _ => True) namedSender
        (namedSenderChat.toValue .entries) ↔ TemperatureKept (fun _ _ => True) namedSender) :=
  ⟨(passthrough_faithful_iff _ .entries).1 namedSender namedSenderRead rfl,
    (passthrough_faithful_iff _ .entries).2 namedSender namedSenderChat rfl⟩

end ApertureRouter
