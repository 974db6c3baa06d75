import ApertureRouter.Types.Deserialize
import ApertureRouter.Types.History
import ApertureRouter.Types.Thinking

/-!
# What the blocks of a request say

A block says a text, an image, a tool call, a tool result, or its own JSON text (`HasPayload`). What
becomes of it depends on the turn that it is in (`Kept`). Any JSON value can stand in any place: a block
without a type is read as a text, and what is not of the kind that its place wants is mostly dropped.

* `HasPayload.in_part`, `HasPayload.in_toolMessage`, `HasPayload.in_calls`: where the payloads of the blocks
  go.
* `survives_convertTurn`: what is kept occurs in the messages for its turn.
-/

namespace ApertureRouter

open Value (asStr asArray)

/-! ## Payloads -/

/-- One thing that a block says: a text, the text of a block without a type, an id, a name, a field of
the source of an image, a value of some type as JSON, or a value that has none. -/
inductive Payload where
  | text (v : Value)
  | untyped (v : Value)
  | id (v : Value)
  | name (v : Value)
  | image (field : String) (v : Value)
  | json (v : Value)
  | raw (v : Value)

/-- What says it in a message: the value itself, or its JSON as a text. -/
def Payload.value (serde : Serde) : Payload → Value
  | text v | untyped v | id v | name v | image _ v => v
  | json v | raw v => .string (serde.toString v)

/-- What a block or a part of a tool result shows: its text, or of an image the fields of its source
that do not say what kind of source it is. A source that is no object has no fields, and a block without
a type may have no text. -/
inductive Shows : Value → Payload → Prop
  | text {b v : Value} : typeOf b = some "text" → nonNull (b.get "text") = some v → Shows b (.text v)
  | untyped {b v : Value} : typeOf b = none → nonNull (b.get "text") = some v → Shows b (.untyped v)
  | raw {b : Value} : typeOf b = none → nonNull (b.get "text") = none → b ≠ .null → Shows b (.raw b)
  | image {b source v : Value} {field : String} : typeOf b = some "image" →
      b.get "source" = some source → nonNull (source.get field) = some v → field ≠ "type" →
      field ≠ "media_type" → Shows b (.image field v)
  | source {b v : Value} : typeOf b = some "image" → nonNull (b.get "source") = some v →
      (∀ m, v ≠ .object m) → Shows b (.raw v)

/-- What a block of a turn says: thinking says nothing here. -/
inductive HasPayload : Value → Payload → Prop
  | shown {b : Value} {p : Payload} : Shows b p → HasPayload b p
  | toolUseId {b v : Value} : typeOf b = some "tool_use" → nonNull (b.get "id") = some v →
      HasPayload b (.id v)
  | toolUseName {b v : Value} : typeOf b = some "tool_use" → nonNull (b.get "name") = some v →
      HasPayload b (.name v)
  | toolUseInput {b v : Value} : typeOf b = some "tool_use" → b.get "input" = some v →
      HasPayload b (.json v)
  | toolResultId {b v : Value} : typeOf b = some "tool_result" →
      nonNull (b.get "tool_use_id") = some v → HasPayload b (.id v)
  | toolResultText {b : Value} {s : String} : typeOf b = some "tool_result" →
      b.get "content" = some (.string s) → HasPayload b (.text (.string s))
  | toolResultShown {b c : Value} {cs : List Value} {p : Payload} : typeOf b = some "tool_result" →
      b.get "content" = some (.array cs) → c ∈ cs → Shows c p → HasPayload b p
  | toolResultOther {b c : Value} {cs : List Value} {t : String} : typeOf b = some "tool_result" →
      b.get "content" = some (.array cs) → c ∈ cs → typeOf c = some t → t ∉ ["text", "image"] →
      HasPayload b (.json c)
  | toolResultRaw {b v : Value} : typeOf b = some "tool_result" → nonNull (b.get "content") = some v →
      (∀ s, v ≠ .string s) → (∀ cs, v ≠ .array cs) → HasPayload b (.raw v)
  | other {b : Value} {t : String} : typeOf b = some t →
      t ∉ ["text", "image", "tool_use", "tool_result", "thinking", "redacted_thinking"] →
      HasPayload b (.json (stripCacheControl b))

/-- The value is in it: it is part of it, or the text of one of its strings. -/
inductive Mentions (w : Value) : Value → Prop
  | self : Mentions w w
  | string {s t : String} : w = .string s → s.toList <:+: t.toList → Mentions w (.string t)
  | element {v : Value} {a : List Value} : v ∈ a → Mentions w v → Mentions w (.array a)
  | field {key : String} {v : Value} {m : List (String × Value)} : (key, v) ∈ m → Mentions w v →
      Mentions w (.object m)

/-- It is in a message. -/
def Occurs (w : Value) (messages : List Value) : Prop := ∃ m ∈ messages, Mentions w m

/-- The payload of the block occurs in the messages, or the JSON text of the block. -/
def Survives (serde : Serde) (b : Value) (p : Payload) (messages : List Value) : Prop :=
  Occurs (p.value serde) messages ∨ Occurs (.string (serde.toString (stripCacheControl b))) messages

/-- It is read as a string, or as JSON. -/
def Payload.AsString : Payload → Prop
  | text v | untyped v | id v | name v => ∃ s, v = .string s
  | json _ => True
  | image _ _ | raw _ => False

/-- It goes into a part. A text is copied as it is, but between texts only (so not `mixed`) as a string. Of
an image the inline data are read, and they and the ids are read as strings. -/
def Payload.Copied (mixed : Prop) : Payload → Prop
  | text v => mixed ∨ ∃ s, v = .string s
  | untyped _ | json _ => True
  | id v | name v => ∃ s, v = .string s
  | image field v => field = "data" ∧ ∃ s, v = .string s
  | raw _ => False

theorem Payload.Copied.mono {mixed mixed' : Prop} {p : Payload} (h : p.Copied mixed)
    (hm : mixed → mixed') : p.Copied mixed' := by
  cases p with
  | text v => exact h.imp_left hm
  | _ => exact h

/-- The blocks of a turn that can be seen: not an assistant's thinking. -/
def visibleBlocks (role : String) (blocks : List Value) : List Value :=
  if role = "assistant" then blocks.filter fun b => !isThinking b else blocks

/-- Not all of them are texts. -/
def Mixed (role : String) (blocks : List Value) : Prop :=
  ((visibleBlocks role blocks).any fun b => typeOf b != some "text") = true

/-- In an assistant turn with tool calls, the texts and the tool calls are kept. In one without, all
that a part has room for, but of a tool result the texts only. In another turn all that a part has room
for, and a tool call as its JSON. -/
def Kept (turn b : Value) (p : Payload) : Prop :=
  if turnRole turn = "assistant" ∧ (turnBlocks turn).any isToolUse = true then
    (typeOf b = none ∨ typeOf b = some "text" ∨ typeOf b = some "tool_use") ∧ p.AsString
  else if turnRole turn = "assistant" ∧ typeOf b = some "tool_result" then
    ∃ s, p = .text (.string s)
  else if typeOf b = some "tool_use" then True
  else p.Copied (Mixed (turnRole turn) (turnBlocks turn))

/-! ## Mentions -/

theorem Mentions.get {w : Value} (key : String) {v u : Value} (h : v.get key = some u)
    (hu : Mentions w u) : Mentions w v := by
  cases v with
  | object m =>
    obtain ⟨pre, post, rfl, -⟩ := List.lookup_eq_some_iff.mp h
    exact @Mentions.field w key u _ (by simp) hu
  | _ => cases h

/-- A line of a text is in it. -/
theorem infix_intercalate {α : Type} {sep l : List α} {ls : List (List α)} (h : l ∈ ls) :
    l <:+: List.intercalate sep ls := by
  induction ls with
  | nil => cases h
  | cons k ls ih =>
    cases ls with
    | nil =>
      obtain rfl : l = k := by simpa using h
      simp [List.intercalate]
    | cons j ls =>
      rw [List.intercalate_cons_cons]
      rcases List.mem_cons.mp h with rfl | h
      · exact ⟨[], sep ++ List.intercalate sep (j :: ls), by simp⟩
      · exact (ih h).trans ⟨k ++ sep, [], by simp⟩

theorem mentions_intercalate {s : String} {texts : List String} (h : s ∈ texts) :
    Mentions (.string s) (.string ("\n".intercalate texts)) := by
  refine .string rfl ?_
  rw [String.toList_intercalate]
  exact infix_intercalate (List.mem_map_of_mem h)

theorem mentions_append {w : Value} {t : String} (h : Mentions w (.string t)) (u : String) :
    Mentions w (.string (u ++ t)) := by
  have hsuffix : t.toList <:+: (u ++ t).toList := by
    rw [String.toList_append]
    exact (List.suffix_append ..).isInfix
  cases h with
  | self => exact .string rfl hsuffix
  | string hw h => exact .string hw (h.trans hsuffix)

theorem Occurs.mono {w : Value} {l l' : List Value} (h : Occurs w l) (hsub : l ⊆ l') :
    Occurs w l' := by
  obtain ⟨m, hm, hw⟩ := h
  exact ⟨m, hsub hm, hw⟩

/-! ## Types -/

theorem get_stripCacheControl {key : String} (hkey : key ≠ "cache_control") (b : Value) :
    (stripCacheControl b).get key = b.get key :=
  Value.get_remove_of_ne hkey b

theorem blockType_of_typeOf {b : Value} {t : String} (h : typeOf b = some t) : blockType b = t := by
  rw [blockType, h]
  rfl

theorem blockType_of_none {b : Value} (h : typeOf b = none) : blockType b = "text" := by
  rw [blockType, h]
  rfl

theorem blockType_congr {b b' : Value} (h : typeOf b' = typeOf b) : blockType b' = blockType b := by
  rw [blockType, h, blockType]

theorem blockType_stripCacheControl (b : Value) : blockType (stripCacheControl b) = blockType b :=
  blockType_congr (typeOf_stripCacheControl b)

/-- Only a block without a type is taken for one of another type. -/
theorem blockType_eq_iff {b : Value} {t : String} (ht : t ≠ "text") :
    blockType b = t ↔ typeOf b = some t := by
  unfold blockType
  cases typeOf b with
  | none => exact iff_of_false (Ne.symm ht) nofun
  | some u => exact ⟨congrArg some, Option.some.inj⟩

theorem isToolUse_iff {b : Value} : isToolUse b = true ↔ typeOf b = some "tool_use" :=
  beq_iff_eq.trans (blockType_eq_iff (by decide))

theorem isToolResult_iff {b : Value} : isToolResult b = true ↔ typeOf b = some "tool_result" :=
  beq_iff_eq.trans (blockType_eq_iff (by decide))

/-- What says something is not thinking. -/
theorem HasPayload.not_isThinking {b : Value} {p : Payload} (h : HasPayload b p) :
    isThinking b = false := by
  have hne : typeOf b ≠ some "thinking" ∧ typeOf b ≠ some "redacted_thinking" := by
    cases h with
    | shown hshows =>
      cases hshows with
      | text ht _ | untyped ht _ | raw ht _ _ | image ht _ _ _ _ | source ht _ _ =>
        rw [ht]
        decide
    | toolUseId ht _ | toolUseName ht _ | toolUseInput ht _ | toolResultId ht _ | toolResultText ht _
    | toolResultShown ht _ _ _ | toolResultOther ht _ _ _ _ | toolResultRaw ht _ _ _ =>
      rw [ht]
      decide
    | other ht hne =>
      rw [ht]
      exact ⟨fun e => hne (by simp [Option.some.inj e]), fun e => hne (by simp [Option.some.inj e])⟩
  exact Bool.eq_false_iff.mpr fun e => (isThinking_iff.mp e).elim hne.1 hne.2

/-! ## Parts -/

/-- The part says `w` with its text, or it has no text and says `w`. -/
def PartMentions (w part : Value) : Prop :=
  (∃ t, part = textPart (.string t) ∧ Mentions w (.string t)) ∨
    (part.get "text" >>= asStr) = none ∧ Mentions w part

theorem PartMentions.mentions {w part : Value} (h : PartMentions w part) : Mentions w part := by
  rcases h with ⟨t, rfl, h⟩ | ⟨-, h⟩
  · exact .get "text" rfl h
  · exact h

theorem partMentions_text (v : Value) : PartMentions v (textPart v) := by
  cases v with
  | string s => exact .inl ⟨s, rfl, .self⟩
  | _ => exact .inr ⟨rfl, .get "text" rfl .self⟩

theorem partMentions_image {source : Value} {s : String}
    (h : source.get "data" = some (.string s)) : PartMentions (.string s) (imagePart source) := by
  refine .inr ⟨rfl, .get "image_url" rfl (.get "url" rfl ?_)⟩
  apply mentions_append
  rw [h]
  exact .self

variable (serde : Serde)

/-- What a part of a tool result shows. -/
theorem Shows.in_toolResultPart {b : Value} {p : Payload} (h : Shows b p) (hp : p.Copied True) :
    PartMentions (p.value serde) (toolResultPart serde b) := by
  cases h with
  | text ht htext =>
    simp only [toolResultPart, blockType_of_typeOf ht, eq_of_nonNull htext, Option.getD_some]
    exact partMentions_text _
  | untyped ht htext =>
    simp only [toolResultPart, blockType_of_none ht, eq_of_nonNull htext, Option.getD_some]
    exact partMentions_text _
  | raw | source => exact hp.elim
  | image ht hsource hfield _ _ =>
    obtain ⟨rfl, s, rfl⟩ := hp
    simp only [toolResultPart, blockType_of_typeOf ht, hsource, Option.getD_some]
    exact partMentions_image (eq_of_nonNull hfield)

theorem Shows.in_openaiPart {b : Value} {p : Payload} (h : Shows b p) (hp : p.Copied True) :
    ∃ part, openaiPart serde (stripCacheControl b) = some part ∧
      Mentions (p.value serde) part := by
  have htext := get_stripCacheControl (by decide : "text" ≠ "cache_control") b
  have hsource := get_stripCacheControl (by decide : "source" ≠ "cache_control") b
  unfold openaiPart
  rw [blockType_stripCacheControl]
  cases h with
  | text ht hv =>
    simp only [blockType_of_typeOf ht, htext, eq_of_nonNull hv, Option.getD_some]
    exact ⟨_, rfl, (partMentions_text _).mentions⟩
  | untyped ht hv =>
    simp only [blockType_of_none ht, htext, eq_of_nonNull hv, Option.getD_some]
    exact ⟨_, rfl, (partMentions_text _).mentions⟩
  | raw | source => exact hp.elim
  | image ht hs hfield _ _ =>
    obtain ⟨rfl, s, rfl⟩ := hp
    simp only [blockType_of_typeOf ht, hsource, hs, Option.getD_some]
    exact ⟨_, rfl, (partMentions_image (eq_of_nonNull hfield)).mentions⟩

theorem openaiPart_other {b : Value} {t : String} (ht : typeOf b = some t)
    (hne : t ∉ ["text", "image", "thinking", "redacted_thinking"]) :
    openaiPart serde (stripCacheControl b) =
      some (textPart (.string (serde.toString (stripCacheControl b)))) := by
  have htype : blockType (stripCacheControl b) = t :=
    (blockType_stripCacheControl b).trans (blockType_of_typeOf ht)
  simp only [List.mem_cons, List.not_mem_nil, or_false, not_or] at hne
  simp [openaiPart, htype, hne]

/-- What a block says that is no tool result is in its part. -/
theorem HasPayload.in_part {b : Value} {p : Payload} (h : HasPayload b p)
    (hp : typeOf b ≠ some "tool_use" → p.Copied True) (hr : typeOf b ≠ some "tool_result") :
    ∃ part, openaiPart serde (stripCacheControl b) = some part ∧ (Mentions (p.value serde) part ∨
      Mentions (.string (serde.toString (stripCacheControl b))) part) := by
  have hown : ∀ t, typeOf b = some t → t ∉ ["text", "image", "thinking", "redacted_thinking"] →
      ∃ part, openaiPart serde (stripCacheControl b) = some part ∧ (Mentions (p.value serde) part ∨
        Mentions (.string (serde.toString (stripCacheControl b))) part) :=
    fun t ht hne => ⟨_, openaiPart_other serde ht hne, .inr (partMentions_text _).mentions⟩
  cases h with
  | shown hshows =>
    have huse : typeOf b ≠ some "tool_use" := by
      cases hshows with
      | text ht _ | untyped ht _ | raw ht _ _ | image ht _ _ _ _ | source ht _ _ =>
        rw [ht]
        decide
    obtain ⟨part, hpart, hw⟩ := hshows.in_openaiPart serde (hp huse)
    exact ⟨part, hpart, .inl hw⟩
  | toolUseId ht _ | toolUseName ht _ | toolUseInput ht _ => exact hown _ ht (by decide)
  | toolResultId ht _ | toolResultText ht _ | toolResultShown ht _ _ _
  | toolResultOther ht _ _ _ _ | toolResultRaw ht _ _ _ => exact absurd ht hr
  | other ht hne => exact hown _ ht (by simp_all)

/-- The part of a tool result has its texts. -/
theorem messagePart_toolResult {b : Value} (ht : typeOf b = some "tool_result") :
    messagePart serde (stripCacheControl b) =
      some (textPart (.string (extractTextFromContent ((b.get "content").getD .null)))) := by
  rw [messagePart, blockType_stripCacheControl, blockType_of_typeOf ht, if_pos rfl,
    get_stripCacheControl (by decide : "content" ≠ "cache_control")]

/-- The part of an image has the data of its source. -/
theorem messagePart_image {b : Value} (ht : typeOf b = some "image") :
    messagePart serde (stripCacheControl b) = some (imagePart ((b.get "source").getD .null)) := by
  have hne : "image" ≠ "tool_result" := by decide
  simp only [messagePart, openaiPart, blockType_stripCacheControl, blockType_of_typeOf ht, if_neg hne,
    get_stripCacheControl (by decide : "source" ≠ "cache_control")]

/-! ## Messages -/

/-- A message says what its content does. -/
theorem mentions_plainMessage {w content : Value} (h : Mentions w content) (role : String) :
    Mentions w (plainMessage role content) :=
  .get "content" rfl h

/-- What a block says that is no tool result is in the content of the message for its turn. -/
theorem HasPayload.in_message {b : Value} {p : Payload} (h : HasPayload b p) {blocks : List Value}
    (hp : typeOf b ≠ some "tool_use" →
      p.Copied ((blocks.any fun c => typeOf c != some "text") = true))
    (hr : typeOf b ≠ some "tool_result") (hb : b ∈ blocks) (role : String) :
    Survives serde b p [convertAnthropicMessage serde role (some (.array blocks))] := by
  by_cases hany : (blocks.any fun c => typeOf c != some "text") = true
  · obtain ⟨part, hpart, hw⟩ := h.in_part serde (fun huse => (hp huse).mono fun _ => trivial) hr
    have hmem : part ∈ blocks.filterMap fun c => messagePart serde (stripCacheControl c) := by
      refine List.mem_filterMap.mpr ⟨b, hb, ?_⟩
      have htype : blockType (stripCacheControl b) ≠ "tool_result" := by
        rw [blockType_stripCacheControl]
        exact mt (blockType_eq_iff (by decide)).mp hr
      rw [messagePart, if_neg htype, hpart]
    have hcontent : ∀ w, Mentions w part →
        Occurs w [convertAnthropicMessage serde role (some (.array blocks))] := fun w hw => by
      refine ⟨_, List.mem_singleton_self _, mentions_plainMessage ?_ role⟩
      simp only [messageContentToOpenai, hany, if_true]
      exact .element hmem hw
    exact hw.imp (hcontent _) (hcontent _)
  · have hall : ∀ c ∈ blocks, typeOf c = some "text" := fun c hc => by
      by_contra hne
      exact hany (List.any_eq_true.mpr ⟨c, hc, bne_iff_ne.mpr hne⟩)
    have ht := hall b hb
    have hcopied := (hp (by rw [ht]; decide)).mono hany
    refine .inl ⟨_, List.mem_singleton_self _, mentions_plainMessage ?_ role⟩
    simp only [messageContentToOpenai, hany, Bool.false_eq_true, if_false]
    cases h with
    | shown hshows =>
      cases hshows with
      | text _ htext =>
        obtain ⟨s, rfl⟩ := hcopied.resolve_left id
        exact mentions_intercalate (List.mem_filterMap.mpr ⟨b, hb, asStr_of_nonNull htext⟩)
      | untyped ht' _ | raw ht' _ _ | image ht' _ _ _ _ | source ht' _ _ =>
        rw [ht] at ht'
        exact absurd ht' (by decide)
    | toolUseId ht' _ | toolUseName ht' _ | toolUseInput ht' _ | toolResultId ht' _
    | toolResultText ht' _ | toolResultShown ht' _ _ _ | toolResultOther ht' _ _ _ _
    | toolResultRaw ht' _ _ _ =>
      rw [ht] at ht'
      exact absurd ht' (by decide)
    | other ht' hne =>
      rw [ht] at ht'
      cases ht'
      exact absurd hne (by decide)

/-- The texts of a tool result are in the message for an assistant turn. -/
theorem HasPayload.texts_in_message {b : Value} {s : String} (h : HasPayload b (.text (.string s)))
    (ht : typeOf b = some "tool_result") {blocks : List Value} (hb : b ∈ blocks) (role : String) :
    Occurs (.string s) [convertAnthropicMessage serde role (some (.array blocks))] := by
  have hany : (blocks.any fun c => typeOf c != some "text") = true :=
    List.any_eq_true.mpr ⟨b, hb, by rw [ht]; decide⟩
  have hextract : Mentions (.string s)
      (.string (extractTextFromContent ((b.get "content").getD .null))) := by
    cases h with
    | shown hshows => cases hshows with | text ht' _ => rw [ht] at ht'; exact absurd ht' (by decide)
    | toolResultText _ hcontent =>
      rw [hcontent]
      exact .self
    | toolResultShown _ hcontent hc hshows =>
      rw [hcontent]
      cases hshows with
      | text htc htext =>
        apply mentions_intercalate
        exact List.mem_filterMap.mpr ⟨_, hc, by rw [if_pos htc, asStr_of_nonNull htext]⟩
  refine ⟨_, List.mem_singleton_self _, mentions_plainMessage ?_ role⟩
  simp only [messageContentToOpenai, hany, if_true]
  exact .element (List.mem_filterMap.mpr ⟨b, hb, messagePart_toolResult serde ht⟩)
    (.get "text" rfl hextract)

/-- A list of parts says what each of them does, also when a single text becomes a string. -/
theorem mentions_toolResult {w c : Value} {cs : List Value} (hc : c ∈ cs)
    (hw : PartMentions w (toolResultPart serde c)) :
    Mentions w (convertToolResultContentToOpenai serde (.array cs)) := by
  have hmem : toolResultPart serde c ∈ cs.map (toolResultPart serde) := List.mem_map_of_mem hc
  rw [convertToolResultContentToOpenai]
  split
  · rename_i part hparts
    rw [hparts, List.mem_singleton] at hmem
    rw [hmem] at hw
    rcases hw with ⟨t, rfl, ht⟩ | ⟨hnone, hpart⟩
    · exact ht
    · rw [hnone]
      exact .element (List.mem_singleton_self _) hpart
  · exact .element hmem hw.mentions

/-- An error has a word in front of its text. -/
theorem mentions_toolMessage {w b : Value}
    (h : Mentions w (convertToolResultContentToOpenai serde ((b.get "content").getD .null))) :
    Mentions w (toolMessage serde b) := by
  refine .get "content" rfl ?_
  split
  · split
    · rename_i t htext
      generalize convertToolResultContentToOpenai serde ((b.get "content").getD .null) = content
        at h htext
      cases content with
      | string u =>
        cases htext
        exact mentions_append h "Error: "
      | _ => cases htext
    · exact h
  · exact h

/-- What a tool result says is in its message. -/
theorem HasPayload.in_toolMessage {b : Value} {p : Payload} (h : HasPayload b p)
    (hp : p.Copied True) (ht : typeOf b = some "tool_result") :
    Mentions (p.value serde) (toolMessage serde b) := by
  cases h with
  | shown hshows =>
    cases hshows with
    | text ht' _ | untyped ht' _ | raw ht' _ _ | image ht' _ _ _ _ | source ht' _ _ =>
      rw [ht] at ht'
      exact absurd ht' (by decide)
  | toolUseId ht' _ | toolUseName ht' _ | toolUseInput ht' _ =>
    rw [ht] at ht'
    exact absurd ht' (by decide)
  | toolResultId _ hid =>
    obtain ⟨s, rfl⟩ := hp
    refine .get "tool_call_id" rfl ?_
    rw [asStr_of_nonNull hid]
    exact .self
  | toolResultText _ hcontent =>
    apply mentions_toolMessage
    rw [hcontent]
    exact .self
  | toolResultShown _ hcontent hc hshows =>
    apply mentions_toolMessage
    rw [hcontent]
    exact mentions_toolResult serde hc (hshows.in_toolResultPart serde hp)
  | @toolResultOther c _ t _ hcontent hc htc hne =>
    apply mentions_toolMessage
    rw [hcontent]
    refine mentions_toolResult serde hc ?_
    simp only [List.mem_cons, List.not_mem_nil, or_false, not_or] at hne
    have hpart : toolResultPart serde c = textPart (.string (serde.toString c)) := by
      simp [toolResultPart, blockType_of_typeOf htc, hne]
    rw [hpart]
    exact partMentions_text _
  | toolResultRaw => exact hp.elim
  | other ht' hne =>
    rw [ht] at ht'
    cases ht'
    exact absurd hne (by decide)

/-- A text that is a string is in the message for an assistant turn with tool calls. -/
theorem text_in_calls {b : Value} {s : String} (ht : blockType b = "text")
    (htext : b.get "text" >>= asStr = some s) {blocks : List Value} (hb : b ∈ blocks) :
    Mentions (.string s) (assistantParts serde blocks).message := by
  have hmem : textPart (.string s) ∈ (assistantParts serde blocks).textParts := by
    rw [assistantParts_eq]
    refine List.mem_filterMap.mpr ⟨b, hb, ?_⟩
    rw [blockText, if_pos ht, htext]
    rfl
  refine .get "content" rfl ?_
  rw [if_neg fun he => List.ne_nil_of_mem hmem (List.isEmpty_iff.mp he)]
  exact mentions_intercalate (List.mem_filterMap.mpr ⟨_, hmem, rfl⟩)

/-- And what each tool call says. -/
theorem call_in_calls {b w : Value} (ht : typeOf b = some "tool_use")
    (hw : ∀ i, Mentions w (toolCallOf serde b i)) {blocks : List Value} (hb : b ∈ blocks) :
    Mentions w (assistantParts serde blocks).message := by
  have hmem : b ∈ ((blocks.filter isToolUse).zipIdx.map Prod.fst) := by
    rw [List.zipIdx_map_fst]
    exact List.mem_filter.mpr ⟨hb, isToolUse_iff.mpr ht⟩
  obtain ⟨⟨c, i⟩, hi, rfl⟩ := List.mem_map.mp hmem
  rw [assistantParts_eq]
  exact .get "tool_calls" rfl (.element (List.mem_map_of_mem hi) (hw i))

/-- Texts and tool calls are in the message for an assistant turn with tool calls. -/
theorem HasPayload.in_calls {b : Value} {p : Payload} (h : HasPayload b p)
    (ht : typeOf b = none ∨ typeOf b = some "text" ∨ typeOf b = some "tool_use") (hp : p.AsString)
    {blocks : List Value} (hb : b ∈ blocks) :
    Mentions (p.value serde) (assistantParts serde blocks).message := by
  cases h with
  | shown hshows =>
    cases hshows with
    | text ht' htext =>
      obtain ⟨s, rfl⟩ := hp
      exact text_in_calls serde (blockType_of_typeOf ht') (asStr_of_nonNull htext) hb
    | untyped ht' htext =>
      obtain ⟨s, rfl⟩ := hp
      exact text_in_calls serde (blockType_of_none ht') (asStr_of_nonNull htext) hb
    | raw | source | image => exact hp.elim
  | toolUseId ht' hid =>
    obtain ⟨s, rfl⟩ := hp
    refine call_in_calls serde ht' (fun i => .get "id" rfl ?_) hb
    rw [asStr_of_nonNull hid]
    exact .self
  | toolUseName ht' hname =>
    obtain ⟨s, rfl⟩ := hp
    refine call_in_calls serde ht' (fun i => .get "function" rfl (.get "name" rfl ?_)) hb
    rw [asStr_of_nonNull hname]
    exact .self
  | toolUseInput ht' hinput =>
    refine call_in_calls serde ht' (fun i => .get "function" rfl (.get "arguments" rfl ?_)) hb
    rw [hinput]
    exact .self
  | toolResultId ht' _ | toolResultText ht' _ | toolResultShown ht' _ _ _
  | toolResultOther ht' _ _ _ _ | toolResultRaw ht' _ _ _ => simp [ht'] at ht
  | other ht' hne =>
    rw [ht'] at ht
    rcases ht with ht | ht | ht <;> cases ht <;> exact absurd hne (by decide)

/-! ## What is kept -/

/-- What is kept of a block occurs in the messages for its turn. -/
theorem survives_convertTurn {turn b : Value} {p : Payload} {blocks : List Value}
    (hcontent : turn.get "content" = some (.array blocks)) (hb : b ∈ blocks)
    (h : HasPayload b p) (hk : Kept turn b p) : Survives serde b p (convertTurn serde turn) := by
  have hblocks : turnBlocks turn = blocks := by
    rw [turnBlocks, hcontent]
    rfl
  unfold Kept Mixed visibleBlocks at hk
  rw [hblocks] at hk
  rw [convertTurn, hcontent]
  by_cases hrole : turnRole turn = "assistant"
  · simp only [convertAnthropicMessageExpanded, if_pos hrole, convertAssistantBlocks]
    rw [if_pos hrole] at hk
    by_cases huse : blocks.any isToolUse = true
    · rw [if_pos ⟨hrole, huse⟩] at hk
      have hparts : (assistantParts serde blocks).hasToolUse = true := by
        rw [assistantParts_eq, huse]
      rw [if_pos hparts]
      exact .inl ⟨_, List.mem_singleton_self _, h.in_calls serde hk.1 hk.2 hb⟩
    · rw [if_neg fun e => huse e.2] at hk
      have hparts : ¬(assistantParts serde blocks).hasToolUse = true := by
        rw [assistantParts_eq]
        exact huse
      rw [if_neg hparts]
      have hmem : b ∈ blocks.filter fun b => !isThinking b :=
        List.mem_filter.mpr ⟨hb, by rw [h.not_isThinking]; rfl⟩
      rw [if_neg fun he => List.ne_nil_of_mem hmem (List.isEmpty_iff.mp he)]
      by_cases ht : typeOf b = some "tool_result"
      · rw [if_pos ⟨hrole, ht⟩] at hk
        obtain ⟨s, rfl⟩ := hk
        exact .inl (h.texts_in_message serde ht hmem "assistant")
      · rw [if_neg fun e => ht e.2] at hk
        refine h.in_message serde (fun huse => ?_) ht hmem "assistant"
        rwa [if_neg huse] at hk
  · rw [if_neg fun e => hrole e.1, if_neg fun e => hrole e.1, if_neg hrole] at hk
    simp only [convertAnthropicMessageExpanded, if_neg hrole]
    by_cases ht : typeOf b = some "tool_result"
    · rw [if_neg (by rw [ht]; decide)] at hk
      have hmem : toolMessage serde b ∈ (blocks.filter isToolResult).map (toolMessage serde) :=
        List.mem_map_of_mem (List.mem_filter.mpr ⟨hb, isToolResult_iff.mpr ht⟩)
      rw [if_neg fun he => List.ne_nil_of_mem hmem (List.isEmpty_iff.mp he)]
      exact .inl ⟨_, List.mem_append_left _ hmem,
        h.in_toolMessage serde (hk.mono fun _ => trivial) ht⟩
    · have hcopied : typeOf b ≠ some "tool_use" →
          p.Copied ((blocks.any fun c => typeOf c != some "text") = true) := fun huse => by
        rwa [if_neg huse] at hk
      split
      · exact h.in_message serde hcopied ht hb _
      · obtain ⟨part, hpart, hw⟩ :=
          h.in_part serde (fun huse => (hcopied huse).mono fun _ => trivial) ht
        have hmem : part ∈ (blocks.filter fun b => !isToolResult b).filterMap
            (fun b => openaiPart serde (stripCacheControl b)) := by
          refine List.mem_filterMap.mpr ⟨b, List.mem_filter.mpr ⟨hb, ?_⟩, hpart⟩
          rw [Bool.eq_false_iff.mpr (mt isToolResult_iff.mp ht)]
          rfl
        rw [followUp_eq]
        simp only [if_neg (List.ne_nil_of_mem hmem)]
        have hoccurs : ∀ w, Mentions w part → Occurs w
            ((blocks.filter isToolResult).map (toolMessage serde) ++
              [plainMessage "user" (.array ((blocks.filter fun b => !isToolResult b).filterMap
                fun b => openaiPart serde (stripCacheControl b)))]) := fun w hw =>
          ⟨_, List.mem_append_right _ (List.mem_singleton_self _),
            mentions_plainMessage (.element hmem hw) "user"⟩
        exact hw.imp (hoccurs _) (hoccurs _)

end ApertureRouter
