import ApertureRouter.Types.Assistant

/-!
# When the converted response is a valid message

`ValidMessage` is the shape that a strict client asks of an Anthropic message. The order of the
blocks is always right (`responseContent_shape`); whether the fields of the tool calls and of the
usage have the right types depends on the response, which `openai_response_to_anthropic` copies
them from.

* `validMessage_iff`: the converted response is valid if and only if every element of `tool_calls`
  has a string id, a string name and no arguments that parse to anything but an object, and the
  token counts of the response are unsigned integers where they are there.
-/

namespace ApertureRouter

open Value (asStr asArray)

/-- `choices[0].message.tool_calls`. -/
def toolCallsOf (openai : Value) : List Value :=
  (firstChoice openai >>= (·.get "message") >>= (·.get "tool_calls") >>= asArray).getD []

structure IsThinkingBlock (block : Value) : Prop where
  type : block.get "type" = some (.string "thinking")
  thinking : ∃ s, block.get "thinking" = some (.string s)

structure IsTextBlock (block : Value) : Prop where
  type : block.get "type" = some (.string "text")
  text : ∃ s, block.get "text" = some (.string s)

/-- A valid `tool_use` block for an element of `tool_calls`: its own id, if it has one. -/
structure IsToolUseBlock (tc block : Value) : Prop where
  type : block.get "type" = some (.string "tool_use")
  id : ∃ s, block.get "id" = some (.string s)
  ownId : ∀ s, tc.get "id" = some (.string s) → block.get "id" = some (.string s)
  name : ∃ s, block.get "name" = some (.string s)
  input : ∃ m, block.get "input" = some (.object m)

/-- At most one thinking block, then at most one text block, then one block for each call. -/
structure ValidContent (calls content : List Value) : Prop where
  ne_nil : content ≠ []
  blocks : ∃ thinking text tools, content = thinking ++ text ++ tools ∧
    (thinking.length ≤ 1 ∧ ∀ block ∈ thinking, IsThinkingBlock block) ∧
    (text.length ≤ 1 ∧ ∀ block ∈ text, IsTextBlock block) ∧ List.Forall₂ IsToolUseBlock calls tools

/-- An integer that is not negative. -/
def IsCount (v : Value) : Prop := ∃ n, v = .number (.posInt n)

/-- A valid Anthropic message for a response. -/
structure ValidMessage (openai message : Value) : Prop where
  content : ∃ content, message.get "content" = some (.array content) ∧
    ValidContent (toolCallsOf openai) content
  usage : ∀ field ∈ ["input_tokens", "output_tokens"],
    ∃ v, (message.get "usage" >>= (·.get field)) = some v ∧ IsCount v

/-! ## What the response has to bring along -/

variable (serde : Serde)

/-- An element of `tool_calls` that becomes a valid block. -/
structure ConvertibleCall (tc : Value) : Prop where
  id : ∃ s, tc.get "id" = some (.string s)
  name : ∃ s, (tc.get "function" >>= (·.get "name")) = some (.string s)
  arguments : ∀ s v, (tc.get "function" >>= (·.get "arguments")) = some (.string s) →
    serde.fromStr s = some v → ∃ m, v = .object m

/-- The token counts of a response are counts, where they are there. -/
def CountsOrAbsent (openai : Value) : Prop :=
  ∀ field ∈ ["prompt_tokens", "completion_tokens"],
    ∀ v, (openai.get "usage" >>= (·.get field)) = some v → IsCount v

/-! ## The blocks -/

theorem isThinkingBlock_thinkingBlock (s : String) : IsThinkingBlock (thinkingBlock s) :=
  ⟨rfl, s, rfl⟩

theorem isTextBlock_textBlock (s : String) : IsTextBlock (textBlock s) := ⟨rfl, s, rfl⟩

theorem blockUnlessEmpty_valid {block : String → Value} {P : Value → Prop}
    (h : ∀ s, P (block s)) (text : Option String) :
    (blockUnlessEmpty block text).length ≤ 1 ∧ ∀ b ∈ blockUnlessEmpty block text, P b := by
  rw [blockUnlessEmpty_eq]
  split
  · simp
  · simp [h]

/-- The arguments that parse to something else than an object are all that spoils the input. -/
theorem toolInput_object_iff (arguments : Option String) :
    (∃ m, toolInput serde arguments = .object m) ↔
      ∀ s v, arguments = some s → serde.fromStr s = some v → ∃ m, v = .object m := by
  cases arguments with
  | none => simp [toolInput]
  | some s =>
    have hinput : toolInput serde (some s) = (serde.fromStr s).getD (.object []) := rfl
    rw [hinput]
    constructor
    · rintro ⟨m, hm⟩ t v ht hv
      cases ht
      rw [hv, Option.getD_some] at hm
      exact ⟨m, hm⟩
    · intro h
      cases hs : serde.fromStr s with
      | none => exact ⟨[], rfl⟩
      | some v => exact h s v rfl hs

theorem bind_asStr_eq_some {x : Option Value} {s : String} :
    (x >>= asStr) = some s ↔ x = some (.string s) := by
  cases x with
  | none => simp
  | some v => cases v <;> simp [asStr]

theorem getD_null_string {x : Option Value} {s : String} :
    x.getD .null = .string s ↔ x = some (.string s) := by
  cases x <;> simp

/-- **One call.** Its block is valid exactly if the call can be converted. -/
theorem toolCallBlock_valid_iff (tc : Value) :
    IsToolUseBlock tc (toolCallBlock serde tc) ↔ ConvertibleCall serde tc := by
  have hid : (toolCallBlock serde tc).get "id" = some ((tc.get "id").getD .null) := rfl
  have hname : (toolCallBlock serde tc).get "name" =
      some ((tc.get "function" >>= (·.get "name")).getD .null) := rfl
  have hinput : (toolCallBlock serde tc).get "input" =
      some (toolInput serde (tc.get "function" >>= (·.get "arguments") >>= asStr)) := rfl
  constructor
  · intro h
    refine ⟨?_, ?_, ?_⟩
    · obtain ⟨s, hs⟩ := h.id
      rw [hid, Option.some_inj, getD_null_string] at hs
      exact ⟨s, hs⟩
    · obtain ⟨s, hs⟩ := h.name
      rw [hname, Option.some_inj, getD_null_string] at hs
      exact ⟨s, hs⟩
    · obtain ⟨m, hm⟩ := h.input
      rw [hinput, Option.some_inj] at hm
      intro s v hs hv
      exact (toolInput_object_iff serde _).mp ⟨m, hm⟩ s v (bind_asStr_eq_some.mpr hs) hv
  · intro h
    refine ⟨rfl, ?_, ?_, ?_, ?_⟩
    · obtain ⟨s, hs⟩ := h.id
      exact ⟨s, by rw [hid, hs, Option.getD_some]⟩
    · intro s hs
      rw [hid, hs, Option.getD_some]
    · obtain ⟨s, hs⟩ := h.name
      exact ⟨s, by rw [hname, hs, Option.getD_some]⟩
    · obtain ⟨m, hm⟩ := (toolInput_object_iff serde _).mpr fun s v hs =>
        h.arguments s v (bind_asStr_eq_some.mp hs)
      exact ⟨m, by rw [hinput, hm]⟩

/-! ## The content -/

/-- The order of the blocks. -/
theorem responseContent_shape (openai : Value) : responseContent serde openai ≠ [] ∧
    ∃ thinking text, responseContent serde openai =
        thinking ++ text ++ (toolCallsOf openai).map (toolCallBlock serde) ∧
      (thinking.length ≤ 1 ∧ ∀ block ∈ thinking, IsThinkingBlock block) ∧
      (text.length ≤ 1 ∧ ∀ block ∈ text, IsTextBlock block) := by
  have hempty : [textBlock ""] ≠ [] ∧ ∃ thinking text,
      [textBlock ""] = thinking ++ text ++ ([] : List Value).map (toolCallBlock serde) ∧
      (thinking.length ≤ 1 ∧ ∀ block ∈ thinking, IsThinkingBlock block) ∧
      (text.length ≤ 1 ∧ ∀ block ∈ text, IsTextBlock block) := by
    refine ⟨List.cons_ne_nil _ _, [], [textBlock ""], rfl, by simp, Nat.le_refl 1, fun b hb => ?_⟩
    rw [List.mem_singleton.mp hb]
    exact isTextBlock_textBlock ""
  cases hmsg : firstChoice openai >>= (·.get "message") with
  | none =>
    have hcalls : toolCallsOf openai = [] := by
      rw [toolCallsOf, hmsg]
      rfl
    simp only [responseContent, hmsg, hcalls]
    exact hempty
  | some msg =>
    have hcalls : toolCallsOf openai = ((msg.get "tool_calls" >>= asArray).getD []) := by
      rw [toolCallsOf, hmsg]
      rfl
    simp only [responseContent, hmsg, hcalls]
    split
    · -- Nothing at all: no call, and one empty text.
      rename_i hnil
      rw [List.isEmpty_iff, messageContent, List.append_eq_nil_iff, List.map_eq_nil_iff] at hnil
      rw [hnil.2]
      exact hempty
    · rename_i hne
      rw [List.isEmpty_iff] at hne
      exact ⟨hne, _, _, rfl, blockUnlessEmpty_valid isThinkingBlock_thinkingBlock _,
        blockUnlessEmpty_valid isTextBlock_textBlock _⟩

theorem validContent_iff (openai : Value) :
    ValidContent (toolCallsOf openai) (responseContent serde openai) ↔
      ∀ tc ∈ toolCallsOf openai, ConvertibleCall serde tc := by
  have hforall : List.Forall₂ IsToolUseBlock (toolCallsOf openai)
      ((toolCallsOf openai).map (toolCallBlock serde)) ↔
      ∀ tc ∈ toolCallsOf openai, ConvertibleCall serde tc := by
    rw [List.forall₂_map_right_iff, List.forall₂_same]
    exact forall₂_congr fun tc _ => toolCallBlock_valid_iff serde tc
  obtain ⟨hne, thinking, text, hcontent, hthinking, htext⟩ := responseContent_shape serde openai
  rw [← hforall]
  constructor
  · rintro ⟨-, thinking', text', tools, hcontent', -, -, htools⟩
    -- The blocks of the calls are the last ones, as many as there are calls.
    have hlen : ((toolCallsOf openai).map (toolCallBlock serde)).length = tools.length := by
      rw [List.length_map, htools.length_eq]
    have := (List.append_inj' (hcontent.symm.trans hcontent') hlen).2
    rwa [this]
  · intro h
    exact ⟨hne, thinking, text, _, hcontent, hthinking, htext, h⟩

/-- **When the converted response is valid.** -/
theorem validMessage_iff (uuid : String) (openai : Value) :
    ValidMessage openai (openaiResponseToAnthropic serde uuid openai) ↔
      (∀ tc ∈ toolCallsOf openai, ConvertibleCall serde tc) ∧ CountsOrAbsent openai := by
  have hcontent : (openaiResponseToAnthropic serde uuid openai).get "content" =
      some (.array (responseContent serde openai)) := rfl
  have hcount : ∀ x : Option Value,
      IsCount (x.getD (.number (.posInt 0))) ↔ ∀ v, x = some v → IsCount v := by
    intro x
    cases x with
    | none => simp [IsCount]
    | some v => simp
  have hin : ((openaiResponseToAnthropic serde uuid openai).get "usage" >>= (·.get "input_tokens")) =
      some ((openai.get "usage" >>= (·.get "prompt_tokens")).getD (.number (.posInt 0))) := rfl
  have hout : ((openaiResponseToAnthropic serde uuid openai).get "usage" >>= (·.get "output_tokens")) =
      some ((openai.get "usage" >>= (·.get "completion_tokens")).getD (.number (.posInt 0))) := rfl
  rw [← validContent_iff]
  constructor
  · rintro ⟨⟨content, hget, hvalid⟩, husage⟩
    rw [hcontent, Option.some_inj] at hget
    cases hget
    refine ⟨hvalid, fun field hfield => ?_⟩
    simp only [List.mem_cons, List.not_mem_nil, or_false] at hfield
    rcases hfield with rfl | rfl
    · obtain ⟨v, hv, hc⟩ := husage "input_tokens" (by simp)
      rw [hin, Option.some_inj] at hv
      exact (hcount _).mp (hv ▸ hc)
    · obtain ⟨v, hv, hc⟩ := husage "output_tokens" (by simp)
      rw [hout, Option.some_inj] at hv
      exact (hcount _).mp (hv ▸ hc)
  · rintro ⟨hvalid, hcounts⟩
    refine ⟨⟨_, hcontent, hvalid⟩, fun field hfield => ?_⟩
    simp only [List.mem_cons, List.not_mem_nil, or_false] at hfield
    rcases hfield with rfl | rfl
    · exact ⟨_, hin, (hcount _).mpr (hcounts "prompt_tokens" (by simp))⟩
    · exact ⟨_, hout, (hcount _).mpr (hcounts "completion_tokens" (by simp))⟩

/-- A tool call whose id is `null`. -/
theorem validMessage_null_id : ¬∀ openai,
    ValidMessage openai (openaiResponseToAnthropic (tableSerde []) "0" openai) := by
  intro h
  let call : Value := .object [("id", .null),
    ("function", .object [("name", .string "f"), ("arguments", .string "\x7b\x7d")])]
  let openai : Value := .object [("choices", .array [.object [
    ("message", .object [("tool_calls", .array [call])])]])]
  have hcall := ((validMessage_iff (tableSerde []) "0" openai).mp (h openai)).1 call (by
    show call ∈ [call]
    exact List.mem_singleton_self call)
  obtain ⟨s, hs⟩ := hcall.id
  cases hs

end ApertureRouter
