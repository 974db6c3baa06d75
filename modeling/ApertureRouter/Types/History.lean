import ApertureRouter.Types.Request
import Mathlib.Data.List.Nodup

/-!
# Tool calls and their results in a converted history

An OpenAI backend wants the tool messages of an assistant message right behind it. Anthropic has the
results in the next user turn, among other blocks in any order. `Answers open turns` is the
well-formed Anthropic side: `turns` starts with the results of the calls `open`. `ToolAdjacent` is
the OpenAI side, for a list of messages; `Answered` is the same as a grammar, which the conversion
follows turn by turn (`convertTurns_answered`).
-/

namespace ApertureRouter

open Value (asStr asArray)

/-! ## Anthropic turns -/

/-- The blocks of a turn. -/
def turnBlocks (turn : Value) : List Value := (turn.get "content" >>= asArray).getD []

/-- The ids of the tool calls of a turn. -/
def toolUseIds (turn : Value) : List String :=
  ((turnBlocks turn).filter isToolUse).map fun b => (b.get "id" >>= asStr).getD ""

/-- The ids that the tool results of a turn name. -/
def toolResultIds (turn : Value) : List String :=
  ((turnBlocks turn).filter isToolResult).map fun b => (b.get "tool_use_id" >>= asStr).getD ""

/-- The next of `turns` has a result for each of the calls `open`, and no other; calls are in
assistant turns and have distinct ids, and each turn with calls has its results in the next turn. -/
def Answers : List String → List Value → Prop
  | openIds, [] => openIds = []
  | openIds, turn :: turns =>
    if turnRole turn = "assistant" then
      openIds = [] ∧ toolResultIds turn = [] ∧ (toolUseIds turn).Nodup ∧ Answers (toolUseIds turn) turns
    else
      turnRole turn = "user" ∧ (toolResultIds turn).Perm openIds ∧ Answers [] turns

instance : ∀ openIds turns, Decidable (Answers openIds turns)
  | _, [] => by unfold Answers; infer_instance
  | _, turn :: turns => by
    have := instDecidableAnswers (toolUseIds turn) turns
    have := instDecidableAnswers [] turns
    unfold Answers
    infer_instance

/-- A conversation in which each tool call has its result in the turn behind it. -/
def WellFormedConversation (turns : List Value) : Prop := Answers [] turns

instance (turns : List Value) : Decidable (WellFormedConversation turns) :=
  inferInstanceAs (Decidable (Answers [] turns))

/-! ## OpenAI messages -/

def messageRole (m : Value) : Option String := m.get "role" >>= asStr

/-- A message of role `tool`. -/
def IsToolMessage (m : Value) : Prop := messageRole m = some "tool"

/-- An assistant message with tool calls. -/
def HasToolCalls (m : Value) : Prop :=
  messageRole m = some "assistant" ∧ (m.get "tool_calls").isSome = true

/-- The ids of the tool calls of a message. -/
def toolCallIds (m : Value) : List (Option String) :=
  ((m.get "tool_calls" >>= asArray).getD []).map fun tc => tc.get "id" >>= asStr

/-- The id that a tool message answers. -/
def toolCallId? (m : Value) : Option String := m.get "tool_call_id" >>= asStr

/-- Each message with tool calls has behind it one tool message for each of its ids, and then a
message of another role or nothing; each tool message is in such a place. -/
structure ToolAdjacent (messages : List Value) : Prop where
  answered : ∀ pre m post, messages = pre ++ m :: post → HasToolCalls m →
    ∃ results rest, post = results ++ rest ∧ (∀ r ∈ results, IsToolMessage r) ∧
      (results.map toolCallId?).Perm (toolCallIds m) ∧ (toolCallIds m).Nodup ∧
      ∀ r, rest.head? = some r → ¬IsToolMessage r
  nowhereElse : ∀ pre r post, messages = pre ++ r :: post → IsToolMessage r →
    ∃ pre' m results, pre = pre' ++ m :: results ∧ HasToolCalls m ∧ ∀ x ∈ results, IsToolMessage x

/-! ## The grammar -/

/-- Messages without tool calls, and messages with tool calls and their results. -/
inductive Answered : List Value → Prop where
  | nil : Answered []
  | plain {m : Value} {rest : List Value} (hm : ¬IsToolMessage m) (hc : ¬HasToolCalls m)
      (hrest : Answered rest) : Answered (m :: rest)
  | calls {m : Value} {results rest : List Value} (hm : HasToolCalls m)
      (hresults : ∀ r ∈ results, IsToolMessage r)
      (hperm : (results.map toolCallId?).Perm (toolCallIds m)) (hnodup : (toolCallIds m).Nodup)
      (hrest : Answered rest) : Answered (m :: (results ++ rest))

theorem HasToolCalls.not_isToolMessage {m : Value} (h : HasToolCalls m) : ¬IsToolMessage m := by
  intro ht
  have := h.1.symm.trans ht
  revert this
  decide

theorem Answered.head? {messages : List Value} (h : Answered messages) {r : Value}
    (hr : messages.head? = some r) : ¬IsToolMessage r := by
  cases h with
  | nil => cases hr
  | plain hm => cases hr; exact hm
  | calls hm => cases hr; exact hm.not_isToolMessage

namespace ToolAdjacent

/-- A message that has nothing to do with tools in front. -/
theorem plain {m : Value} {rest : List Value} (h : ToolAdjacent rest) (hm : ¬IsToolMessage m)
    (hc : ¬HasToolCalls m) : ToolAdjacent (m :: rest) where
  answered pre m' post he hm' := by
    cases pre with
    | nil =>
      cases he
      exact absurd hm' hc
    | cons p pre =>
      cases he
      exact h.answered pre m' post rfl hm'
  nowhereElse pre r post he hr := by
    cases pre with
    | nil =>
      cases he
      exact absurd hr hm
    | cons p pre =>
      cases he
      obtain ⟨pre', m', results, rfl, hm', hres⟩ := h.nowhereElse pre r post rfl hr
      exact ⟨m :: pre', m', results, rfl, hm', hres⟩

/-- A place in `results ++ rest` is in the one or in the other. -/
private theorem split {results rest pre post : List Value} {x : Value}
    (h : results ++ rest = pre ++ x :: post) :
    (∃ pre', pre = results ++ pre' ∧ rest = pre' ++ x :: post) ∨
      ∃ post', results = pre ++ x :: post' := by
  rcases List.append_eq_append_iff.mp h with ⟨l, hl, hr⟩ | ⟨l, hl, hr⟩
  · exact .inl ⟨l, hl, hr⟩
  · cases l with
    | nil => exact .inl ⟨[], by simpa using hl.symm, hr.symm⟩
    | cons y l =>
      cases hr
      exact .inr ⟨l, hl⟩

/-- Tool calls and their results in front. -/
theorem calls {m : Value} {results rest : List Value} (h : ToolAdjacent rest) (hm : HasToolCalls m)
    (hresults : ∀ r ∈ results, IsToolMessage r)
    (hperm : (results.map toolCallId?).Perm (toolCallIds m)) (hnodup : (toolCallIds m).Nodup)
    (hhead : ∀ r, rest.head? = some r → ¬IsToolMessage r) :
    ToolAdjacent (m :: (results ++ rest)) where
  answered pre m' post he hm' := by
    cases pre with
    | nil =>
      cases he
      exact ⟨results, rest, rfl, hresults, hperm, hnodup, hhead⟩
    | cons p pre =>
      obtain ⟨-, he'⟩ := List.cons.inj he
      rcases split he' with ⟨pre', -, hr⟩ | ⟨post', rfl⟩
      · exact h.answered pre' m' post hr hm'
      · exact absurd (hresults m' (by simp)) hm'.not_isToolMessage
  nowhereElse pre r post he hr := by
    cases pre with
    | nil =>
      cases he
      exact absurd hr hm.not_isToolMessage
    | cons p pre =>
      obtain ⟨rfl, he'⟩ := List.cons.inj he
      rcases split he' with ⟨pre', rfl, hrest'⟩ | ⟨post', rfl⟩
      · obtain ⟨pre'', m', results', rfl, hm', hres⟩ := h.nowhereElse pre' r post hrest' hr
        exact ⟨m :: (results ++ pre''), m', results', by simp, hm', hres⟩
      · exact ⟨[], m, pre, rfl, hm, fun x hx => hresults x (by simp [hx])⟩

end ToolAdjacent

theorem Answered.toolAdjacent {messages : List Value} (h : Answered messages) :
    ToolAdjacent messages := by
  induction h with
  | nil => exact ⟨fun pre m post he => by simp at he, fun pre r post he => by simp at he⟩
  | plain hm hc _ ih => exact ih.plain hm hc
  | calls hm hresults hperm hnodup hrest ih =>
    exact ih.calls hm hresults hperm hnodup fun r hr => hrest.head? hr

/-! ## The messages of a turn -/

section

variable (serde : Serde)

theorem plainMessage_role (role : String) (content : Value) :
    messageRole (plainMessage role content) = some role := rfl

theorem plainMessage_noToolCalls (role : String) (content : Value) :
    ¬HasToolCalls (plainMessage role content) := by
  rintro ⟨-, h⟩
  simp [plainMessage] at h

/-- A message without tool calls before an answered history. -/
theorem Answered.plainMessage {role : String} (hr : role ≠ "tool") (content : Value)
    {rest : List Value} (h : Answered rest) :
    Answered (ApertureRouter.plainMessage role content :: rest) := by
  refine .plain (fun ht => hr ?_) (plainMessage_noToolCalls role content) h
  rw [IsToolMessage, plainMessage_role] at ht
  exact Option.some.inj ht

theorem toolMessage_isToolMessage (b : Value) : IsToolMessage (toolMessage serde b) := rfl

theorem toolCallIds_message (blocks : List Value) :
    toolCallIds (assistantParts serde blocks).message =
      ((blocks.filter isToolUse).map fun b => (b.get "id" >>= asStr).getD "").map some := by
  rw [assistantParts_eq]
  show (((blocks.filter isToolUse).zipIdx.map fun e => toolCallOf serde e.1 e.2).map _) = _
  have hid : ∀ l : List Value, (l.zipIdx.map fun e => toolCallOf serde e.1 e.2).map
      (fun tc => tc.get "id" >>= asStr) =
        (l.zipIdx.map Prod.fst).map fun b => some ((b.get "id" >>= asStr).getD "") := by
    intro l
    rw [List.map_map, List.map_map]
    rfl
  rw [hid, List.zipIdx_map_fst, List.map_map]
  rfl

/-- A turn whose content is no array of blocks. -/
theorem convertAnthropicMessageExpanded_noBlocks {content : Option Value}
    (h : ∀ blocks, content ≠ some (.array blocks)) (role : String) :
    convertAnthropicMessageExpanded serde role content =
      [convertAnthropicMessage serde role content] := by
  unfold convertAnthropicMessageExpanded
  split <;> split <;> first | rfl | exact absurd rfl (h _)

theorem turnBlocks_noBlocks {turn : Value} (h : ∀ blocks, turn.get "content" ≠ some (.array blocks)) :
    turnBlocks turn = [] := by
  unfold turnBlocks
  cases hc : turn.get "content" with
  | none => rfl
  | some v =>
    cases v with
    | array blocks => exact absurd hc (h blocks)
    | _ => rfl

theorem turnBlocks_of_array {turn : Value} {blocks : List Value}
    (h : turn.get "content" = some (.array blocks)) : turnBlocks turn = blocks := by
  rw [turnBlocks, h]
  rfl

/-- An assistant turn: one message with its tool calls, or nothing about tools. -/
theorem convertTurn_assistant {turn : Value} (hr : turnRole turn = "assistant") :
    (∃ m, convertTurn serde turn = [m] ∧ HasToolCalls m ∧
      toolCallIds m = (toolUseIds turn).map some) ∨
    toolUseIds turn = [] ∧ ∀ rest, Answered rest → Answered (convertTurn serde turn ++ rest) := by
  have hplain : ∀ content rest, Answered rest →
      Answered ([convertAnthropicMessage serde "assistant" content] ++ rest) :=
    fun content rest h => h.plainMessage (by decide) _
  rw [convertTurn, hr, toolUseIds]
  by_cases hblocks : ∃ blocks, turn.get "content" = some (.array blocks)
  · obtain ⟨blocks, hc⟩ := hblocks
    rw [turnBlocks_of_array hc, hc]
    show (∃ m, convertAssistantBlocks serde blocks = [m] ∧ _) ∨ _ ∧ ∀ rest, _ →
      Answered (convertAssistantBlocks serde blocks ++ rest)
    unfold convertAssistantBlocks
    cases hany : blocks.any isToolUse with
    | true =>
      simp only
      rw [if_pos (by rw [assistantParts_eq]; exact hany)]
      exact .inl ⟨_, rfl, ⟨rfl, rfl⟩, toolCallIds_message serde blocks⟩
    | false =>
      have hnil : blocks.filter isToolUse = [] := by
        rw [List.filter_eq_nil_iff]
        simpa using hany
      simp only
      rw [if_neg (by rw [assistantParts_eq]; simp [hany])]
      refine .inr ⟨by rw [hnil]; rfl, fun rest h => ?_⟩
      split
      · exact h
      · exact hplain _ _ h
  · have hno := fun blocks h => hblocks ⟨blocks, h⟩
    rw [turnBlocks_noBlocks hno, convertAnthropicMessageExpanded_noBlocks serde hno]
    exact .inr ⟨rfl, hplain _⟩

/-- A user turn: the messages for its results, then nothing about tools. -/
theorem convertTurn_user {turn : Value} (hr : turnRole turn = "user") :
    ∃ results tail, convertTurn serde turn = results ++ tail ∧ (∀ r ∈ results, IsToolMessage r) ∧
      results.map toolCallId? = (toolResultIds turn).map some ∧
      ∀ rest, Answered rest → Answered (tail ++ rest) := by
  have hplain : ∀ content rest, Answered rest →
      Answered ([convertAnthropicMessage serde "user" content] ++ rest) :=
    fun content rest h => h.plainMessage (by decide) _
  rw [convertTurn, hr, toolResultIds]
  by_cases hblocks : ∃ blocks, turn.get "content" = some (.array blocks)
  · obtain ⟨blocks, hc⟩ := hblocks
    rw [turnBlocks_of_array hc, hc, convertAnthropicMessageExpanded, if_neg (by decide)]
    simp only
    cases hres : blocks.filter isToolResult with
    | nil => exact ⟨[], [_], if_pos (by simp), by simp, rfl, hplain _⟩
    | cons b bs =>
      refine ⟨(b :: bs).map (toolMessage serde),
        followUp serde (blocks.filter fun b => !isToolResult b),
        if_neg (by simp), fun r hm => ?_, ?_, fun rest h => ?_⟩
      · obtain ⟨x, -, rfl⟩ := List.mem_map.mp hm
        exact toolMessage_isToolMessage serde x
      · rw [List.map_map, List.map_map]
        rfl
      · unfold followUp
        split
        · exact h
        · simp only
          split
          · exact h.plainMessage (by decide) _
          · exact h
  · have hno := fun blocks h => hblocks ⟨blocks, h⟩
    rw [turnBlocks_noBlocks hno, convertAnthropicMessageExpanded_noBlocks serde hno]
    exact ⟨[], [_], rfl, by simp, rfl, hplain _⟩

/-- The conversion follows the grammar, turn by turn. -/
theorem convertTurns_answered {openIds : List String} {turns : List Value}
    (h : Answers openIds turns) :
    ∃ results rest, turns.flatMap (convertTurn serde) = results ++ rest ∧
      (∀ r ∈ results, IsToolMessage r) ∧ (results.map toolCallId?).Perm (openIds.map some) ∧
      Answered rest := by
  induction turns generalizing openIds with
  | nil =>
    obtain rfl : openIds = [] := h
    exact ⟨[], [], rfl, by simp, .refl _, .nil⟩
  | cons turn turns ih =>
    rw [Answers] at h
    rw [List.flatMap_cons]
    split at h
    · rename_i hr
      obtain ⟨rfl, -, hnodup, hturns⟩ := h
      obtain ⟨results, rest, he, hres, hperm, hrest⟩ := ih hturns
      refine ⟨[], _, rfl, by simp, .refl _, ?_⟩
      rw [he]
      rcases convertTurn_assistant serde hr with ⟨m, hm, hcalls, hids⟩ | ⟨hids, hplain⟩
      · rw [hm]
        show Answered (m :: (results ++ rest))
        refine .calls hcalls hres (hids ▸ hperm) ?_ hrest
        rw [hids]
        exact hnodup.map fun _ _ e => Option.some.inj e
      · rw [hids, List.map_nil, List.perm_nil, List.map_eq_nil_iff] at hperm
        rw [hperm]
        exact hplain rest hrest
    · obtain ⟨hr, hids, hturns⟩ := h
      obtain ⟨results, rest, he, -, hperm, hrest⟩ := ih hturns
      obtain ⟨results', tail, hturn, hres', hids', htail⟩ := convertTurn_user serde hr
      rw [List.map_nil, List.perm_nil, List.map_eq_nil_iff] at hperm
      subst hperm
      refine ⟨results', tail ++ rest, ?_, hres', ?_, htail rest hrest⟩
      · rw [hturn, he, List.nil_append, List.append_assoc]
      · rw [hids']
        exact hids.map some

/-- **Tool calls and their results are adjacent** in the messages of a converted request. -/
theorem requestMessages_toolAdjacent (anthropic : Value)
    (h : WellFormedConversation (turnsOf anthropic)) :
    ∃ messages, (anthropicRequestToOpenai serde anthropic).get "messages" = some (.array messages) ∧
      ToolAdjacent messages := by
  refine ⟨_, get_messages serde anthropic, Answered.toolAdjacent ?_⟩
  obtain ⟨results, rest, he, -, hperm, hrest⟩ := convertTurns_answered serde h
  rw [List.map_nil, List.perm_nil, List.map_eq_nil_iff] at hperm
  subst hperm
  rw [List.nil_append] at he
  rw [requestMessages, he, systemMessages]
  split
  · simp only
    split
    · exact hrest
    · exact hrest.plainMessage (by decide) _
  · exact hrest

end

/-- Two calls, and their results in the other order behind a text. -/
def twoResults : Value := .object [("messages", .array [
  .object [("role", .string "user"), ("content", .string "hi")],
  .object [("role", .string "assistant"), ("content", .array [
    .object [("type", .string "text"), ("text", .string "calling")],
    .object [("type", .string "tool_use"), ("id", .string "a"), ("name", .string "f"),
      ("input", .object [])],
    .object [("type", .string "tool_use"), ("id", .string "b"), ("name", .string "g"),
      ("input", .object [])]])],
  .object [("role", .string "user"), ("content", .array [
    .object [("type", .string "text"), ("text", .string "here")],
    .object [("type", .string "tool_result"), ("tool_use_id", .string "b"), ("content", .string "2")],
    .object [("type", .string "tool_result"), ("tool_use_id", .string "a"),
      ("content", .string "1")]])]])]

theorem requestMessages_toolAdjacent_twoResults :
    ∃ messages, (anthropicRequestToOpenai (tableSerde []) twoResults).get "messages" =
        some (.array messages) ∧ ToolAdjacent messages :=
  requestMessages_toolAdjacent (tableSerde []) twoResults (by decide +kernel)

end ApertureRouter
