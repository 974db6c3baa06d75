import ApertureRouter.Types.Request
import Mathlib.Data.List.Forall2

/-!
# Thinking in a request

OpenAI has no counterpart for thinking blocks. `thinking_not_sent`: the converted request is that of
the request without the thinking blocks of its assistant turns, and does not depend on what any
thinking block has beside its type.
-/

namespace ApertureRouter

open Value (asStr asArray)

/-! ## Requests without thinking, and with other thinking -/

/-- A turn without the thinking blocks of its content, if it is an assistant turn. -/
def deleteTurnThinking (turn : Value) : Value :=
  match turn.get "content" with
  | some (.array blocks) =>
    if turnRole turn = "assistant" then
      turn.set "content" (.array (blocks.filter fun b => !isThinking b))
    else turn
  | _ => turn

/-- A request without the thinking blocks of its assistant turns. -/
def deleteThinking (anthropic : Value) : Value :=
  match anthropic.get "messages" with
  | some (.array turns) => anthropic.set "messages" (.array (turns.map deleteTurnThinking))
  | _ => anthropic

/-- Two blocks that are the same, or thinking of the same type. -/
def SameBlock (b b' : Value) : Prop :=
  b = b' ∨ isThinking b = true ∧ b'.get "type" = b.get "type"

/-- Two contents that differ only in thinking blocks. -/
def SameContent (content content' : Option Value) : Prop :=
  content = content' ∨ ∃ blocks blocks', content = some (.array blocks) ∧
    content' = some (.array blocks') ∧ List.Forall₂ SameBlock blocks blocks'

/-- Two turns that differ only in thinking blocks of their contents. -/
structure SameTurn (turn turn' : Value) : Prop where
  content : SameContent (turn.get "content") (turn'.get "content")
  others : ∀ key ≠ "content", turn.get key = turn'.get key

/-- Two requests that differ only in thinking blocks of their turns. -/
structure SameRequest (anthropic anthropic' : Value) : Prop where
  turns : List.Forall₂ SameTurn (turnsOf anthropic) (turnsOf anthropic')
  others : ∀ key ≠ "messages", anthropic.get key = anthropic'.get key

/-! ## Thinking blocks -/

theorem isThinking_iff {b : Value} :
    isThinking b = true ↔ typeOf b = some "thinking" ∨ typeOf b = some "redacted_thinking" := by
  unfold isThinking
  cases typeOf b <;> simp

theorem isThinking_congr {b b' : Value} (h : b'.get "type" = b.get "type") :
    isThinking b' = isThinking b := by
  simp only [isThinking, typeOf, h]

theorem typeOf_stripCacheControl (b : Value) : typeOf (stripCacheControl b) = typeOf b := by
  cases b with
  | object m =>
    simp only [typeOf, stripCacheControl]
    rw [Value.get_remove (by decide)]
  | _ => rfl

theorem blockType_of_isThinking {b : Value} (h : isThinking b = true) :
    blockType b = "thinking" ∨ blockType b = "redacted_thinking" := by
  unfold blockType
  rcases isThinking_iff.mp h with ht | ht <;> simp [ht]

theorem blockText_of_isThinking {b : Value} (h : isThinking b = true) : blockText b = none := by
  unfold blockText
  rcases blockType_of_isThinking h with ht | ht <;> rw [ht] <;> rfl

theorem isToolUse_of_isThinking {b : Value} (h : isThinking b = true) : isToolUse b = false := by
  unfold isToolUse
  rcases blockType_of_isThinking h with ht | ht <;> rw [ht] <;> rfl

theorem isToolResult_of_isThinking {b : Value} (h : isThinking b = true) :
    isToolResult b = false := by
  unfold isToolResult
  rcases blockType_of_isThinking h with ht | ht <;> rw [ht] <;> rfl

variable (serde : Serde)

theorem openaiPart_of_isThinking {b : Value} (h : isThinking b = true) :
    openaiPart serde (stripCacheControl b) = none := by
  have hb : blockType (stripCacheControl b) = blockType b := by
    rw [blockType, typeOf_stripCacheControl, blockType]
  unfold openaiPart
  rcases blockType_of_isThinking h with ht | ht <;> simp [hb, ht]

theorem messagePart_of_isThinking {b : Value} (h : isThinking b = true) :
    messagePart serde (stripCacheControl b) = none := by
  have hb : blockType (stripCacheControl b) = blockType b := by
    rw [blockType, typeOf_stripCacheControl, blockType]
  unfold messagePart
  rw [openaiPart_of_isThinking serde h, hb]
  rcases blockType_of_isThinking h with ht | ht <;> rw [ht] <;> rfl

/-! ## Lists of blocks -/

/-- What skips thinking does not see it deleted. -/
theorem filterMap_filter_isThinking {β : Type} {f : Value → Option β}
    (hf : ∀ b, isThinking b = true → f b = none) (blocks : List Value) :
    (blocks.filter fun b => !isThinking b).filterMap f = blocks.filterMap f := by
  rw [List.filterMap_filter]
  refine List.filterMap_congr fun b _ => ?_
  cases hb : isThinking b with
  | false => rfl
  | true => exact (hf b hb).symm

/-- Nor what it says. -/
theorem filterMap_sameBlock {β : Type} {f : Value → Option β}
    (hf : ∀ b, isThinking b = true → f b = none) {blocks blocks' : List Value}
    (h : List.Forall₂ SameBlock blocks blocks') : blocks.filterMap f = blocks'.filterMap f := by
  induction h with
  | nil => rfl
  | cons hb _ ih =>
    rw [List.filterMap_cons, List.filterMap_cons, ih]
    rcases hb with rfl | ⟨ht, htype⟩
    · rfl
    · rw [hf _ ht, hf _ ((isThinking_congr htype).trans ht)]

/-- Blocks without thinking are the same. -/
theorem eq_of_sameBlock {blocks blocks' : List Value} (h : List.Forall₂ SameBlock blocks blocks')
    (hnone : ∀ b ∈ blocks, isThinking b = false) : blocks = blocks' := by
  induction h with
  | nil => rfl
  | cons hb _ ih =>
    rw [List.forall_mem_cons] at hnone
    have hne : isThinking _ ≠ true := Bool.eq_false_iff.mp hnone.1
    rw [hb.resolve_right fun ht => hne ht.1, ih hnone.2]

/-- An assistant turn is read without its thinking. -/
theorem convertAssistantBlocks_filter (blocks : List Value) :
    convertAssistantBlocks serde (blocks.filter fun b => !isThinking b) =
      convertAssistantBlocks serde blocks := by
  have htext := filterMap_filter_isThinking (fun _ => blockText_of_isThinking) blocks
  have hcalls : (blocks.filter fun b => !isThinking b).filter isToolUse =
      blocks.filter isToolUse := by
    rw [List.filter_filter]
    refine List.filter_congr fun b _ => ?_
    cases hb : isThinking b with
    | false => simp
    | true => simp [isToolUse_of_isThinking hb]
  have hany : (blocks.filter fun b => !isThinking b).any isToolUse = blocks.any isToolUse := by
    rw [List.any_filter]
    congr 1
    funext b
    cases hb : isThinking b with
    | false => simp
    | true => simp [isToolUse_of_isThinking hb]
  have hparts : assistantParts serde (blocks.filter fun b => !isThinking b) =
      assistantParts serde blocks := by
    rw [assistantParts_eq, assistantParts_eq, htext, hcalls, hany]
  simp only [convertAssistantBlocks, hparts, List.filter_filter, Bool.and_self]

/-- The text behind tool results is what the other blocks have parts for. -/
theorem followUp_eq (blocks : List Value) :
    followUp serde blocks =
      let parts := blocks.filterMap fun b => openaiPart serde (stripCacheControl b)
      if parts = [] then [] else [plainMessage "user" (.array parts)] := by
  unfold followUp convertBlocksToOpenaiContent
  cases blocks with
  | nil => rfl
  | cons b blocks =>
    simp only [List.isEmpty_cons, Bool.false_eq_true, if_false, Value.asArray_array,
      Option.map_some, Option.getD_some]
    cases (b :: blocks).filterMap fun b => openaiPart serde (stripCacheControl b) <;> simp

/-- The text of a message is what its blocks have parts for, and does not depend on thinking. -/
theorem messageContentToOpenai_sameBlock {blocks blocks' : List Value}
    (h : List.Forall₂ SameBlock blocks blocks') :
    messageContentToOpenai serde (some (.array blocks)) =
      messageContentToOpenai serde (some (.array blocks')) := by
  have hany : (blocks.any fun b => typeOf b != some "text") =
      blocks'.any fun b => typeOf b != some "text" := by
    induction h with
    | nil => rfl
    | @cons b b' _ _ hb _ ih =>
      rw [List.any_cons, List.any_cons, ih]
      rcases hb with rfl | ⟨-, htype⟩
      · rfl
      · simp only [typeOf, htype]
  by_cases htext : (blocks.any fun b => typeOf b != some "text") = true
  · simp only [messageContentToOpenai, ← hany, htext, if_true]
    rw [filterMap_sameBlock (fun _ => messagePart_of_isThinking serde) h]
  · rw [eq_of_sameBlock h]
    intro b hb
    have hb' : typeOf b = some "text" := by
      by_contra hne
      exact htext (List.any_eq_true.mpr ⟨b, hb, bne_iff_ne.mpr hne⟩)
    simp [isThinking, hb']

/-! ## Turns and requests -/

theorem convertAssistantBlocks_sameBlock {blocks blocks' : List Value}
    (h : List.Forall₂ SameBlock blocks blocks') :
    convertAssistantBlocks serde blocks = convertAssistantBlocks serde blocks' := by
  have hfilter : (blocks.filter fun b => !isThinking b) =
      blocks'.filter fun b => !isThinking b := by
    rw [← List.filterMap_eq_filter]
    refine filterMap_sameBlock (fun b hb => ?_) h
    simp [Option.guard, hb]
  rw [← convertAssistantBlocks_filter, hfilter, convertAssistantBlocks_filter]

/-- The messages of a turn do not depend on thinking. -/
theorem convertAnthropicMessageExpanded_sameContent (role : String)
    {content content' : Option Value} (h : SameContent content content') :
    convertAnthropicMessageExpanded serde role content =
      convertAnthropicMessageExpanded serde role content' := by
  rcases h with rfl | ⟨blocks, blocks', rfl, rfl, h⟩
  · rfl
  · by_cases hrole : role = "assistant"
    · simp only [convertAnthropicMessageExpanded, if_pos hrole]
      exact convertAssistantBlocks_sameBlock serde h
    · have hresults : (blocks.filter isToolResult) = blocks'.filter isToolResult := by
        rw [← List.filterMap_eq_filter]
        refine filterMap_sameBlock (fun b hb => ?_) h
        simp [Option.guard, isToolResult_of_isThinking hb]
      have hothers : followUp serde (blocks.filter fun b => !isToolResult b) =
          followUp serde (blocks'.filter fun b => !isToolResult b) := by
        have hparts : ∀ blocks : List Value,
            (blocks.filter fun b => !isToolResult b).filterMap
                (fun b => openaiPart serde (stripCacheControl b)) =
              blocks.filterMap fun b =>
                if !isToolResult b then openaiPart serde (stripCacheControl b) else none := fun _ =>
          List.filterMap_filter
        rw [followUp_eq, followUp_eq, hparts, hparts]
        have hskips : ∀ b, isThinking b = true →
            (if !isToolResult b then openaiPart serde (stripCacheControl b) else none) = none :=
          fun b hb => by rw [openaiPart_of_isThinking serde hb, ite_self]
        rw [filterMap_sameBlock hskips h]
      simp only [convertAnthropicMessageExpanded, if_neg hrole, hresults, hothers,
        convertAnthropicMessage, messageContentToOpenai_sameBlock serde h]

theorem convertTurn_sameTurn {turn turn' : Value} (h : SameTurn turn turn') :
    convertTurn serde turn = convertTurn serde turn' := by
  have hrole : turnRole turn = turnRole turn' := by
    simp only [turnRole, h.others "role" (by decide)]
  rw [convertTurn, convertTurn, hrole,
    convertAnthropicMessageExpanded_sameContent serde _ h.content]

/-- Deleting the thinking of an assistant turn does not change its messages. -/
theorem convertTurn_deleteTurnThinking (turn : Value) :
    convertTurn serde (deleteTurnThinking turn) = convertTurn serde turn := by
  unfold deleteTurnThinking
  split
  · rename_i blocks hcontent
    by_cases hrole : turnRole turn = "assistant"
    · rw [if_pos hrole]
      have hrole' : turnRole (turn.set "content" (.array (blocks.filter fun b => !isThinking b))) =
          "assistant" := by
        rw [turnRole, Value.get_set_of_get hcontent, if_neg (by decide)]
        exact hrole
      rw [convertTurn, convertTurn, hrole, hrole', hcontent, Value.get_set_of_get hcontent,
        if_pos rfl]
      simp only [convertAnthropicMessageExpanded, if_true]
      exact convertAssistantBlocks_filter serde blocks
    · rw [if_neg hrole]
  · rfl

/-- The converted request depends on the fields of the request and on the messages of its turns. -/
theorem anthropicRequestToOpenai_congr {anthropic anthropic' : Value}
    (hturns : (turnsOf anthropic).flatMap (convertTurn serde) =
      (turnsOf anthropic').flatMap (convertTurn serde))
    (hothers : ∀ key ≠ "messages", anthropic.get key = anthropic'.get key) :
    anthropicRequestToOpenai serde anthropic = anthropicRequestToOpenai serde anthropic' := by
  have hget : ∀ key, key ≠ "messages" → anthropic.get key = anthropic'.get key := hothers
  simp only [anthropicRequestToOpenai, requestMessages, systemMessages, requestTools, hturns,
    hget "model" (by decide), hget "system" (by decide), hget "max_tokens" (by decide),
    hget "temperature" (by decide), hget "stream" (by decide), hget "top_p" (by decide),
    hget "stop_sequences" (by decide), hget "tools" (by decide), hget "tool_choice" (by decide),
    hget "metadata" (by decide)]

/-- **Thinking is not sent.** Deleting the thinking of the assistant turns of a request leaves the
converted request as it is; and two requests that differ only in thinking are converted to the
same. -/
theorem thinking_not_sent :
    (∀ anthropic, anthropicRequestToOpenai serde (deleteThinking anthropic) =
        anthropicRequestToOpenai serde anthropic) ∧
      ∀ anthropic anthropic', SameRequest anthropic anthropic' →
        anthropicRequestToOpenai serde anthropic = anthropicRequestToOpenai serde anthropic' := by
  constructor
  · intro anthropic
    unfold deleteThinking
    split
    · rename_i turns hturns
      apply anthropicRequestToOpenai_congr
      · rw [turnsOf, turnsOf, Value.get_set_of_get hturns, if_pos rfl, hturns]
        show (turns.map deleteTurnThinking).flatMap _ = turns.flatMap _
        rw [List.flatMap_map]
        exact List.flatMap_congr fun turn _ => convertTurn_deleteTurnThinking serde turn
      · intro key hkey
        rw [Value.get_set_of_get hturns, if_neg hkey]
    · rfl
  · intro anthropic anthropic' h
    refine anthropicRequestToOpenai_congr serde ?_ h.others
    have hturns := h.turns
    generalize turnsOf anthropic = turns, turnsOf anthropic' = turns' at hturns
    induction hturns with
    | nil => rfl
    | cons hturn _ ih =>
      rw [List.flatMap_cons, List.flatMap_cons, convertTurn_sameTurn serde hturn, ih]

/-- A request with a turn of one block. -/
def oneBlockRequest (role : String) (block : Value) : Value :=
  .object [("messages", .array [.object [("role", .string role), ("content", .array [block])]])]

def thinkingOf (thinking : String) : Value :=
  .object [("type", .string "thinking"), ("thinking", .string thinking)]

theorem sameRequest_thinkingOf :
    SameRequest (oneBlockRequest "user" (thinkingOf "p"))
      (oneBlockRequest "user" (thinkingOf "q")) where
  turns := .cons ⟨.inr ⟨_, _, rfl, rfl, .cons (.inr ⟨rfl, rfl⟩) .nil⟩, fun key hkey => by
    simp [Value.lookup_field, hkey]⟩ .nil
  others key hkey := by
    simp [oneBlockRequest, Value.lookup_field, hkey]

theorem thinking_not_sent_thinkingOf :
    anthropicRequestToOpenai (tableSerde []) (oneBlockRequest "user" (thinkingOf "p")) =
      anthropicRequestToOpenai (tableSerde []) (oneBlockRequest "user" (thinkingOf "q")) :=
  (thinking_not_sent (tableSerde [])).2 _ _ sameRequest_thinkingOf

end ApertureRouter
