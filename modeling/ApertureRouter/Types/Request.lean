import ApertureRouter.Json

/-!
# Anthropic requests as OpenAI requests

`anthropicRequestToOpenai` and what it is made of (`src/types/conversion.rs`). One Anthropic turn
becomes a list of OpenAI messages: its tool calls move to a field of the assistant message, each of
its tool results becomes a message of its own, and thinking has no counterpart.
-/

namespace ApertureRouter

open Value (asStr asArray asBool)

/-! ## Content blocks -/

/-- `strip_cache_control`. -/
def stripCacheControl (value : Value) : Value := value.remove "cache_control"

/-- The `type` of a block, if it is a string. -/
def typeOf (b : Value) : Option String := b.get "type" >>= asStr

/-- The `type` of a block. A block without type is a text. -/
def blockType (b : Value) : String := (typeOf b).getD "text"

def textPart (text : Value) : Value := .object [("type", .string "text"), ("text", text)]

/-- The part for an image: its source as a data URL. -/
def imagePart (source : Value) : Value :=
  .object [("type", .string "image_url"), ("image_url", .object [("url", .string
    ("data:" ++ (source.get "media_type" >>= asStr).getD "image/png" ++ ";base64," ++
      (source.get "data" >>= asStr).getD ""))])]

/-- `extract_text_from_content`: the texts of the blocks, one to a line. -/
def extractTextFromContent : Value → String
  | .string s => s
  | .array blocks => "\n".intercalate <| blocks.filterMap fun b =>
      if typeOf b = some "text" then b.get "text" >>= asStr else none
  | _ => ""

variable (serde : Serde)

/-- The part for a block that is no tool result. -/
def openaiPart (b : Value) : Option Value :=
  match blockType b with
  | "text" => some (textPart ((b.get "text").getD .null))
  | "image" => some (imagePart ((b.get "source").getD .null))
  | "thinking" | "redacted_thinking" => none
  | _ => some (textPart (.string (serde.toString b)))

/-- `convert_blocks_to_openai_content`. -/
def convertBlocksToOpenaiContent (blocks : List Value) : Value :=
  .array (blocks.filterMap fun b => openaiPart serde (stripCacheControl b))

/-- One block of `convert_tool_result_content_to_openai`. -/
def toolResultPart (b : Value) : Value :=
  match blockType b with
  | "text" => textPart ((b.get "text").getD .null)
  | "image" => imagePart ((b.get "source").getD .null)
  | _ => textPart (.string (serde.toString b))

/-- `convert_tool_result_content_to_openai`: a single text is a string. -/
def convertToolResultContentToOpenai : Value → Value
  | .string s => .string s
  | .array blocks =>
    match blocks.map (toolResultPart serde) with
    | [part] =>
      match part.get "text" >>= asStr with
      | some text => .string text
      | none => .array [part]
    | parts => .array parts
  | _ => .string ""

/-! ## Messages -/

/-- A message without tool calls. -/
def plainMessage (role : String) (content : Value) : Value :=
  .object [("role", .string role), ("content", content)]

/-- One block of `convert_anthropic_message`. -/
def messagePart (b : Value) : Option Value :=
  if blockType b = "tool_result" then
    some (textPart (.string (extractTextFromContent ((b.get "content").getD .null))))
  else openaiPart serde b

/-- The content of `convert_anthropic_message`: a string if all blocks are texts. -/
def messageContentToOpenai : Option Value → Value
  | some (.array blocks) =>
    if blocks.any fun b => typeOf b != some "text" then
      .array (blocks.filterMap fun b => messagePart serde (stripCacheControl b))
    else .string ("\n".intercalate (blocks.filterMap fun b => b.get "text" >>= asStr))
  | some v => v
  | none => .string ""

/-- `convert_anthropic_message`. -/
def convertAnthropicMessage (role : String) (content : Option Value) : Value :=
  plainMessage role (messageContentToOpenai serde content)

/-- What the loop over the blocks of an assistant turn has found. -/
structure AssistantParts where
  hasToolUse : Bool := false
  textParts : List Value := []
  toolCalls : List Value := []
  tcIndex : Nat := 0

/-- The element of `tool_calls` for a `tool_use` block. -/
def toolCallOf (b : Value) (tcIndex : Nat) : Value :=
  .object [
    ("id", .string ((b.get "id" >>= asStr).getD "")),
    ("type", .string "function"),
    ("index", .number (.posInt (.ofNat tcIndex))),
    ("function", .object [
      ("name", .string ((b.get "name" >>= asStr).getD "")),
      ("arguments", .string (serde.toString ((b.get "input").getD (.object []))))])]

/-- One block of an assistant turn. -/
def AssistantParts.push (p : AssistantParts) (b : Value) : AssistantParts :=
  match blockType b with
  | "text" =>
    match b.get "text" >>= asStr with
    | some text => { p with textParts := p.textParts ++ [textPart (.string text)] }
    | none => p
  | "tool_use" =>
    { p with
      hasToolUse := true
      toolCalls := p.toolCalls ++ [toolCallOf serde b p.tcIndex]
      tcIndex := p.tcIndex + 1 }
  | _ => p

def assistantParts (blocks : List Value) : AssistantParts :=
  blocks.foldl (AssistantParts.push serde) {}

/-- An assistant message with tool calls. -/
def AssistantParts.message (p : AssistantParts) : Value :=
  let content := if p.textParts.isEmpty then .null
    else .string ("\n".intercalate (p.textParts.filterMap fun t => t.get "text" >>= asStr))
  .object [("role", .string "assistant"), ("content", content), ("tool_calls", .array p.toolCalls)]

/-- A thinking block. -/
def isThinking (b : Value) : Bool :=
  (typeOf b).getD "" == "thinking" || (typeOf b).getD "" == "redacted_thinking"

/-- The blocks of an assistant turn as messages. A turn with nothing but thinking has none. -/
def convertAssistantBlocks (blocks : List Value) : List Value :=
  let p := assistantParts serde blocks
  if p.hasToolUse then [p.message]
  else
    let filtered := blocks.filter fun b => !isThinking b
    if filtered.isEmpty then [] else [convertAnthropicMessage serde "assistant" (some (.array filtered))]

/-- The message for a `tool_result` block. -/
def toolMessage (b : Value) : Value :=
  let content := convertToolResultContentToOpenai serde ((b.get "content").getD .null)
  let content := if (b.get "is_error" >>= asBool).getD false then
      match content.asStr with
      | some s => .string ("Error: " ++ s)
      | none => content
    else content
  .object [
    ("role", .string "tool"),
    ("tool_call_id", .string ((b.get "tool_use_id" >>= asStr).getD "")),
    ("content", content)]

def isToolResult (b : Value) : Bool := blockType b == "tool_result"

/-- The message for the other blocks of a turn with tool results, if anything is left of them. -/
def followUp (nonToolBlocks : List Value) : List Value :=
  if nonToolBlocks.isEmpty then []
  else
    let content := convertBlocksToOpenaiContent serde nonToolBlocks
    if (content.asArray.map fun a => !a.isEmpty).getD true then [plainMessage "user" content] else []

/-- `convert_anthropic_message_expanded`: the messages for a turn. -/
def convertAnthropicMessageExpanded (role : String) (content : Option Value) : List Value :=
  if role = "assistant" then
    match content with
    | some (.array blocks) => convertAssistantBlocks serde blocks
    | _ => [convertAnthropicMessage serde role content]
  else
    match content with
    | some (.array blocks) =>
      let toolResults := (blocks.filter isToolResult).map (toolMessage serde)
      if toolResults.isEmpty then [convertAnthropicMessage serde role content]
      else toolResults ++ followUp serde (blocks.filter fun b => !isToolResult b)
    | _ => [convertAnthropicMessage serde role content]

/-! ## Requests -/

/-- `convert_anthropic_tool_to_openai`. -/
def convertAnthropicToolToOpenai (tool : Value) : Option Value :=
  (tool.get "name" >>= asStr).map fun name =>
    .object [
      ("type", .string "function"),
      ("function", .object [
        ("name", .string name),
        ("description", .string ((tool.get "description" >>= asStr).getD "")),
        ("parameters", (tool.get "input_schema").getD .null)])]

/-- `convert_anthropic_tool_choice`. -/
def convertAnthropicToolChoice (tc : Value) : Value :=
  match tc with
  | .string "any" => .string "required"
  | .object _ =>
    match (tc.get "type" >>= asStr).getD "" with
    | "auto" => .string "auto"
    | "any" => .string "required"
    | "none" => .string "none"
    | "tool" =>
      match tc.get "name" >>= asStr with
      | some name =>
        .object [("type", .string "function"), ("function", .object [("name", .string name)])]
      | none => tc
    | _ => tc
  | _ => tc

/-- The system message of a request. -/
def systemMessages (anthropic : Value) : List Value :=
  match anthropic.get "system" with
  | some system =>
    let systemText := extractTextFromContent system
    if systemText.isEmpty then [] else [plainMessage "system" (.string systemText)]
  | none => []

def turnRole (msg : Value) : String := (msg.get "role" >>= asStr).getD "user"

/-- The messages for a turn of a request. -/
def convertTurn (msg : Value) : List Value :=
  convertAnthropicMessageExpanded serde (turnRole msg) (msg.get "content")

/-- The turns of a request. -/
def turnsOf (anthropic : Value) : List Value := (anthropic.get "messages" >>= asArray).getD []

/-- The messages of the converted request. -/
def requestMessages (anthropic : Value) : List Value :=
  systemMessages anthropic ++ (turnsOf anthropic).flatMap (convertTurn serde)

/-- Sets a field to a value that may be missing. -/
def setSome (key : String) (v : Option Value) (openai : Value) : Value :=
  match v with
  | some v => openai.set key v
  | none => openai

/-- The tools of the converted request, if there are any. -/
def requestTools (anthropic : Value) : Option Value :=
  match anthropic.get "tools" >>= asArray with
  | some tools =>
    let openaiTools := tools.filterMap convertAnthropicToolToOpenai
    if openaiTools.isEmpty then none else some (.array openaiTools)
  | none => none

/-- The fields that the converted request must not have. -/
def removedFields : List String :=
  ["thinking", "top_k", "metadata", "system", "stop_sequences", "cache_control"]

/-- `anthropic_request_to_openai`. -/
def anthropicRequestToOpenai (anthropic : Value) : Value :=
  let openai := .object [
    ("model", (anthropic.get "model").getD .null),
    ("messages", .array (requestMessages serde anthropic))]
  let openai := setSome "max_completion_tokens" (anthropic.get "max_tokens") openai
  let openai := setSome "temperature" (anthropic.get "temperature") openai
  let openai := setSome "stream" (anthropic.get "stream") openai
  let openai := setSome "top_p" (anthropic.get "top_p") openai
  let openai := setSome "stop" (anthropic.get "stop_sequences") openai
  let openai := setSome "tools" (requestTools anthropic) openai
  let openai := setSome "tool_choice" ((anthropic.get "tool_choice").map convertAnthropicToolChoice) openai
  let openai := setSome "user"
    ((anthropic.get "metadata" >>= (·.get "user_id") >>= asStr).map .string) openai
  removedFields.foldl Value.remove openai

/-! ## The field `messages` -/

/-- The value is an object with this `messages`. -/
def HasMessages (messages v : Value) : Prop :=
  (∃ m, v = .object m) ∧ v.get "messages" = some messages

theorem HasMessages.setSome {messages openai : Value} (h : HasMessages messages openai) {key : String}
    (hk : "messages" ≠ key) (v : Option Value) :
    HasMessages messages (ApertureRouter.setSome key v openai) := by
  cases v with
  | none => exact h
  | some v =>
    obtain ⟨⟨m, rfl⟩, hm⟩ := h
    refine ⟨⟨_, rfl⟩, ?_⟩
    rw [ApertureRouter.setSome, Value.get_set, if_neg hk, hm]

theorem HasMessages.remove {messages openai : Value} (h : HasMessages messages openai) {key : String}
    (hk : "messages" ≠ key) : HasMessages messages (openai.remove key) := by
  obtain ⟨⟨m, rfl⟩, hm⟩ := h
  exact ⟨⟨_, rfl⟩, by rw [Value.get_remove hk, hm]⟩

theorem HasMessages.foldl_remove {messages openai : Value} (h : HasMessages messages openai)
    {keys : List String} (hk : ∀ key ∈ keys, "messages" ≠ key) :
    HasMessages messages (keys.foldl Value.remove openai) := by
  induction keys generalizing openai with
  | nil => exact h
  | cons key keys ih =>
    exact ih (h.remove (hk key (by simp))) fun k hm => hk k (by simp [hm])

/-- The `messages` of a converted request. -/
theorem get_messages (anthropic : Value) :
    (anthropicRequestToOpenai serde anthropic).get "messages" =
      some (.array (requestMessages serde anthropic)) := by
  have h : HasMessages (.array (requestMessages serde anthropic)) (.object [
      ("model", (anthropic.get "model").getD .null),
      ("messages", .array (requestMessages serde anthropic))]) := ⟨⟨_, rfl⟩, rfl⟩
  refine (HasMessages.foldl_remove ?_ (by decide)).2
  repeat refine HasMessages.setSome ?_ (by decide) _
  exact h

/-! ## The loop over an assistant turn -/

def isToolUse (b : Value) : Bool := blockType b == "tool_use"

/-- The text part for a block, if it is a text. -/
def blockText (b : Value) : Option Value :=
  if blockType b = "text" then (b.get "text" >>= asStr).map fun text => textPart (.string text)
  else none

theorem AssistantParts.push_eq (p : AssistantParts) (b : Value) :
    p.push serde b = {
      hasToolUse := p.hasToolUse || isToolUse b
      textParts := p.textParts ++ (blockText b).toList
      toolCalls := p.toolCalls ++ if isToolUse b then [toolCallOf serde b p.tcIndex] else []
      tcIndex := p.tcIndex + (isToolUse b).toNat } := by
  unfold push isToolUse blockText
  split
  · rename_i h
    cases b.get "text" >>= asStr <;> simp [h]
  · rename_i h
    simp [h]
  · rename_i htext htool
    have h₁ : blockType b ≠ "text" := fun e => htext e
    have h₂ : (blockType b == "tool_use") = false := beq_eq_false_iff_ne.mpr fun e => htool e
    simp [h₁, h₂]

/-- What the loop has found: the texts, and the tool calls with their positions. -/
theorem assistantParts_eq (blocks : List Value) :
    assistantParts serde blocks = {
      hasToolUse := blocks.any isToolUse
      textParts := blocks.filterMap blockText
      toolCalls := (blocks.filter isToolUse).zipIdx.map fun e => toolCallOf serde e.1 e.2
      tcIndex := (blocks.filter isToolUse).length } := by
  suffices h : ∀ p : AssistantParts, blocks.foldl (AssistantParts.push serde) p = {
      hasToolUse := p.hasToolUse || blocks.any isToolUse
      textParts := p.textParts ++ blocks.filterMap blockText
      toolCalls := p.toolCalls ++
        ((blocks.filter isToolUse).zipIdx p.tcIndex).map fun e => toolCallOf serde e.1 e.2
      tcIndex := p.tcIndex + (blocks.filter isToolUse).length } by
    rw [assistantParts, h {}]
    simp
  induction blocks with
  | nil => intro p; simp
  | cons b blocks ih =>
    intro p
    rw [List.foldl_cons, ih, AssistantParts.push_eq]
    cases hb : isToolUse b <;> cases ht : blockText b <;> simp [hb, ht, Nat.add_comm, Nat.add_left_comm]

end ApertureRouter
