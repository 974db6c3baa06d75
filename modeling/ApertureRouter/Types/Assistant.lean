import ApertureRouter.Types.Response
import Mathlib.Data.List.Forall2

/-!
# Assistant messages

What an OpenAI assistant message says: reasoning, a text and tool calls (`IsAssistantMessage`), and
the Anthropic content blocks that stand for it (`assistantBlocks`). `messageContent` makes these
blocks of any message that says so (`IsAssistantMessage.messageContent`).
-/

namespace ApertureRouter

open Value (asStr asArray)

/-- A call: its id and its name. -/
structure ToolCall where
  id : String
  name : String
  deriving DecidableEq, Repr

/-- A call with its arguments, as text. -/
structure Call extends ToolCall where
  arguments : String
  deriving DecidableEq, Repr

/-- An element of `tool_calls`. -/
structure IsToolCall (tc : Value) (call : Call) : Prop where
  id : tc.get "id" = some (.string call.id)
  name : (tc.get "function" >>= (·.get "name")) = some (.string call.name)
  arguments : (tc.get "function" >>= (·.get "arguments")) = some (.string call.arguments)

/-- A message with the reasoning, the text and the calls. A part that is not there is empty. -/
structure IsAssistantMessage (msg : Value) (reasoning text : String) (calls : List Call) : Prop where
  reasoning : (getReasoning msg).getD "" = reasoning
  text : (msg.get "content" >>= asStr).getD "" = text
  calls : List.Forall₂ IsToolCall ((msg.get "tool_calls" >>= asArray).getD []) calls

/-- The content block of a call. -/
def Call.block (serde : Serde) (call : Call) : Value :=
  toolUseBlock (.string call.id) (.string call.name) (toolInput serde (some call.arguments))

/-- The content blocks of an assistant message. -/
def assistantBlocks (serde : Serde) (reasoning text : String) (calls : List Call) : List Value :=
  (if reasoning = "" then [] else [thinkingBlock reasoning]) ++
    (if text = "" then [] else [textBlock text]) ++ calls.map (·.block serde)

theorem blockUnlessEmpty_eq (block : String → Value) (text : Option String) :
    blockUnlessEmpty block text = if text.getD "" = "" then [] else [block (text.getD "")] := by
  cases text with
  | none => rfl
  | some s =>
    by_cases hs : s = ""
    · simp [blockUnlessEmpty, hs]
    · simp [blockUnlessEmpty, hs]

theorem IsToolCall.toolCallBlock (serde : Serde) {tc : Value} {call : Call} (h : IsToolCall tc call) :
    ApertureRouter.toolCallBlock serde tc = call.block serde := by
  have harguments : (tc.get "function" >>= (·.get "arguments") >>= asStr) = some call.arguments := by
    rw [h.arguments]
    rfl
  rw [ApertureRouter.toolCallBlock, h.id, h.name, harguments]
  rfl

theorem map_toolCallBlock (serde : Serde) {tcs : List Value} {calls : List Call}
    (h : List.Forall₂ IsToolCall tcs calls) :
    tcs.map (toolCallBlock serde) = calls.map (·.block serde) := by
  induction h with
  | nil => rfl
  | cons htc _ ih => rw [List.map_cons, List.map_cons, htc.toolCallBlock, ih]

theorem IsAssistantMessage.messageContent (serde : Serde) {msg : Value} {reasoning text : String}
    {calls : List Call} (h : IsAssistantMessage msg reasoning text calls) :
    ApertureRouter.messageContent serde msg = assistantBlocks serde reasoning text calls := by
  rw [ApertureRouter.messageContent, blockUnlessEmpty_eq, blockUnlessEmpty_eq, h.reasoning, h.text,
    map_toolCallBlock serde h.calls, assistantBlocks]

theorem assistantBlocks_eq_nil {serde : Serde} {reasoning text : String} {calls : List Call} :
    assistantBlocks serde reasoning text calls = [] ↔ reasoning = "" ∧ text = "" ∧ calls = [] := by
  unfold assistantBlocks
  by_cases hr : reasoning = "" <;> by_cases ht : text = "" <;> simp [hr, ht]

/-- The response for a completion with the message. -/
theorem responseContent_eq (serde : Serde) {openai msg : Value} {reasoning text : String}
    {calls : List Call} (hmsg : (firstChoice openai >>= (·.get "message")) = some msg)
    (h : IsAssistantMessage msg reasoning text calls)
    (hne : reasoning ≠ "" ∨ text ≠ "" ∨ calls ≠ []) :
    responseContent serde openai = assistantBlocks serde reasoning text calls := by
  have hcons : assistantBlocks serde reasoning text calls ≠ [] := by
    rw [Ne, assistantBlocks_eq_nil]
    rintro ⟨hr, ht, hc⟩
    rcases hne with h | h | h
    exacts [h hr, h ht, h hc]
  simp only [responseContent, hmsg, h.messageContent serde]
  rw [if_neg (by simpa using hcons)]

/-! ## A message with all parts -/

def sampleCalls : List Call := [⟨⟨"a", "f"⟩, "\x7b\x7d"⟩]

/-- The message as a completion. -/
def sampleMessage : Value := .object [
  ("content", .string "t"),
  ("reasoning_content", .string "r"),
  ("tool_calls", .array [.object [("id", .string "a"),
    ("function", .object [("name", .string "f"), ("arguments", .string "\x7b\x7d")])]])]

def sampleCompletion : Value := .object [("choices", .array [.object [
  ("message", sampleMessage), ("finish_reason", .string "tool_calls")]])]

theorem sampleMessage_isAssistantMessage : IsAssistantMessage sampleMessage "r" "t" sampleCalls :=
  ⟨rfl, rfl, .cons ⟨rfl, rfl, rfl⟩ .nil⟩

end ApertureRouter
