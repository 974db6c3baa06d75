import ApertureRouter.Json

/-!
# OpenAI responses as Anthropic messages

`openaiResponseToAnthropic` and the readers that it shares with the stream converter
(`src/types/conversion.rs`).
-/

namespace ApertureRouter

open Value (asStr asArray)

/-- The reasoning of a message or a delta. A `reasoning_content` that is there but is not a string
hides `reasoning`. -/
def getReasoning (obj : Value) : Option String :=
  (obj.get "reasoning_content").or (obj.get "reasoning") >>= asStr

/-- The first element of `choices`. -/
def firstChoice (openai : Value) : Option Value :=
  openai.get "choices" >>= asArray >>= List.head?

/-- The `stop_reason` for a `finish_reason`. -/
def stopReason (reason : String) : String :=
  match reason with
  | "stop" => "end_turn"
  | "length" => "max_tokens"
  | "tool_calls" => "tool_use"
  | _ => "end_turn"

def textBlock (text : String) : Value :=
  .object [("type", .string "text"), ("text", .string text)]

def thinkingBlock (thinking : String) : Value :=
  .object [("type", .string "thinking"), ("thinking", .string thinking)]

def toolUseBlock (id name input : Value) : Value :=
  .object [("type", .string "tool_use"), ("id", id), ("name", name), ("input", input)]

variable (serde : Serde)

/-- The `input` of a call whose `arguments` are `arguments`: an empty object if they are no
JSON. -/
def toolInput (arguments : Option String) : Value :=
  (arguments >>= serde.fromStr).getD (.object [])

/-- The `tool_use` block of one element of `tool_calls`. -/
def toolCallBlock (tc : Value) : Value :=
  toolUseBlock ((tc.get "id").getD .null) ((tc.get "function" >>= (·.get "name")).getD .null)
    (toolInput serde (tc.get "function" >>= (·.get "arguments") >>= asStr))

/-- The block for a text that is there and not empty. -/
def blockUnlessEmpty (block : String → Value) (text : Option String) : List Value :=
  match text with
  | some s => if s.isEmpty then [] else [block s]
  | none => []

/-- The content blocks of a message: thinking, text, tool calls. -/
def messageContent (msg : Value) : List Value :=
  blockUnlessEmpty thinkingBlock (getReasoning msg) ++
    blockUnlessEmpty textBlock (msg.get "content" >>= asStr) ++
    ((msg.get "tool_calls" >>= asArray).getD []).map (toolCallBlock serde)

/-- The `content` of the converted response: never empty. -/
def responseContent (openai : Value) : List Value :=
  let content := match firstChoice openai >>= (·.get "message") with
    | some msg => messageContent serde msg
    | none => []
  if content.isEmpty then [textBlock ""] else content

/-- The `stop_reason` of the converted response. -/
def responseStopReason (openai : Value) : String :=
  match firstChoice openai >>= (·.get "finish_reason") >>= asStr with
  | some reason => stopReason reason
  | none => "end_turn"

/-- `openai_response_to_anthropic`. `uuid` is the random part of the message's id. -/
def openaiResponseToAnthropic (uuid : String) (openai : Value) : Value :=
  let usage := openai.get "usage"
  let zero := Value.number (.posInt 0)
  .object [
    ("id", .string ("msg_" ++ uuid)),
    ("type", .string "message"),
    ("role", .string "assistant"),
    ("content", .array (responseContent serde openai)),
    ("model", (openai.get "model").getD .null),
    ("stop_reason", .string (responseStopReason openai)),
    ("stop_sequence", (usage >>= (·.get "stop_sequence")).getD .null),
    ("usage", .object [
      ("input_tokens", (usage >>= (·.get "prompt_tokens")).getD zero),
      ("output_tokens", (usage >>= (·.get "completion_tokens")).getD zero)])]

end ApertureRouter
