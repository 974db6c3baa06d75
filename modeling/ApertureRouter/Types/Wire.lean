import ApertureRouter.Json
import ApertureRouter.Lib.HashMap

/-!
# The typed requests

`MessageRequest` (`src/types/anthropic.rs`) and `ChatCompletionRequest` (`src/types/openai.rs`), and
the JSON that `serde` makes of them: a field that is `None` is skipped, and the fields of `other`
come after the named ones, in the order of its iteration.
-/

namespace ApertureRouter

/-- A field that is skipped if it is `None`. -/
def optionalField (key : String) (v : Option Value) : List (String × Value) :=
  (v.map fun v => (key, v)).toList

/-- `#[serde(flatten)]` on a map. -/
def flattened (order : IterOrder String Value) (other : HashMap String Value) :
    List (String × Value) :=
  (order.list other).map fun e => (e.1, e.2)

/-- `Value::from` of an `f32`: one that is not finite becomes `null`. -/
def floatValue (f : Float32) : Value :=
  if f.isFinite then .number (.float f.toFloat.toBits) else .null

namespace Anthropic

/-- `ContentBlock`. -/
structure ContentBlock where
  type : String
  text : Option String := none
  id : Option String := none
  name : Option String := none
  input : Option Value := none
  toolUseId : Option String := none
  content : Option Value := none
  isError : Option Bool := none
  thinking : Option String := none
  source : Option Value := none
  other : HashMap String Value := ∅

def ContentBlock.toValue (order : IterOrder String Value) (b : ContentBlock) : Value :=
  .object <| [("type", .string b.type)] ++ optionalField "text" (b.text.map .string) ++
    optionalField "id" (b.id.map .string) ++ optionalField "name" (b.name.map .string) ++
    optionalField "input" b.input ++ optionalField "tool_use_id" (b.toolUseId.map .string) ++
    optionalField "content" b.content ++ optionalField "is_error" (b.isError.map .bool) ++
    optionalField "thinking" (b.thinking.map .string) ++ optionalField "source" b.source ++
    flattened order b.other

/-- `Content`: a string, or a list of blocks. -/
inductive Content where
  | text (s : String)
  | blocks (bs : List ContentBlock)

namespace Content

/-- `as_text`. -/
def asText : Content → String
  | text s => s
  | blocks bs => "\n".intercalate (bs.filterMap fun b => if b.type = "text" then b.text else none)

def toValue (order : IterOrder String Value) : Content → Value
  | text s => .string s
  | blocks bs => .array (bs.map (·.toValue order))

end Content

/-- `Message`. -/
structure Message where
  role : String
  content : Content

def Message.toValue (order : IterOrder String Value) (m : Message) : Value :=
  .object [("role", .string m.role), ("content", m.content.toValue order)]

/-- `MessageRequest`. -/
structure MessageRequest where
  model : String
  maxTokens : Option UInt32 := none
  messages : List Message
  system : Option Value := none
  tools : Option (List Value) := none
  toolChoice : Option Value := none
  temperature : Option Float32 := none
  stream : Option Bool := none
  metadata : Option Value := none
  other : HashMap String Value := ∅

def MessageRequest.toValue (order : IterOrder String Value) (r : MessageRequest) : Value :=
  .object <| [("model", .string r.model)] ++
    optionalField "max_tokens" (r.maxTokens.map fun n => .number (.posInt n.toUInt64)) ++
    [("messages", .array (r.messages.map (·.toValue order)))] ++ optionalField "system" r.system ++
    optionalField "tools" (r.tools.map .array) ++ optionalField "tool_choice" r.toolChoice ++
    optionalField "temperature" (r.temperature.map floatValue) ++
    optionalField "stream" (r.stream.map .bool) ++ optionalField "metadata" r.metadata ++
    flattened order r.other

end Anthropic

namespace Openai

/-- `ChatMessage`. -/
structure ChatMessage where
  role : String
  content : Option Value := none
  toolCalls : Option (List Value) := none
  toolCallId : Option String := none
  name : Option String := none
  other : HashMap String Value := ∅

def ChatMessage.toValue (order : IterOrder String Value) (m : ChatMessage) : Value :=
  .object <| [("role", .string m.role)] ++ optionalField "content" m.content ++
    optionalField "tool_calls" (m.toolCalls.map .array) ++
    optionalField "tool_call_id" (m.toolCallId.map .string) ++
    optionalField "name" (m.name.map .string) ++ flattened order m.other

/-- `ChatCompletionRequest`. -/
structure ChatCompletionRequest where
  model : String
  messages : List ChatMessage
  stream : Option Bool := none
  maxTokens : Option UInt32 := none
  temperature : Option Float32 := none
  tools : Option (List Value) := none
  toolChoice : Option Value := none
  other : HashMap String Value := ∅

def ChatCompletionRequest.toValue (order : IterOrder String Value) (r : ChatCompletionRequest) :
    Value :=
  .object <| [("model", .string r.model), ("messages", .array (r.messages.map (·.toValue order)))] ++
    optionalField "stream" (r.stream.map .bool) ++
    optionalField "max_tokens" (r.maxTokens.map fun n => .number (.posInt n.toUInt64)) ++
    optionalField "temperature" (r.temperature.map floatValue) ++
    optionalField "tools" (r.tools.map .array) ++ optionalField "tool_choice" r.toolChoice ++
    flattened order r.other

end Openai

end ApertureRouter
