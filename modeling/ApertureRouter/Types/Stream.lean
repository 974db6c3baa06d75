import ApertureRouter.Lib.Emit
import ApertureRouter.Lib.HashMap
import ApertureRouter.Lib.Lines
import ApertureRouter.Lib.Text
import ApertureRouter.Types.Response

/-!
# The stream converter

`OpenAIToAnthropicStreamConverter` (`src/types/conversion.rs`): OpenAI SSE text in, Anthropic
events out. A method that takes `&mut self` and returns events is a program that emits
(`Emit.Prog`); `f >> g` is the order in which the source pushes events.

* The fields are in two parts: `StreamState`, which the chunk processor works on, and the line
  buffer, which only `convertChunk` touches.
* An event is kept as the data from which the source builds its JSON (`StreamEvent`);
  `makeSseEvent` is the event type and the text that are sent.
* `usize` counters are `Nat`: they count blocks and calls of one stream. The token counters are
  the 32 bits of the source.
* `order` is the iteration order of `tool_blocks`, of which the search by id depends.
-/

namespace ApertureRouter

open Emit
open Value (asStr asArray asU64)

/-! ## Events -/

/-- The `content_block` of a `content_block_start`. -/
inductive ContentBlock where
  | text
  | thinking
  | toolUse (id name : String)
  deriving DecidableEq, Repr

/-- The `delta` of a `content_block_delta`. -/
inductive Delta where
  | text (text : String)
  | thinking (thinking : String)
  | inputJson (partialJson : String)
  deriving DecidableEq, Repr

/-- The events that the converter makes. -/
inductive StreamEvent where
  | messageStart (id model : String) (inputTokens : UInt32)
  | contentBlockStart (index : Nat) (contentBlock : ContentBlock)
  | contentBlockDelta (index : Nat) (delta : Delta)
  | contentBlockStop (index : Nat)
  | messageDelta (stopReason : String) (outputTokens : UInt32)
  | messageStop
  | error (message : String)
  deriving DecidableEq, Repr

def ContentBlock.data : ContentBlock → Value
  | text => textBlock ""
  | thinking => thinkingBlock ""
  | toolUse id name => toolUseBlock (.string id) (.string name) (.object [])

def Delta.data : Delta → Value
  | text s => .object [("type", .string "text_delta"), ("text", .string s)]
  | thinking s => .object [("type", .string "thinking_delta"), ("thinking", .string s)]
  | inputJson s => .object [("type", .string "input_json_delta"), ("partial_json", .string s)]

namespace StreamEvent

def eventType : StreamEvent → String
  | messageStart .. => "message_start"
  | contentBlockStart .. => "content_block_start"
  | contentBlockDelta .. => "content_block_delta"
  | contentBlockStop .. => "content_block_stop"
  | messageDelta .. => "message_delta"
  | messageStop => "message_stop"
  | error .. => "error"

private def count (n : Nat) : Value := .number (.posInt (.ofNat n))

/-- The JSON of an event. -/
def data : StreamEvent → Value
  | messageStart id model inputTokens => .object [
      ("type", .string "message_start"),
      ("message", .object [
        ("id", .string id), ("type", .string "message"), ("role", .string "assistant"),
        ("content", .array []), ("model", .string model), ("stop_reason", .null),
        ("stop_sequence", .null),
        ("usage", .object [("input_tokens", count inputTokens.toNat), ("output_tokens", count 0)])])]
  | contentBlockStart index block => .object [
      ("type", .string "content_block_start"), ("index", count index), ("content_block", block.data)]
  | contentBlockDelta index delta => .object [
      ("type", .string "content_block_delta"), ("index", count index), ("delta", delta.data)]
  | contentBlockStop index => .object [
      ("type", .string "content_block_stop"), ("index", count index)]
  | messageDelta stopReason outputTokens => .object [
      ("type", .string "message_delta"),
      ("delta", .object [("stop_reason", .string stopReason), ("stop_sequence", .null)]),
      ("usage", .object [("output_tokens", count outputTokens.toNat)])]
  | messageStop => .object [("type", .string "message_stop")]
  | error message => .object [
      ("type", .string "error"),
      ("error", .object [("type", .string "api_error"), ("message", .string message)])]

end StreamEvent

/-- `SseEventData`: the event type and the data of an event on the wire. -/
structure SseEventData where
  eventType : String
  data : String
  deriving DecidableEq, Repr

/-- `make_sse_event`. -/
def makeSseEvent (serde : Serde) (e : StreamEvent) : SseEventData :=
  ⟨e.eventType, serde.toString e.data⟩

/-! ## State -/

structure ToolBlockState where
  id : String
  blockIndex : Nat
  deriving DecidableEq, Repr

/-- The fields of the converter besides the line buffer. -/
structure StreamState where
  msgId : String
  model : String
  messageStarted : Bool := false
  messageEnded : Bool := false
  contentBlockIndex : Nat := 0
  textBlockOpen : Bool := false
  thinkingBlockOpen : Bool := false
  toolBlocks : HashMap Nat ToolBlockState := ∅
  toolBlockOrder : List Nat := []
  nextToolSlot : Nat := 0
  lastToolSlot : Option Nat := none
  inputTokens : UInt32 := 0
  outputTokens : UInt32 := 0
  outputTokensFromUpstream : Bool := false

structure OpenAIToAnthropicStreamConverter extends StreamState where
  lineBuffer : List Char := []

/-- The state of a new converter. `uuid` is the random part of the message's id. -/
def StreamState.new (uuid model : String) : StreamState :=
  { msgId := "msg_" ++ uuid, model := model }

/-- `OpenAIToAnthropicStreamConverter::new`. -/
def OpenAIToAnthropicStreamConverter.new (uuid model : String) : OpenAIToAnthropicStreamConverter :=
  { StreamState.new uuid model with }

/-- `MAX_LINE_BUFFER`. -/
def maxLineBuffer : Nat := 1024 * 1024

/-- A method of the converter that emits events. -/
abbrev Convert := Prog StreamState StreamEvent

/-! ## Opening and closing blocks -/

/-- Closes the open thinking block; the next block gets the next index. -/
def closeThinkingBlock : Convert :=
  Prog.cond (·.thinkingBlockOpen) <|
    Prog.modify (fun c => { c with thinkingBlockOpen := false }) >>
    Prog.emit (fun c => [.contentBlockStop c.contentBlockIndex]) >>
    Prog.modify (fun c => { c with contentBlockIndex := c.contentBlockIndex + 1 })

/-- Closes the open text block; the next block gets the next index. -/
def closeTextBlock : Convert :=
  Prog.cond (·.textBlockOpen) <|
    Prog.modify (fun c => { c with textBlockOpen := false }) >>
    Prog.emit (fun c => [.contentBlockStop c.contentBlockIndex]) >>
    Prog.modify (fun c => { c with contentBlockIndex := c.contentBlockIndex + 1 })

/-- One `content_block_stop` for each slot of `tool_block_order`. The blocks stay in the map. -/
def closeToolBlocks : Convert :=
  Prog.emit fun c => c.toolBlockOrder.filterMap fun tcIdx =>
    (c.toolBlocks.get tcIdx).map fun st => .contentBlockStop st.blockIndex

/-- `close_open_blocks`. -/
def closeOpenBlocks : Convert :=
  closeThinkingBlock >> closeTextBlock >> closeToolBlocks

/-- `close_with_stop_reason`. -/
def closeWithStopReason (reason : String) : Convert :=
  Prog.cond (fun c => !c.messageEnded) <|
    Prog.modify (fun c => { c with messageEnded := true }) >>
    closeOpenBlocks >>
    Prog.emit (fun c => [.messageDelta (stopReason reason) c.outputTokens]) >>
    Prog.emit (fun _ => [.messageStop])

/-- `close_stream`. -/
def closeStream : Convert :=
  Prog.cond (·.messageStarted) (closeWithStopReason "stop")

/-! ## One chunk -/

/-- `message_start`, before anything else of the first chunk. -/
def startMessage : Convert :=
  Prog.cond (fun c => !c.messageStarted) <|
    Prog.modify (fun c => { c with messageStarted := true }) >>
    Prog.emit (fun c => [.messageStart c.msgId c.model c.inputTokens])

/-- The token counts of `usage`, cut to 32 bits. -/
def readUsage (value : Value) : Convert :=
  Prog.modify fun c =>
    match value.get "usage" with
    | none => c
    | some usage =>
      let c := match usage.get "prompt_tokens" >>= asU64 with
        | some t => { c with inputTokens := t.toUInt32 }
        | none => c
      match usage.get "completion_tokens" >>= asU64 with
      | some t => { c with outputTokens := t.toUInt32, outputTokensFromUpstream := true }
      | none => c

/-- Without a count from upstream, a delta counts as one token. -/
def countDelta : Convert :=
  Prog.cond (fun c => !c.outputTokensFromUpstream) <|
    Prog.modify fun c => { c with outputTokens := c.outputTokens + 1 }

/-- A `content_block_delta` of the block at `content_block_index`. -/
def emitDelta (delta : Delta) : Convert :=
  Prog.emit fun c => [.contentBlockDelta c.contentBlockIndex delta]

/-- Opens a thinking block, after the text block that may be open. -/
def openThinkingBlock : Convert :=
  Prog.cond (fun c => !c.thinkingBlockOpen) <|
    closeTextBlock >>
    Prog.modify (fun c => { c with thinkingBlockOpen := true }) >>
    Prog.emit (fun c => [.contentBlockStart c.contentBlockIndex .thinking])

def openTextBlock : Convert :=
  Prog.cond (fun c => !c.textBlockOpen) <|
    Prog.modify (fun c => { c with textBlockOpen := true }) >>
    Prog.emit (fun c => [.contentBlockStart c.contentBlockIndex .text])

/-- The `reasoning_content` or `reasoning` of a delta. -/
def convertReasoning (reasoning : String) : Convert :=
  Prog.cond (fun _ => !reasoning.isEmpty) <|
    openThinkingBlock >> emitDelta (.thinking reasoning) >> countDelta

/-- The `content` of a delta. -/
def convertContent (content : String) : Convert :=
  Prog.cond (fun _ => !content.isEmpty) <|
    closeThinkingBlock >> openTextBlock >> emitDelta (.text content) >> countDelta

/-! ## Tool calls -/

/-- `index` of an element of `tool_calls`. -/
def toolCallIndex (tc : Value) : Option Nat := (tc.get "index" >>= asU64).map UInt64.toNat

/-- `id` of an element of `tool_calls`, if it is a string that is not empty. -/
def toolCallId (tc : Value) : Option String :=
  (tc.get "id" >>= asStr).filter fun s => !s.isEmpty

def toolCallName (tc : Value) : String :=
  (tc.get "function" >>= (·.get "name") >>= asStr).getD ""

def toolCallArguments (tc : Value) : Option String :=
  tc.get "function" >>= (·.get "arguments") >>= asStr

/-- The slot of a tool call delta: its index, else the slot of its id, else a fresh slot; without
index and id, the last slot. Also `next_tool_slot` after a fresh slot is taken. -/
def resolveSlot (order : IterOrder Nat ToolBlockState) (explicitIndex : Option Nat)
    (tcId : Option String) (c : StreamState) : Nat × Nat :=
  match explicitIndex, tcId with
  | some i, _ => (i, c.nextToolSlot)
  | none, some id =>
    match (order.list c.toolBlocks).find? fun e => e.2.id == id with
    | some e => (e.1, c.nextToolSlot)
    | none => (c.nextToolSlot, c.nextToolSlot + 1)
  | none, none => (c.lastToolSlot.getD 0, c.nextToolSlot)

/-- A new block starts for a fresh id, and for a delta without id at a slot without block. -/
def isNewCall (tcId existingId : Option String) : Bool :=
  match tcId, existingId with
  | some id, some existing => existing != id
  | some _, none => true
  | none, some _ => false
  | none, none => true

/-- Starts the block of a new call at `slot`. A block that was there is forgotten. -/
def openToolBlock (slot : Nat) (tcId : Option String) (name : String) : Convert := fun c =>
  let (id, nextToolSlot) := match tcId with
    | some id => (id, c.nextToolSlot)
    | none => ("call_synth_" ++ toString c.nextToolSlot, c.nextToolSlot + 1)
  ({ c with
      nextToolSlot := nextToolSlot
      contentBlockIndex := c.contentBlockIndex + 1
      toolBlockOrder :=
        if slot ∈ c.toolBlockOrder then c.toolBlockOrder else c.toolBlockOrder ++ [slot]
      toolBlocks := c.toolBlocks.insert slot ⟨id, c.contentBlockIndex⟩ },
    [.contentBlockStart c.contentBlockIndex (.toolUse id name)])

/-- Forwards arguments to the block at `slot`. -/
def forwardArguments (slot : Nat) (args : String) : Convert :=
  Prog.cond (fun _ => !args.isEmpty) <|
    Prog.emit fun c => match c.toolBlocks.get slot with
      | some st => [.contentBlockDelta st.blockIndex (.inputJson args)]
      | none => []

/-- A delta at the slot `slot`, with its id, name and arguments. -/
def convertAtSlot (slot nextToolSlot : Nat) (tcId : Option String) (name : String)
    (args : Option String) : Convert :=
  Prog.modify (fun c => { c with nextToolSlot := nextToolSlot, lastToolSlot := some slot }) >>
  Prog.cond (fun c => isNewCall tcId ((c.toolBlocks.get slot).map (·.id)))
    (openToolBlock slot tcId name) >>
  Prog.ifSome (forwardArguments slot) args

variable (order : IterOrder Nat ToolBlockState)

/-- One element of `tool_calls`. -/
def convertToolCall (tc : Value) : Convert := fun c =>
  let (slot, nextToolSlot) := resolveSlot order (toolCallIndex tc) (toolCallId tc) c
  convertAtSlot slot nextToolSlot (toolCallId tc) (toolCallName tc) (toolCallArguments tc) c

/-- `tool_calls` of a delta: it closes the thinking and the text block, even if it is empty. -/
def convertToolCalls (toolCalls : List Value) : Convert :=
  closeThinkingBlock >> closeTextBlock >> Prog.forEach (convertToolCall order) toolCalls

def deltaContent (delta : Value) : Option String := delta.get "content" >>= asStr

def deltaToolCalls (delta : Value) : Option (List Value) := delta.get "tool_calls" >>= asArray

def convertDelta (delta : Value) : Convert :=
  Prog.ifSome convertReasoning (getReasoning delta) >>
  Prog.ifSome convertContent (deltaContent delta) >>
  Prog.ifSome (convertToolCalls order) (deltaToolCalls delta)

/-- The `delta` of the first choice. -/
def chunkDelta (value : Value) : Option Value := firstChoice value >>= (·.get "delta")

/-- The `finish_reason` of the first choice that ends the message. -/
def finishReason (value : Value) : Option String :=
  (firstChoice value >>= (·.get "finish_reason") >>= asStr).filter
    fun reason => reason != "null" && !reason.isEmpty

/-- `process_openai_chunk`. -/
def processOpenaiChunk (value : Value) : Convert :=
  startMessage >>
  readUsage value >>
  Prog.ifSome (convertDelta order) (chunkDelta value) >>
  Prog.ifSome closeWithStopReason (finishReason value)

/-! ## Upstream text -/

variable (serde : Serde)

/-- One line of the loop of `convert_chunk`, without its newline. -/
def convertLine (rawLine : List Char) : Convert :=
  let line := Text.trimEndMatches '\r' rawLine
  if (Text.stripPrefix "event: ".toList line).isSome then Prog.skip
  else match Text.stripPrefix "data: ".toList line with
    | none => Prog.skip
    | some jsonData =>
      if Text.trim jsonData = "[DONE]".toList then closeStream
      else Prog.ifSome (processOpenaiChunk order) (serde.fromStr (String.ofList jsonData))

/-- What `convert_chunk` does when the buffer is too long. -/
def overflow : Convert :=
  Prog.emit (fun _ => [.error "Stream buffer overflow"]) >> closeStream

/-- `convert_chunk`: the complete lines of the buffer with the new chunk behind it, one after the
other; the rest stays in the buffer. -/
def convertChunk (rawChunk : List Char) : Prog OpenAIToAnthropicStreamConverter StreamEvent :=
  fun c =>
    let buffer := c.lineBuffer ++ rawChunk
    if maxLineBuffer < Text.utf8Len buffer then
      let (state, events) := overflow c.toStreamState
      ({ toStreamState := state, lineBuffer := [] }, events)
    else
      let (lines, rest) := Lines.split '\n' buffer
      let (state, events) := Prog.forEach (convertLine order serde) lines c.toStreamState
      ({ toStreamState := state, lineBuffer := rest }, events)

/-- A sequence of calls of `convert_chunk`. -/
def convertChunks (rawChunks : List (List Char)) :
    Prog OpenAIToAnthropicStreamConverter StreamEvent :=
  Prog.forEach (convertChunk order serde) rawChunks

/-- The events of a new converter for a sequence of chunks. -/
def convertedEvents (uuid model : String) (rawChunks : List (List Char)) : List StreamEvent :=
  (convertChunks order serde rawChunks (.new uuid model)).2

end ApertureRouter
