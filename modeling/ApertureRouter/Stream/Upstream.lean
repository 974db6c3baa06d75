import ApertureRouter.Types.Stream

/-!
# What the upstream text says

`convert_chunk` does two things at once: it cuts the text into lines, and it converts what the
lines say. The two do not depend on each other. `readChunk` is the first alone: a program on the
line buffer that emits what the upstream says (`Upstream`). `convertInput` is the second alone.
`convertChunks_eq` puts them together again, so a theorem about a run of the converter is a
theorem about `convertInput` over a list of inputs, and a theorem about chunks is one about
`readChunk`.

`processOpenaiChunk_eq` is the chunk processor in three parts: what comes before the tool calls,
the tool calls, the end.
-/

namespace ApertureRouter

open Emit

/-- What one step of the upstream says: a buffer overflow, `[DONE]`, a chunk. -/
inductive Upstream where
  | overflow
  | done
  | chunk (value : Value)

/-- What a line says, if it says anything. -/
def readLine (serde : Serde) (rawLine : List Char) : Option Upstream :=
  let line := Text.trimEndMatches '\r' rawLine
  if (Text.stripPrefix "event: ".toList line).isSome then none
  else match Text.stripPrefix "data: ".toList line with
    | none => none
    | some jsonData =>
      if Text.trim jsonData = "[DONE]".toList then some .done
      else (serde.fromStr (String.ofList jsonData)).map .chunk

/-- What a chunk of text says, with the buffer before it; the buffer after it. -/
def readChunk (serde : Serde) (rawChunk : List Char) : Prog (List Char) Upstream := fun buffer =>
  if maxLineBuffer < Text.utf8Len (buffer ++ rawChunk) then ([], [.overflow])
  else ((Lines.split '\n' (buffer ++ rawChunk)).2,
    (Lines.split '\n' (buffer ++ rawChunk)).1.filterMap (readLine serde))

def readChunks (serde : Serde) (rawChunks : List (List Char)) : Prog (List Char) Upstream :=
  Prog.forEach (readChunk serde) rawChunks

/-- What a new converter reads in a sequence of chunks. -/
def inputsOf (serde : Serde) (rawChunks : List (List Char)) : List Upstream :=
  (readChunks serde rawChunks []).2

/-- The SSE text of a list of payloads. -/
def sseText (payloads : List String) : List Char :=
  payloads.flatMap fun p => ("data: " ++ p ++ "\n").toList

/-- The converter on what the upstream says. -/
def convertInput (order : IterOrder Nat ToolBlockState) : Upstream → Convert
  | .overflow => overflow
  | .done => closeStream
  | .chunk value => processOpenaiChunk order value

def convertInputs (order : IterOrder Nat ToolBlockState) (inputs : List Upstream) : Convert :=
  Prog.forEach (convertInput order) inputs

variable (order : IterOrder Nat ToolBlockState) (serde : Serde)

theorem convertLine_eq (rawLine : List Char) :
    convertLine order serde rawLine =
      Prog.ifSome (convertInput order) (readLine serde rawLine) := by
  unfold convertLine readLine
  simp only
  split
  · rfl
  · cases Text.stripPrefix "data: ".toList (Text.trimEndMatches '\r' rawLine) with
    | none => rfl
    | some jsonData =>
      simp only
      split
      · rfl
      · cases serde.fromStr (String.ofList jsonData) <;> rfl

theorem convertChunk_eq (rawChunk : List Char) (c : OpenAIToAnthropicStreamConverter) :
    convertChunk order serde rawChunk c =
      ({ toStreamState :=
          (convertInputs order (readChunk serde rawChunk c.lineBuffer).2 c.toStreamState).1
         lineBuffer := (readChunk serde rawChunk c.lineBuffer).1 },
        (convertInputs order (readChunk serde rawChunk c.lineBuffer).2 c.toStreamState).2) := by
  unfold convertChunk readChunk convertInputs
  by_cases h : maxLineBuffer < Text.utf8Len (c.lineBuffer ++ rawChunk)
  · simp [h, convertInput]
  · simp only [h, if_false, Prog.forEach_filterMap]
    rw [Prog.forEach_congr fun l _ => convertLine_eq order serde l]

/-- **The converter reads, then converts.** -/
theorem convertChunks_eq (rawChunks : List (List Char)) (c : OpenAIToAnthropicStreamConverter) :
    convertChunks order serde rawChunks c =
      ({ toStreamState :=
          (convertInputs order (readChunks serde rawChunks c.lineBuffer).2 c.toStreamState).1
         lineBuffer := (readChunks serde rawChunks c.lineBuffer).1 },
        (convertInputs order (readChunks serde rawChunks c.lineBuffer).2 c.toStreamState).2) := by
  unfold convertChunks readChunks convertInputs
  induction rawChunks generalizing c with
  | nil => simp
  | cons raw rest ih =>
    simp only [Prog.forEach_cons, Prog.andThen_apply, convertChunk_eq, ih, Prog.forEach_append]
    rfl

/-- The events of a new converter are those for what it reads. -/
theorem convertedEvents_eq (uuid model : String) (rawChunks : List (List Char)) :
    convertedEvents order serde uuid model rawChunks =
      (convertInputs order (inputsOf serde rawChunks) (.new uuid model)).2 := by
  rw [convertedEvents, convertChunks_eq]
  rfl

/-! ## The parts of a chunk -/

/-- What a delta says, piece by piece. -/
inductive Fragment where
  | reasoning (reasoning : String)
  | content (content : String)
  /-- The field `tool_calls`, before its first element. -/
  | toolCalls
  | toolCall (tc : Value)

def deltaFragments (delta : Value) : List Fragment :=
  ((getReasoning delta).map .reasoning).toList ++ ((deltaContent delta).map .content).toList ++
    match deltaToolCalls delta with
    | some tcs => .toolCalls :: tcs.map .toolCall
    | none => []

def chunkFragments (value : Value) : List Fragment := (chunkDelta value).elim [] deltaFragments

/-- What `tool_calls` does before its first element. -/
def closeForToolCalls : Convert := closeThinkingBlock >> closeTextBlock

/-- The converter on a fragment. In a chunk, `toolCalls` comes before a `toolCall`; the fragment
`toolCall` closes the blocks itself, so that it means the same in any list of fragments. -/
def convertFragment : Fragment → Convert
  | .reasoning s => convertReasoning s
  | .content s => convertContent s
  | .toolCalls => closeForToolCalls
  | .toolCall tc => closeForToolCalls >> convertToolCall order tc

/-- A chunk before its delta. -/
def beginChunk (value : Value) : Convert := startMessage >> readUsage value

/-- No text and no thinking block is open. -/
def StreamState.NoneOpen (c : StreamState) : Prop :=
  c.textBlockOpen = false ∧ c.thinkingBlockOpen = false

theorem closeTextBlock_apply (c : StreamState) :
    closeTextBlock c = if c.textBlockOpen then
      ({ c with textBlockOpen := false, contentBlockIndex := c.contentBlockIndex + 1 },
        [.contentBlockStop c.contentBlockIndex]) else (c, []) := rfl

theorem closeThinkingBlock_apply (c : StreamState) :
    closeThinkingBlock c = if c.thinkingBlockOpen then
      ({ c with thinkingBlockOpen := false, contentBlockIndex := c.contentBlockIndex + 1 },
        [.contentBlockStop c.contentBlockIndex]) else (c, []) := rfl

/-- The blocks that `closeForToolCalls` stops. -/
def currentIndices (c : StreamState) : List Nat :=
  (if c.thinkingBlockOpen then [c.contentBlockIndex] else []) ++
    if c.textBlockOpen then [c.contentBlockIndex + c.thinkingBlockOpen.toNat] else []

theorem closeForToolCalls_apply (c : StreamState) :
    closeForToolCalls c =
      ({ c with
          textBlockOpen := false
          thinkingBlockOpen := false
          contentBlockIndex :=
            c.contentBlockIndex + c.thinkingBlockOpen.toNat + c.textBlockOpen.toNat },
        (currentIndices c).map .contentBlockStop) := by
  obtain ⟨_, _, _, _, _, text, thinking⟩ := c
  cases text <;> cases thinking <;> rfl

theorem closeForToolCalls_noneOpen (c : StreamState) : (closeForToolCalls c).1.NoneOpen := by
  rw [closeForToolCalls_apply]
  exact ⟨rfl, rfl⟩

theorem closeForToolCalls_of_noneOpen {c : StreamState} (h : c.NoneOpen) :
    closeForToolCalls c = (c, []) := by
  simp [closeForToolCalls, closeThinkingBlock_apply, closeTextBlock_apply, h.1, h.2]

/-- Forwarding arguments leaves the state. -/
theorem forwardArguments_state (slot : Nat) (args : Option String) (c : StreamState) :
    (Prog.ifSome (forwardArguments slot) args c).1 = c := by
  cases args with
  | none => rfl
  | some s =>
    rw [Prog.ifSome_some, forwardArguments, Prog.cond_apply]
    split <;> rfl

/-- The state after a tool call: the slots are settled, and a new call opens a block. -/
theorem convertToolCall_state (tc : Value) (c : StreamState) :
    (convertToolCall order tc c).1 =
      let (slot, nextToolSlot) := resolveSlot order (toolCallIndex tc) (toolCallId tc) c
      let c₁ := { c with nextToolSlot := nextToolSlot, lastToolSlot := some slot }
      if isNewCall (toolCallId tc) ((c.toolBlocks.get slot).map (·.id)) then
        (openToolBlock slot (toolCallId tc) (toolCallName tc) c₁).1
      else c₁ := by
  simp only [convertToolCall, convertAtSlot, Prog.andThen_apply, Prog.modify_apply,
    forwardArguments_state, Prog.cond_apply]
  split <;> rfl

/-- A tool call opens no text and no thinking block. -/
theorem convertToolCall_noneOpen (tc : Value) {c : StreamState} (h : c.NoneOpen) :
    (convertToolCall order tc c).1.NoneOpen := by
  rw [convertToolCall_state]
  simp only
  split <;> exact h

/-- Between two tool calls of a chunk nothing is open that a `toolCall` closes. -/
theorem forEach_toolCall (tcs : List Value) {c : StreamState} (h : c.NoneOpen) :
    Prog.forEach (convertFragment order) (tcs.map .toolCall) c =
      Prog.forEach (convertToolCall order) tcs c := by
  induction tcs generalizing c with
  | nil => rfl
  | cons tc tcs ih =>
    simp only [List.map_cons, Prog.forEach_cons, Prog.andThen_apply, convertFragment,
      closeForToolCalls_of_noneOpen h, ih (convertToolCall_noneOpen order tc h), List.nil_append]

/-- **A chunk in parts:** its start, the fragments of its delta, its end. -/
theorem processOpenaiChunk_eq (value : Value) :
    processOpenaiChunk order value =
      (beginChunk value >> Prog.forEach (convertFragment order) (chunkFragments value) >>
        Prog.ifSome closeWithStopReason (finishReason value)) := by
  have hdelta : ∀ delta, convertDelta order delta =
      Prog.forEach (convertFragment order) (deltaFragments delta) := by
    intro delta
    funext c
    rw [convertDelta, deltaFragments, Prog.forEach_append, Prog.forEach_append]
    have hr : ∀ x : Option String, Prog.forEach (convertFragment order)
        (x.map Fragment.reasoning).toList = Prog.ifSome convertReasoning x := by
      intro x
      cases x <;> funext c <;> simp [convertFragment]
    have hc : ∀ x : Option String, Prog.forEach (convertFragment order)
        (x.map Fragment.content).toList = Prog.ifSome convertContent x := by
      intro x
      cases x <;> funext c <;> simp [convertFragment]
    rw [hr, hc, Prog.andThen_assoc]
    cases deltaToolCalls delta with
    | none => rfl
    | some tcs =>
      simp only [Prog.ifSome_some, Prog.forEach_cons, convertToolCalls, convertFragment,
        Prog.andThen_apply, forEach_toolCall order tcs (closeForToolCalls_noneOpen _)]
      simp [closeForToolCalls]
  funext c
  simp only [processOpenaiChunk, beginChunk, chunkFragments, Prog.andThen_apply]
  cases chunkDelta value with
  | none => simp
  | some delta => simp [hdelta]

end ApertureRouter
