import ApertureRouter.Stream.Fragments
import ApertureRouter.Stream.Protocol

/-!
# What starts and what ends a message

`message_started` and `message_ended` (`StreamState.flags`) change at two places: the start of a
chunk and the end of the message. `chunkBody` is everything between: it sets the first flag, keeps
the second, and emits `Inner` events only (its fragments emit events of blocks). From it follow the flags after any input
(`convertInput_flags`) and the shape of the events (`closeWithStopReason_isClosing`,
`convertInput_ended`).
-/

namespace ApertureRouter

open Emit
open Value (asU64)

/-- Usage is about the token counters only. -/
theorem readUsage_counters (value : Value) (c : StreamState) :
    ∃ i o f, readUsage value c =
      ({ c with inputTokens := i, outputTokens := o, outputTokensFromUpstream := f }, []) := by
  rw [readUsage, Prog.modify_apply]
  cases value.get "usage" with
  | none => exact ⟨_, _, _, rfl⟩
  | some usage =>
    simp only
    cases usage.get "prompt_tokens" >>= asU64 <;> cases usage.get "completion_tokens" >>= asU64 <;>
      exact ⟨_, _, _, rfl⟩

/-- The blocks that `closeToolBlocks` stops. -/
def toolBlockIndices (c : StreamState) : List Nat :=
  c.toolBlockOrder.filterMap fun slot => (c.toolBlocks.get slot).map (·.blockIndex)

theorem closeToolBlocks_apply (c : StreamState) :
    closeToolBlocks c = (c, (toolBlockIndices c).map .contentBlockStop) := by
  rw [closeToolBlocks, Prog.emit_apply, toolBlockIndices, List.map_filterMap]
  simp [Option.map_map, Function.comp_def]

theorem closeWithStopReason_eq {c : StreamState} (h : c.messageEnded = false) (reason : String) :
    closeWithStopReason reason c =
      ({ (closeForToolCalls c).1 with messageEnded := true },
        (closeForToolCalls c).2 ++ ((toolBlockIndices c).map .contentBlockStop ++
          [.messageDelta (stopReason reason) c.outputTokens, .messageStop])) := by
  have hopen : ∀ c, closeOpenBlocks c = ((closeForToolCalls c).1,
      (closeForToolCalls c).2 ++ (toolBlockIndices c).map .contentBlockStop) := by
    intro c
    rw [show closeOpenBlocks c = (closeForToolCalls >> closeToolBlocks) c by
      simp [closeOpenBlocks, closeForToolCalls], Prog.andThen_apply, closeToolBlocks_apply,
      closeForToolCalls_apply]
    rfl
  rw [closeWithStopReason, Prog.cond_pos (by simp [h])]
  simp only [Prog.andThen_apply, Prog.modify_apply, Prog.emit_apply, hopen,
    closeForToolCalls_apply, List.nil_append, List.append_assoc]
  rfl

theorem closeWithStopReason_isClosing {c : StreamState} (h : c.messageEnded = false)
    (reason : String) : IsClosing (closeWithStopReason reason c).2 := by
  rw [closeWithStopReason_eq h, closeForToolCalls_apply]
  exact ⟨currentIndices c ++ toolBlockIndices c, _, _, by simp; exact ⟨rfl, rfl⟩⟩

/-! ## Inside a message -/

/-- An event that neither ends the message nor reports an error. -/
def StreamEvent.Inner : StreamEvent → Prop
  | .messageDelta .. | .messageStop | .error _ => False
  | .messageStart .. | .contentBlockStart .. | .contentBlockDelta .. | .contentBlockStop _ => True

/-- An event of a block. -/
def StreamEvent.OfBlock : StreamEvent → Prop
  | .contentBlockStart .. | .contentBlockDelta .. | .contentBlockStop _ => True
  | .messageStart .. | .messageDelta .. | .messageStop | .error _ => False

theorem StreamEvent.OfBlock.inner {e : StreamEvent} (h : e.OfBlock) : e.Inner := by
  cases e <;> trivial

/-- `message_started` and `message_ended`. -/
def StreamState.flags (c : StreamState) : Bool × Bool := (c.messageStarted, c.messageEnded)

section

variable (order : IterOrder Nat ToolBlockState) (p : Bool × Bool)

private theorem closeTextBlock_emits :
    Emits (fun c => c.flags = p) StreamEvent.OfBlock closeTextBlock :=
  .cond (.andThen (.modify fun _ h => h) (.andThen (.emit (by simp [StreamEvent.OfBlock]))
    (.modify fun _ h => h)))

private theorem closeThinkingBlock_emits :
    Emits (fun c => c.flags = p) StreamEvent.OfBlock closeThinkingBlock :=
  .cond (.andThen (.modify fun _ h => h) (.andThen (.emit (by simp [StreamEvent.OfBlock]))
    (.modify fun _ h => h)))

private theorem writeDelta_emits (d : Delta) :
    Emits (fun c => c.flags = p) StreamEvent.OfBlock (emitDelta d >> countDelta) :=
  .andThen (.emit (by simp [StreamEvent.OfBlock])) (.cond (.modify fun _ h => h))

private theorem convertToolCall_emits (tc : Value) :
    Emits (fun c => c.flags = p) StreamEvent.OfBlock (convertToolCall order tc) := by
  have hopen : ∀ slot, Emits (fun c => c.flags = p) StreamEvent.OfBlock
      (openToolBlock slot (toolCallId tc) (toolCallName tc)) := by
    intro slot c hc
    rw [openToolBlock_eq]
    exact ⟨hc, by simp [StreamEvent.OfBlock]⟩
  have hforward : ∀ slot args, Emits (fun c => c.flags = p) StreamEvent.OfBlock
      (forwardArguments slot args) := by
    refine fun slot args => .cond (.emit fun c e he => ?_)
    cases hg : c.toolBlocks.get slot with
    | none => simp [hg] at he
    | some st =>
      rw [hg, List.mem_singleton] at he
      rw [he]
      trivial
  intro c hc
  rw [convertToolCall_eq]
  exact Emits.andThen (.cond (hopen _)) (.ifSome (hforward _) _) (settleSlot order c tc) hc

theorem convertFragment_emits (f : Fragment) :
    Emits (fun c => c.flags = p) StreamEvent.OfBlock (convertFragment order f) := by
  cases f with
  | reasoning s =>
    refine .cond (.andThen (.cond (.andThen (closeTextBlock_emits p) ?_)) (writeDelta_emits p _))
    exact .andThen (.modify fun _ h => h) (.emit (by simp [StreamEvent.OfBlock]))
  | content s =>
    refine .cond (.andThen (closeThinkingBlock_emits p) (.andThen (.cond ?_) (writeDelta_emits p _)))
    exact .andThen (.modify fun _ h => h) (.emit (by simp [StreamEvent.OfBlock]))
  | toolCalls => exact .andThen (closeThinkingBlock_emits p) (closeTextBlock_emits p)
  | toolCall tc =>
    exact .andThen (.andThen (closeThinkingBlock_emits p) (closeTextBlock_emits p))
      (convertToolCall_emits order p tc)

end

section

variable (order : IterOrder Nat ToolBlockState)

/-- A chunk without its end. -/
def chunkBody (value : Value) : Convert :=
  beginChunk value >> Prog.forEach (convertFragment order) (chunkFragments value)

theorem convertInput_chunk (value : Value) :
    convertInput order (.chunk value) =
      (chunkBody order value >> Prog.ifSome closeWithStopReason (finishReason value)) := by
  rw [convertInput, processOpenaiChunk_eq, chunkBody, Prog.andThen_assoc]

private theorem beginChunk_flags (value : Value) (c : StreamState) :
    (beginChunk value c).1.flags = (true, c.messageEnded) ∧ ∀ e ∈ (beginChunk value c).2, e.Inner := by
  obtain ⟨i, o, f, hu⟩ := readUsage_counters value (startMessage c).1
  rw [beginChunk, Prog.andThen_apply, hu, startMessage]
  cases hs : c.messageStarted with
  | true => simp [Prog.cond_neg, hs, StreamState.flags]
  | false => simp [Prog.cond_pos, hs, StreamState.flags, StreamEvent.Inner]

theorem chunkBody_flags (value : Value) (c : StreamState) :
    (chunkBody order value c).1.flags = (true, c.messageEnded) :=
  (Emits.forEach (fun a _ => convertFragment_emits order _ a) _ (beginChunk_flags value c).1).1

theorem chunkBody_inner (value : Value) (c : StreamState) :
    ∀ e ∈ (chunkBody order value c).2, e.Inner := by
  intro e he
  obtain ⟨hf, hin⟩ := beginChunk_flags value c
  rcases List.mem_append.mp he with h | h
  · exact hin e h
  · exact ((Emits.forEach (fun a _ => convertFragment_emits order _ a) _ hf).2 e h).inner

/-! ## After a message -/

/-- A chunk starts the message. -/
def Upstream.starts : Upstream → Bool
  | .chunk _ => true
  | .overflow | .done => false

/-- An input that ends a message that has not ended, once the first chunk has `started` it. -/
def Upstream.ends (started : Bool) : Upstream → Bool
  | .overflow | .done => started
  | .chunk value => (finishReason value).isSome

theorem closeWithStopReason_flags (reason : String) (c : StreamState) :
    (closeWithStopReason reason c).1.flags = (c.messageStarted, true) := by
  cases he : c.messageEnded with
  | true =>
    rw [closeWithStopReason, Prog.cond_neg (by simp [he]), StreamState.flags, he]
  | false =>
    rw [closeWithStopReason_eq he, closeForToolCalls_apply]
    rfl

theorem closeStream_flags (c : StreamState) :
    (closeStream c).1.flags = (c.messageStarted, c.messageEnded || c.messageStarted) := by
  rw [closeStream]
  cases hs : c.messageStarted with
  | true =>
    rw [Prog.cond_pos hs, closeWithStopReason_flags, hs, Bool.or_true]
  | false =>
    rw [Prog.cond_neg hs, StreamState.flags, hs, Bool.or_false]

/-- What an input does to the flags. -/
theorem convertInput_flags (u : Upstream) (c : StreamState) :
    (convertInput order u c).1.flags =
      (c.messageStarted || u.starts, c.messageEnded || u.ends c.messageStarted) := by
  cases u with
  | overflow | done =>
    rw [Upstream.starts, Upstream.ends, Bool.or_false]
    exact closeStream_flags c
  | chunk value =>
    have hbody := chunkBody_flags order value c
    have hs : (chunkBody order value c).1.messageStarted = true := congrArg Prod.fst hbody
    rw [convertInput_chunk, Prog.andThen_apply, Upstream.starts, Upstream.ends, Bool.or_true]
    cases finishReason value with
    | none => simpa using hbody
    | some reason =>
      rw [Prog.ifSome_some, closeWithStopReason_flags, hs, Option.isSome_some, Bool.or_true]

theorem convertInput_messageStarted (u : Upstream) (c : StreamState) :
    (convertInput order u c).1.messageStarted = (c.messageStarted || u.starts) :=
  congrArg Prod.fst (convertInput_flags order u c)

theorem convertInput_messageEnded (u : Upstream) (c : StreamState) :
    (convertInput order u c).1.messageEnded = (c.messageEnded || u.ends c.messageStarted) :=
  congrArg Prod.snd (convertInput_flags order u c)

/-- A run has started the message once it has met a chunk. -/
theorem convertInputs_messageStarted (inputs : List Upstream) (c : StreamState) :
    (convertInputs order inputs c).1.messageStarted =
      (c.messageStarted || inputs.any (·.starts)) := by
  induction inputs generalizing c with
  | nil => simp [convertInputs]
  | cons u inputs ih =>
    show (convertInputs order inputs (convertInput order u c).1).1.messageStarted = _
    rw [ih, convertInput_messageStarted, List.any_cons, Bool.or_assoc]

/-- After the end, no second end. -/
theorem convertInput_ended (u : Upstream) :
    Emits (fun c => c.messageEnded = true) (fun e => e.isMessageDelta = false ∧ e ≠ .messageStop)
      (convertInput order u) := by
  have hclose : ∀ r, Emits (fun c => c.messageEnded = true)
      (fun e => e.isMessageDelta = false ∧ e ≠ .messageStop) (closeWithStopReason r) := fun r =>
    .cond_off fun c hc => by simp [hc]
  cases u with
  | overflow =>
    exact .andThen (.emit (by simp [StreamEvent.isMessageDelta])) (.cond (hclose "stop"))
  | done => exact .cond (hclose "stop")
  | chunk value =>
    rw [convertInput_chunk]
    refine .andThen (fun c hc => ⟨?_, fun e he => ?_⟩) (.ifSome hclose _)
    · rw [← hc]
      exact congrArg Prod.snd (chunkBody_flags order value c)
    · have := chunkBody_inner order value c e he
      cases e <;> simp_all [StreamEvent.Inner, StreamEvent.isMessageDelta]

/-- The same for a run. -/
theorem convertInputs_ended (inputs : List Upstream) :
    Emits (fun c => c.messageEnded = true) (fun e => e.isMessageDelta = false ∧ e ≠ .messageStop)
      (convertInputs order inputs) :=
  .forEach fun u _ => convertInput_ended order u

end

end ApertureRouter
