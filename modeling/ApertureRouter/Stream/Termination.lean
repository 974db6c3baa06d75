import ApertureRouter.Stream.Conformance

/-!
# What follows the end of the message

`message_ended` keeps a second `message_delta` back, and nothing else: after the end the chunk
processor still converts what it is given, and an overflow still reports an error. So a stream ends
where it should exactly if the upstream says nothing more (`nothingFollows_iff`).

* `Upstream.Quiet`: an input that makes the converter emit nothing, in terms of the input and the
  state before it (`convertInput_eq_nil`).
* `QuietAfterEnd`: every input after the end of the message or after an overflow is quiet.
-/

namespace ApertureRouter

open Emit

section

variable (order : IterOrder Nat ToolBlockState)

/-! ## Quiet inputs -/

/-- A fragment that says nothing new: an empty text, or a tool call without arguments at the slot
of its block. `tool_calls` also closes the open text or thinking block. -/
def Fragment.Quiet (c : StreamState) : Fragment → Prop
  | .reasoning s | .content s => s = ""
  | .toolCalls => c.NoneOpen
  | .toolCall tc => c.NoneOpen ∧ opensBlock order c tc = false ∧ argumentsText tc = ""

/-- An input that says nothing new. -/
def Upstream.Quiet (c : StreamState) : Upstream → Prop
  | .overflow => False
  | .done => c.messageStarted = true → c.messageEnded = true
  | .chunk value => c.messageStarted = true ∧
      Along (Fragment.Quiet order) (convertFragment order) (beginChunk value c).1
        (chunkFragments value) ∧
      ((finishReason value).isSome = true → c.messageEnded = true)

theorem closeForToolCalls_eq_nil {c : StreamState} :
    (closeForToolCalls c).2 = [] ↔ c.NoneOpen := by
  rw [closeForToolCalls_apply, List.map_eq_nil_iff, currentIndices, StreamState.NoneOpen]
  cases c.thinkingBlockOpen <;> cases c.textBlockOpen <;> simp

private theorem forwardArguments_eq_nil {c : StreamState} {slot : Nat} {st : ToolBlockState}
    (hst : c.toolBlocks.get slot = some st) (args : Option String) :
    (Prog.ifSome (forwardArguments slot) args c).2 = [] ↔ args.getD "" = "" := by
  rcases args with _ | s
  · simp
  · rw [Prog.ifSome_some, forwardArguments]
    by_cases hs : s = ""
    · rw [Prog.cond_neg (by simp [hs])]
      simp [hs]
    · rw [Prog.cond_pos (by simp [hs]), Prog.emit_apply, hst]
      simp [hs]

theorem convertToolCall_eq_nil {c : StreamState} {tc : Value} :
    (convertToolCall order tc c).2 = [] ↔ opensBlock order c tc = false ∧ argumentsText tc = "" := by
  rw [convertToolCall_eq, Prog.andThen_apply, List.append_eq_nil_iff]
  cases ho : opensBlock order c tc with
  | true =>
    rw [Prog.cond_pos rfl, openToolBlock_eq]
    simp
  | false =>
    obtain ⟨st, hst⟩ := get_slotOf order ho
    rw [Prog.cond_neg rfl, forwardArguments_eq_nil (c := settleSlot order c tc) hst]
    simp [argumentsText]

theorem convertFragment_eq_nil {c : StreamState} {f : Fragment} :
    (convertFragment order f c).2 = [] ↔ f.Quiet order c := by
  cases f with
  | reasoning s =>
    by_cases hs : s = ""
    · simp [convertFragment, convertReasoning, Fragment.Quiet, hs, Prog.cond_apply]
    · simp [convertFragment, convertReasoning, Fragment.Quiet, hs, Prog.cond_apply, emitDelta]
  | content s =>
    by_cases hs : s = ""
    · simp [convertFragment, convertContent, Fragment.Quiet, hs, Prog.cond_apply]
    · simp [convertFragment, convertContent, Fragment.Quiet, hs, Prog.cond_apply, emitDelta]
  | toolCalls => exact closeForToolCalls_eq_nil
  | toolCall tc =>
    rw [convertFragment, Prog.andThen_apply, List.append_eq_nil_iff, closeForToolCalls_eq_nil,
      convertToolCall_eq_nil, Fragment.Quiet]
    refine and_congr_right fun hno => ?_
    rw [closeForToolCalls_of_noneOpen hno]

theorem closeWithStopReason_eq_nil {c : StreamState} {reason : String} :
    (closeWithStopReason reason c).2 = [] ↔ c.messageEnded = true := by
  cases he : c.messageEnded with
  | true =>
    rw [closeWithStopReason, Prog.cond_neg (by simp [he])]
    simp
  | false =>
    rw [closeWithStopReason_eq he]
    simp

theorem convertInput_eq_nil {c : StreamState} {u : Upstream} :
    (convertInput order u c).2 = [] ↔ u.Quiet order c := by
  cases u with
  | overflow => simp [convertInput, overflow, Upstream.Quiet]
  | done =>
    rw [convertInput, closeStream, Upstream.Quiet]
    cases hs : c.messageStarted with
    | true => simp [Prog.cond_pos, hs, closeWithStopReason_eq_nil]
    | false => simp [Prog.cond_neg, hs]
  | chunk value =>
    have hended : (chunkBody order value c).1.messageEnded = c.messageEnded :=
      congrArg Prod.snd (chunkBody_flags order value c)
    have hstart : (beginChunk value c).2 = [] ↔ c.messageStarted = true := by
      obtain ⟨i, o, f, hu⟩ := readUsage_counters value (startMessage c).1
      rw [beginChunk, Prog.andThen_apply, hu, List.append_nil, startMessage]
      cases hs : c.messageStarted with
      | true => simp [Prog.cond_neg, hs]
      | false => simp [Prog.cond_pos, hs]
    rw [convertInput_chunk, Prog.andThen_apply, List.append_eq_nil_iff, Upstream.Quiet, ← and_assoc]
    refine and_congr ?_ ?_
    · rw [chunkBody, Prog.andThen_apply, List.append_eq_nil_iff, hstart,
        Along.forEach_eq_nil (convertFragment_eq_nil order)]
    · cases hf : finishReason value with
      | none => simp
      | some reason =>
        rw [Prog.ifSome_some, closeWithStopReason_eq_nil, hended]
        simp

theorem convertInputs_eq_nil {c : StreamState} {inputs : List Upstream} :
    (convertInputs order inputs c).2 = [] ↔
      Along (Upstream.Quiet order) (convertInput order) c inputs :=
  Along.forEach_eq_nil (convertInput_eq_nil order)

/-! ## The end of a stream -/

/-- The last events of a stream that ends in state `c`: the events that close it, or an error and
the events that close the stream; an error alone before the first chunk. -/
def EndsStream (c : StreamState) (evs : List StreamEvent) : Prop :=
  IsClosing evs ∨
    ∃ msg rest, evs = .error msg :: rest ∧ (rest = [] ∧ c.messageStarted = false ∨ IsClosing rest)

/-- After the end of the message, and after an overflow, every input is quiet. -/
def QuietAfterEnd (c : StreamState) (inputs : List Upstream) : Prop :=
  ∀ pre u post, inputs = pre ++ u :: post →
    (.overflow ∈ pre ∨ (convertInputs order pre c).1.messageEnded = true) →
    u.Quiet order (convertInputs order pre c).1

/-- An event that is not inner comes after the inner events in front. -/
theorem split_inner {inner tail pre post : List StreamEvent} {e : StreamEvent}
    (hi : ∀ x ∈ inner, x.Inner) (he : ¬e.Inner) (h : inner ++ tail = pre ++ e :: post) :
    ∃ pre', tail = pre' ++ e :: post := by
  rcases List.append_eq_append_iff.mp h with ⟨x, -, ht⟩ | ⟨x, hx, ht⟩
  · exact ⟨x, ht⟩
  · cases x with
    | nil => exact ⟨[], by simpa using ht.symm⟩
    | cons y x =>
      cases ht
      exact absurd (hi _ (by rw [hx]; simp)) he

theorem IsClosing.stop_last {evs pre post : List StreamEvent} (h : IsClosing evs)
    (he : evs = pre ++ .messageStop :: post) : post = [] := by
  obtain ⟨stops, r, n, rfl⟩ := h
  obtain ⟨pre', ht⟩ := split_inner (by simp [StreamEvent.Inner]) id he
  rcases pre' with _ | ⟨a, _ | ⟨b, pre'⟩⟩ <;> simp at ht
  exact ht.2

theorem IsClosing.error_notMem {evs : List StreamEvent} (h : IsClosing evs) (msg : String) :
    .error msg ∉ evs := by
  obtain ⟨stops, r, n, rfl⟩ := h
  simp

theorem nothingFollows_append {inner tail : List StreamEvent} {c : StreamState}
    (hi : ∀ e ∈ inner, e.Inner) (ht : EndsStream c tail) : NothingFollows (inner ++ tail) where
  stop_last pre post he := by
    obtain ⟨pre', rfl⟩ := split_inner hi id he
    rcases ht with hc | ⟨msg, rest, he', hrest⟩
    · exact hc.stop_last rfl
    · rcases pre' with _ | ⟨a, pre'⟩
      · cases he'
      · obtain ⟨rfl, rfl⟩ := List.cons.inj he'
        rcases hrest with ⟨hnil, -⟩ | hc
        · simp at hnil
        · exact hc.stop_last rfl
  error_last pre msg post he := by
    obtain ⟨pre', rfl⟩ := split_inner hi id he
    rcases ht with hc | ⟨msg', rest, he', hrest⟩
    · exact absurd (by simp) (hc.error_notMem msg)
    · rcases pre' with _ | ⟨a, pre'⟩
      · obtain ⟨-, rfl⟩ := List.cons.inj he'
        exact hrest.imp_left And.left
      · obtain ⟨rfl, rfl⟩ := List.cons.inj he'
        rcases hrest with ⟨hnil, -⟩ | hc
        · simp at hnil
        · exact absurd (by simp) (hc.error_notMem msg)

/-- One input before the end: it says something about the message, or it ends the stream. -/
theorem input_shape {c : StreamState} (hc : c.messageEnded = false) (u : Upstream) :
    (u ≠ .overflow ∧ (convertInput order u c).1.messageEnded = false ∧
      ∀ e ∈ (convertInput order u c).2, e.Inner) ∨
    (u = .overflow ∨ (convertInput order u c).1.messageEnded = true) ∧
      ∃ inner tail, (convertInput order u c).2 = inner ++ tail ∧ (∀ e ∈ inner, e.Inner) ∧
        EndsStream (convertInput order u c).1 tail := by
  have hended : ∀ {c r}, c.messageEnded = false → (closeWithStopReason r c).1.messageEnded = true :=
    fun h => by rw [closeWithStopReason_eq h]
  have hclosing := fun r => closeWithStopReason_isClosing hc r
  cases u with
  | overflow =>
    refine .inr ⟨.inl rfl, [], _, rfl, by simp, .inr ⟨_, (closeStream c).2, rfl, ?_⟩⟩
    rw [convertInput, overflow, Prog.andThen_apply, Prog.emit_apply, closeStream]
    cases hs : c.messageStarted with
    | true =>
      rw [Prog.cond_pos hs]
      exact .inr (hclosing _)
    | false =>
      rw [Prog.cond_neg hs]
      exact .inl ⟨rfl, hs⟩
  | done =>
    rw [convertInput, closeStream]
    cases hs : c.messageStarted with
    | true =>
      rw [Prog.cond_pos hs]
      exact .inr ⟨.inr (hended hc), [], _, rfl, by simp, .inl (hclosing _)⟩
    | false =>
      rw [Prog.cond_neg hs]
      exact .inl ⟨by simp, hc, by simp⟩
  | chunk value =>
    have h₁ : (chunkBody order value c).1.messageEnded = false := by
      rw [← hc]
      exact congrArg Prod.snd (chunkBody_flags order value c)
    have hin := chunkBody_inner order value c
    rw [convertInput_chunk, Prog.andThen_apply]
    cases hf : finishReason value with
    | none => exact .inl ⟨by simp, h₁, by simpa using hin⟩
    | some reason =>
      exact .inr ⟨.inr (hended h₁), _, _, rfl, hin, .inl (closeWithStopReason_isClosing h₁ reason)⟩

/-- The first input after which nothing should follow. -/
theorem first_end {c : StreamState} (hc : c.messageEnded = false) (inputs : List Upstream) :
    (.overflow ∉ inputs ∧ NotEndedAlong order c inputs ∧
      (convertInputs order inputs c).1.messageEnded = false ∧
      ∀ e ∈ (convertInputs order inputs c).2, e.Inner) ∨
    ∃ pre u post, inputs = pre ++ u :: post ∧ .overflow ∉ pre ∧ NotEndedAlong order c (pre ++ [u]) ∧
      (u = .overflow ∨ (convertInputs order (pre ++ [u]) c).1.messageEnded = true) ∧
      ∃ inner tail, (convertInputs order (pre ++ [u]) c).2 = inner ++ tail ∧
        (∀ e ∈ inner, e.Inner) ∧ EndsStream (convertInputs order (pre ++ [u]) c).1 tail := by
  induction inputs generalizing c with
  | nil => exact .inl ⟨by simp, trivial, hc, by simp [convertInputs]⟩
  | cons u inputs ih =>
    rcases input_shape order hc u with ⟨hu, hc', hin⟩ | ⟨hu, inner, tail, he, hin, ht⟩
    · rcases ih hc' with ⟨hov, hn, hend, hins⟩ |
        ⟨pre, v, post, rfl, hov, hn, hv, inner, tail, he, hins, ht⟩
      · refine .inl ⟨by simp [Ne.symm hu, hov], ⟨hc, hn⟩, hend, fun e he => ?_⟩
        rcases List.mem_append.mp he with h | h
        exacts [hin e h, hins e h]
      · refine .inr ⟨u :: pre, v, post, rfl, by simp [Ne.symm hu, hov], ⟨hc, hn⟩, hv,
          (convertInput order u c).2 ++ inner, tail, ?_, fun e he => ?_, ht⟩
        · rw [List.append_assoc, ← he]
          rfl
        · rcases List.mem_append.mp he with h | h
          exacts [hin e h, hins e h]
    · refine .inr ⟨[], u, inputs, rfl, by simp, ⟨hc, trivial⟩, hu, inner, tail, ?_, hin, ht⟩
      rw [← he]
      simp [convertInputs]

/-- Before the first chunk the next event starts the message or reports an error. -/
theorem head_of_notStarted {c : StreamState} (hs : c.messageStarted = false)
    (inputs : List Upstream) {e : StreamEvent} {evs : List StreamEvent}
    (he : (convertInputs order inputs c).2 = e :: evs) :
    e.isMessageStart = true ∨ e.isError = true := by
  induction inputs generalizing c with
  | nil => cases he
  | cons u inputs ih =>
    rw [convertInputs, Prog.forEach_cons, Prog.andThen_apply] at he
    cases u with
    | overflow =>
      cases he
      exact .inr rfl
    | done =>
      rw [convertInput, closeStream, Prog.cond_neg hs] at he
      exact ih hs he
    | chunk value =>
      rw [convertInput, processOpenaiChunk, Prog.andThen_apply, startMessage,
        Prog.cond_pos (by simp [hs])] at he
      cases he
      exact .inl rfl

theorem IsClosing.head {e : StreamEvent} {evs : List StreamEvent} (h : IsClosing (e :: evs)) :
    e.isMessageStart = false ∧ e.isError = false := by
  obtain ⟨stops, r, n, he⟩ := h
  rcases stops with _ | ⟨i, stops⟩ <;> cases he <;> exact ⟨rfl, rfl⟩

/-- After the first end, `NothingFollows` says that nothing follows. -/
theorem nothingFollows_append_iff {c : StreamState} {inner tail : List StreamEvent}
    (hi : ∀ e ∈ inner, e.Inner) (ht : EndsStream c tail) (inputs : List Upstream) :
    NothingFollows (inner ++ tail ++ (convertInputs order inputs c).2) ↔
      (convertInputs order inputs c).2 = [] := by
  constructor
  · intro h
    have hclosing : ∀ pre closing, inner ++ tail = pre ++ closing → IsClosing closing →
        (convertInputs order inputs c).2 = [] := by
      rintro pre _ he ⟨stops, r, n, rfl⟩
      refine h.stop_last (pre ++ stops.map .contentBlockStop ++ [.messageDelta r n]) _ ?_
      simp [he]
    rcases ht with hc | ⟨msg, rest, rfl, ⟨rfl, hs⟩ | hc⟩
    · exact hclosing _ _ rfl hc
    · rcases h.error_last inner msg (convertInputs order inputs c).2 (by simp) with hnil | hc
      · exact hnil
      · cases hevs : (convertInputs order inputs c).2 with
        | nil => rfl
        | cons e evs =>
          rw [hevs] at hc
          rcases head_of_notStarted order hs inputs hevs with he | he
          · simp [hc.head.1] at he
          · simp [hc.head.2] at he
    · exact hclosing (inner ++ [.error msg]) rest (by simp) hc
  · intro h
    rw [h, List.append_nil]
    exact nothingFollows_append hi ht

/-- After the first end, `QuietAfterEnd` says that nothing is emitted. -/
theorem quietAfterEnd_append_iff {c : StreamState} {pre post : List Upstream} {u : Upstream}
    (hov : .overflow ∉ pre) (hn : NotEndedAlong order c (pre ++ [u]))
    (hu : u = .overflow ∨ (convertInputs order (pre ++ [u]) c).1.messageEnded = true) :
    QuietAfterEnd order c (pre ++ [u] ++ post) ↔
      (convertInputs order post (convertInputs order (pre ++ [u]) c).1).2 = [] := by
  rw [convertInputs_eq_nil, Along.iff_split]
  have hstate : ∀ p, (convertInputs order (pre ++ [u] ++ p) c).1 =
      (Prog.forEach (convertInput order) p (convertInputs order (pre ++ [u]) c).1).1 := by
    intro p
    rw [convertInputs_append]
    rfl
  constructor
  · intro h p a q he
    rw [← hstate]
    refine h (pre ++ [u] ++ p) a q (by simp [he]) ?_
    rcases hu with rfl | hu
    · exact .inl (by simp)
    · refine .inr ?_
      rw [hstate]
      exact (convertInputs_ended order p _ hu).1
  · intro h pre' a post' he hover
    rcases List.append_eq_append_iff.mp he with ⟨x, rfl, hx⟩ | ⟨x, hx, hpost⟩
    · rw [hstate]
      exact h x a post' hx
    · cases x with
      | nil =>
        rw [List.append_nil] at hx
        have := h [] a post' (by simpa using hpost.symm)
        rwa [← hx]
      | cons y x =>
        -- The prefix is before the end: neither is there an overflow, nor has the message ended.
        cases hpost
        exfalso
        rcases hover with hm | hm
        · rcases List.append_eq_append_iff.mp hx with ⟨z, rfl, hz⟩ | ⟨z, rfl, -⟩
          · rcases z with _ | ⟨b, z⟩
            · exact hov (by simpa using hm)
            · simp at hz
          · exact hov (by simp [hm])
        · rw [hx] at hn
          rw [hn.before] at hm
          cases hm

/-- **Nothing follows the end** if and only if every input after it is quiet. -/
theorem nothingFollows_iff (serde : Serde) (uuid model : String) (rawChunks : List (List Char)) :
    NothingFollows (convertedEvents order serde uuid model rawChunks) ↔
      QuietAfterEnd order (.new uuid model) (inputsOf serde rawChunks) := by
  rw [convertedEvents_eq]
  rcases first_end order (c := .new uuid model) rfl (inputsOf serde rawChunks) with
    ⟨hov, hn, -, hin⟩ | ⟨pre, u, post, he, hov, hn, hu, inner, tail, hevs, hin, ht⟩
  · constructor
    · intro _ p a q he hover
      rcases hover with hm | hm
      · exact absurd (by rw [he]; simp [hm]) hov
      · rw [he] at hn
        rw [hn.before] at hm
        cases hm
    · intro _
      constructor
      · rintro pre post he
        exact absurd (hin .messageStop (by rw [he]; simp)) id
      · rintro pre msg post he
        exact absurd (hin (.error msg) (by rw [he]; simp)) id
  · rw [he, List.append_cons, convertInputs_append, quietAfterEnd_append_iff order hov hn hu, hevs,
      nothingFollows_append_iff order hin ht]

end

/-! ## A late delta -/

/-- The text of a chunk with the content `x`. -/
def contentText : String := "\x7b\"choices\":[\x7b\"delta\":\x7b\"content\":\"x\"\x7d\x7d]\x7d"

def contentChunk : Value :=
  .object [("choices", .array [.object [("delta", .object [("content", .string "x")])]])]

/-- Content after the `finish_reason` is converted: a block starts after `message_stop`. -/
theorem lateContent_follows :
    ¬NothingFollows (convertedEvents .entries
      (tableSerde [(finishText, finishChunk), (contentText, contentChunk)]) "0" "m"
      [sseText [finishText, contentText]]) := by
  intro h
  have hevs : convertedEvents .entries
      (tableSerde [(finishText, finishChunk), (contentText, contentChunk)]) "0" "m"
      [sseText [finishText, contentText]] =
      [.messageStart "msg_0" "m" 0, .messageDelta "end_turn" 0, .messageStop,
        .contentBlockStart 0 .text, .contentBlockDelta 0 (.text "x")] := by decide +kernel
  have := h.stop_last [.messageStart "msg_0" "m" 0, .messageDelta "end_turn" 0] _ hevs
  cases this

end ApertureRouter
