import ApertureRouter.Stream.Termination

/-!
# The SSE response of a converted stream

`build_anthropic_sse` (`src/routes/messages.rs`) passes each item of the upstream stream to the
converter and sends what it returns. It does nothing when the upstream stream ends, so what the
converter still holds then is lost: the open message and the last line.

* `TerminatedAtEof`: the client gets what the converter emits for the same chunks and a `[DONE]`
  behind them, and this is a whole message.
* `terminatedAtEof_iff`: this is so exactly if the upstream itself has ended the message in a
  complete line, says nothing more after that, and reuses no tool slot.

The keepalive comments, which carry no data, and the lock around the converter are left out.
-/

namespace ApertureRouter

open Emit

section

variable (order : IterOrder Nat ToolBlockState) (serde : Serde)

/-- An event of the response: one of the converter's, or the data of one without a type. -/
inductive ClientEvent where
  | event (e : StreamEvent)
  | data (text : String)
  deriving DecidableEq, Repr

/-- What is sent after a transport error. -/
def streamInterrupted : String :=
  "\x7b\"type\":\"error\",\"error\":\x7b\"type\":\"api_error\",\"message\":\"Stream interrupted\"\x7d\x7d"

/-- One item of the upstream stream: a chunk of text or a transport error. -/
def convertItem : Except String (List Char) → Prog OpenAIToAnthropicStreamConverter ClientEvent
  | .ok data => fun conv =>
    ((convertChunk order serde data conv).1,
      (convertChunk order serde data conv).2.map ClientEvent.event)
  | .error _ => Prog.emit fun _ => [.data streamInterrupted]

/-- `build_anthropic_sse`: the events of the response to the items of `raw_stream`. -/
def buildAnthropicSse (uuid model : String) (rawStream : List (Except String (List Char))) :
    List ClientEvent :=
  (Prog.forEach (convertItem order serde) rawStream (.new uuid model)).2

/-- Without a transport error the response is the converter's events. -/
theorem buildAnthropicSse_ok (uuid model : String) (chunks : List (List Char)) :
    buildAnthropicSse order serde uuid model (chunks.map .ok) =
      (convertedEvents order serde uuid model chunks).map .event := by
  have hrun : ∀ conv, Prog.forEach (convertItem order serde) (chunks.map .ok) conv =
      ((convertChunks order serde chunks conv).1,
        (convertChunks order serde chunks conv).2.map .event) := by
    unfold convertChunks
    induction chunks with
    | nil => intro conv; rfl
    | cons raw rest ih =>
      intro conv
      rw [List.map_cons, Prog.forEach_cons, Prog.andThen_apply, Prog.forEach_cons,
        Prog.andThen_apply, convertItem, ih]
      simp
  rw [buildAnthropicSse, hrun]
  rfl

/-- A newline and a `[DONE]` line. -/
def doneChunk : List Char := "\ndata: [DONE]\n".toList

/-- A whole message: its blocks are closed, and one `message_delta` and one `message_stop` end
it. -/
structure WholeMessage (evs : List StreamEvent) : Prop where
  closed : EveryBlockClosed evs
  oneDelta : evs.countP (·.isMessageDelta) = 1
  oneStop : evs.count .messageStop = 1
  ends : ∃ body r n, evs = body ++ [.messageDelta r n, .messageStop]

/-- The response to `chunks` is what the converter emits for them and a `[DONE]` behind them, and
that is a whole message. -/
structure TerminatedAtEof (uuid model : String) (chunks : List (List Char)) : Prop where
  same : buildAnthropicSse order serde uuid model (chunks.map .ok) =
    (convertedEvents order serde uuid model (chunks ++ [doneChunk])).map .event
  whole : WholeMessage (convertedEvents order serde uuid model (chunks ++ [doneChunk]))

/-! ## When the upstream ends the message -/

/-- The inputs end the message: a `finish_reason`, or `[DONE]` or an overflow after the first
chunk (`started`). -/
def endsMessage : Bool → List Upstream → Bool
  | _, [] => false
  | started, u :: inputs => u.ends started || endsMessage (started || u.starts) inputs

theorem convertInputs_messageEnded (inputs : List Upstream) (c : StreamState) :
    (convertInputs order inputs c).1.messageEnded =
      (c.messageEnded || endsMessage c.messageStarted inputs) := by
  induction inputs generalizing c with
  | nil => simp [convertInputs, endsMessage]
  | cons u inputs ih =>
    rw [convertInputs, Prog.forEach_cons, Prog.andThen_apply, endsMessage, ← Bool.or_assoc]
    rw [convertInputs] at ih
    rw [ih, convertInput_messageStarted, convertInput_messageEnded]

/-- After the end of the message every input is quiet. -/
def QuietAfterStop (c : StreamState) (inputs : List Upstream) : Prop :=
  Along (fun c u => c.messageEnded = true → u.Quiet order c) (convertInput order) c inputs

/-- What the converter reads in more chunks. -/
theorem inputsOf_append (a b : List (List Char)) :
    inputsOf serde (a ++ b) = inputsOf serde a ++ (readChunks serde b (readChunks serde a []).1).2 := by
  rw [inputsOf, readChunks, Prog.forEach_append]
  rfl

/-- Before and at the end of the message, `QuietAfterStop` says nothing; after it, it says that
nothing is emitted. -/
theorem quietAfterStop_append {c : StreamState} {pre post : List Upstream}
    (hpre : NotEndedAlong order c pre) (hend : (convertInputs order pre c).1.messageEnded = true) :
    QuietAfterStop order c (pre ++ post) ↔
      (convertInputs order post (convertInputs order pre c).1).2 = [] := by
  rw [QuietAfterStop, Along.append, convertInputs_eq_nil]
  have hfirst : Along (fun c u => c.messageEnded = true → u.Quiet order c) (convertInput order) c pre :=
    (Along.congr (fun c u hc => by simp [hc]) hpre).mp hpre
  have hlast : Along (fun c _ => c.messageEnded = true) (convertInput order)
      (convertInputs order pre c).1 post :=
    Along.of_invariant (fun u c hc => (convertInput_ended order u c hc).1) (fun _ _ hc => hc) post hend
  rw [and_iff_right hfirst]
  exact Along.congr (fun c u hc => by simp [hc]) hlast

/-- The input that ends a message emits its last events. -/
theorem ends_of_finished {c : StreamState} {pre : List Upstream} {u : Upstream} {lost : List Nat}
    {m : Client} (hn : NotEndedAlong order c (pre ++ [u]))
    (hf : Finished lost (convertInputs order (pre ++ [u]) c).1 m) :
    ∃ body r n, (convertInputs order (pre ++ [u]) c).2 = body ++ [.messageDelta r n, .messageStop] := by
  have happ := convertInputs_append order pre [u] c
  have hu : ∀ c, convertInputs order [u] c = convertInput order u c := fun c => by
    simp [convertInputs]
  rw [hu] at happ
  rw [happ] at hf
  have hc : (convertInputs order pre c).1.messageEnded = false := hn.before
  rcases input_shape order hc u with ⟨-, hend, -⟩ | ⟨-, inner, tail, hev, -, ht⟩
  · exact absurd hf.ended (by simp [hend])
  · rw [happ, hev]
    rcases ht with ⟨stops, r, n, rfl⟩ | ⟨msg, rest, rfl, ⟨-, hs⟩ | ⟨stops, r, n, rfl⟩⟩
    · exact ⟨(convertInputs order pre c).2 ++ inner ++ stops.map .contentBlockStop, r, n, by simp⟩
    · exact absurd hf.started (by simp [hs])
    · exact ⟨(convertInputs order pre c).2 ++ inner ++ .error msg :: stops.map .contentBlockStop, r, n,
        by simp⟩

/-- An ended message, and what follows it, are a whole message exactly if nothing follows and the
blocks are closed. -/
theorem wholeMessage_append_iff {evs rest : List StreamEvent} {lost : List Nat} {c : StreamState}
    {m : Client} (hm : Client.read evs = some m) (hf : Finished lost c m)
    (hends : ∃ body r n, evs = body ++ [.messageDelta r n, .messageStop])
    (hrest : ∀ e ∈ rest, e ≠ .messageStop) :
    WholeMessage (evs ++ rest) ↔ rest = [] ∧ EveryBlockClosed evs := by
  constructor
  · intro hw
    have hnil : rest = [] := by
      obtain ⟨body, r, n, he⟩ := hw.ends
      rcases List.eq_nil_or_concat rest with hnil | ⟨l, e, rfl⟩
      · exact hnil
      · have hlast := congrArg List.getLast? he
        rw [List.concat_eq_append] at hlast
        simp at hlast
        exact absurd hlast (hrest e (by simp))
    have hc := hw.closed
    rw [hnil, List.append_nil] at hc
    exact ⟨hnil, hc⟩
  · rintro ⟨rfl, hc⟩
    rw [List.append_nil]
    refine ⟨hc, ?_, ?_, hends⟩
    · have hpos : 0 < evs.countP (·.isMessageDelta) := by
        obtain ⟨body, r, n, rfl⟩ := hends
        exact List.countP_pos_iff.mpr ⟨.messageDelta r n, by simp, rfl⟩
      have hle := (Client.reads_of_read hm).deltas
      have := Bool.toNat_le m.stopReason.isSome
      omega
    · rw [(Client.reads_of_read hm).stopped, hf.stopped]
      rfl

/-- The response has the events of the converter for the chunks themselves. -/
theorem terminatedAtEof_iff_events (uuid model : String) (chunks : List (List Char)) :
    TerminatedAtEof order serde uuid model chunks ↔
      convertedEvents order serde uuid model chunks =
        convertedEvents order serde uuid model (chunks ++ [doneChunk]) ∧
      WholeMessage (convertedEvents order serde uuid model (chunks ++ [doneChunk])) := by
  have hinj : Function.Injective (List.map ClientEvent.event) :=
    List.map_injective_iff.mpr fun _ _ he => ClientEvent.event.inj he
  constructor
  · rintro ⟨hs, hw⟩
    rw [buildAnthropicSse_ok] at hs
    exact ⟨hinj hs, hw⟩
  · rintro ⟨hs, hw⟩
    exact ⟨by rw [buildAnthropicSse_ok, hs], hw⟩

/-- The events of a run, split behind the input `u`. -/
theorem convertedEvents_split (uuid model : String) {chunks : List (List Char)}
    {pre post : List Upstream} {u : Upstream} (h : inputsOf serde chunks = pre ++ u :: post) :
    convertedEvents order serde uuid model chunks =
      (convertInputs order (pre ++ [u]) (.new uuid model)).2 ++
        (convertInputs order post (convertInputs order (pre ++ [u]) (.new uuid model)).1).2 := by
  rw [convertedEvents_eq, h, List.append_cons, convertInputs_append]

/-- **Termination at EOF.** -/
theorem terminatedAtEof_iff (uuid model : String) (chunks : List (List Char)) :
    TerminatedAtEof order serde uuid model chunks ↔
      endsMessage false (inputsOf serde chunks) = true ∧
      QuietAfterStop order (.new uuid model) (inputsOf serde (chunks ++ [doneChunk])) ∧
      KeepsSlotsToEnd order (.new uuid model) (inputsOf serde chunks) := by
  have hend : (convertInputs order (inputsOf serde chunks) (.new uuid model)).1.messageEnded =
      endsMessage false (inputsOf serde chunks) :=
    convertInputs_messageEnded order (inputsOf serde chunks) (.new uuid model)
  rw [terminatedAtEof_iff_events, ← hend]
  rcases run_new order uuid model (inputsOf serde chunks) with
    ⟨-, m, hm, hl⟩ | ⟨pre, u, post, he, hn, -, m, hm, hf⟩
  · -- The client has read no `message_stop`.
    refine iff_of_false (fun h => ?_) (fun h => ?_)
    · have hone := h.2.oneStop
      rw [← h.1, convertedEvents_eq, (Client.reads_of_read hm).stopped, hl.notStopped] at hone
      cases hone
    · rw [hl.notEnded] at h
      cases h.1
  · obtain ⟨tail, htail⟩ : ∃ tail,
        inputsOf serde (chunks ++ [doneChunk]) = pre ++ u :: (post ++ tail) :=
      ⟨_, by rw [inputsOf_append, he, List.append_assoc, List.cons_append]⟩
    have hended : (convertInputs order (inputsOf serde chunks) (.new uuid model)).1.messageEnded =
        true := by
      rw [he, List.append_cons, convertInputs_append]
      exact (convertInputs_ended order post _ hf.ended).1
    have hends := ends_of_finished order hn hf
    have hclosed : EveryBlockClosed (convertInputs order (pre ++ [u]) (.new uuid model)).2 ↔
        KeepsSlotsToEnd order (.new uuid model) (inputsOf serde chunks) := by
      obtain ⟨body, r, n, hbody⟩ := hends
      rw [he, List.append_cons pre u post, keepsSlotsToEnd_append order hn hf.ended, ← hf.allClosed_iff,
        ← @everyBlockClosed_append _ [] m hm ⟨.messageDelta r n, by simp [hbody], rfl⟩ (by simp),
        List.append_nil]
    rw [and_iff_right hended, convertedEvents_split order serde uuid model he,
      convertedEvents_split order serde uuid model htail, List.append_cancel_left_eq,
      wholeMessage_append_iff hm hf hends fun e h => ((convertInputs_ended order _ _ hf.ended).2 e h).2,
      hclosed, htail, List.append_cons pre u (post ++ tail), quietAfterStop_append order hn hf.ended]
    refine ⟨And.right, fun h => ⟨?_, h⟩⟩
    -- Nothing comes behind the end with the `[DONE]` line, so nothing comes without it.
    rw [h.1]
    rw [convertInputs_append] at h
    exact (List.append_eq_nil_iff.mp h.1).1

end

/-- The upstream closes after one delta: the client gets no stop, `message_delta` or
`message_stop`. -/
theorem closedUpstream_not_terminated :
    (∃ u ∈ inputsOf (tableSerde [(contentText, contentChunk)]) [sseText [contentText]],
      u.starts = true) ∧
    ¬TerminatedAtEof .entries (tableSerde [(contentText, contentChunk)]) "0" "m"
      [sseText [contentText]] := by
  refine ⟨by decide +kernel, fun h => ?_⟩
  have := h.same
  revert this
  decide +kernel

end ApertureRouter
