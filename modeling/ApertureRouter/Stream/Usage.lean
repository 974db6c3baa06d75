import Mathlib.Data.List.Induction
import ApertureRouter.Stream.Boundaries
import ApertureRouter.Stream.Chunks
import ApertureRouter.Stream.Termination

/-!
# What the stream says about usage

`outputTokensOf` is what the upstream says: its last count, else the number of deltas. The
converter's counter is this number in 32 bits, for what it has read so far
(`convertInputs_counter`), and the one `message_delta` carries the counter at the end of the message
(`convertInputs_messageDeltas`). `message_start` carries the counter before the first chunk is read
(`convertInputs_inputTokens`).

* `usage_reported_iff`: the client gets the counts of the upstream if and only if what the upstream
  says up to the end of the message is, in 32 bits, what it says in all, and it says no count of
  input tokens but 0.
-/

namespace ApertureRouter

open Emit
open Value (asU64)

/-! ## What the upstream says -/

def Upstream.promptTokens : Upstream → Option UInt64
  | .chunk value => value.get "usage" >>= fun usage => usage.get "prompt_tokens" >>= asU64
  | .overflow | .done => none

def Upstream.completionTokens : Upstream → Option UInt64
  | .chunk value => value.get "usage" >>= fun usage => usage.get "completion_tokens" >>= asU64
  | .overflow | .done => none

/-- A text or thinking delta that is not empty. -/
def Fragment.isDelta : Fragment → Bool
  | .reasoning s | .content s => !s.isEmpty
  | .toolCalls | .toolCall _ => false

def reportedTokens (inputs : List Upstream) : List UInt64 := inputs.filterMap (·.completionTokens)

def countedDeltas (inputs : List Upstream) : Nat :=
  (inputs.flatMap (·.fragments)).countP (·.isDelta)

/-- The output tokens: the last count that was reported, else the number of deltas. -/
def outputTokensOf (inputs : List Upstream) : Nat :=
  match (reportedTokens inputs).getLast? with
  | some t => t.toNat
  | none => countedDeltas inputs

/-- The inputs up to the one that ends the message. -/
def upToEnd (started : Bool) : List Upstream → List Upstream
  | [] => []
  | u :: inputs => if u.ends started then [u] else u :: upToEnd (started || u.starts) inputs

/-- Some input ends the message. -/
def endsIn (started : Bool) : List Upstream → Bool
  | [] => false
  | u :: inputs => u.ends started || endsIn (started || u.starts) inputs

/-- The `input_tokens` of an event: only `message_start` has them. -/
def StreamEvent.inputTokens : StreamEvent → Option Nat
  | .messageStart _ _ n => some n.toNat
  | _ => none

/-- The `output_tokens` of a `message_delta`. -/
def StreamEvent.outputTokens : StreamEvent → Option UInt32
  | .messageDelta _ n => some n
  | _ => none

/-- The client gets the counts of the upstream. -/
structure ReportsUsage (inputs : List Upstream) (evs : List StreamEvent) : Prop where
  output : ∀ r n, .messageDelta r n ∈ evs → n.toNat = outputTokensOf inputs
  input : ∀ u ∈ inputs, ∀ t, u.promptTokens = some t → ∃ e ∈ evs, e.inputTokens = some t.toNat

section

variable (order : IterOrder Nat ToolBlockState)

/-! ## The counter -/

/-- The token counter, and whether the upstream has set it. -/
def StreamState.counter (c : StreamState) : UInt32 × Bool :=
  (c.outputTokens, c.outputTokensFromUpstream)

/-- What a fragment does to the counter. -/
def Fragment.count (n : UInt32 × Bool) (f : Fragment) : UInt32 × Bool :=
  if f.isDelta && !n.2 then (n.1 + 1, n.2) else n

/-- What an input does to the counter. -/
def Upstream.count (n : UInt32 × Bool) (u : Upstream) : UInt32 × Bool :=
  u.fragments.foldl Fragment.count (u.completionTokens.elim n fun t => (t.toUInt32, true))

theorem countDelta_counter (d : Delta) (c : StreamState) :
    ((emitDelta d >> countDelta) c).1.counter = if c.counter.2 then c.counter
      else (c.counter.1 + 1, c.counter.2) := by
  rw [Prog.andThen_apply, countDelta, Prog.cond_apply]
  cases hf : c.outputTokensFromUpstream <;> simp [StreamState.counter, emitDelta, hf]

theorem convertFragment_counter (f : Fragment) (c : StreamState) :
    (convertFragment order f c).1.counter = Fragment.count c.counter f := by
  have htext : (closeTextBlock c).1.counter = c.counter := by
    rw [closeTextBlock_apply]
    split <;> rfl
  have hthinking : (closeThinkingBlock c).1.counter = c.counter := by
    rw [closeThinkingBlock_apply]
    split <;> rfl
  cases f with
  | reasoning s =>
    have hopen : (openThinkingBlock c).1.counter = c.counter := by
      rw [openThinkingBlock, Prog.cond_apply]
      split
      · exact htext
      · rfl
    rw [convertFragment, convertReasoning, Prog.cond_apply, Fragment.count, Fragment.isDelta]
    cases hs : s.isEmpty with
    | true => rfl
    | false =>
      rw [Prog.andThen_apply]
      simp only [Bool.not_false, if_true, Bool.true_and, countDelta_counter, hopen]
      cases c.counter.2 <;> rfl
  | content s =>
    have hopen : (openTextBlock (closeThinkingBlock c).1).1.counter = c.counter := by
      rw [openTextBlock, Prog.cond_apply]
      split <;> exact hthinking
    rw [convertFragment, convertContent, Prog.cond_apply, Fragment.count, Fragment.isDelta]
    cases hs : s.isEmpty with
    | true => rfl
    | false =>
      rw [Prog.andThen_apply, Prog.andThen_apply]
      simp only [Bool.not_false, if_true, Bool.true_and, countDelta_counter, hopen]
      cases c.counter.2 <;> rfl
  | toolCalls =>
    rw [convertFragment, closeForToolCalls_apply]
    rfl
  | toolCall tc =>
    rw [convertFragment, Prog.andThen_apply, closeForToolCalls_apply, convertToolCall_state]
    simp only
    split
    · rw [openToolBlock_eq]
      rfl
    · rfl

theorem closeWithStopReason_counter (reason : String) (c : StreamState) :
    (closeWithStopReason reason c).1.counter = c.counter := by
  cases he : c.messageEnded with
  | true => rw [closeWithStopReason, Prog.cond_neg (by simp [he])]
  | false =>
    rw [closeWithStopReason_eq he, closeForToolCalls_apply]
    rfl

theorem closeStream_counter (c : StreamState) : (closeStream c).1.counter = c.counter := by
  rw [closeStream, Prog.cond_apply]
  split
  · exact closeWithStopReason_counter "stop" c
  · rfl

theorem beginChunk_counter (value : Value) (c : StreamState) :
    (beginChunk value c).1.counter =
      (Upstream.completionTokens (.chunk value)).elim c.counter fun t => (t.toUInt32, true) := by
  have hstart : (startMessage c).1.counter = c.counter := by
    rw [startMessage, Prog.cond_apply]
    split <;> rfl
  rw [beginChunk, Prog.andThen_apply, readUsage, Prog.modify_apply, ← hstart,
    Upstream.completionTokens]
  cases value.get "usage" with
  | none => rfl
  | some usage =>
    change StreamState.counter _ = (usage.get "completion_tokens" >>= asU64).elim _ _
    simp only
    cases usage.get "prompt_tokens" >>= asU64 <;> cases usage.get "completion_tokens" >>= asU64 <;>
      rfl

theorem convertInput_counter (u : Upstream) (c : StreamState) :
    (convertInput order u c).1.counter = Upstream.count c.counter u := by
  have hfragments : ∀ (fs : List Fragment) (c : StreamState),
      (Prog.forEach (convertFragment order) fs c).1.counter = fs.foldl Fragment.count c.counter := by
    intro fs
    induction fs with
    | nil => exact fun _ => rfl
    | cons f fs ih =>
      intro c
      rw [Prog.forEach_cons, Prog.andThen_apply, ih, convertFragment_counter, List.foldl_cons]
  cases u with
  | overflow | done => exact closeStream_counter c
  | chunk value =>
    have hend : ∀ c, (Prog.ifSome closeWithStopReason (finishReason value) c).1.counter =
        c.counter := by
      intro c
      cases finishReason value with
      | none => rfl
      | some reason => exact closeWithStopReason_counter reason c
    rw [convertInput_chunk, Prog.andThen_apply, hend, chunkBody, Prog.andThen_apply, hfragments,
      beginChunk_counter]
    rfl

/-- Counting fragments. -/
theorem foldl_count (fs : List Fragment) (n : UInt32) (fromUpstream : Bool) :
    fs.foldl Fragment.count (n, fromUpstream) =
      (if fromUpstream then n else n + UInt32.ofNat (fs.countP (·.isDelta)), fromUpstream) := by
  induction fs generalizing n with
  | nil => simp
  | cons f fs ih =>
    rw [List.foldl_cons, Fragment.count, List.countP_cons]
    cases fromUpstream with
    | true => simp [ih]
    | false =>
      cases f.isDelta with
      | false => simp [ih]
      | true =>
        simp only [Bool.not_false, Bool.and_self, if_true, ih]
        simp [UInt32.ofNat_add, UInt32.add_assoc, UInt32.add_comm 1]

/-- **The counter** is what the upstream has said so far, in 32 bits. -/
theorem convertInputs_counter (uuid model : String) (inputs : List Upstream) :
    (convertInputs order inputs (.new uuid model)).1.counter =
      (UInt32.ofNat (outputTokensOf inputs), !(reportedTokens inputs).isEmpty) := by
  induction inputs using List.reverseRecOn with
  | nil => rfl
  | append_singleton inputs u ih =>
    have hone : (convertInputs order (inputs ++ [u]) (.new uuid model)).1 =
        (convertInput order u (convertInputs order inputs (.new uuid model)).1).1 := by
      rw [convertInputs_append]
      rfl
    rw [hone, convertInput_counter, ih, Upstream.count, outputTokensOf, outputTokensOf,
      reportedTokens, reportedTokens, List.filterMap_append]
    cases hu : u.completionTokens with
    | some t => simp [hu, foldl_count]
    | none =>
      simp only [Option.elim_none, hu, List.filterMap_cons_none, List.filterMap_nil,
        List.append_nil, foldl_count]
      cases hl : (inputs.filterMap (·.completionTokens)) with
      | nil => simp [countedDeltas, UInt32.ofNat_add]
      | cons t ts => simp [List.getLast?_cons]

/-! ## The end of the message -/

/-- The counts of the `message_delta`s. -/
def messageDeltas (evs : List StreamEvent) : List UInt32 := evs.filterMap (·.outputTokens)

theorem messageDeltas_eq_nil {evs : List StreamEvent} (h : ∀ e ∈ evs, e.isMessageDelta = false) :
    messageDeltas evs = [] := by
  rw [messageDeltas, List.filterMap_eq_nil_iff]
  intro e he
  have := h e he
  cases e <;> simp_all [StreamEvent.isMessageDelta, StreamEvent.outputTokens]

theorem closeWithStopReason_messageDeltas {c : StreamState} (h : c.messageEnded = false)
    (reason : String) : messageDeltas (closeWithStopReason reason c).2 = [c.outputTokens] := by
  have hstops : ∀ is : List Nat, messageDeltas (is.map .contentBlockStop) = [] := fun is => by
    apply messageDeltas_eq_nil
    intro e he
    obtain ⟨i, -, rfl⟩ := List.mem_map.mp he
    rfl
  rw [closeWithStopReason_eq h, closeForToolCalls_apply]
  simp only [messageDeltas, List.filterMap_append] at hstops ⊢
  rw [hstops, hstops]
  rfl

theorem convertInput_messageDeltas (u : Upstream) {c : StreamState} (h : c.messageEnded = false) :
    messageDeltas (convertInput order u c).2 =
      if u.ends c.messageStarted then [(convertInput order u c).1.outputTokens] else [] := by
  have hclose : messageDeltas (closeStream c).2 =
      if c.messageStarted then [(closeStream c).1.outputTokens] else [] := by
    have hcounter : (closeStream c).1.outputTokens = c.outputTokens :=
      congrArg Prod.fst (closeStream_counter c)
    rw [hcounter, closeStream, Prog.cond_apply]
    split
    · exact closeWithStopReason_messageDeltas h "stop"
    · rfl
  cases u with
  | overflow | done => exact hclose
  | chunk value =>
    have hbody : messageDeltas (chunkBody order value c).2 = [] := messageDeltas_eq_nil fun e he => by
      have := chunkBody_inner order value c e he
      cases e <;> first | rfl | exact this.elim
    rw [convertInput_chunk, Prog.andThen_apply, messageDeltas, List.filterMap_append, Upstream.ends]
    show messageDeltas _ ++ messageDeltas _ = _
    rw [hbody, List.nil_append]
    cases finishReason value with
    | none => rfl
    | some reason =>
      have hended : (chunkBody order value c).1.messageEnded = false :=
        (congrArg Prod.snd (chunkBody_flags order value c)).trans h
      rw [Prog.ifSome_some, closeWithStopReason_messageDeltas hended, Option.isSome_some, if_pos rfl]
      exact congrArg (fun n : UInt32 × Bool => [n.1]) (closeWithStopReason_counter reason _).symm

/-- **The one `message_delta`** carries the counter after the input that ends the message. -/
theorem convertInputs_messageDeltas (inputs : List Upstream) {c : StreamState}
    (h : c.messageEnded = false) :
    messageDeltas (convertInputs order inputs c).2 =
      if endsIn c.messageStarted inputs then
        [(convertInputs order (upToEnd c.messageStarted inputs) c).1.outputTokens]
      else [] := by
  induction inputs generalizing c with
  | nil => rfl
  | cons u inputs ih =>
    have hsplit : messageDeltas (convertInputs order (u :: inputs) c).2 =
        messageDeltas (convertInput order u c).2 ++
          messageDeltas (convertInputs order inputs (convertInput order u c).1).2 :=
      List.filterMap_append
    have hended := convertInput_messageEnded order u c
    rw [h, Bool.false_or] at hended
    rw [hsplit, convertInput_messageDeltas order u h, endsIn, upToEnd]
    cases hu : u.ends c.messageStarted with
    | true =>
      have hrest : messageDeltas (convertInputs order inputs (convertInput order u c).1).2 = [] :=
        messageDeltas_eq_nil fun e he =>
          ((convertInputs_ended order inputs _ (hended.trans hu)).2 e he).1
      rw [hrest]
      simp [convertInputs]
    | false =>
      rw [ih (hended.trans hu), convertInput_messageStarted]
      simp [convertInputs]

/-! ## The start of the message -/

/-- Before the first chunk the count of input tokens is 0. -/
def StreamState.InputUnread (c : StreamState) : Prop := c.messageStarted = false → c.inputTokens = 0

/-- The end of the message has no input tokens. -/
theorem closeWithStopReason_inputTokens (reason : String) :
    Emits StreamState.InputUnread (fun e => ∀ n, e.inputTokens = some n → n = 0)
      (closeWithStopReason reason) := by
  intro c hc
  cases he : c.messageEnded with
  | true =>
    rw [closeWithStopReason, Prog.cond_neg (by simp [he])]
    exact ⟨hc, by simp⟩
  | false =>
    obtain ⟨stops, r, n, hevs⟩ := closeWithStopReason_isClosing he reason
    refine ⟨?_, ?_⟩
    · rw [closeWithStopReason_eq he, closeForToolCalls_apply]
      exact hc
    · rw [hevs]
      simp only [List.mem_append, List.mem_map, List.mem_cons, List.not_mem_nil, or_false]
      rintro e (⟨i, -, rfl⟩ | rfl | rfl) n hn <;> cases hn

/-- Only `message_start` has input tokens, before the first count is read. -/
theorem convertInput_inputTokens (u : Upstream) :
    Emits StreamState.InputUnread (fun e => ∀ n, e.inputTokens = some n → n = 0)
      (convertInput order u) := by
  cases u with
  | overflow =>
    refine .andThen (.emit fun c e he n hn => ?_) (.cond (closeWithStopReason_inputTokens "stop"))
    rw [List.mem_singleton.mp he] at hn
    cases hn
  | done => exact .cond (closeWithStopReason_inputTokens "stop")
  | chunk value =>
    rw [convertInput_chunk]
    refine .andThen (fun c hc => ?_) (.ifSome closeWithStopReason_inputTokens _)
    have hs : (chunkBody order value c).1.messageStarted = true :=
      congrArg Prod.fst (chunkBody_flags order value c)
    refine ⟨fun h => by simp [hs] at h, fun e he n hn => ?_⟩
    rcases List.mem_append.mp he with he | he
    · obtain ⟨i, o, f, hu⟩ := readUsage_counters value (startMessage c).1
      rw [beginChunk, Prog.andThen_apply, hu, startMessage, List.append_nil] at he
      cases hm : c.messageStarted with
      | true => simp [Prog.cond_neg, hm] at he
      | false =>
        rw [Prog.cond_pos (by simp [hm])] at he
        obtain rfl := List.mem_singleton.mp he
        cases hn
        exact congrArg UInt32.toNat (hc hm)
    · have := (Emits.forEach (fun f _ => convertFragment_emits order _ f) _ rfl).2 e he
      cases e <;> first | exact this.elim | cases hn

/-- The first chunk sends the count 0. -/
theorem convertInputs_inputTokens {inputs : List Upstream} (h : ∃ u ∈ inputs, u.starts = true)
    {c : StreamState} (hc : c.InputUnread) (hs : c.messageStarted = false) :
    ∃ e ∈ (convertInputs order inputs c).2, e.inputTokens = some 0 := by
  induction inputs generalizing c with
  | nil => simp at h
  | cons u inputs ih =>
    have hstart := convertInput_messageStarted order u c
    cases hu : u.starts with
    | true =>
      refine ⟨.messageStart c.msgId c.model c.inputTokens, ?_, ?_⟩
      · cases u with
        | overflow | done => cases hu
        | chunk value =>
          refine List.mem_append_left _ ?_
          rw [convertInput, processOpenaiChunk, Prog.andThen_apply, startMessage,
            Prog.cond_pos (by simp [hs])]
          simp
      · rw [hc hs]
        rfl
    | false =>
      obtain ⟨v, hv, hvs⟩ := h
      have hv : v ∈ inputs := by
        rcases List.mem_cons.mp hv with rfl | hv
        · simp [hu] at hvs
        · exact hv
      rw [hs, hu] at hstart
      obtain ⟨e, he, hn⟩ := ih ⟨v, hv, hvs⟩ (convertInput_inputTokens order u c hc).1 hstart
      exact ⟨e, List.mem_append_right _ he, hn⟩

end

/-! ## Usage -/

variable (order : IterOrder Nat ToolBlockState) (serde : Serde)

theorem mem_messageDeltas {evs : List StreamEvent} {n : UInt32} :
    n ∈ messageDeltas evs ↔ ∃ r, .messageDelta r n ∈ evs := by
  rw [messageDeltas, List.mem_filterMap]
  constructor
  · rintro ⟨e, he, hn⟩
    cases e <;> cases hn
    exact ⟨_, he⟩
  · rintro ⟨r, he⟩
    exact ⟨_, he, rfl⟩

theorem convertInputs_usage_iff (uuid model : String) (inputs : List Upstream) :
    ReportsUsage inputs (convertInputs order inputs (.new uuid model)).2 ↔
      (endsIn false inputs = true →
        outputTokensOf (upToEnd false inputs) % UInt32.size = outputTokensOf inputs) ∧
      ∀ u ∈ inputs, ∀ t, u.promptTokens = some t → t = 0 := by
  have hdeltas := convertInputs_messageDeltas order inputs (c := .new uuid model) rfl
  have hcounter : (convertInputs order (upToEnd false inputs) (.new uuid model)).1.outputTokens =
      UInt32.ofNat (outputTokensOf (upToEnd false inputs)) :=
    congrArg Prod.fst (convertInputs_counter order uuid model (upToEnd false inputs))
  change messageDeltas _ = if endsIn false inputs then
    [(convertInputs order (upToEnd false inputs) (.new uuid model)).1.outputTokens] else [] at hdeltas
  rw [hcounter] at hdeltas
  have hunread : (StreamState.new uuid model).InputUnread := fun _ => rfl
  have hzero : ∀ e ∈ (convertInputs order inputs (.new uuid model)).2,
      ∀ n, e.inputTokens = some n → n = 0 :=
    (Emits.forEach (fun u _ => convertInput_inputTokens order u) _ hunread).2
  constructor
  · intro h
    refine ⟨fun hend => ?_, fun u hu t ht => ?_⟩
    · rw [hend, if_pos rfl] at hdeltas
      obtain ⟨r, hr⟩ := mem_messageDeltas.mp (hdeltas ▸ List.mem_singleton_self _)
      have := h.output r _ hr
      rwa [UInt32.toNat_ofNat'] at this
    · obtain ⟨e, he, hn⟩ := h.input u hu t ht
      exact UInt64.toNat_inj.mp (hzero e he _ hn)
  · rintro ⟨hout, hin⟩
    refine ⟨fun r n hn => ?_, fun u hu t ht => ?_⟩
    · have hmem := mem_messageDeltas.mpr ⟨r, hn⟩
      rw [hdeltas] at hmem
      cases hend : endsIn false inputs with
      | false => simp [hend] at hmem
      | true =>
        rw [hend, if_pos rfl, List.mem_singleton] at hmem
        rw [hmem, UInt32.toNat_ofNat']
        exact hout hend
    · have hstarts : u.starts = true := by
        cases u with
        | overflow | done => cases ht
        | chunk => rfl
      rw [hin u hu t ht]
      exact convertInputs_inputTokens order ⟨u, hu, hstarts⟩ hunread rfl

/-- **Usage.** The `message_delta` carries the output tokens of the upstream, and every reported
count of input tokens is sent, if and only if what the upstream says up to the end of the message is
in 32 bits what it says in all, and no count of input tokens but 0 is reported. -/
theorem usage_reported_iff (uuid model : String) (rawChunks : List (List Char)) :
    ReportsUsage (inputsOf serde rawChunks) (convertedEvents order serde uuid model rawChunks) ↔
      (endsIn false (inputsOf serde rawChunks) = true →
        outputTokensOf (upToEnd false (inputsOf serde rawChunks)) % UInt32.size =
          outputTokensOf (inputsOf serde rawChunks)) ∧
      ∀ u ∈ inputsOf serde rawChunks, ∀ t, u.promptTokens = some t → t = 0 := by
  rw [convertedEvents_eq]
  exact convertInputs_usage_iff order uuid model _

/-- The text of a chunk with usage only. -/
def usageText : String :=
  "\x7b\"choices\":[],\"usage\":\x7b\"prompt_tokens\":3,\"completion_tokens\":7\x7d\x7d"

def usageChunk : Value := .object [("choices", .array []), ("usage", .object [
  ("prompt_tokens", .number (.posInt 3)), ("completion_tokens", .number (.posInt 7))])]

def usageSerde : Serde := tableSerde [(finishText, finishChunk), (usageText, usageChunk)]

/-- The usage that comes after the `finish_reason` is lost. -/
theorem lateUsage_not_reported :
    ¬ReportsUsage (inputsOf usageSerde [sseText [finishText, usageText, "[DONE]"]])
      (convertedEvents .entries usageSerde "0" "m" [sseText [finishText, usageText, "[DONE]"]]) := by
  intro h
  have hevs : convertedEvents .entries usageSerde "0" "m"
      [sseText [finishText, usageText, "[DONE]"]] =
      [.messageStart "msg_0" "m" 0, .messageDelta "end_turn" 0, .messageStop] := by decide +kernel
  have hin : inputsOf usageSerde [sseText [finishText, usageText, "[DONE]"]] =
      [.chunk finishChunk, .chunk usageChunk, .done] :=
    (inputsOf_sseText (by decide) (by decide +kernel)).trans rfl
  have hout := h.output "end_turn" 0 (by rw [hevs]; simp)
  rw [hin] at hout
  exact absurd hout (by decide)

end ApertureRouter
