import ApertureRouter.Stream.Usage
import ApertureRouter.Types.Validity

/-!
# When reasoning is lost

A message or a delta can have its reasoning in `reasoning_content` or in `reasoning`. `get_reasoning`
takes the first field that is there, whatever it holds, so a `reasoning_content` that is `null` or
empty hides what `reasoning` says (`Shadowed`).

* `thinkingText_beforeStop`: the thinking that a run emits before `message_stop` is what
  `get_reasoning` reads in the deltas up to the end of the message.
* `reasoning_kept_iff`: no reasoning is lost, in a response and in a stream, if and only if no
  message and no delta is shadowed.
-/

namespace ApertureRouter

open Emit
open Value (asStr)

/-! ## The two fields -/

/-- The reasoning strings of a message or a delta that are not empty. -/
def reasoningStrings (obj : Value) : List String :=
  ["reasoning_content", "reasoning"].filterMap fun field =>
    (obj.get field >>= asStr).filter fun s => !s.isEmpty

/-- `reasoning` says something, and `reasoning_content` is there. -/
def Shadowed (obj : Value) : Prop :=
  (obj.get "reasoning_content").isSome ∧ ∃ s, obj.get "reasoning" = some (.string s) ∧ s ≠ ""

/-- The text that `get_reasoning` reads. -/
def reasoningRead (obj : Value) : List Char := (getReasoning obj).elim [] String.toList

/-- The text of the reasoning strings. -/
def reasoningText (obj : Value) : List Char := (reasoningStrings obj).flatMap String.toList

theorem filter_isEmpty_toList (x : Option String) :
    (x.filter fun s => !s.isEmpty).elim [] String.toList = x.elim [] String.toList := by
  cases x with
  | none => rfl
  | some s =>
    by_cases hs : s = ""
    · subst hs
      rfl
    · rw [Option.filter_some, if_pos (by simpa using hs)]

theorem reasoningText_eq (obj : Value) :
    reasoningText obj = (obj.get "reasoning_content" >>= asStr).elim [] String.toList ++
      (obj.get "reasoning" >>= asStr).elim [] String.toList := by
  have htoList : ∀ x : Option String, x.toList.flatMap String.toList = x.elim [] String.toList := by
    intro x
    cases x <;> simp
  have hstrings : reasoningStrings obj =
      ((obj.get "reasoning_content" >>= asStr).filter fun s => !s.isEmpty).toList ++
        ((obj.get "reasoning" >>= asStr).filter fun s => !s.isEmpty).toList := by
    unfold reasoningStrings
    rw [List.filterMap_cons, List.filterMap_cons, List.filterMap_nil]
    cases (obj.get "reasoning_content" >>= asStr).filter fun s => !s.isEmpty <;>
      cases (obj.get "reasoning" >>= asStr).filter fun s => !s.isEmpty <;> rfl
  rw [reasoningText, hstrings, List.flatMap_append, htoList, htoList, filter_isEmpty_toList,
    filter_isEmpty_toList]

theorem elim_toList_eq_nil {x : Option String} :
    x.elim [] String.toList = [] ↔ ∀ s, x = some s → s = "" := by
  cases x with
  | none => simp
  | some s => simp

/-- Nothing is lost where `reasoning` is not shadowed. -/
theorem reasoningRead_of_not_shadowed {obj : Value} (h : ¬Shadowed obj) :
    reasoningRead obj = reasoningText obj := by
  rw [reasoningText_eq, reasoningRead, getReasoning]
  cases hrc : obj.get "reasoning_content" with
  | none => rfl
  | some v =>
    have hreasoning : (obj.get "reasoning" >>= asStr).elim [] String.toList = [] := by
      rw [elim_toList_eq_nil]
      intro s hs
      by_contra hne
      exact h ⟨by rw [hrc]; rfl, s, bind_asStr_eq_some.mp hs, hne⟩
    rw [hreasoning, List.append_nil]
    rfl

/-- A shadowed `reasoning` is lost, if it is the only one. -/
theorem reasoningRead_of_shadowed {obj : Value} (h : Shadowed obj)
    (hone : (reasoningStrings obj).length ≤ 1) : reasoningRead obj = [] ∧ reasoningText obj ≠ [] := by
  obtain ⟨hrc, s, hs, hne⟩ := h
  obtain ⟨v, hv⟩ := Option.isSome_iff_exists.mp hrc
  have hr : (obj.get "reasoning" >>= asStr) = some s := bind_asStr_eq_some.mpr hs
  have hcontent : (v.asStr).elim [] String.toList = [] := by
    rw [elim_toList_eq_nil]
    intro t ht
    by_contra htne
    have htwo : reasoningStrings obj = [t, s] := by
      have ht' : (obj.get "reasoning_content" >>= asStr) = some t := by rw [hv]; exact ht
      unfold reasoningStrings
      rw [List.filterMap_cons, List.filterMap_cons, List.filterMap_nil, ht', hr,
        Option.filter_some, Option.filter_some, if_pos (by simpa using htne), if_pos (by simpa using hne)]
    rw [htwo] at hone
    simp at hone
  constructor
  · rw [reasoningRead, getReasoning, hv]
    exact hcontent
  · rw [reasoningText_eq, hr]
    simp [hne]

/-! ## A response -/

/-- The only reasoning of the response's message is in a thinking block. -/
def KeepsReasoning (serde : Serde) (openai : Value) : Prop :=
  ∀ msg s, (firstChoice openai >>= (·.get "message")) = some msg → reasoningStrings msg = [s] →
    thinkingBlock s ∈ responseContent serde openai

theorem thinkingBlock_mem_messageContent {serde : Serde} {msg : Value} {s : String} :
    thinkingBlock s ∈ messageContent serde msg ↔ getReasoning msg = some s ∧ s ≠ "" := by
  have htype : (thinkingBlock s).get "type" = some (.string "thinking") := rfl
  have htext : ∀ x, thinkingBlock s ∉ blockUnlessEmpty textBlock x := by
    intro x hmem
    have := ((blockUnlessEmpty_valid isTextBlock_textBlock x).2 _ hmem).type
    rw [htype] at this
    simp at this
  have hcalls : ∀ tcs : List Value, thinkingBlock s ∉ tcs.map (toolCallBlock serde) := by
    intro tcs hmem
    obtain ⟨tc, -, htc⟩ := List.mem_map.mp hmem
    have : (toolCallBlock serde tc).get "type" = some (.string "tool_use") := rfl
    rw [htc, htype] at this
    simp at this
  rw [messageContent, List.mem_append, List.mem_append, or_iff_left (hcalls _), or_iff_left (htext _)]
  rw [blockUnlessEmpty_eq]
  cases getReasoning msg with
  | none => simp
  | some t =>
    rw [Option.getD_some, Option.some_inj]
    by_cases ht : t = ""
    · rw [if_pos ht]
      exact iff_of_false List.not_mem_nil fun h => h.2 (h.1 ▸ ht)
    · rw [if_neg ht, List.mem_singleton]
      constructor
      · intro h
        have : (thinkingBlock s).get "thinking" = (thinkingBlock t).get "thinking" := by rw [h]
        cases this
        exact ⟨rfl, ht⟩
      · rintro ⟨rfl, -⟩
        rfl

theorem thinkingBlock_mem_responseContent {serde : Serde} {openai msg : Value} {s : String}
    (hmsg : (firstChoice openai >>= (·.get "message")) = some msg) :
    thinkingBlock s ∈ responseContent serde openai ↔ getReasoning msg = some s ∧ s ≠ "" := by
  rw [← @thinkingBlock_mem_messageContent serde]
  simp only [responseContent, hmsg]
  split
  · rename_i hnil
    rw [List.isEmpty_iff] at hnil
    rw [hnil, List.mem_singleton]
    refine iff_of_false (fun h => ?_) List.not_mem_nil
    have : some (Value.string "thinking") = some (.string "text") :=
      congrArg (Value.get · "type") h
    simp at this
  · rfl

/-- **When a response keeps its reasoning.** -/
theorem keepsReasoning_iff (serde : Serde) (openai : Value) :
    KeepsReasoning serde openai ↔
      ∀ msg s, (firstChoice openai >>= (·.get "message")) = some msg → reasoningStrings msg = [s] →
        ¬Shadowed msg := by
  refine forall₄_congr fun msg s hmsg hs => ?_
  have htext : reasoningText msg = s.toList := by
    rw [reasoningText, hs, List.flatMap_singleton]
  have hne : s ≠ "" := by
    have hmem : s ∈ reasoningStrings msg := by rw [hs]; exact List.mem_singleton_self s
    obtain ⟨field, -, hfield⟩ := List.mem_filterMap.mp hmem
    simpa using (Option.filter_eq_some_iff.mp hfield).2
  rw [thinkingBlock_mem_responseContent hmsg]
  constructor
  · rintro ⟨hread, -⟩ hshadowed
    have hnil := (reasoningRead_of_shadowed hshadowed (by rw [hs]; exact Nat.le_refl 1)).1
    rw [reasoningRead, hread] at hnil
    exact hne (by simpa using hnil)
  · intro h
    have hread := reasoningRead_of_not_shadowed h
    rw [htext, reasoningRead] at hread
    cases hr : getReasoning msg with
    | none =>
      rw [hr] at hread
      exact absurd hread.symm (by simpa using hne)
    | some t =>
      rw [hr] at hread
      rw [String.toList_inj.mp hread]
      exact ⟨rfl, hne⟩

/-! ## The thinking of a run -/

/-- What an event adds to the thinking. -/
def StreamEvent.thinking : StreamEvent → List Char
  | .contentBlockDelta _ (.thinking s) => s.toList
  | _ => []

def thinkingText (evs : List StreamEvent) : List Char := evs.flatMap (·.thinking)

theorem thinkingText_append (a b : List StreamEvent) :
    thinkingText (a ++ b) = thinkingText a ++ thinkingText b := List.flatMap_append

theorem thinkingText_eq_nil {evs : List StreamEvent} (h : ∀ e ∈ evs, e.thinking = []) :
    thinkingText evs = [] := List.flatMap_eq_nil_iff.mpr h

/-- The events before `message_stop`. -/
def beforeStop (evs : List StreamEvent) : List StreamEvent := evs.takeWhile (· ≠ .messageStop)

def Upstream.delta : Upstream → Option Value
  | .chunk value => chunkDelta value
  | .overflow | .done => none

/-- The deltas of a run. -/
def deltasOf (inputs : List Upstream) : List Value := inputs.filterMap (·.delta)

/-- What an input adds to the thinking. -/
def Upstream.thinking (u : Upstream) : List Char := u.delta.elim [] reasoningRead

section

variable (order : IterOrder Nat ToolBlockState)

/-- A fragment without reasoning has no thinking. -/
theorem convertFragment_noThinking {f : Fragment} (hf : ∀ s, f ≠ .reasoning s) :
    Emits (fun _ => True) (·.thinking = []) (convertFragment order f) := by
  have htext : Emits (fun _ => True) (fun e : StreamEvent => e.thinking = []) closeTextBlock :=
    .cond (.andThen (.modify fun _ h => h) (.andThen (.emit (by simp [StreamEvent.thinking]))
      (.modify fun _ h => h)))
  have hthinking : Emits (fun _ => True) (fun e : StreamEvent => e.thinking = [])
      closeThinkingBlock :=
    .cond (.andThen (.modify fun _ h => h) (.andThen (.emit (by simp [StreamEvent.thinking]))
      (.modify fun _ h => h)))
  cases f with
  | reasoning s => exact absurd rfl (hf s)
  | content s =>
    refine .cond (.andThen hthinking (.andThen (.cond ?_) (.andThen (.emit ?_) ?_)))
    · exact .andThen (.modify fun _ h => h) (.emit (by simp [StreamEvent.thinking]))
    · simp [StreamEvent.thinking]
    · exact .cond (.modify fun _ h => h)
  | toolCalls => exact .andThen hthinking htext
  | toolCall tc =>
    refine .andThen (.andThen hthinking htext) fun c _ => ?_
    rw [convertToolCall]
    refine Emits.andThen (I := fun _ => True) (.modify fun _ h => h)
      (.andThen (.cond fun c _ => ?_) (.ifSome (fun args => .cond (.emit fun c e he => ?_)) _)) c trivial
    · rw [openToolBlock_eq]
      exact ⟨trivial, by simp [StreamEvent.thinking]⟩
    · split at he
      · rw [List.mem_singleton.mp he]
        rfl
      · cases he

/-- What a fragment adds to the thinking. -/
def Fragment.thinking : Fragment → List Char
  | .reasoning s => s.toList
  | .content _ | .toolCalls | .toolCall _ => []

theorem thinkingText_convertFragment (f : Fragment) (c : StreamState) :
    thinkingText (convertFragment order f c).2 = f.thinking := by
  by_cases hf : ∃ s, f = .reasoning s
  · obtain ⟨s, rfl⟩ := hf
    have hopen : thinkingText (openThinkingBlock c).2 = [] := by
      rw [openThinkingBlock, Prog.cond_apply]
      split
      · simp only [Prog.andThen_apply, closeTextBlock_apply]
        split <;> rfl
      · rfl
    by_cases hs : s = ""
    · rw [hs]
      rfl
    · have hcount : ∀ c, (countDelta c).2 = [] := by
        intro c
        rw [countDelta, Prog.cond_apply]
        split <;> rfl
      rw [convertFragment, convertReasoning, Prog.cond_pos (by simpa using hs), Prog.andThen_apply,
        Prog.andThen_apply, thinkingText_append, hopen, hcount]
      simp [emitDelta, thinkingText, StreamEvent.thinking, Fragment.thinking]
  · have hnone : f.thinking = [] := by
      cases f with
      | reasoning s => exact absurd ⟨s, rfl⟩ hf
      | content | toolCalls | toolCall => rfl
    rw [hnone]
    exact thinkingText_eq_nil
      (convertFragment_noThinking order (fun s hs => hf ⟨s, hs⟩) c trivial).2

theorem thinkingText_fragments (fs : List Fragment) (c : StreamState) :
    thinkingText (Prog.forEach (convertFragment order) fs c).2 = fs.flatMap Fragment.thinking := by
  induction fs generalizing c with
  | nil => rfl
  | cons f fs ih =>
    rw [Prog.forEach_cons, Prog.andThen_apply, thinkingText_append, ih,
      thinkingText_convertFragment, List.flatMap_cons]

theorem flatMap_chunkFragments_thinking (value : Value) :
    (chunkFragments value).flatMap Fragment.thinking = (Upstream.chunk value).thinking := by
  rw [chunkFragments, Upstream.thinking, Upstream.delta]
  cases chunkDelta value with
  | none => rfl
  | some delta =>
    show (deltaFragments delta).flatMap Fragment.thinking = reasoningRead delta
    have hcontent : ((deltaContent delta).map Fragment.content).toList.flatMap Fragment.thinking = [] := by
      cases deltaContent delta <;> rfl
    have hcalls : ∀ tcs : List Value, (tcs.map Fragment.toolCall).flatMap Fragment.thinking = [] := by
      intro tcs
      rw [List.flatMap_eq_nil_iff]
      intro f hf
      obtain ⟨tc, -, rfl⟩ := List.mem_map.mp hf
      rfl
    rw [deltaFragments, List.flatMap_append, List.flatMap_append, hcontent, List.append_nil,
      reasoningRead]
    cases deltaToolCalls delta with
    | none => cases getReasoning delta <;> simp [Fragment.thinking]
    | some tcs =>
      simp only [List.flatMap_cons, hcalls]
      cases getReasoning delta <;> simp [Fragment.thinking]

/-- A chunk before its end. -/
theorem thinkingText_chunkBody (value : Value) (c : StreamState) :
    thinkingText (chunkBody order value c).2 = (Upstream.chunk value).thinking := by
  have hbegin : thinkingText (beginChunk value c).2 = [] := by
    obtain ⟨i, o, f, hu⟩ := readUsage_counters value (startMessage c).1
    rw [beginChunk, Prog.andThen_apply, hu, startMessage, Prog.cond_apply]
    split <;> rfl
  rw [chunkBody, Prog.andThen_apply, thinkingText_append, hbegin, thinkingText_fragments,
    flatMap_chunkFragments_thinking]
  rfl

/-- The end of a message: everything but the last event comes before `message_stop`. -/
theorem closeWithStopReason_beforeStop {c : StreamState} (hc : c.messageEnded = false)
    (reason : String) : ∃ evs, (closeWithStopReason reason c).2 = evs ++ [.messageStop] ∧
      .messageStop ∉ evs ∧ thinkingText evs = [] := by
  obtain ⟨stops, r, n, h⟩ := closeWithStopReason_isClosing hc reason
  refine ⟨stops.map .contentBlockStop ++ [.messageDelta r n], ?_, by simp, ?_⟩
  · rw [h]
    simp
  · refine thinkingText_eq_nil fun e he => ?_
    rcases List.mem_append.mp he with he | he
    · obtain ⟨i, -, rfl⟩ := List.mem_map.mp he
      rfl
    · rw [List.mem_singleton.mp he]
      rfl

/-- One input before the end. -/
theorem convertInput_thinking (u : Upstream) {c : StreamState} (hc : c.messageEnded = false) :
    ∃ evs, (convertInput order u c).2 =
        evs ++ (if u.ends c.messageStarted then [.messageStop] else []) ∧
      .messageStop ∉ evs ∧ thinkingText evs = u.thinking := by
  have hclose : ∃ evs, (closeStream c).2 =
      evs ++ (if c.messageStarted then [.messageStop] else []) ∧
      .messageStop ∉ evs ∧ thinkingText evs = [] := by
    rw [closeStream, Prog.cond_apply]
    split
    · exact closeWithStopReason_beforeStop hc "stop"
    · exact ⟨[], rfl, List.not_mem_nil, rfl⟩
  cases u with
  | overflow =>
    obtain ⟨evs, hevs, hstop, htext⟩ := hclose
    refine ⟨.error "Stream buffer overflow" :: evs, ?_, by simp [hstop], htext⟩
    exact congrArg (StreamEvent.error "Stream buffer overflow" :: ·) hevs
  | done => exact hclose
  | chunk value =>
    have hstop : .messageStop ∉ (chunkBody order value c).2 := fun h =>
      chunkBody_inner order value c _ h
    have htext := thinkingText_chunkBody order value c
    rw [convertInput_chunk, Prog.andThen_apply, Upstream.ends]
    cases finishReason value with
    | none => exact ⟨_, rfl, hstop, htext⟩
    | some reason =>
      have hended : (chunkBody order value c).1.messageEnded = false :=
        (congrArg Prod.snd (chunkBody_flags order value c)).trans hc
      obtain ⟨evs, hevs, hstop', htext'⟩ := closeWithStopReason_beforeStop hended reason
      refine ⟨(chunkBody order value c).2 ++ evs, ?_, ?_, ?_⟩
      · rw [Prog.ifSome_some, hevs, List.append_assoc]
        rfl
      · rw [List.mem_append]
        exact not_or.mpr ⟨hstop, hstop'⟩
      · rw [thinkingText_append, htext, htext', List.append_nil]

theorem beforeStop_append {evs : List StreamEvent} (h : .messageStop ∉ evs) (rest : List StreamEvent) :
    beforeStop (evs ++ rest) = evs ++ beforeStop rest := by
  refine List.takeWhile_append_of_pos fun e he => ?_
  rw [decide_eq_true_iff]
  rintro rfl
  exact h he

/-- **The thinking before `message_stop`** is what is read in the deltas up to the end. -/
theorem thinkingText_beforeStop (inputs : List Upstream) {c : StreamState}
    (hc : c.messageEnded = false) :
    thinkingText (beforeStop (convertInputs order inputs c).2) =
      (deltasOf (upToEnd c.messageStarted inputs)).flatMap reasoningRead := by
  have hdelta : ∀ (u : Upstream) inputs, (deltasOf (u :: inputs)).flatMap reasoningRead =
      u.thinking ++ (deltasOf inputs).flatMap reasoningRead := by
    intro u inputs
    rw [deltasOf, List.filterMap_cons, Upstream.thinking]
    cases u.delta <;> rfl
  induction inputs generalizing c with
  | nil => rfl
  | cons u inputs ih =>
    obtain ⟨evs, hevs, hstop, htext⟩ := convertInput_thinking order u hc
    have hrun : (convertInputs order (u :: inputs) c).2 =
        evs ++ ((if u.ends c.messageStarted then [.messageStop] else []) ++
          (convertInputs order inputs (convertInput order u c).1).2) := by
      rw [← List.append_assoc, ← hevs]
      rfl
    have hended := convertInput_messageEnded order u c
    rw [hc, Bool.false_or] at hended
    rw [hrun, beforeStop_append hstop, thinkingText_append, htext, upToEnd]
    cases hu : u.ends c.messageStarted with
    | true =>
      rw [if_pos rfl, if_pos rfl, hdelta]
      rfl
    | false =>
      rw [if_neg Bool.false_ne_true, if_neg Bool.false_ne_true, List.nil_append, hdelta,
        ih (hended.trans hu), convertInput_messageStarted]

end

/-! ## A stream -/

/-- The thinking before `message_stop` is the reasoning of the deltas up to there, in a stream
whose deltas have one reasoning each at most. -/
def StreamKeepsReasoning (inputs : List Upstream) (evs : List StreamEvent) : Prop :=
  (∀ delta ∈ deltasOf inputs, (reasoningStrings delta).length ≤ 1) →
    thinkingText (beforeStop evs) = (deltasOf (upToEnd false inputs)).flatMap reasoningText

/-- Texts that are lost in some places are lost. -/
theorem flatMap_eq_iff_none_lost {α : Type} {f g : α → List Char} {lost : α → Prop} {l : List α}
    (hkept : ∀ a ∈ l, ¬lost a → f a = g a) (hlost : ∀ a ∈ l, lost a → f a = [] ∧ g a ≠ []) :
    l.flatMap f = l.flatMap g ↔ ∀ a ∈ l, ¬lost a := by
  have hle : ∀ l : List α, (∀ a ∈ l, ¬lost a → f a = g a) → (∀ a ∈ l, lost a → f a = [] ∧ g a ≠ []) →
      (l.flatMap f).length ≤ (l.flatMap g).length := by
    intro l hkept hlost
    induction l with
    | nil => exact Nat.le_refl 0
    | cons a l ih =>
      have hrest := ih (fun b hb => hkept b (by simp [hb])) fun b hb => hlost b (by simp [hb])
      rw [List.flatMap_cons, List.flatMap_cons, List.length_append, List.length_append]
      by_cases ha : lost a
      · rw [(hlost a (by simp) ha).1, List.length_nil]
        omega
      · rw [hkept a (by simp) ha]
        omega
  induction l with
  | nil => simp
  | cons a l ih =>
    have hkept' : ∀ b ∈ l, ¬lost b → f b = g b := fun b hb => hkept b (by simp [hb])
    have hlost' : ∀ b ∈ l, lost b → f b = [] ∧ g b ≠ [] := fun b hb => hlost b (by simp [hb])
    have hrest := ih hkept' hlost'
    rw [List.forall_mem_cons, List.flatMap_cons, List.flatMap_cons]
    by_cases ha : lost a
    · obtain ⟨hf, hg⟩ := hlost a (by simp) ha
      refine iff_of_false (fun h => ?_) fun h => h.1 ha
      have hlen := congrArg List.length h
      have hpos := List.length_pos_iff.mpr hg
      have := hle l hkept' hlost'
      rw [hf, List.length_append, List.length_append, List.length_nil] at hlen
      omega
    · rw [hkept a (by simp) ha, List.append_cancel_left_eq]
      exact ⟨fun h => ⟨ha, hrest.mp h⟩, fun h => hrest.mpr h.2⟩

theorem upToEnd_subset (started : Bool) (inputs : List Upstream) :
    ∀ u ∈ upToEnd started inputs, u ∈ inputs := by
  induction inputs generalizing started with
  | nil => simp [upToEnd]
  | cons v inputs ih =>
    intro u hu
    rw [upToEnd] at hu
    split at hu
    · rw [List.mem_singleton.mp hu]
      exact List.mem_cons_self
    · rcases List.mem_cons.mp hu with rfl | hu
      · exact List.mem_cons_self
      · exact List.mem_cons_of_mem _ (ih _ u hu)

/-- **When a stream keeps its reasoning.** -/
theorem streamKeepsReasoning_iff (order : IterOrder Nat ToolBlockState) (uuid model : String)
    (inputs : List Upstream) :
    StreamKeepsReasoning inputs (convertInputs order inputs (.new uuid model)).2 ↔
      ((∀ delta ∈ deltasOf inputs, (reasoningStrings delta).length ≤ 1) →
        ∀ delta ∈ deltasOf (upToEnd false inputs), ¬Shadowed delta) := by
  refine forall_congr' fun hone => ?_
  have hrun := thinkingText_beforeStop order inputs (c := .new uuid model) rfl
  rw [hrun]
  refine flatMap_eq_iff_none_lost (fun delta _ => reasoningRead_of_not_shadowed) ?_
  intro delta hdelta hshadowed
  obtain ⟨u, hu, hd⟩ := List.mem_filterMap.mp hdelta
  exact reasoningRead_of_shadowed hshadowed
    (hone delta (List.mem_filterMap.mpr ⟨u, upToEnd_subset false inputs u hu, hd⟩))

/-- **When no reasoning is lost.** -/
theorem reasoning_kept_iff (order : IterOrder Nat ToolBlockState) (serde : Serde)
    (uuid model : String) :
    (∀ openai, KeepsReasoning serde openai ↔
      ∀ msg s, (firstChoice openai >>= (·.get "message")) = some msg → reasoningStrings msg = [s] →
        ¬Shadowed msg) ∧
    ∀ rawChunks, StreamKeepsReasoning (inputsOf serde rawChunks)
        (convertedEvents order serde uuid model rawChunks) ↔
      ((∀ delta ∈ deltasOf (inputsOf serde rawChunks), (reasoningStrings delta).length ≤ 1) →
        ∀ delta ∈ deltasOf (upToEnd false (inputsOf serde rawChunks)), ¬Shadowed delta) := by
  refine ⟨keepsReasoning_iff serde, fun rawChunks => ?_⟩
  rw [convertedEvents_eq]
  exact streamKeepsReasoning_iff order uuid model (inputsOf serde rawChunks)

/-- A message with `reasoning_content` of `null` beside its `reasoning`. -/
theorem reasoning_null_shadows :
    ¬((∀ openai, KeepsReasoning (tableSerde []) openai) ∧
      ∀ rawChunks, StreamKeepsReasoning (inputsOf (tableSerde []) rawChunks)
        (convertedEvents .entries (tableSerde []) "0" "m" rawChunks)) := by
  rintro ⟨h, -⟩
  let msg : Value := .object [("reasoning_content", .null), ("reasoning", .string "r")]
  let openai : Value := .object [("choices", .array [.object [("message", msg)]])]
  have hstrings : reasoningStrings msg = ["r"] := rfl
  have hkept := (keepsReasoning_iff (tableSerde []) openai).mp (h openai) msg "r" rfl hstrings
  exact hkept ⟨rfl, "r", rfl, by decide⟩

end ApertureRouter
