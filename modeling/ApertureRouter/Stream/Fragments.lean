import ApertureRouter.Stream.Tracks

/-!
# What a fragment does

One theorem for the converter on any fragment of a message in progress (`Tracks.fragment`): the
client accepts its events, the two sides agree again, and the client's contents are
`contentsAfter`. A tool call that opens a block at an occupied slot loses the block that was there
(`lostBy`); no other fragment loses one.
-/

namespace ApertureRouter

open Emit

/-! ## Contents -/

/-- `s` in a block of kind `k`: in the current block if that is of the kind, else in a new one. -/
def writeCurrent (k : ContentBlock) (current : Option ContentBlock) (s : String)
    (v : List (ContentBlock × String)) : List (ContentBlock × String) :=
  if current = some k then appendAt (v.length - 1) s v else v ++ [(k, s)]

theorem appendAt_last (v : List (ContentBlock × String)) (k : ContentBlock) (p s : String) :
    appendAt v.length s (v ++ [(k, p)]) = v ++ [(k, p ++ s)] := by
  induction v with
  | nil => rfl
  | cons e v ih => simpa [appendAt] using ih

theorem appendAt_empty (i : Nat) (v : List (ContentBlock × String)) : appendAt i "" v = v := by
  simp only [appendAt, String.append_empty]
  exact List.modify_id i v

namespace Tracks

variable {lost : List Nat} {c : StreamState} {m : Client}

/-! ## Text and thinking -/

theorem closeTextBlock (h : Tracks lost c m) :
    ∃ m', Accepts Client.step ApertureRouter.closeTextBlock c m m' ∧
      Tracks lost (ApertureRouter.closeTextBlock c).1 m' ∧ m'.contents = m.contents := by
  simp only [Accepts, closeTextBlock_apply]
  cases ht : c.textBlockOpen with
  | false => exact ⟨m, rfl, h, rfl⟩
  | true =>
    obtain ⟨m', hm, htr, hv⟩ := h.closeCurrent (by simp [StreamState.current, ht]) rfl
    refine ⟨m', by simp [hm], htr.of_eq rfl rfl rfl ?_ rfl rfl rfl, hv⟩
    exact h.oneOpen ht

theorem closeThinkingBlock (h : Tracks lost c m) :
    ∃ m', Accepts Client.step ApertureRouter.closeThinkingBlock c m m' ∧
      Tracks lost (ApertureRouter.closeThinkingBlock c).1 m' ∧ m'.contents = m.contents := by
  simp only [Accepts, closeThinkingBlock_apply]
  cases hk : c.thinkingBlockOpen with
  | false => exact ⟨m, rfl, h, rfl⟩
  | true =>
    have ht : c.textBlockOpen = false := by
      cases ht : c.textBlockOpen with
      | false => rfl
      | true => exact absurd (h.oneOpen ht) (by simp [hk])
    obtain ⟨m', hm, htr, hv⟩ := h.closeCurrent (by simp [StreamState.current, hk, ht]) rfl
    exact ⟨m', by simp [hm], htr.of_eq rfl rfl ht rfl rfl rfl rfl, hv⟩

theorem closeForToolCalls (h : Tracks lost c m) :
    ∃ m', Accepts Client.step ApertureRouter.closeForToolCalls c m m' ∧
      Tracks lost (ApertureRouter.closeForToolCalls c).1 m' ∧ m'.contents = m.contents := by
  obtain ⟨m₁, hm₁, h₁, hv₁⟩ := h.closeThinkingBlock
  obtain ⟨m₂, hm₂, h₂, hv₂⟩ := h₁.closeTextBlock
  exact ⟨m₂, hm₁.andThen hm₂, h₂, hv₂.trans hv₁⟩

/-- A delta of the current block, and its count. -/
theorem writeDelta (h : Tracks lost c m) {k : ContentBlock} (hk : c.current = some k) {d : Delta}
    (hd : d.Fits k) :
    ∃ m', Accepts Client.step (emitDelta d >> countDelta) c m m' ∧
      Tracks lost ((emitDelta d >> countDelta) c).1 m' ∧
      m'.contents = appendAt (m.contents.length - 1) d.payload m.contents := by
  obtain ⟨b, hb, rfl⟩ := h.kind k hk
  obtain ⟨m', hm, htr, hv⟩ := h.delta (.inl ⟨by simp [hk], rfl⟩) hb hd
  have hlen : m.contents.length - 1 = c.contentBlockIndex := by
    simp [Client.contents, h.length, hk]
  refine ⟨m', Accepts.andThen (.one rfl hm) (.silent ?_), ?_, by rw [hv, hlen]⟩
  · rw [countDelta, Prog.cond_apply]
    split <;> rfl
  · rw [Prog.andThen_apply, countDelta, Prog.cond_apply]
    split
    · exact htr.of_eq rfl rfl rfl rfl rfl rfl rfl
    · exact htr

theorem openThinkingBlock (h : Tracks lost c m) :
    ∃ m', Accepts Client.step ApertureRouter.openThinkingBlock c m m' ∧
      Tracks lost (ApertureRouter.openThinkingBlock c).1 m' ∧
      (ApertureRouter.openThinkingBlock c).1.current = some .thinking ∧
      m'.contents = if c.current = some .thinking then m.contents
        else m.contents ++ [(.thinking, "")] := by
  cases hk : c.thinkingBlockOpen with
  | true =>
    have hcur := h.current_thinking.mpr hk
    have he : ApertureRouter.openThinkingBlock c = (c, []) := Prog.cond_neg (by simp [hk]) _
    rw [he, if_pos hcur]
    exact ⟨m, .silent (by rw [he]), h, hcur, rfl⟩
  | false =>
    have hcur : c.current ≠ some .thinking := fun e => by simp [h.current_thinking.mp e] at hk
    obtain ⟨m₁, hm₁, h₁, hv₁⟩ := h.closeTextBlock
    have hno : (ApertureRouter.closeTextBlock c).1.NoneOpen := by
      rw [closeTextBlock_apply]
      cases ht : c.textBlockOpen <;> simp [StreamState.NoneOpen, hk, ht]
    have hnone := StreamState.current_eq_none.mpr hno
    unfold ApertureRouter.openThinkingBlock Accepts
    rw [Prog.cond_pos (by simp [hk]), if_neg hcur]
    have hnew : StreamState.current { (ApertureRouter.closeTextBlock c).1 with
        thinkingBlockOpen := true } = some .thinking := by simp [StreamState.current, hno.1]
    refine ⟨_, hm₁.andThen (Accepts.andThen (.silent rfl) (.one rfl (h₁.start hnone _))),
      h₁.openCurrent hnone (by simp [hno.1]) rfl hnew, hnew, ?_⟩
    rw [Client.contents_addBlock, hv₁]

theorem openTextBlock (h : Tracks lost c m) (hk : c.thinkingBlockOpen = false) :
    ∃ m', Accepts Client.step ApertureRouter.openTextBlock c m m' ∧
      Tracks lost (ApertureRouter.openTextBlock c).1 m' ∧
      (ApertureRouter.openTextBlock c).1.current = some .text ∧
      m'.contents = if c.current = some .text then m.contents else m.contents ++ [(.text, "")] := by
  cases ht : c.textBlockOpen with
  | true =>
    have hcur := StreamState.current_text.mpr ht
    have he : ApertureRouter.openTextBlock c = (c, []) := Prog.cond_neg (by simp [ht]) _
    rw [he, if_pos hcur]
    exact ⟨m, .silent (by rw [he]), h, hcur, rfl⟩
  | false =>
    have hnone : c.current = none := StreamState.current_eq_none.mpr ⟨ht, hk⟩
    unfold ApertureRouter.openTextBlock Accepts
    rw [Prog.cond_pos (by simp [ht]), if_neg (by simp [hnone])]
    exact ⟨_, Accepts.andThen (.silent rfl) (.one rfl (h.start hnone _)),
      h.openCurrent hnone (fun _ => hk) rfl rfl, rfl, Client.contents_addBlock _ _⟩

/-- A delta of the block that was just opened or was open already. -/
private theorem writeDelta_opened (h : Tracks lost c m) {k : ContentBlock} (hk : c.current = some k)
    {d : Delta} (hd : d.Fits k) {current : Option ContentBlock} {v : List (ContentBlock × String)}
    (hv : m.contents = if current = some k then v else v ++ [(k, "")]) :
    ∃ m', Accepts Client.step (emitDelta d >> countDelta) c m m' ∧
      Tracks lost ((emitDelta d >> countDelta) c).1 m' ∧
      m'.contents = writeCurrent k current d.payload v := by
  obtain ⟨m', hm, htr, hv'⟩ := h.writeDelta hk hd
  refine ⟨m', hm, htr, ?_⟩
  rw [hv', hv, writeCurrent]
  split
  · rfl
  · simpa using appendAt_last v k "" d.payload

theorem convertReasoning (h : Tracks lost c m) (s : String) :
    ∃ m', Accepts Client.step (ApertureRouter.convertReasoning s) c m m' ∧
      Tracks lost (ApertureRouter.convertReasoning s c).1 m' ∧
      m'.contents = if s = "" then m.contents
        else writeCurrent .thinking c.current s m.contents := by
  unfold ApertureRouter.convertReasoning Accepts
  by_cases hs : s = ""
  · rw [Prog.cond_neg (by simp [hs]), if_pos hs]
    exact ⟨m, rfl, h, rfl⟩
  · rw [Prog.cond_pos (by simp [hs]), if_neg hs]
    obtain ⟨m₁, hm₁, h₁, hk, hv₁⟩ := h.openThinkingBlock
    obtain ⟨m₂, hm₂, h₂, hv₂⟩ := h₁.writeDelta_opened hk (d := .thinking s) trivial hv₁
    exact ⟨m₂, hm₁.andThen hm₂, h₂, hv₂⟩

theorem convertContent (h : Tracks lost c m) (s : String) :
    ∃ m', Accepts Client.step (ApertureRouter.convertContent s) c m m' ∧
      Tracks lost (ApertureRouter.convertContent s c).1 m' ∧
      m'.contents = if s = "" then m.contents else writeCurrent .text c.current s m.contents := by
  unfold ApertureRouter.convertContent Accepts
  by_cases hs : s = ""
  · rw [Prog.cond_neg (by simp [hs]), if_pos hs]
    exact ⟨m, rfl, h, rfl⟩
  · rw [Prog.cond_pos (by simp [hs]), if_neg hs]
    obtain ⟨m₁, hm₁, h₁, hv₁⟩ := h.closeThinkingBlock
    have hk : (ApertureRouter.closeThinkingBlock c).1.thinkingBlockOpen = false := by
      rw [closeThinkingBlock_apply]
      cases hk : c.thinkingBlockOpen <;> simp [hk]
    have hcur : (ApertureRouter.closeThinkingBlock c).1.current = some .text ↔
        c.current = some .text := by
      rw [StreamState.current_text, StreamState.current_text, closeThinkingBlock_apply]
      cases c.thinkingBlockOpen <;> simp
    obtain ⟨m₂, hm₂, h₂, hk₂, hv₂⟩ := h₁.openTextBlock hk
    obtain ⟨m₃, hm₃, h₃, hv₃⟩ := h₂.writeDelta_opened hk₂ (d := .text s) trivial hv₂
    refine ⟨m₃, hm₁.andThen (hm₂.andThen hm₃), h₃, ?_⟩
    simp only [hv₃, hv₁, writeCurrent, hcur, Delta.payload]

end Tracks

/-! ## Tool calls -/

section ToolCalls

variable (order : IterOrder Nat ToolBlockState)

/-- The slot of a tool call. -/
def slotOf (c : StreamState) (tc : Value) : Nat :=
  (resolveSlot order (toolCallIndex tc) (toolCallId tc) c).1

/-- The state once the slot of a tool call is settled. -/
def settleSlot (c : StreamState) (tc : Value) : StreamState :=
  { c with
    nextToolSlot := (resolveSlot order (toolCallIndex tc) (toolCallId tc) c).2
    lastToolSlot := some (slotOf order c tc) }

/-- A tool call opens a block. -/
def opensBlock (c : StreamState) (tc : Value) : Bool :=
  isNewCall (toolCallId tc) ((c.toolBlocks.get (slotOf order c tc)).map (·.id))

theorem convertToolCall_eq (tc : Value) (c : StreamState) :
    convertToolCall order tc c =
      (Prog.cond (fun _ => opensBlock order c tc)
          (openToolBlock (slotOf order c tc) (toolCallId tc) (toolCallName tc)) >>
        Prog.ifSome (forwardArguments (slotOf order c tc)) (toolCallArguments tc))
        (settleSlot order c tc) := rfl

/-- The fields that the slot of a tool call depends on. -/
def StreamState.SameSlots (c c' : StreamState) : Prop :=
  c.toolBlocks = c'.toolBlocks ∧ c.toolBlockOrder = c'.toolBlockOrder ∧
    c.nextToolSlot = c'.nextToolSlot ∧ c.lastToolSlot = c'.lastToolSlot

theorem resolveSlot_congr {c c' : StreamState} (h : c.SameSlots c') (index : Option Nat)
    (tcId : Option String) : resolveSlot order index tcId c = resolveSlot order index tcId c' := by
  obtain ⟨h1, -, h3, h4⟩ := h
  unfold resolveSlot
  rw [h1, h3, h4]

theorem slotOf_congr {c c' : StreamState} (h : c.SameSlots c') (tc : Value) :
    slotOf order c tc = slotOf order c' tc := by
  unfold slotOf
  rw [resolveSlot_congr order h]

theorem opensBlock_congr {c c' : StreamState} (h : c.SameSlots c') (tc : Value) :
    opensBlock order c tc = opensBlock order c' tc := by
  unfold opensBlock
  rw [slotOf_congr order h, h.1]

theorem closeForToolCalls_sameSlots (c : StreamState) :
    (closeForToolCalls c).1.SameSlots c := by
  rw [closeForToolCalls_apply]
  exact ⟨rfl, rfl, rfl, rfl⟩

/-- After a tool call that opens no block, there is one at its slot. -/
theorem get_slotOf {c : StreamState} {tc : Value} (h : opensBlock order c tc = false) :
    ∃ st, c.toolBlocks.get (slotOf order c tc) = some st := by
  cases hg : c.toolBlocks.get (slotOf order c tc) with
  | some st => exact ⟨st, rfl⟩
  | none =>
    rw [opensBlock, hg] at h
    cases hid : toolCallId tc <;> simp [hid, isNewCall] at h

/-- The arguments of a tool call; no arguments are like empty ones. -/
def argumentsText (tc : Value) : String := (toolCallArguments tc).getD ""

/-- What a tool call does to the contents: a new block with the arguments, or the arguments behind
those of the block at its slot. -/
def toolCallContents (c : StreamState) (tc : Value) (v : List (ContentBlock × String)) :
    List (ContentBlock × String) :=
  if opensBlock order c tc then
    v ++ [(.toolUse (newCallId (toolCallId tc) (settleSlot order c tc)) (toolCallName tc),
      argumentsText tc)]
  else match c.toolBlocks.get (slotOf order c tc) with
    | some st => appendAt st.blockIndex (argumentsText tc) v
    | none => v

end ToolCalls

namespace Tracks

variable {lost : List Nat} {c : StreamState} {m : Client}

/-- Arguments for the block at `slot`. -/
theorem forwardArguments (h : Tracks lost c m) {slot : Nat} {st : ToolBlockState}
    (hst : c.toolBlocks.get slot = some st) (args : Option String) :
    ∃ m', Accepts Client.step (Prog.ifSome (ApertureRouter.forwardArguments slot) args) c m m' ∧
      Tracks lost c m' ∧ m'.contents = appendAt st.blockIndex (args.getD "") m.contents := by
  by_cases ha : args.getD "" = ""
  · refine ⟨m, .silent ?_, h, by rw [ha, appendAt_empty]⟩
    cases args with
    | none => rfl
    | some s =>
      obtain rfl : s = "" := ha
      rfl
  · obtain ⟨s, rfl⟩ : ∃ s, args = some s := by
      cases args with
      | none => simp at ha
      | some s => exact ⟨s, rfl⟩
    obtain ⟨-, b, name, hb, hs⟩ := h.tool slot st hst
    obtain ⟨m', hm, htr, hv⟩ := h.delta (d := .inputJson s) (.inr ⟨slot, st, hst, rfl⟩) hb
      (by rw [hs]; trivial)
    refine ⟨m', .one ?_ hm, htr, hv⟩
    rw [Prog.ifSome_some, ApertureRouter.forwardArguments,
      Prog.cond_pos (by simpa using ha)]
    simp [hst]

variable (order : IterOrder Nat ToolBlockState)

theorem convertToolCall (h : Tracks lost c m) (hc : c.current = none) (tc : Value) :
    ∃ m', Accepts Client.step (ApertureRouter.convertToolCall order tc) c m m' ∧
      Tracks (lost ++ if opensBlock order c tc then blockAt c (slotOf order c tc) else [])
        (ApertureRouter.convertToolCall order tc c).1 m' ∧
      m'.contents = toolCallContents order c tc m.contents := by
  have h₁ : Tracks lost (settleSlot order c tc) m := h.of_eq rfl rfl rfl rfl rfl rfl rfl
  unfold Accepts toolCallContents
  rw [convertToolCall_eq]
  cases ho : opensBlock order c tc with
  | true =>
    have h₂ := h₁.openToolBlock (slotOf order c tc) (toolCallId tc) (toolCallName tc) hc
    have hget : (ApertureRouter.openToolBlock (slotOf order c tc) (toolCallId tc) (toolCallName tc)
        (settleSlot order c tc)).1.toolBlocks.get (slotOf order c tc) =
          some ⟨newCallId (toolCallId tc) (settleSlot order c tc), c.contentBlockIndex⟩ := by
      rw [get_openToolBlock, if_pos rfl]
      rfl
    obtain ⟨m', hm', h₃, hv⟩ := h₂.forwardArguments hget (toolCallArguments tc)
    have hlen : c.contentBlockIndex = m.contents.length := by
      simp [Client.contents, h.length, hc]
    refine ⟨m', Accepts.andThen (.one ?_ (h₁.start hc _)) hm', ?_, ?_⟩
    · rw [Prog.cond_pos rfl, openToolBlock_eq]
    · rw [Prog.andThen_apply, forwardArguments_state]
      exact h₃
    · rw [hv, Client.contents_addBlock, hlen, appendAt_last]
      simp [argumentsText]
  | false =>
    obtain ⟨st, hst⟩ := get_slotOf order ho
    obtain ⟨m', hm', h₃, hv⟩ := h₁.forwardArguments hst (toolCallArguments tc)
    refine ⟨m', Accepts.andThen (.silent rfl) hm', ?_, ?_⟩
    · rw [Prog.andThen_apply, forwardArguments_state, Prog.cond_neg rfl]
      simpa using h₃
    · simpa [hst, argumentsText] using hv

end Tracks

/-! ## Any fragment -/

section Fragment

variable (order : IterOrder Nat ToolBlockState)

/-- The block that a fragment makes the converter forget. -/
def lostBy (c : StreamState) : Fragment → List Nat
  | .reasoning _ | .content _ | .toolCalls => []
  | .toolCall tc => if opensBlock order c tc then blockAt c (slotOf order c tc) else []

/-- What a fragment does to the contents. -/
def contentsAfter (c : StreamState) (v : List (ContentBlock × String)) :
    Fragment → List (ContentBlock × String)
  | .reasoning s => if s = "" then v else writeCurrent .thinking c.current s v
  | .content s => if s = "" then v else writeCurrent .text c.current s v
  | .toolCalls => v
  | .toolCall tc => toolCallContents order c tc v

theorem lostBy_toolCall_congr {c c' : StreamState} (h : c.SameSlots c') (tc : Value) :
    lostBy order c (.toolCall tc) = lostBy order c' (.toolCall tc) := by
  simp only [lostBy, opensBlock_congr order h, slotOf_congr order h, blockAt, h.1]

theorem toolCallContents_congr {c c' : StreamState} (h : c.SameSlots c') (tc : Value)
    (v : List (ContentBlock × String)) :
    toolCallContents order c tc v = toolCallContents order c' tc v := by
  simp only [toolCallContents, opensBlock_congr order h, slotOf_congr order h, h.1, newCallId,
    settleSlot, resolveSlot_congr order h]

/-- **A fragment of a message in progress.** -/
theorem Tracks.fragment {lost : List Nat} {c : StreamState} {m : Client} (h : Tracks lost c m)
    (f : Fragment) :
    ∃ m', Accepts Client.step (convertFragment order f) c m m' ∧
      Tracks (lost ++ lostBy order c f) (convertFragment order f c).1 m' ∧
      m'.contents = contentsAfter order c m.contents f := by
  cases f with
  | reasoning s =>
    rw [lostBy, List.append_nil]
    exact h.convertReasoning s
  | content s =>
    rw [lostBy, List.append_nil]
    exact h.convertContent s
  | toolCalls =>
    rw [lostBy, List.append_nil]
    exact h.closeForToolCalls
  | toolCall tc =>
    obtain ⟨m₁, hm₁, h₁, hv₁⟩ := h.closeForToolCalls
    have hs := closeForToolCalls_sameSlots c
    obtain ⟨m₂, hm₂, h₂, hv₂⟩ := h₁.convertToolCall order
      (StreamState.current_eq_none.mpr (closeForToolCalls_noneOpen c)) tc
    refine ⟨m₂, hm₁.andThen hm₂, ?_, ?_⟩
    · rw [← lostBy_toolCall_congr order hs]
      exact h₂
    · rw [hv₂, hv₁, toolCallContents_congr order hs]
      rfl

end Fragment

end ApertureRouter
