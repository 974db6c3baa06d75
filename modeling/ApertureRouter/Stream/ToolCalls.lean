import ApertureRouter.Lib.Keyed
import ApertureRouter.Stream.Chunks
import ApertureRouter.Types.Assistant

/-!
# Tool calls from fragments

The upstream cuts the arguments of several calls into fragments and sends them in any order. The
converter finds the block of a fragment in its slot map.

* `Collects`: the slot map and the client's contents after some fragments. Each call has a slot of
  its own, and the block at that slot has the call's arguments so far.
* `Collects.text`, `Collects.continue`, `Collects.start`: what a text, a fragment of a known call
  and the first fragment of a call do to it, given the slot that the fragment gets. Which slot that
  is, depends on how the upstream encodes the calls (`Encoding`).
-/

namespace ApertureRouter

open Emit
open Keyed (keys keys_concat_of_mem keys_concat_of_notMem)

/-! ## Slots and fragments without tool calls -/

/-- The tool call of a fragment. -/
def Fragment.toolCall? : Fragment → Option Value
  | .toolCall tc => some tc
  | .reasoning _ | .content _ | .toolCalls => none

section

variable (order : IterOrder Nat ToolBlockState) (c₀ : StreamState)

private theorem closeTextBlock_sameSlots :
    Emits (fun c => c.SameSlots c₀) (fun _ => True) closeTextBlock :=
  .cond (.andThen (.modify fun _ h => h) (.andThen (.emit (by simp)) (.modify fun _ h => h)))

private theorem closeThinkingBlock_sameSlots :
    Emits (fun c => c.SameSlots c₀) (fun _ => True) closeThinkingBlock :=
  .cond (.andThen (.modify fun _ h => h) (.andThen (.emit (by simp)) (.modify fun _ h => h)))

private theorem writeDelta_sameSlots (d : Delta) :
    Emits (fun c => c.SameSlots c₀) (fun _ => True) (emitDelta d >> countDelta) :=
  .andThen (.emit (by simp)) (.cond (.modify fun _ h => h))

end

/-- Text, reasoning and the field `tool_calls` leave the slots alone. -/
theorem convertFragment_sameSlots (order : IterOrder Nat ToolBlockState) {f : Fragment}
    (hf : f.toolCall? = none) (c : StreamState) : (convertFragment order f c).1.SameSlots c := by
  suffices h : Emits (fun c' => c'.SameSlots c) (fun _ => True) (convertFragment order f) from
    (h c (.refl c)).1
  cases f with
  | reasoning s =>
    refine .cond (.andThen (.cond (.andThen (closeTextBlock_sameSlots c) ?_))
      (writeDelta_sameSlots c _))
    exact .andThen (.modify fun _ h => h) (.emit (by simp))
  | content s =>
    refine .cond (.andThen (closeThinkingBlock_sameSlots c)
      (.andThen (.cond ?_) (writeDelta_sameSlots c _)))
    exact .andThen (.modify fun _ h => h) (.emit (by simp))
  | toolCalls => exact .andThen (closeThinkingBlock_sameSlots c) (closeTextBlock_sameSlots c)
  | toolCall tc => cases hf

/-! ## Contents -/

/-- The call of a block. -/
def ContentBlock.toolCall? : ContentBlock → Option ToolCall
  | .toolUse id name => some ⟨id, name⟩
  | .text | .thinking => none

theorem getElem?_appendAt (i : Nat) (s : String) (v : List (ContentBlock × String)) (j : Nat) :
    (appendAt i s v)[j]? = if i = j then v[j]?.map fun e => (e.1, e.2 ++ s) else v[j]? := by
  rw [appendAt, List.getElem?_modify]
  split <;> simp

theorem map_fst_appendAt (i : Nat) (s : String) (v : List (ContentBlock × String)) :
    (appendAt i s v).map Prod.fst = v.map Prod.fst := by
  apply List.ext_getElem?
  intro j
  rw [List.getElem?_map, getElem?_appendAt, List.getElem?_map]
  split
  · rw [Option.map_map]
    rfl
  · rfl

theorem appendAt_append_right {v : List (ContentBlock × String)} {i : Nat} (h : v.length ≤ i)
    (s : String) (w : List (ContentBlock × String)) :
    appendAt i s (v ++ w) = v ++ appendAt (i - v.length) s w := by
  apply List.ext_getElem?
  intro j
  rw [getElem?_appendAt]
  by_cases hj : j < v.length
  · rw [List.getElem?_append_left hj, List.getElem?_append_left hj, if_neg (by omega)]
  · rw [List.getElem?_append_right (by omega), List.getElem?_append_right (by omega),
      getElem?_appendAt]
    by_cases hij : i = j
    · rw [if_pos hij, if_pos (by omega)]
    · rw [if_neg hij, if_neg (by omega)]

/-- The calls of the blocks, in order. -/
def callsIn (v : List (ContentBlock × String)) : List ToolCall :=
  (v.map Prod.fst).filterMap (·.toolCall?)

theorem callsIn_append (v w : List (ContentBlock × String)) :
    callsIn (v ++ w) = callsIn v ++ callsIn w := by
  simp [callsIn]

theorem callsIn_appendAt (i : Nat) (s : String) (v : List (ContentBlock × String)) :
    callsIn (appendAt i s v) = callsIn v := by
  rw [callsIn, map_fst_appendAt, callsIn]

/-- Text and reasoning add no call, and leave the blocks before the current one alone. -/
theorem contentsAfter_text (order : IterOrder Nat ToolBlockState) {lost : List Nat} {c : StreamState}
    {m : Client} (h : Tracks lost c m) {f : Fragment} (hf : f.toolCall? = none) :
    callsIn (contentsAfter order c m.contents f) = callsIn m.contents ∧
      ∀ i < c.contentBlockIndex,
        (contentsAfter order c m.contents f)[i]? = m.contents[i]? := by
  have hlen : m.contents.length = c.contentBlockIndex + c.current.isSome.toNat := by
    rw [← h.length, Client.contents, List.length_map]
  have hwrite : ∀ k s, k.toolCall? = none →
      callsIn (writeCurrent k c.current s m.contents) = callsIn m.contents ∧
        ∀ i < c.contentBlockIndex, (writeCurrent k c.current s m.contents)[i]? = m.contents[i]? := by
    intro k s hk
    unfold writeCurrent
    split
    · rename_i hcur
      rw [hcur] at hlen
      refine ⟨callsIn_appendAt _ _ _, fun i hi => ?_⟩
      rw [getElem?_appendAt, if_neg]
      simp at hlen
      omega
    · refine ⟨by rw [callsIn_append]; simp [callsIn, hk], fun i hi => ?_⟩
      rw [List.getElem?_append_left (by omega)]
  cases f with
  | reasoning s =>
    simp only [contentsAfter]
    split
    exacts [⟨rfl, fun _ _ => rfl⟩, hwrite .thinking s rfl]
  | content s =>
    simp only [contentsAfter]
    split
    exacts [⟨rfl, fun _ _ => rfl⟩, hwrite .text s rfl]
  | toolCalls => exact ⟨rfl, fun _ _ => rfl⟩
  | toolCall tc => cases hf

/-! ## Collected fragments -/

section Collects

variable {κ : Type} [DecidableEq κ] (calls : κ → ToolCall)

/-- The slot map and the contents after the fragments of `pre`, with call `k` at `slot k`. -/
structure Collects (slot : κ → Nat) (pre : List (κ × Value)) (c : StreamState)
    (v : List (ContentBlock × String)) : Prop where
  held : ∀ k ∈ keys pre, ∃ st, c.toolBlocks.get (slot k) = some st ∧ st.id = (calls k).id ∧
    v[st.blockIndex]? = some (.toolUse (calls k).id (calls k).name, Keyed.text argumentsText k pre)
  only : ∀ s ∈ c.toolBlocks, ∃ k ∈ keys pre, slot k = s
  starts : callsIn v = (keys pre).map calls

/-- The first fragment of call `k`. -/
def Starts (k : κ) (tc : Value) : Prop :=
  toolCallId tc = some (calls k).id ∧ toolCallName tc = (calls k).name

variable {calls} {order : IterOrder Nat ToolBlockState} {slot slot' : κ → Nat}
  {pre : List (κ × Value)} {lost : List Nat} {c : StreamState} {m : Client}

theorem Collects.nil {v : List (ContentBlock × String)} (hc : c.toolBlocks = ∅)
    (hv : callsIn v = []) : Collects calls slot [] c v :=
  ⟨by simp [keys], by simp [hc], by simp [hv, keys]⟩

theorem Collects.congr {c' : StreamState} {v : List (ContentBlock × String)}
    (h : Collects calls slot pre c v) (hs : c'.SameSlots c) : Collects calls slot pre c' v :=
  ⟨by rw [hs.1]; exact h.held, by rw [hs.1]; exact h.only, h.starts⟩

/-- A fragment without tool call. -/
theorem Collects.text (h : Collects calls slot pre c m.contents) (ht : Tracks lost c m)
    {f : Fragment} (hf : f.toolCall? = none) :
    Collects calls slot pre (convertFragment order f c).1 (contentsAfter order c m.contents f) := by
  obtain ⟨hcalls, hget⟩ := contentsAfter_text order ht hf
  have hs := convertFragment_sameSlots order hf c
  refine ⟨fun k hk => ?_, by rw [hs.1]; exact h.only, by rw [hcalls, h.starts]⟩
  obtain ⟨st, hst, hid, hv⟩ := h.held k hk
  refine ⟨st, by rw [hs.1, hst], hid, ?_⟩
  rw [hget _ (ht.tool _ st hst).1, hv]

theorem convertFragment_toolCall_state (order : IterOrder Nat ToolBlockState) (tc : Value)
    (c : StreamState) :
    (convertFragment order (.toolCall tc) c).1 =
      if opensBlock order c tc then
        (openToolBlock (slotOf order c tc) (toolCallId tc) (toolCallName tc)
          (settleSlot order (closeForToolCalls c).1 tc)).1
      else settleSlot order (closeForToolCalls c).1 tc := by
  have hs := closeForToolCalls_sameSlots c
  rw [convertFragment, Prog.andThen_apply, convertToolCall_state, ← opensBlock_congr order hs,
    ← slotOf_congr order hs]
  rfl

/-- The next fragment of a call that has a block. -/
theorem Collects.continue (h : Collects calls slot pre c m.contents) (ht : Tracks lost c m) {k : κ}
    {tc : Value} (hk : k ∈ keys pre) (hslot : slotOf order c tc = slot k)
    (hid : toolCallId tc = none ∨ toolCallId tc = some (calls k).id)
    (hinj : ∀ j ∈ keys pre, slot j = slot k → j = k) :
    opensBlock order c tc = false ∧
      Collects calls slot (pre ++ [(k, tc)]) (convertFragment order (.toolCall tc) c).1
        (contentsAfter order c m.contents (.toolCall tc)) := by
  obtain ⟨st, hst, hstid, hv⟩ := h.held k hk
  have hopen : opensBlock order c tc = false := by
    rw [opensBlock, hslot, hst]
    rcases hid with hid | hid <;> simp [hid, isNewCall, hstid]
  refine ⟨hopen, ?_⟩
  rw [convertFragment_toolCall_state, hopen, if_neg (by simp), contentsAfter, toolCallContents, hopen,
    if_neg (by simp), hslot, hst]
  have hs := closeForToolCalls_sameSlots c
  refine ⟨fun j hj => ?_, ?_, ?_⟩
  · rw [keys_concat_of_mem hk] at hj
    obtain ⟨st', hst', hid', hv'⟩ := h.held j hj
    refine ⟨st', by rw [← hst']; exact congrArg (HashMap.get · _) hs.1, hid', ?_⟩
    rw [getElem?_appendAt, Keyed.text_concat]
    by_cases hjk : j = k
    · subst hjk
      rw [hst] at hst'
      cases hst'
      rw [if_pos rfl, if_pos rfl, hv]
      rfl
    · rw [if_neg (Ne.symm hjk), if_neg, hv']
      exact fun e => hjk (hinj j hj (ht.apart _ _ _ _ hst hst' e).symm)
  · rw [keys_concat_of_mem hk]
    intro s hmem
    exact h.only s (by rw [← hs.1]; exact hmem)
  · rw [callsIn_appendAt, keys_concat_of_mem hk, h.starts]

/-- A fragment that opens a block: the block is the last one of the contents, and at its slot. -/
theorem get_of_opensBlock (ht : Tracks lost c m) {tc : Value} {id : String}
    (ho : opensBlock order c tc = true) (hid : toolCallId tc = some id) (j : Nat) :
    (convertFragment order (.toolCall tc) c).1.toolBlocks.get j =
      if j = slotOf order c tc then some ⟨id, m.contents.length⟩ else c.toolBlocks.get j := by
  have hidx : (closeForToolCalls c).1.contentBlockIndex = m.contents.length := by
    obtain ⟨m₁, -, h₁, hv₁⟩ := ht.closeForToolCalls
    have hnone := StreamState.current_eq_none.mpr (closeForToolCalls_noneOpen c)
    rw [← hv₁, Client.contents, List.length_map, h₁.length, hnone]
    rfl
  rw [convertFragment_toolCall_state, ho, if_pos rfl, get_openToolBlock, hid, ← hidx,
    ← (closeForToolCalls_sameSlots c).1]
  rfl

theorem contentsAfter_of_opensBlock {v : List (ContentBlock × String)} {tc : Value} {id : String}
    (ho : opensBlock order c tc = true) (hid : toolCallId tc = some id) :
    contentsAfter order c v (.toolCall tc) =
      v ++ [(.toolUse id (toolCallName tc), argumentsText tc)] := by
  rw [contentsAfter, toolCallContents, ho, if_pos rfl, newCallId, hid]
  rfl

/-- The first fragment of a call. -/
theorem Collects.start (h : Collects calls slot pre c m.contents) (ht : Tracks lost c m) {k : κ}
    {tc : Value} (hk : k ∉ keys pre) (hslot : slotOf order c tc = slot' k)
    (hstart : Starts calls k tc) (hkeep : ∀ j ∈ keys pre, slot' j = slot j)
    (hinj : ∀ j ∈ keys pre, slot' j ≠ slot' k) :
    opensBlock order c tc = true ∧
      Collects calls slot' (pre ++ [(k, tc)]) (convertFragment order (.toolCall tc) c).1
        (contentsAfter order c m.contents (.toolCall tc)) := by
  have hfree : c.toolBlocks.get (slot' k) = none := by
    rw [HashMap.get_eq_none]
    intro hmem
    obtain ⟨j, hj, he⟩ := h.only _ hmem
    exact hinj j hj (by rw [hkeep j hj, he])
  have ho : opensBlock order c tc = true := by
    rw [opensBlock, hslot, hfree, hstart.1]
    rfl
  have hget := get_of_opensBlock ht ho hstart.1
  rw [hslot] at hget
  refine ⟨ho, ?_⟩
  rw [contentsAfter_of_opensBlock ho hstart.1, hstart.2]
  refine ⟨fun j hj => ?_, fun s hmem => ?_, ?_⟩
  · rw [keys_concat_of_notMem hk, List.mem_append, List.mem_singleton] at hj
    rw [hget, Keyed.text_concat]
    rcases hj with hj | rfl
    · obtain ⟨st, hst, hid, hv⟩ := h.held j hj
      have hjk : k ≠ j := fun e => hk (e ▸ hj)
      have hlt : st.blockIndex < m.contents.length := (List.getElem?_eq_some_iff.mp hv).1
      rw [if_neg (hinj j hj), hkeep j hj, if_neg hjk]
      exact ⟨st, hst, hid, by rw [List.getElem?_append_left hlt, hv]⟩
    · rw [if_pos rfl, if_pos rfl, Keyed.text_of_notMem hk, String.empty_append]
      exact ⟨_, rfl, rfl, List.getElem?_concat_length⟩
  · rw [HashMap.mem_iff_get, hget] at hmem
    by_cases hsk : s = slot' k
    · exact ⟨k, by simp [Keyed.mem_keys_concat], hsk.symm⟩
    · rw [if_neg hsk, ← HashMap.mem_iff_get] at hmem
      obtain ⟨j, hj, he⟩ := h.only s hmem
      exact ⟨j, Keyed.mem_keys_concat.mpr (.inl hj), by rw [hkeep j hj, he]⟩
  · rw [callsIn_append, keys_concat_of_notMem hk, h.starts, List.map_append]
    rfl

end Collects

end ApertureRouter
