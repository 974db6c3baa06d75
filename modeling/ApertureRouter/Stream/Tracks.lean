import ApertureRouter.Stream.Client
import ApertureRouter.Stream.Upstream

/-!
# The converter's state and the client's

`Tracks lost c m`: the converter in state `c` and the client in state `m` agree on the message in
progress. The block at `content_block_index` is the open text or thinking block, if there is one;
every other block that the converter can still close is a tool block of the slot map, and no two
slots share a block. The blocks in `lost` are open for the client and unknown to the converter.

The lemmas are the steps that a chunk is made of: a delta of a block that the converter holds, the
end of the current block, a new current block, a new tool block. Only the last can lose a block:
the one that was at the slot before. Each says what it does to the client's `contents`.
-/

namespace ApertureRouter

/-! ## The relation -/

/-- The open block at `content_block_index`. -/
def StreamState.current (c : StreamState) : Option ContentBlock :=
  if c.textBlockOpen then some .text else if c.thinkingBlockOpen then some .thinking else none

/-- The converter can still close block `i`. -/
def StreamState.Holds (c : StreamState) (i : Nat) : Prop :=
  (c.current.isSome = true ∧ i = c.contentBlockIndex) ∨
    ∃ slot st, c.toolBlocks.get slot = some st ∧ st.blockIndex = i

/-- The message in progress (module doc). -/
structure Tracks (lost : List Nat) (c : StreamState) (m : Client) : Prop where
  live : m.live
  notStopped : m.stopped = false
  started : c.messageStarted = true
  notEnded : c.messageEnded = false
  oneOpen : c.textBlockOpen = true → c.thinkingBlockOpen = false
  length : m.blocks.length = c.contentBlockIndex + c.current.isSome.toNat
  kind : ∀ k, c.current = some k → ∃ b, m.blocks[c.contentBlockIndex]? = some b ∧ b.start = k
  tool : ∀ slot st, c.toolBlocks.get slot = some st → st.blockIndex < c.contentBlockIndex ∧
    ∃ b name, m.blocks[st.blockIndex]? = some b ∧ b.start = .toolUse st.id name
  apart : ∀ slot slot' st st', c.toolBlocks.get slot = some st →
    c.toolBlocks.get slot' = some st' → st.blockIndex = st'.blockIndex → slot = slot'
  orderNodup : c.toolBlockOrder.Nodup
  order : ∀ slot, slot ∈ c.toolBlockOrder ↔ slot ∈ c.toolBlocks
  forgotten : ∀ i ∈ lost, i < c.contentBlockIndex ∧
    ∀ slot st, c.toolBlocks.get slot = some st → st.blockIndex ≠ i
  isOpen : ∀ i b, m.blocks[i]? = some b → (b.isOpen = true ↔ c.Holds i ∨ i ∈ lost)

theorem StreamState.current_eq_none {c : StreamState} : c.current = none ↔ c.NoneOpen := by
  unfold StreamState.current StreamState.NoneOpen
  cases c.textBlockOpen <;> cases c.thinkingBlockOpen <;> simp

theorem StreamState.holds_of_none {c : StreamState} (h : c.current = none) {i : Nat} :
    c.Holds i ↔ ∃ slot st, c.toolBlocks.get slot = some st ∧ st.blockIndex = i := by
  simp [StreamState.Holds, h]

theorem StreamState.current_text {c : StreamState} :
    c.current = some .text ↔ c.textBlockOpen = true := by
  unfold StreamState.current
  cases c.textBlockOpen <;> cases c.thinkingBlockOpen <;> simp

/-! ## A block that changes -/

theorem Client.getElem?_setBlock {m : Client} {i : Nat} {b : Block} (hb : m.blocks[i]? = some b)
    (b' : Block) (j : Nat) :
    (m.setBlock i b').blocks[j]? = if i = j then some b' else m.blocks[j]? := by
  have hlt : i < m.blocks.length := (List.getElem?_eq_some_iff.mp hb).1
  simp only [Client.setBlock, List.getElem?_set, hlt, if_true]

/-- Every block keeps its start. -/
theorem Client.setBlock_start {m : Client} {i : Nat} {b : Block} (hb : m.blocks[i]? = some b)
    (b' : Block) (hs : b'.start = b.start) {j : Nat} {x : Block} (hx : m.blocks[j]? = some x) :
    ∃ y, (m.setBlock i b').blocks[j]? = some y ∧ y.start = x.start := by
  rw [getElem?_setBlock hb]
  by_cases hij : i = j
  · subst hij
    rw [hb] at hx
    cases hx
    exact ⟨b', if_pos rfl, hs⟩
  · exact ⟨x, by rw [if_neg hij, hx], rfl⟩

theorem Client.length_setBlock (m : Client) (i : Nat) (b : Block) :
    (m.setBlock i b).blocks.length = m.blocks.length := List.length_set

/-- `s` behind the payload of block `i`. -/
def appendAt (i : Nat) (s : String) (v : List (ContentBlock × String)) :
    List (ContentBlock × String) :=
  v.modify i fun e => (e.1, e.2 ++ s)

theorem Client.contents_addBlock (m : Client) (k : ContentBlock) :
    (m.addBlock k).contents = m.contents ++ [(k, "")] := by
  simp [contents, addBlock]

theorem Client.contents_delta {m : Client} {i : Nat} {b : Block} (hb : m.blocks[i]? = some b)
    (s : String) :
    (m.setBlock i { b with payload := b.payload ++ s }).contents = appendAt i s m.contents := by
  apply List.ext_getElem?
  intro j
  rw [contents, List.getElem?_map, getElem?_setBlock hb, appendAt, List.getElem?_modify, contents,
    List.getElem?_map]
  by_cases hij : i = j
  · subst hij
    simp [hb]
  · simp [hij]

theorem Client.contents_stop {m : Client} {i : Nat} {b : Block} (hb : m.blocks[i]? = some b) :
    (m.setBlock i { b with isOpen := false }).contents = m.contents := by
  apply List.ext_getElem?
  intro j
  rw [contents, List.getElem?_map, getElem?_setBlock hb, contents, List.getElem?_map]
  by_cases hij : i = j
  · subst hij
    simp [hb]
  · rw [if_neg hij]

/-! ## What a new tool block changes -/

/-- The block at `slot`, as a list of no or one index. -/
def blockAt (c : StreamState) (slot : Nat) : List Nat :=
  ((c.toolBlocks.get slot).map (·.blockIndex)).toList

theorem mem_blockAt {c : StreamState} {slot i : Nat} :
    i ∈ blockAt c slot ↔ ∃ st, c.toolBlocks.get slot = some st ∧ st.blockIndex = i := by
  simp [blockAt]

/-- The id of a new call. -/
def newCallId (tcId : Option String) (c : StreamState) : String :=
  tcId.getD ("call_synth_" ++ toString c.nextToolSlot)

theorem openToolBlock_eq (slot : Nat) (tcId : Option String) (name : String) (c : StreamState) :
    openToolBlock slot tcId name c =
      ({ c with
          nextToolSlot := if tcId.isSome then c.nextToolSlot else c.nextToolSlot + 1
          contentBlockIndex := c.contentBlockIndex + 1
          toolBlockOrder :=
            if slot ∈ c.toolBlockOrder then c.toolBlockOrder else c.toolBlockOrder ++ [slot]
          toolBlocks := c.toolBlocks.insert slot ⟨newCallId tcId c, c.contentBlockIndex⟩ },
        [.contentBlockStart c.contentBlockIndex (.toolUse (newCallId tcId c) name)]) := by
  cases tcId <;> rfl

section OpenToolBlock

variable (slot : Nat) (tcId : Option String) (name : String) (c : StreamState)

/-- The new block is at `slot`; the other slots keep theirs. -/
theorem get_openToolBlock (slot' : Nat) :
    (openToolBlock slot tcId name c).1.toolBlocks.get slot' =
      if slot' = slot then some ⟨newCallId tcId c, c.contentBlockIndex⟩
      else c.toolBlocks.get slot' := by
  rw [openToolBlock_eq]
  exact HashMap.get_insert c.toolBlocks slot slot' _

theorem current_openToolBlock :
    (openToolBlock slot tcId name c).1.current = c.current := by
  rw [openToolBlock_eq]
  rfl

theorem contentBlockIndex_openToolBlock :
    (openToolBlock slot tcId name c).1.contentBlockIndex = c.contentBlockIndex + 1 := by
  rw [openToolBlock_eq]

theorem toolBlockOrder_openToolBlock :
    (openToolBlock slot tcId name c).1.toolBlockOrder =
      if slot ∈ c.toolBlockOrder then c.toolBlockOrder else c.toolBlockOrder ++ [slot] := by
  rw [openToolBlock_eq]

/-- The block of `slot` goes from the slot map to the lost ones; the new block takes its place. -/
theorem holds_openToolBlock {c : StreamState} (hc : c.current = none) (i : Nat) :
    (openToolBlock slot tcId name c).1.Holds i ∨ i ∈ blockAt c slot ↔
      i = c.contentBlockIndex ∨ c.Holds i := by
  have hc' := (current_openToolBlock slot tcId name c).trans hc
  rw [StreamState.holds_of_none hc, StreamState.holds_of_none hc', mem_blockAt]
  constructor
  · rintro (⟨s, st, hst, hi⟩ | ⟨st, hst, hi⟩)
    · rw [get_openToolBlock] at hst
      split at hst
      · cases hst
        exact .inl hi.symm
      · exact .inr ⟨s, st, hst, hi⟩
    · exact .inr ⟨slot, st, hst, hi⟩
  · rintro (rfl | ⟨s, st, hst, hi⟩)
    · exact .inl ⟨slot, _, by rw [get_openToolBlock, if_pos rfl], rfl⟩
    · by_cases hs : s = slot
      · subst hs
        exact .inr ⟨st, hst, hi⟩
      · exact .inl ⟨s, st, by rw [get_openToolBlock, if_neg hs, hst], hi⟩

variable {c}

/-- The index of the new block is that of no other slot. -/
theorem apart_openToolBlock
    (hlt : ∀ s st, c.toolBlocks.get s = some st → st.blockIndex < c.contentBlockIndex)
    (hapart : ∀ s s' st st', c.toolBlocks.get s = some st → c.toolBlocks.get s' = some st' →
      st.blockIndex = st'.blockIndex → s = s') {slot₁ slot₂ : Nat} {st₁ st₂ : ToolBlockState}
    (h₁ : (openToolBlock slot tcId name c).1.toolBlocks.get slot₁ = some st₁)
    (h₂ : (openToolBlock slot tcId name c).1.toolBlocks.get slot₂ = some st₂)
    (he : st₁.blockIndex = st₂.blockIndex) : slot₁ = slot₂ := by
  rw [get_openToolBlock] at h₁ h₂
  split at h₁ <;> split at h₂
  · rename_i e₁ e₂
    rw [e₁, e₂]
  · cases h₁
    have he : c.contentBlockIndex = st₂.blockIndex := he
    have := hlt _ _ h₂
    omega
  · cases h₂
    have he : st₁.blockIndex = c.contentBlockIndex := he
    have := hlt _ _ h₁
    omega
  · exact hapart _ _ _ _ h₁ h₂ he

/-- The order has the slots of the map. -/
theorem order_openToolBlock (h : ∀ s, s ∈ c.toolBlockOrder ↔ s ∈ c.toolBlocks) (slot' : Nat) :
    slot' ∈ (openToolBlock slot tcId name c).1.toolBlockOrder ↔
      slot' ∈ (openToolBlock slot tcId name c).1.toolBlocks := by
  rw [toolBlockOrder_openToolBlock, openToolBlock_eq, HashMap.mem_insert, ← h]
  by_cases hs : slot ∈ c.toolBlockOrder
  · rw [if_pos hs]
    constructor
    · exact .inr
    · rintro (rfl | hm)
      exacts [hs, hm]
  · rw [if_neg hs, List.mem_append, List.mem_singleton, or_comm]

end OpenToolBlock

namespace Tracks

variable {lost : List Nat} {c c' : StreamState} {m : Client}

theorem current_thinking (h : Tracks lost c m) :
    c.current = some .thinking ↔ c.thinkingBlockOpen = true := by
  have := h.oneOpen
  unfold StreamState.current
  cases ht : c.textBlockOpen <;> cases hk : c.thinkingBlockOpen <;> simp_all

/-- The fields of the converter that `Tracks` does not read may change. -/
theorem of_eq (h : Tracks lost c m)
    (h1 : c'.messageStarted = c.messageStarted) (h2 : c'.messageEnded = c.messageEnded)
    (h3 : c'.textBlockOpen = c.textBlockOpen) (h4 : c'.thinkingBlockOpen = c.thinkingBlockOpen)
    (h5 : c'.contentBlockIndex = c.contentBlockIndex) (h6 : c'.toolBlocks = c.toolBlocks)
    (h7 : c'.toolBlockOrder = c.toolBlockOrder) : Tracks lost c' m := by
  have hcur : c'.current = c.current := by simp only [StreamState.current, h3, h4]
  have hholds : ∀ i, c'.Holds i ↔ c.Holds i := fun i => by
    simp only [StreamState.Holds, hcur, h5, h6]
  constructor <;> simp -failIfUnchanged only [h1, h2, h3, h4, h5, h6, h7, hcur, hholds]
  exacts [h.live, h.notStopped, h.started, h.notEnded, h.oneOpen, h.length, h.kind, h.tool, h.apart,
    h.orderNodup, h.order, h.forgotten, h.isOpen]

/-- A delta of a block that the converter holds. -/
theorem delta (h : Tracks lost c m) {i : Nat} (hi : c.Holds i) {d : Delta} {b : Block}
    (hb : m.blocks[i]? = some b) (hf : d.Fits b.start) :
    ∃ m', m.step (.contentBlockDelta i d) = some m' ∧ Tracks lost c m' ∧
      m'.contents = appendAt i d.payload m.contents := by
  have ho := (h.isOpen i b hb).mpr (.inl hi)
  have hkeep := @Client.setBlock_start m i b hb { b with payload := b.payload ++ d.payload } rfl
  refine ⟨_, by simp only [Client.step, hb]; rw [if_pos ⟨h.live, ho, hf⟩], ?_,
    Client.contents_delta hb _⟩
  refine { h with live := h.live, length := ?_, kind := ?_, tool := ?_, isOpen := ?_ }
  · rw [Client.length_setBlock]
    exact h.length
  · intro k hk
    obtain ⟨x, hx, rfl⟩ := h.kind k hk
    exact hkeep hx
  · intro slot st hst
    obtain ⟨hl, x, name, hx, hxs⟩ := h.tool slot st hst
    obtain ⟨y, hy, hys⟩ := hkeep hx
    exact ⟨hl, y, name, hy, hys.trans hxs⟩
  · intro j x hx
    rw [Client.getElem?_setBlock hb] at hx
    by_cases hij : i = j
    · subst hij
      rw [if_pos rfl] at hx
      cases hx
      exact h.isOpen i b hb
    · rw [if_neg hij] at hx
      exact h.isOpen j x hx

/-- The end of the current block. -/
theorem closeCurrent (h : Tracks lost c m) (hcur : c.current.isSome = true)
    (hc' : c' = { c with
      textBlockOpen := false
      thinkingBlockOpen := false
      contentBlockIndex := c.contentBlockIndex + 1 }) :
    ∃ m', m.step (.contentBlockStop c.contentBlockIndex) = some m' ∧ Tracks lost c' m' ∧
      m'.contents = m.contents := by
  obtain ⟨k, hk⟩ := Option.isSome_iff_exists.mp hcur
  obtain ⟨b, hb, hbk⟩ := h.kind k hk
  have ho := (h.isOpen _ b hb).mpr (.inl (.inl ⟨hcur, rfl⟩))
  refine ⟨_, by simp only [Client.step, hb]; rw [if_pos ⟨h.live, ho⟩], ?_, Client.contents_stop hb⟩
  subst hc'
  refine { h with
    live := h.live, started := h.started, notEnded := h.notEnded, apart := h.apart,
    orderNodup := h.orderNodup, order := h.order,
    oneOpen := by simp, length := ?_, kind := by simp [StreamState.current], tool := ?_,
    forgotten := fun i hi => ⟨Nat.lt_succ_of_lt (h.forgotten i hi).1, (h.forgotten i hi).2⟩,
    isOpen := ?_ }
  · rw [Client.length_setBlock, h.length, hcur]
    rfl
  · intro slot st hst
    obtain ⟨hl, x, name, hx, hxs⟩ := h.tool slot st hst
    obtain ⟨y, hy, hys⟩ := Client.setBlock_start hb { b with isOpen := false } rfl hx
    exact ⟨Nat.lt_succ_of_lt hl, y, name, hy, hys.trans hxs⟩
  · intro j x hx
    rw [Client.getElem?_setBlock hb] at hx
    have hne : ∀ slot st, c.toolBlocks.get slot = some st → st.blockIndex ≠ c.contentBlockIndex := by
      intro slot st hst
      have := (h.tool slot st hst).1
      omega
    by_cases hij : c.contentBlockIndex = j
    · subst hij
      rw [if_pos rfl] at hx
      cases hx
      refine iff_of_false (by simp) ?_
      rintro ((⟨hs, -⟩ | ⟨slot, st, hst, hi⟩) | hl)
      · simp [StreamState.current] at hs
      · exact hne slot st hst hi
      · have := (h.forgotten _ hl).1
        omega
    · rw [if_neg hij] at hx
      rw [h.isOpen j x hx]
      simp [StreamState.Holds, StreamState.current, Ne.symm hij]

/-! ## A new block -/

/-- The client takes a block at `content_block_index` while no text or thinking block is open. -/
theorem start (h : Tracks lost c m) (hc : c.current = none) (k : ContentBlock) :
    m.step (.contentBlockStart c.contentBlockIndex k) = some (m.addBlock k) := by
  have hl : c.contentBlockIndex = m.blocks.length := by rw [h.length, hc]; rfl
  simp only [Client.step]
  rw [if_pos ⟨h.live, hl⟩]

theorem getElem?_addBlock (h : Tracks lost c m) (hc : c.current = none) (k : ContentBlock) (i : Nat) :
    (m.addBlock k).blocks[i]? =
      if i = c.contentBlockIndex then some ⟨k, "", true⟩ else m.blocks[i]? := by
  have hl : m.blocks.length = c.contentBlockIndex := by rw [h.length, hc]; rfl
  simp only [Client.addBlock]
  by_cases hi : i = c.contentBlockIndex
  · rw [if_pos hi, hi, ← hl]
    simp
  · rw [if_neg hi]
    rcases Nat.lt_or_gt_of_ne hi with hlt | hgt
    · rw [List.getElem?_append_left (by omega)]
    · rw [List.getElem?_eq_none (by simp; omega), List.getElem?_eq_none (by omega)]

theorem length_addBlock (h : Tracks lost c m) (hc : c.current = none) (k : ContentBlock) :
    (m.addBlock k).blocks.length = c.contentBlockIndex + 1 := by
  simp [Client.addBlock, h.length, hc]

/-- The blocks of the slot map are among the first `content_block_index` blocks, which stay. -/
theorem tool_addBlock (h : Tracks lost c m) (hc : c.current = none) (k : ContentBlock) {slot : Nat}
    {st : ToolBlockState} (hst : c.toolBlocks.get slot = some st) :
    st.blockIndex < c.contentBlockIndex ∧ ∃ b name,
      (m.addBlock k).blocks[st.blockIndex]? = some b ∧ b.start = .toolUse st.id name := by
  obtain ⟨hl, b, name, hb, hs⟩ := h.tool slot st hst
  refine ⟨hl, b, name, ?_, hs⟩
  rw [h.getElem?_addBlock hc, if_neg (by omega), hb]

/-- A new text or thinking block. -/
theorem openCurrent (h : Tracks lost c m) (hc : c.current = none) {k : ContentBlock}
    {text thinking : Bool} (hone : text = true → thinking = false)
    (hc' : c' = { c with textBlockOpen := text, thinkingBlockOpen := thinking })
    (hk : c'.current = some k) : Tracks lost c' (m.addBlock k) := by
  subst hc'
  refine { h with
    live := h.live, started := h.started, notEnded := h.notEnded, apart := h.apart,
    orderNodup := h.orderNodup, order := h.order, oneOpen := hone, forgotten := h.forgotten,
    tool := fun slot st hst => h.tool_addBlock hc k hst, length := ?_, kind := ?_, isOpen := ?_ }
  · rw [h.length_addBlock hc, hk]
    rfl
  · intro k' hk'
    rw [hk] at hk'
    cases hk'
    exact ⟨_, by rw [h.getElem?_addBlock hc, if_pos rfl], rfl⟩
  · intro i b hb
    rw [h.getElem?_addBlock hc] at hb
    by_cases hi : i = c.contentBlockIndex
    · rw [if_pos hi] at hb
      cases hb
      exact iff_of_true rfl (.inl (.inl ⟨by rw [hk]; rfl, hi⟩))
    · rw [if_neg hi] at hb
      rw [h.isOpen i b hb]
      simp [StreamState.Holds, hi]

/-! ## A new tool block -/

section OpenToolBlock

variable (slot : Nat) (tcId : Option String) (name : String)

/-- The slot map has the new block and the blocks that the client had. -/
theorem tool_openToolBlock (h : Tracks lost c m) (hc : c.current = none) {slot' : Nat}
    {st : ToolBlockState} (hst : (openToolBlock slot tcId name c).1.toolBlocks.get slot' = some st) :
    st.blockIndex < c.contentBlockIndex + 1 ∧ ∃ b name',
      (m.addBlock (.toolUse (newCallId tcId c) name)).blocks[st.blockIndex]? = some b ∧
        b.start = .toolUse st.id name' := by
  rw [get_openToolBlock] at hst
  split at hst
  · cases hst
    refine ⟨Nat.lt_succ_self _, ⟨.toolUse (newCallId tcId c) name, "", true⟩, name, ?_, rfl⟩
    rw [h.getElem?_addBlock hc, if_pos rfl]
  · obtain ⟨hl, hb⟩ := h.tool_addBlock hc (.toolUse (newCallId tcId c) name) hst
    exact ⟨by omega, hb⟩

theorem orderNodup_openToolBlock (h : Tracks lost c m) :
    (openToolBlock slot tcId name c).1.toolBlockOrder.Nodup := by
  rw [toolBlockOrder_openToolBlock]
  split
  · exact h.orderNodup
  · rename_i hs
    rw [List.nodup_append]
    refine ⟨h.orderNodup, List.nodup_singleton _, ?_⟩
    intro a ha b hb e
    exact hs (by rw [← List.mem_singleton.mp hb, ← e]; exact ha)

/-- A lost block and the block that was at `slot` are behind the new one and at no slot. -/
theorem forgotten_openToolBlock (h : Tracks lost c m) {i : Nat} (hi : i ∈ lost ++ blockAt c slot) :
    i < c.contentBlockIndex + 1 ∧ ∀ slot' st,
      (openToolBlock slot tcId name c).1.toolBlocks.get slot' = some st → st.blockIndex ≠ i := by
  rw [List.mem_append, mem_blockAt] at hi
  have hlt : i < c.contentBlockIndex := by
    rcases hi with hi | ⟨st, hst, rfl⟩
    exacts [(h.forgotten i hi).1, (h.tool _ _ hst).1]
  refine ⟨by omega, fun slot' st hst => ?_⟩
  rw [get_openToolBlock] at hst
  by_cases hs : slot' = slot
  · rw [if_pos hs] at hst
    cases hst
    show c.contentBlockIndex ≠ i
    omega
  · rw [if_neg hs] at hst
    rcases hi with hi | ⟨st', hst', rfl⟩
    · exact (h.forgotten i hi).2 _ _ hst
    · exact fun e => hs (h.apart _ _ _ _ hst hst' e)

/-- A new tool block at `slot`: a block that was there is lost. -/
theorem openToolBlock (h : Tracks lost c m) (hc : c.current = none) :
    Tracks (lost ++ blockAt c slot) (ApertureRouter.openToolBlock slot tcId name c).1
      (m.addBlock (.toolUse (newCallId tcId c) name)) where
  live := h.live
  notStopped := h.notStopped
  started := by rw [openToolBlock_eq]; exact h.started
  notEnded := by rw [openToolBlock_eq]; exact h.notEnded
  oneOpen := by rw [openToolBlock_eq]; exact h.oneOpen
  length := by
    rw [h.length_addBlock hc, contentBlockIndex_openToolBlock, current_openToolBlock, hc]
    rfl
  kind k hk := by
    rw [current_openToolBlock, hc] at hk
    cases hk
  tool slot' st hst := by
    rw [contentBlockIndex_openToolBlock]
    exact h.tool_openToolBlock slot tcId name hc hst
  apart _ _ _ _ :=
    apart_openToolBlock slot tcId name (fun s st hst => (h.tool s st hst).1) h.apart
  orderNodup := h.orderNodup_openToolBlock slot tcId name
  order := order_openToolBlock slot tcId name h.order
  forgotten i hi := by
    rw [contentBlockIndex_openToolBlock]
    exact h.forgotten_openToolBlock slot tcId name hi
  isOpen i b hb := by
    rw [List.mem_append, @or_comm (i ∈ lost), ← or_assoc, holds_openToolBlock slot tcId name hc]
    rw [h.getElem?_addBlock hc] at hb
    by_cases hi : i = c.contentBlockIndex
    · rw [if_pos hi] at hb
      cases hb
      exact iff_of_true rfl (.inl (.inl hi))
    · rw [if_neg hi] at hb
      rw [h.isOpen i b hb]
      simp [hi]

end OpenToolBlock

end Tracks

end ApertureRouter
