import Mathlib.Data.List.Induction
import ApertureRouter.Stream.Boundaries
import ApertureRouter.Stream.Termination

/-!
# One kind of block at a time

A block should end when the kind of block changes. The reader `kindStep` keeps the blocks that are
open and gives up at a start of another kind; it accepts a list exactly if the list keeps the
statement (`accepted_iff_oneKind`).

* A run is a list of actions (`Upstream.actions`): beginnings of chunks, fragments, ends.
* `Opens leaked c opened`: what is open in the reader. The current block of the converter, its tool
  blocks until the message ends, and the tool blocks that it will never stop (`leaks`): those that a
  reused slot forgets, and those that start after the end.
* `oneKind_iff`: the statement holds of a run if and only if every text or thinking block starts
  while no tool block is open (`Alone`).
-/

namespace ApertureRouter

open Emit

/-- The `type` of a content block. -/
inductive BlockKind where
  | text
  | thinking
  | toolUse
  deriving DecidableEq, Repr

def ContentBlock.kind : ContentBlock → BlockKind
  | .text => .text
  | .thinking => .thinking
  | .toolUse .. => .toolUse

/-- When a block starts, every earlier block of another kind has stopped. -/
def OneKindAtATime (evs : List StreamEvent) : Prop :=
  ∀ pre i b mid j b' post,
    evs = pre ++ .contentBlockStart i b :: (mid ++ .contentBlockStart j b' :: post) →
      b.kind ≠ b'.kind → .contentBlockStop i ∈ mid

/-! ## A reader of kinds -/

/-- The open blocks after an event; no start while a block of another kind is open. -/
def kindStep (opened : List (Nat × ContentBlock)) :
    StreamEvent → Option (List (Nat × ContentBlock))
  | .contentBlockStart i b =>
    if ∀ x ∈ opened, x.2.kind = b.kind then some (opened ++ [(i, b)]) else none
  | .contentBlockStop i => some (opened.filter fun x => x.1 ≠ i)
  | _ => some opened

/-- An `x` with no `y` behind it: the last element is it, or is no `y` and the others have it. -/
theorem exists_split_concat {α : Type} {x y e : α} {l : List α} :
    (∃ pre post, l ++ [e] = pre ++ x :: post ∧ y ∉ post) ↔
      (∃ pre post, l = pre ++ x :: post ∧ y ∉ post) ∧ e ≠ y ∨ e = x := by
  constructor
  · rintro ⟨pre, post, hl, hy⟩
    rcases List.eq_nil_or_concat post with rfl | ⟨post, z, rfl⟩
    · obtain ⟨-, hx⟩ := List.append_inj' hl rfl
      cases hx
      exact .inr rfl
    · rw [List.concat_eq_append, ← List.cons_append, ← List.append_assoc] at hl
      obtain ⟨hpre, hz⟩ := List.append_inj' hl rfl
      cases hz
      simp only [List.concat_eq_append, List.mem_append, List.mem_singleton, not_or] at hy
      exact .inl ⟨⟨pre, post, hpre, hy.1⟩, fun he => hy.2 he.symm⟩
  · rintro (⟨⟨pre, post, rfl, hy⟩, hne⟩ | rfl)
    · refine ⟨pre, post ++ [e], by simp, ?_⟩
      simp [hy, Ne.symm hne]
    · exact ⟨l, [], rfl, by simp⟩

/-- The open blocks are those that have started and not stopped. -/
theorem mem_opened {evs : List StreamEvent} {opened : List (Nat × ContentBlock)}
    (h : evs.foldlM kindStep [] = some opened) (i : Nat) (b : ContentBlock) :
    (i, b) ∈ opened ↔ ∃ pre post, evs = pre ++ .contentBlockStart i b :: post ∧
      .contentBlockStop i ∉ post := by
  induction evs using List.reverseRecOn generalizing opened with
  | nil =>
    cases h
    simp
  | append_singleton evs e ih =>
    rw [List.foldlM_append] at h
    obtain ⟨o, ho, he⟩ := Option.bind_eq_some_iff.mp h
    have he : kindStep o e = some opened := by simpa using he
    rw [exists_split_concat, ← ih ho]
    cases e with
    | contentBlockStart j b' =>
      simp only [kindStep] at he
      split at he
      · cases he
        simp only [List.mem_append, List.mem_singleton]
        grind
      · cases he
    | contentBlockStop j =>
      cases he
      simp only [List.mem_filter]
      grind
    | _ =>
      cases he
      simp

/-- **What the reader accepts.** -/
theorem accepted_iff_oneKind (evs : List StreamEvent) :
    (∃ opened, evs.foldlM kindStep [] = some opened) ↔ OneKindAtATime evs := by
  induction evs using List.reverseRecOn with
  | nil =>
    refine ⟨fun _ pre i b mid j b' post h => ?_, fun _ => ⟨[], rfl⟩⟩
    simp at h
  | append_singleton evs e ih =>
    constructor
    · rintro ⟨opened, h⟩
      rw [List.foldlM_append] at h
      obtain ⟨o, ho, he⟩ := Option.bind_eq_some_iff.mp h
      intro pre i b mid j b' post hevs hne
      rw [← List.cons_append, ← List.append_assoc] at hevs
      rcases List.eq_nil_or_concat post with rfl | ⟨post, x, rfl⟩
      · obtain ⟨hpre, hx⟩ := List.append_inj' hevs rfl
        cases hx
        by_contra hstop
        have hmem : (i, b) ∈ o := (mem_opened ho i b).mpr ⟨pre, mid, hpre, hstop⟩
        have he : kindStep o (.contentBlockStart j b') = some opened := by simpa using he
        simp only [kindStep] at he
        split at he
        · rename_i hkinds
          exact hne (hkinds _ hmem)
        · cases he
      · rw [List.concat_eq_append, ← List.cons_append, ← List.append_assoc] at hevs
        obtain ⟨hpre, -⟩ := List.append_inj' hevs rfl
        exact ih.mp ⟨o, ho⟩ pre i b mid j b' post (by rw [hpre]; simp) hne
    · intro h
      obtain ⟨o, ho⟩ := ih.mpr fun pre i b mid j b' post hevs =>
        h pre i b mid j b' (post ++ [e]) (by rw [hevs]; simp)
      rw [List.foldlM_append, ho]
      suffices hs : ∃ o', kindStep o e = some o' by simpa using hs
      cases e with
      | contentBlockStart j b' =>
        simp only [kindStep]
        rw [if_pos]
        · exact ⟨_, rfl⟩
        · rintro ⟨i, b⟩ hmem
          obtain ⟨pre, mid, hevs, hstop⟩ := (mem_opened ho i b).mp hmem
          by_contra hne
          exact hstop (h pre i b mid j b' [] (by rw [hevs]; simp) hne)
      | _ => exact ⟨_, rfl⟩

/-! ## A run as actions -/

/-- What a run is made of. -/
inductive Action where
  | begin (value : Value)
  | fragment (f : Fragment)
  | finish (reason : String)
  | close
  | fail

def Upstream.actions : Upstream → List Action
  | .overflow => [.fail, .close]
  | .done => [.close]
  | .chunk value => .begin value :: ((chunkFragments value).map .fragment ++
      ((finishReason value).map .finish).toList)

section

variable (order : IterOrder Nat ToolBlockState)

def convertAction : Action → Convert
  | .begin value => beginChunk value
  | .fragment f => convertFragment order f
  | .finish reason => closeWithStopReason reason
  | .close => closeStream
  | .fail => Prog.emit fun _ => [.error "Stream buffer overflow"]

theorem convertInput_eq_actions (u : Upstream) :
    convertInput order u = Prog.forEach (convertAction order) u.actions := by
  funext c
  cases u with
  | overflow | done => simp [convertInput, overflow, Upstream.actions, convertAction]
  | chunk value =>
    have hfragments : Prog.forEach (convertAction order) ((chunkFragments value).map .fragment) =
        Prog.forEach (convertFragment order) (chunkFragments value) := by
      induction chunkFragments value with
      | nil => rfl
      | cons f fs ih => rw [List.map_cons, Prog.forEach_cons, ih]; rfl
    have hend : Prog.forEach (convertAction order) ((finishReason value).map .finish).toList =
        Prog.ifSome closeWithStopReason (finishReason value) := by
      cases finishReason value with
      | none => rfl
      | some reason =>
        funext c
        simp [convertAction]
    rw [convertInput, processOpenaiChunk_eq, Upstream.actions, Prog.forEach_cons,
      Prog.forEach_append, hfragments, hend]
    rfl

theorem convertInputs_eq_actions (inputs : List Upstream) :
    convertInputs order inputs =
      Prog.forEach (convertAction order) (inputs.flatMap (·.actions)) := by
  rw [Prog.forEach_flatMap, convertInputs]
  exact Prog.forEach_congr fun u _ => convertInput_eq_actions order u

/-! ## What is open -/

/-- The slot map has block `i`. -/
def StreamState.HasTool (c : StreamState) (i : Nat) : Prop :=
  ∃ slot st, c.toolBlocks.get slot = some st ∧ st.blockIndex = i

/-- The tool blocks that an action leaves open for good: the one that it starts after the end, and
the one that its slot had before the end. -/
def leaks (c : StreamState) : Action → List Nat
  | .fragment (.toolCall tc) =>
    if opensBlock order c tc then
      if c.messageEnded then [(closeForToolCalls c).1.contentBlockIndex]
      else blockAt c (slotOf order c tc)
    else []
  | _ => []

/-- The fragment starts a text or thinking block. -/
def startsCurrent (c : StreamState) : Action → Bool
  | .fragment (.reasoning s) => !s.isEmpty && !c.thinkingBlockOpen
  | .fragment (.content s) => !s.isEmpty && !c.textBlockOpen
  | _ => false

/-- No tool block is open: the converter has none that the end of the message will stop, and none
was left open for good. -/
def Alone (leaked : List Nat) (c : StreamState) : Prop :=
  (c.messageEnded = true ∨ ∀ slot, slot ∉ c.toolBlocks) ∧ leaked = []

structure Opens (leaked : List Nat) (c : StreamState) (opened : List (Nat × ContentBlock)) :
    Prop where
  oneOpen : c.textBlockOpen = true → c.thinkingBlockOpen = false
  current : ∀ i b, b.kind ≠ .toolUse →
    ((i, b) ∈ opened ↔ c.current = some b ∧ i = c.contentBlockIndex)
  tool : ∀ i, (∃ b, (i, b) ∈ opened ∧ b.kind = .toolUse) ↔
    c.messageEnded = false ∧ c.HasTool i ∨ i ∈ leaked
  tool_lt : ∀ i b, (i, b) ∈ opened → b.kind = .toolUse → i < c.contentBlockIndex
  slot_lt : ∀ i, c.HasTool i → i < c.contentBlockIndex
  apart : ∀ slot slot' st st', c.toolBlocks.get slot = some st →
    c.toolBlocks.get slot' = some st' → st.blockIndex = st'.blockIndex → slot = slot'
  order : ∀ slot, slot ∈ c.toolBlockOrder ↔ slot ∈ c.toolBlocks
  forgotten : c.messageEnded = false → ∀ i ∈ leaked, ¬c.HasTool i

namespace Opens

variable {leaked : List Nat} {c c' : StreamState} {opened : List (Nat × ContentBlock)}

theorem alone_iff (h : Opens leaked c opened) :
    Alone leaked c ↔ ∀ i b, (i, b) ∈ opened → b.kind ≠ .toolUse := by
  constructor
  · rintro ⟨hno, rfl⟩ i b hmem hk
    rcases (h.tool i).mp ⟨b, hmem, hk⟩ with ⟨hended, slot, st, hst, -⟩ | hl
    · rcases hno with he | hno
      · simp [he] at hended
      · exact hno slot (HashMap.mem_iff_get.mpr ⟨st, hst⟩)
    · cases hl
  · intro hnone
    refine ⟨?_, List.eq_nil_iff_forall_not_mem.mpr fun i hi => ?_⟩
    · cases he : c.messageEnded with
      | true => exact .inl rfl
      | false =>
        refine .inr fun slot hs => ?_
        obtain ⟨st, hst⟩ := HashMap.mem_iff_get.mp hs
        obtain ⟨b, hmem, hk⟩ := (h.tool st.blockIndex).mpr (.inl ⟨he, slot, st, hst, rfl⟩)
        exact hnone _ b hmem hk
    · obtain ⟨b, hmem, hk⟩ := (h.tool i).mpr (.inr hi)
      exact hnone i b hmem hk

/-- The fields that `Opens` does not read may change. -/
theorem of_eq (h : Opens leaked c opened) (h1 : c'.messageEnded = c.messageEnded)
    (h2 : c'.textBlockOpen = c.textBlockOpen) (h3 : c'.thinkingBlockOpen = c.thinkingBlockOpen)
    (h4 : c'.contentBlockIndex = c.contentBlockIndex) (h5 : c'.toolBlocks = c.toolBlocks)
    (h6 : c'.toolBlockOrder = c.toolBlockOrder) : Opens leaked c' opened := by
  have hcur : c'.current = c.current := by simp only [StreamState.current, h2, h3]
  have htool : ∀ i, c'.HasTool i ↔ c.HasTool i := fun i => by
    simp only [StreamState.HasTool, h5]
  constructor <;> simp -failIfUnchanged only [h1, h2, h3, h4, h5, h6, hcur, htool]
  exacts [h.oneOpen, h.current, h.tool, h.tool_lt, h.slot_lt, h.apart, h.order, h.forgotten]

/-! ### The current block -/

/-- The stop of the current block. -/
theorem closeCurrent (h : Opens leaked c opened)
    (hc' : c' = { c with
      textBlockOpen := false
      thinkingBlockOpen := false
      contentBlockIndex := c.contentBlockIndex + 1 }) :
    Opens leaked c' (opened.filter fun x => x.1 ≠ c.contentBlockIndex) := by
  subst hc'
  refine { h with
    oneOpen := by simp, current := fun i b hk => ?_, tool := fun i => ?_,
    tool_lt := fun i b hmem hk => ?_, slot_lt := fun i hi => Nat.lt_succ_of_lt (h.slot_lt i hi),
    apart := h.apart, order := h.order, forgotten := h.forgotten }
  · refine iff_of_false (fun hmem => ?_) (by simp [StreamState.current])
    obtain ⟨hmem, hne⟩ := List.mem_filter.mp hmem
    have := ((h.current i b hk).mp hmem).2
    simp [this] at hne
  · show _ ↔ c.messageEnded = false ∧ c.HasTool i ∨ i ∈ leaked
    rw [← h.tool i]
    constructor
    · rintro ⟨b, hmem, hk⟩
      exact ⟨b, (List.mem_filter.mp hmem).1, hk⟩
    · rintro ⟨b, hmem, hk⟩
      have := h.tool_lt i b hmem hk
      exact ⟨b, List.mem_filter.mpr ⟨hmem, by simp; omega⟩, hk⟩
  · have := h.tool_lt i b (List.mem_filter.mp hmem).1 hk
    show i < c.contentBlockIndex + 1
    omega

theorem closeTextBlock (h : Opens leaked c opened) :
    ∃ o, Accepts kindStep ApertureRouter.closeTextBlock c opened o ∧
      Opens leaked (ApertureRouter.closeTextBlock c).1 o := by
  simp only [Accepts, closeTextBlock_apply]
  cases ht : c.textBlockOpen with
  | false => exact ⟨opened, rfl, h⟩
  | true =>
    have hclose := h.closeCurrent rfl
    exact ⟨_, rfl, hclose.of_eq rfl rfl (h.oneOpen ht) rfl rfl rfl⟩

theorem closeThinkingBlock (h : Opens leaked c opened) :
    ∃ o, Accepts kindStep ApertureRouter.closeThinkingBlock c opened o ∧
      Opens leaked (ApertureRouter.closeThinkingBlock c).1 o := by
  simp only [Accepts, closeThinkingBlock_apply]
  cases hk : c.thinkingBlockOpen with
  | false => exact ⟨opened, rfl, h⟩
  | true =>
    have ht : c.textBlockOpen = false := by
      cases ht : c.textBlockOpen with
      | false => rfl
      | true => exact absurd (h.oneOpen ht) (by simp [hk])
    have hclose := h.closeCurrent rfl
    exact ⟨_, rfl, hclose.of_eq rfl ht rfl rfl rfl rfl⟩

theorem closeForToolCalls (h : Opens leaked c opened) :
    ∃ o, Accepts kindStep ApertureRouter.closeForToolCalls c opened o ∧
      Opens leaked (ApertureRouter.closeForToolCalls c).1 o := by
  obtain ⟨o₁, hm₁, h₁⟩ := h.closeThinkingBlock
  obtain ⟨o₂, hm₂, h₂⟩ := h₁.closeTextBlock
  exact ⟨o₂, hm₁.andThen hm₂, h₂⟩

/-- With no current block, only tool blocks are open. -/
theorem kind_of_none (h : Opens leaked c opened) (hc : c.current = none) {i : Nat}
    {b : ContentBlock} (hmem : (i, b) ∈ opened) : b.kind = .toolUse := by
  by_contra hk
  have := ((h.current i b hk).mp hmem).1
  simp [hc] at this

/-- A text or thinking block may start when no tool block is open. -/
theorem start (h : Opens leaked c opened) (hc : c.current = none) (ha : Alone leaked c)
    (k : ContentBlock) :
    kindStep opened (.contentBlockStart c.contentBlockIndex k) =
      some (opened ++ [(c.contentBlockIndex, k)]) := by
  simp only [kindStep]
  apply if_pos
  rintro ⟨i, b⟩ hmem
  exact absurd (h.kind_of_none hc hmem) (h.alone_iff.mp ha i b hmem)

theorem start_rejects (h : Opens leaked c opened) (ha : ¬Alone leaked c) {k : ContentBlock}
    (hk : k.kind ≠ .toolUse) (i : Nat) : kindStep opened (.contentBlockStart i k) = none := by
  rw [h.alone_iff] at ha
  simp only [kindStep]
  apply if_neg
  intro hall
  apply ha
  intro j b hmem hb
  apply hk
  rw [← hall _ hmem, hb]

/-- A new text or thinking block. -/
theorem openCurrent (h : Opens leaked c opened) (hc : c.current = none) {k : ContentBlock}
    (hk : k.kind ≠ .toolUse) {text thinking : Bool} (hone : text = true → thinking = false)
    (hc' : c' = { c with textBlockOpen := text, thinkingBlockOpen := thinking })
    (hcur : c'.current = some k) :
    Opens leaked c' (opened ++ [(c.contentBlockIndex, k)]) := by
  subst hc'
  refine { h with
    oneOpen := hone, current := fun i b hb => ?_, tool := fun i => ?_,
    tool_lt := fun i b hmem hb => ?_, slot_lt := h.slot_lt, apart := h.apart, order := h.order,
    forgotten := h.forgotten }
  · rw [hcur, List.mem_append, h.current i b hb, hc]
    simp [and_comm, eq_comm]
  · show _ ↔ c.messageEnded = false ∧ c.HasTool i ∨ i ∈ leaked
    rw [← h.tool i]
    constructor
    · rintro ⟨b, hmem, hb⟩
      rcases List.mem_append.mp hmem with hmem | hmem
      · exact ⟨b, hmem, hb⟩
      · cases List.mem_singleton.mp hmem
        exact absurd hb hk
    · rintro ⟨b, hmem, hb⟩
      exact ⟨b, List.mem_append_left _ hmem, hb⟩
  · rcases List.mem_append.mp hmem with hmem | hmem
    · exact h.tool_lt i b hmem hb
    · cases List.mem_singleton.mp hmem
      exact absurd hb hk

/-! ### Tool blocks -/

theorem leaked_lt (h : Opens leaked c opened) {i : Nat} (hi : i ∈ leaked) :
    i < c.contentBlockIndex := by
  obtain ⟨b, hmem, hk⟩ := (h.tool i).mpr (.inr hi)
  exact h.tool_lt i b hmem hk

/-- A tool block may start when only tool blocks are open. -/
theorem start_tool (h : Opens leaked c opened) (hc : c.current = none) (i : Nat) (id name : String) :
    kindStep opened (.contentBlockStart i (.toolUse id name)) =
      some (opened ++ [(i, .toolUse id name)]) := by
  simp only [kindStep]
  apply if_pos
  rintro ⟨j, b⟩ hmem
  exact h.kind_of_none hc hmem

theorem exists_tool_concat {i j : Nat} {id name : String} :
    (∃ b, (i, b) ∈ opened ++ [(j, ContentBlock.toolUse id name)] ∧ b.kind = .toolUse) ↔
      (∃ b, (i, b) ∈ opened ∧ b.kind = .toolUse) ∨ i = j := by
  constructor
  · rintro ⟨b, hmem, hk⟩
    rcases List.mem_append.mp hmem with hmem | hmem
    · exact .inl ⟨b, hmem, hk⟩
    · cases List.mem_singleton.mp hmem
      exact .inr rfl
  · rintro (⟨b, hmem, hk⟩ | rfl)
    · exact ⟨b, List.mem_append_left _ hmem, hk⟩
    · exact ⟨_, List.mem_append_right _ (List.mem_singleton_self _), rfl⟩

section OpenToolBlock

variable (slot : Nat) (tcId : Option String) (name : String)

theorem messageEnded_openToolBlock :
    (ApertureRouter.openToolBlock slot tcId name c).1.messageEnded = c.messageEnded := by
  rw [openToolBlock_eq]

theorem hasTool_of_mem_blockAt {i : Nat} (hi : i ∈ blockAt c slot) : c.HasTool i :=
  ⟨slot, mem_blockAt.mp hi⟩

/-- The blocks of the slot map are the new one and the old ones, without that of the slot. -/
theorem hasTool_openToolBlock (h : Opens leaked c opened) {i : Nat} :
    (ApertureRouter.openToolBlock slot tcId name c).1.HasTool i ↔
      i = c.contentBlockIndex ∨ c.HasTool i ∧ i ∉ blockAt c slot := by
  unfold StreamState.HasTool
  constructor
  · rintro ⟨s, st, hst, rfl⟩
    rw [get_openToolBlock] at hst
    split at hst
    · cases hst
      exact .inl rfl
    · rename_i hs
      refine .inr ⟨⟨s, st, hst, rfl⟩, fun hb => ?_⟩
      obtain ⟨st', hst', he⟩ := mem_blockAt.mp hb
      exact hs (h.apart _ _ _ _ hst hst' he.symm)
  · rintro (rfl | ⟨⟨s, st, hst, rfl⟩, hb⟩)
    · exact ⟨slot, _, by rw [get_openToolBlock, if_pos rfl], rfl⟩
    · have hs : s ≠ slot := by
        rintro rfl
        exact hb (mem_blockAt.mpr ⟨st, hst, rfl⟩)
      exact ⟨s, st, by rw [get_openToolBlock, if_neg hs, hst], rfl⟩

/-- A new tool block at `slot`: after the end it stays open, before the end the block that was at
the slot does. -/
theorem openToolBlock (h : Opens leaked c opened) (hc : c.current = none) :
    Opens (leaked ++ if c.messageEnded then [c.contentBlockIndex] else blockAt c slot)
      (ApertureRouter.openToolBlock slot tcId name c).1
      (opened ++ [(c.contentBlockIndex, .toolUse (newCallId tcId c) name)]) where
  oneOpen := by rw [openToolBlock_eq]; exact h.oneOpen
  current i b hk := by
    rw [current_openToolBlock, hc, List.mem_append, List.mem_singleton]
    refine iff_of_false ?_ (by simp)
    rintro (hmem | hmem)
    · exact hk (h.kind_of_none hc hmem)
    · cases hmem
      exact hk rfl
  tool i := by
    rw [exists_tool_concat, h.tool i, messageEnded_openToolBlock, h.hasTool_openToolBlock,
      List.mem_append]
    have hold : i ∈ blockAt c slot → c.HasTool i := hasTool_of_mem_blockAt slot
    cases c.messageEnded <;> simp only [] <;> grind
  tool_lt i b hmem hk := by
    rw [contentBlockIndex_openToolBlock]
    rcases List.mem_append.mp hmem with hmem | hmem
    · have := h.tool_lt i b hmem hk
      omega
    · cases List.mem_singleton.mp hmem
      omega
  slot_lt i hi := by
    rw [contentBlockIndex_openToolBlock]
    rcases (h.hasTool_openToolBlock slot tcId name).mp hi with rfl | ⟨hi, -⟩
    · omega
    · have := h.slot_lt i hi
      omega
  apart _ _ _ _ :=
    apart_openToolBlock slot tcId name (fun s st hst => h.slot_lt _ ⟨s, st, hst, rfl⟩) h.apart
  order := order_openToolBlock slot tcId name h.order
  forgotten he i hi := by
    rw [messageEnded_openToolBlock] at he
    rw [he, List.mem_append] at hi
    rw [h.hasTool_openToolBlock]
    rintro (rfl | ⟨hi', hb⟩)
    · rcases hi with hi | hi
      · have := h.leaked_lt hi
        omega
      · have := h.slot_lt _ (hasTool_of_mem_blockAt slot hi)
        omega
    · exact hi.elim (fun hi => h.forgotten he i hi hi') hb

end OpenToolBlock

/-! ### Fragments -/

/-- A delta changes nothing that the reader looks at. -/
theorem writeDelta (h : Opens leaked c opened) (d : Delta) :
    ∃ o, Accepts kindStep (emitDelta d >> countDelta) c opened o ∧
      Opens leaked ((emitDelta d >> countDelta) c).1 o := by
  refine ⟨opened, Accepts.andThen (.one rfl rfl) (.silent ?_), ?_⟩
  · rw [countDelta, Prog.cond_apply]
    split <;> rfl
  · rw [Prog.andThen_apply, countDelta, Prog.cond_apply]
    split
    · exact h.of_eq rfl rfl rfl rfl rfl rfl
    · exact h

/-- Closing the current block leaves the tool blocks. -/
theorem alone_congr (h1 : c'.messageEnded = c.messageEnded) (h2 : c'.toolBlocks = c.toolBlocks) :
    Alone leaked c' ↔ Alone leaked c := by
  unfold Alone
  rw [h1, h2]

/-- A thinking block starts after the text block that may be open. -/
theorem openThinkingBlock (h : Opens leaked c opened) (hk : c.thinkingBlockOpen = false) :
    (Alone leaked c → ∃ o, Accepts kindStep ApertureRouter.openThinkingBlock c opened o ∧
        Opens leaked (ApertureRouter.openThinkingBlock c).1 o) ∧
      (¬Alone leaked c → Rejects kindStep ApertureRouter.openThinkingBlock c opened) := by
  obtain ⟨o, hm, h₁⟩ := h.closeTextBlock
  have hno : (ApertureRouter.closeTextBlock c).1.NoneOpen := by
    rw [closeTextBlock_apply]
    cases ht : c.textBlockOpen <;> simp [StreamState.NoneOpen, hk, ht]
  have hnone := StreamState.current_eq_none.mpr hno
  have halone : Alone leaked (ApertureRouter.closeTextBlock c).1 ↔ Alone leaked c := by
    apply alone_congr <;> rw [closeTextBlock_apply] <;> split <;> rfl
  unfold ApertureRouter.openThinkingBlock Accepts Rejects
  rw [Prog.cond_pos (by simp [hk])]
  constructor
  · intro ha
    have hnew : StreamState.current { (ApertureRouter.closeTextBlock c).1 with
        thinkingBlockOpen := true } = some .thinking := by simp [StreamState.current, hno.1]
    exact ⟨_, hm.andThen (Accepts.andThen (.silent rfl) (.one rfl
        (h₁.start hnone (halone.mpr ha) _))),
      h₁.openCurrent hnone (by decide) (by simp [hno.1]) rfl hnew⟩
  · intro ha
    refine hm.andThen_rejects (Accepts.andThen_rejects (.silent rfl) ?_)
    show List.foldlM kindStep o [_] = none
    rw [List.foldlM_cons, h₁.start_rejects (mt halone.mp ha) (by decide)]
    rfl

theorem openTextBlock (h : Opens leaked c opened) (hk : c.thinkingBlockOpen = false)
    (ht : c.textBlockOpen = false) :
    (Alone leaked c → ∃ o, Accepts kindStep ApertureRouter.openTextBlock c opened o ∧
        Opens leaked (ApertureRouter.openTextBlock c).1 o) ∧
      (¬Alone leaked c → Rejects kindStep ApertureRouter.openTextBlock c opened) := by
  have hnone : c.current = none := StreamState.current_eq_none.mpr ⟨ht, hk⟩
  unfold ApertureRouter.openTextBlock Accepts Rejects
  rw [Prog.cond_pos (by simp [ht])]
  constructor
  · intro ha
    exact ⟨_, Accepts.andThen (.silent rfl) (.one rfl (h.start hnone ha _)),
      h.openCurrent hnone (by decide) (fun _ => hk) rfl rfl⟩
  · intro ha
    refine Accepts.andThen_rejects (.silent rfl) ?_
    show List.foldlM kindStep opened [_] = none
    rw [List.foldlM_cons, h.start_rejects ha (by decide)]
    rfl

theorem convertReasoning (h : Opens leaked c opened) (s : String) :
    ((startsCurrent c (.fragment (.reasoning s)) = true → Alone leaked c) →
        ∃ o, Accepts kindStep (ApertureRouter.convertReasoning s) c opened o ∧
          Opens leaked (ApertureRouter.convertReasoning s c).1 o) ∧
      (¬(startsCurrent c (.fragment (.reasoning s)) = true → Alone leaked c) →
        Rejects kindStep (ApertureRouter.convertReasoning s) c opened) := by
  rw [show startsCurrent c (.fragment (.reasoning s)) = (!s.isEmpty && !c.thinkingBlockOpen) from rfl]
  unfold ApertureRouter.convertReasoning Accepts Rejects
  cases hs : s.isEmpty with
  | true =>
    rw [Prog.cond_neg rfl]
    exact ⟨fun _ => ⟨opened, rfl, h⟩, fun hn => absurd (fun h => by simp at h) hn⟩
  | false =>
    rw [Prog.cond_pos rfl]
    cases hk : c.thinkingBlockOpen with
    | true =>
      have hskip : ApertureRouter.openThinkingBlock c = (c, []) := Prog.cond_neg (by simp [hk]) _
      obtain ⟨o, hm, h₁⟩ := h.writeDelta (.thinking s)
      refine ⟨fun _ => ⟨o, Accepts.andThen (.silent (by rw [hskip])) (hskip ▸ hm), ?_⟩,
        fun hn => absurd (fun h => by simp at h) hn⟩
      rw [Prog.andThen_apply, hskip]
      exact h₁
    | false =>
      obtain ⟨hopen, hreject⟩ := h.openThinkingBlock hk
      constructor
      · intro ha
        obtain ⟨o₁, hm₁, h₁⟩ := hopen (ha rfl)
        obtain ⟨o₂, hm₂, h₂⟩ := h₁.writeDelta (.thinking s)
        exact ⟨o₂, hm₁.andThen hm₂, h₂⟩
      · intro hn
        exact (hreject fun ha => hn fun _ => ha).andThen_left

theorem convertContent (h : Opens leaked c opened) (s : String) :
    ((startsCurrent c (.fragment (.content s)) = true → Alone leaked c) →
        ∃ o, Accepts kindStep (ApertureRouter.convertContent s) c opened o ∧
          Opens leaked (ApertureRouter.convertContent s c).1 o) ∧
      (¬(startsCurrent c (.fragment (.content s)) = true → Alone leaked c) →
        Rejects kindStep (ApertureRouter.convertContent s) c opened) := by
  rw [show startsCurrent c (.fragment (.content s)) = (!s.isEmpty && !c.textBlockOpen) from rfl]
  unfold ApertureRouter.convertContent Accepts Rejects
  cases hs : s.isEmpty with
  | true =>
    rw [Prog.cond_neg rfl]
    exact ⟨fun _ => ⟨opened, rfl, h⟩, fun hn => absurd (fun h => by simp at h) hn⟩
  | false =>
    rw [Prog.cond_pos rfl]
    obtain ⟨o₁, hm₁, h₁⟩ := h.closeThinkingBlock
    have hk : (ApertureRouter.closeThinkingBlock c).1.thinkingBlockOpen = false := by
      rw [closeThinkingBlock_apply]
      cases hk : c.thinkingBlockOpen <;> simp [hk]
    have ht : (ApertureRouter.closeThinkingBlock c).1.textBlockOpen = c.textBlockOpen := by
      rw [closeThinkingBlock_apply]
      split <;> rfl
    have halone : Alone leaked (ApertureRouter.closeThinkingBlock c).1 ↔ Alone leaked c := by
      apply alone_congr <;> rw [closeThinkingBlock_apply] <;> split <;> rfl
    cases hto : c.textBlockOpen with
    | true =>
      rw [hto] at ht
      have hskip : ApertureRouter.openTextBlock (ApertureRouter.closeThinkingBlock c).1 =
          ((ApertureRouter.closeThinkingBlock c).1, []) := Prog.cond_neg (by simp [ht]) _
      obtain ⟨o₂, hm₂, h₂⟩ := h₁.writeDelta (.text s)
      refine ⟨fun _ => ⟨o₂, hm₁.andThen (Accepts.andThen (.silent (by rw [hskip]))
        (hskip ▸ hm₂)), ?_⟩, fun hn => absurd (fun h => by simp at h) hn⟩
      rw [Prog.andThen_apply, Prog.andThen_apply, hskip]
      exact h₂
    | false =>
      obtain ⟨hopen, hreject⟩ := h₁.openTextBlock hk (ht.trans hto)
      constructor
      · intro ha
        obtain ⟨o₂, hm₂, h₂⟩ := hopen (halone.mpr (ha rfl))
        obtain ⟨o₃, hm₃, h₃⟩ := h₂.writeDelta (.text s)
        exact ⟨o₃, hm₁.andThen (hm₂.andThen hm₃), h₃⟩
      · intro hn
        exact hm₁.andThen_rejects (hreject fun ha => hn fun _ => halone.mp ha).andThen_left

/-- Arguments are accepted. -/
theorem forwardArguments (h : Opens leaked c opened) (slot : Nat) (args : Option String) :
    ∃ o, Accepts kindStep (Prog.ifSome (ApertureRouter.forwardArguments slot) args) c opened o ∧
      Opens leaked (Prog.ifSome (ApertureRouter.forwardArguments slot) args c).1 o := by
  refine ⟨opened, ?_, by rw [forwardArguments_state]; exact h⟩
  cases args with
  | none => exact .silent rfl
  | some s =>
    rw [Prog.ifSome_some]
    unfold ApertureRouter.forwardArguments Accepts
    rw [Prog.cond_apply]
    split
    · cases hst : c.toolBlocks.get slot <;> simp [hst, kindStep]
    · rfl

theorem convertToolCall (h : Opens leaked c opened) (tc : Value) :
    ∃ o, Accepts kindStep (convertFragment order (.toolCall tc)) c opened o ∧
      Opens (leaked ++ leaks order c (.fragment (.toolCall tc)))
        (convertFragment order (.toolCall tc) c).1 o := by
  obtain ⟨o₁, hm₁, h₁⟩ := h.closeForToolCalls
  have hs := closeForToolCalls_sameSlots c
  have hnone := StreamState.current_eq_none.mpr (closeForToolCalls_noneOpen c)
  have hended : (ApertureRouter.closeForToolCalls c).1.messageEnded = c.messageEnded := by
    rw [closeForToolCalls_apply]
  have hleaks : leaks order c (.fragment (.toolCall tc)) =
      if opensBlock order (ApertureRouter.closeForToolCalls c).1 tc then
        if (ApertureRouter.closeForToolCalls c).1.messageEnded then
          [(ApertureRouter.closeForToolCalls c).1.contentBlockIndex]
        else blockAt (ApertureRouter.closeForToolCalls c).1
          (slotOf order (ApertureRouter.closeForToolCalls c).1 tc)
      else [] := by
    rw [leaks, opensBlock_congr order hs, slotOf_congr order hs, hended, blockAt, blockAt, hs.1]
  set c₁ := (ApertureRouter.closeForToolCalls c).1
  have h₂ : Opens leaked (settleSlot order c₁ tc) o₁ := h₁.of_eq rfl rfl rfl rfl rfl rfl
  have hcall : ∃ o, Accepts kindStep (ApertureRouter.convertToolCall order tc) c₁ o₁ o ∧
      Opens (leaked ++ leaks order c (.fragment (.toolCall tc)))
        (ApertureRouter.convertToolCall order tc c₁).1 o := by
    unfold Accepts
    rw [convertToolCall_eq, hleaks]
    cases ho : opensBlock order c₁ tc with
    | true =>
      have h₃ := h₂.openToolBlock (slotOf order c₁ tc) (toolCallId tc) (toolCallName tc) hnone
      have hm₃ := h₂.start_tool hnone (settleSlot order c₁ tc).contentBlockIndex
        (newCallId (toolCallId tc) (settleSlot order c₁ tc)) (toolCallName tc)
      obtain ⟨o₄, hm₄, h₄⟩ := h₃.forwardArguments (slotOf order c₁ tc) (toolCallArguments tc)
      exact ⟨o₄, Accepts.andThen (.one (by rw [Prog.cond_pos rfl, openToolBlock_eq]) hm₃) hm₄, h₄⟩
    | false =>
      obtain ⟨o₄, hm₄, h₄⟩ := h₂.forwardArguments (slotOf order c₁ tc) (toolCallArguments tc)
      refine ⟨o₄, Accepts.andThen (.silent rfl) hm₄, ?_⟩
      rw [if_neg (by simp), List.append_nil]
      exact h₄
  obtain ⟨o₂, hm₂, h₃⟩ := hcall
  exact ⟨o₂, hm₁.andThen hm₂, h₃⟩

/-! ### The end -/

theorem foldlM_stops (is : List Nat) (opened : List (Nat × ContentBlock)) :
    (is.map StreamEvent.contentBlockStop).foldlM kindStep opened =
      some (opened.filter fun x => x.1 ∉ is) := by
  induction is generalizing opened with
  | nil => simp
  | cons i is ih =>
    rw [List.map_cons, List.foldlM_cons]
    show List.foldlM kindStep (opened.filter fun x => x.1 ≠ i) _ = _
    rw [ih, List.filter_filter]
    congr 1
    apply List.filter_congr
    rintro ⟨j, b⟩ -
    simp [Bool.and_comm]

/-- The end of the message stops all tool blocks but those that are left open for good. -/
theorem closeWithStopReason (h : Opens leaked c opened) (reason : String) :
    ∃ o, Accepts kindStep (ApertureRouter.closeWithStopReason reason) c opened o ∧
      Opens leaked (ApertureRouter.closeWithStopReason reason c).1 o := by
  unfold Accepts
  cases he : c.messageEnded with
  | true =>
    rw [ApertureRouter.closeWithStopReason, Prog.cond_neg (by simp [he])]
    exact ⟨opened, rfl, h⟩
  | false =>
    obtain ⟨o₁, hm₁, h₁⟩ := h.closeForToolCalls
    have hno := closeForToolCalls_noneOpen c
    have hended : (ApertureRouter.closeForToolCalls c).1.messageEnded = false := by
      rw [closeForToolCalls_apply]
      exact he
    have hidx : toolBlockIndices (ApertureRouter.closeForToolCalls c).1 = toolBlockIndices c := by
      rw [closeForToolCalls_apply]
      rfl
    rw [closeWithStopReason_eq he]
    set c₁ := (ApertureRouter.closeForToolCalls c).1
    have hnone := StreamState.current_eq_none.mpr hno
    refine ⟨o₁.filter fun x => x.1 ∉ toolBlockIndices c, ?_, ?_⟩
    · rw [List.foldlM_append,
        show List.foldlM _ opened (ApertureRouter.closeForToolCalls c).2 = _ from hm₁]
      show List.foldlM _ o₁ _ = _
      rw [List.foldlM_append, foldlM_stops]
      rfl
    · refine { h₁ with
        oneOpen := h₁.oneOpen, current := fun i b hk => ?_, tool := fun i => ?_,
        tool_lt := fun i b hmem => h₁.tool_lt i b (List.mem_filter.mp hmem).1,
        slot_lt := h₁.slot_lt, apart := h₁.apart, order := h₁.order, forgotten := by simp }
      · show _ ↔ c₁.current = some b ∧ i = c₁.contentBlockIndex
        rw [hnone]
        refine iff_of_false (fun hmem => ?_) (by simp)
        exact hk (h₁.kind_of_none hnone (List.mem_filter.mp hmem).1)
      · have htool := h₁.tool i
        have hforgot := h₁.forgotten hended i
        have hmemi : i ∈ toolBlockIndices c₁ ↔ c₁.HasTool i := mem_toolBlockIndices h₁.order
        rw [hidx] at hmemi
        simp only [List.mem_filter, hmemi, decide_not, Bool.not_eq_true', decide_eq_false_iff_not]
        rw [hended] at htool
        grind

end Opens

/-! ## A run -/

/-- Every text or thinking block starts while no tool block is open. -/
def StartsAlone (c : StreamState) (inputs : List Upstream) : Prop :=
  Along (fun p a => startsCurrent p.2 a = true → Alone p.1 p.2)
    (keeping (leaks order) (convertAction order)) ([], c) (inputs.flatMap (·.actions))

theorem opens_new (uuid model : String) : Opens [] (.new uuid model) [] := by
  constructor <;> simp [StreamState.new, StreamState.current, StreamState.HasTool]

variable {order} in
/-- **One action.** The reader accepts it exactly if it meets the guard. -/
theorem Opens.action {leaked : List Nat} {c : StreamState} {opened : List (Nat × ContentBlock)}
    (h : Opens leaked c opened) (a : Action) :
    ((startsCurrent c a = true → Alone leaked c) →
        ∃ o, Accepts kindStep (convertAction order a) c opened o ∧
          Opens (leaked ++ leaks order c a) (convertAction order a c).1 o) ∧
      (¬(startsCurrent c a = true → Alone leaked c) →
        Rejects kindStep (convertAction order a) c opened) := by
  -- Most actions start no text or thinking block, and leave no tool block open.
  have hfree : ∀ {P : Prop}, startsCurrent c a = false →
      ¬(startsCurrent c a = true → Alone leaked c) → P := fun hs hn =>
    absurd (fun h => by simp [hs] at h) hn
  have hkeep : leaks order c a = [] → (∃ o, Accepts kindStep (convertAction order a) c opened o ∧
      Opens leaked (convertAction order a c).1 o) →
      ∃ o, Accepts kindStep (convertAction order a) c opened o ∧
        Opens (leaked ++ leaks order c a) (convertAction order a c).1 o := fun hl h => by
    rw [hl, List.append_nil]
    exact h
  cases a with
  | begin value =>
    refine ⟨fun _ => hkeep rfl ⟨opened, ?_, ?_⟩, hfree rfl⟩
    · obtain ⟨i, o, f, hu⟩ := readUsage_counters value (startMessage c).1
      refine Accepts.andThen ?_ (.silent (by rw [hu]))
      unfold startMessage Accepts
      rw [Prog.cond_apply]
      split <;> rfl
    · obtain ⟨i, o, f, hu⟩ := readUsage_counters value (startMessage c).1
      rw [convertAction, beginChunk, Prog.andThen_apply, hu, startMessage, Prog.cond_apply]
      split <;> exact h.of_eq rfl rfl rfl rfl rfl rfl
  | fragment f =>
    cases f with
    | reasoning s =>
      obtain ⟨haccept, hreject⟩ := h.convertReasoning s
      exact ⟨fun hg => hkeep rfl (haccept hg), hreject⟩
    | content s =>
      obtain ⟨haccept, hreject⟩ := h.convertContent s
      exact ⟨fun hg => hkeep rfl (haccept hg), hreject⟩
    | toolCalls => exact ⟨fun _ => hkeep rfl h.closeForToolCalls, hfree rfl⟩
    | toolCall tc => exact ⟨fun _ => h.convertToolCall order tc, hfree rfl⟩
  | finish reason => exact ⟨fun _ => hkeep rfl (h.closeWithStopReason reason), hfree rfl⟩
  | close =>
    refine ⟨fun _ => hkeep rfl ?_, hfree rfl⟩
    rw [convertAction]
    unfold closeStream Accepts
    rw [Prog.cond_apply]
    split
    · exact h.closeWithStopReason "stop"
    · exact ⟨opened, rfl, h⟩
  | fail => exact ⟨fun _ => hkeep rfl ⟨opened, .one rfl rfl, h⟩, hfree rfl⟩

theorem convertInputs_oneKind_iff (uuid model : String) (inputs : List Upstream) :
    OneKindAtATime (convertInputs order inputs (.new uuid model)).2 ↔
      StartsAlone order (.new uuid model) inputs := by
  have hguard : (∃ o, Accepts kindStep (Prog.forEach (keeping (leaks order) (convertAction order))
      (inputs.flatMap (·.actions))) ([], .new uuid model) [] o) ↔
      StartsAlone order (.new uuid model) inputs :=
    Along.accepts_iff (fun p o a (hr : Opens p.1 p.2 o) hg => (hr.action a).1 hg)
      (fun p o a hr hg => (hr.action a).2 hg) _ (opens_new uuid model)
  rw [← hguard, ← accepted_iff_oneKind, convertInputs_eq_actions]
  unfold Accepts
  rw [forEach_keeping]

end

variable (order : IterOrder Nat ToolBlockState) (serde : Serde)

/-- **One kind at a time.** When a block starts, every earlier block of another kind has stopped, if
and only if every text or thinking block starts while no tool block is open. -/
theorem oneKind_iff (uuid model : String) (rawChunks : List (List Char)) :
    OneKindAtATime (convertedEvents order serde uuid model rawChunks) ↔
      StartsAlone order (.new uuid model) (inputsOf serde rawChunks) := by
  rw [convertedEvents_eq]
  exact convertInputs_oneKind_iff order uuid model _

/-- A text after a tool call. -/
def textAfterTool : List (List Char) := [sseText [callStartText "0" "a", contentText]]

/-- The text block starts while the tool block is open. -/
theorem textAfterTool_not_oneKind :
    ¬OneKindAtATime (convertedEvents .entries
      (tableSerde [(callStartText "0" "a", callStart 0 "a"), (contentText, contentChunk)]) "0" "m"
      textAfterTool) := by
  intro h
  have hevs : convertedEvents .entries
      (tableSerde [(callStartText "0" "a", callStart 0 "a"), (contentText, contentChunk)]) "0" "m"
      textAfterTool =
      [.messageStart "msg_0" "m" 0] ++ .contentBlockStart 0 (.toolUse "a" "") ::
        ([] ++ .contentBlockStart 1 .text :: [.contentBlockDelta 1 (.text "x")]) := by
    decide +kernel
  exact absurd (h _ _ _ _ _ _ _ hevs (by decide)) (by simp)

end ApertureRouter
