import ApertureRouter.Stream.Run

/-!
# The block protocol holds, and when every block is closed

* `convertedEvents_blockProtocol`: whatever the upstream sends, the events of a converter up to the
  first `message_stop` keep the block protocol.
* `everyBlockClosed_iff`: every block that has started is closed at the `message_delta` if and
  only if no tool call has opened a block at a slot that had one (`ReusesSlot`). Such a call has
  an id, and the slot has a block with another id: an explicit index that a second call uses, or
  the index of a call that meets a slot number given to a call without index.
-/

namespace ApertureRouter

open Emit

section

variable (order : IterOrder Nat ToolBlockState) (serde : Serde)

/-! ## The block protocol -/

/-- **Block protocol.** -/
theorem convertedEvents_blockProtocol (uuid model : String) (rawChunks : List (List Char)) :
    BlockProtocol (upToStop (convertedEvents order serde uuid model rawChunks)) := by
  have hpre : ∀ {evs : List StreamEvent} {m : Client}, Client.read evs = some m →
      BlockProtocol (upToStop evs) := by
    intro evs m hm
    obtain ⟨post, hpost⟩ := upToStop_prefix evs
    rw [← hpost] at hm
    obtain ⟨m', hm', -⟩ := Client.read_prefix hm
    exact Client.blockProtocol hm'
  rw [convertedEvents_eq]
  rcases run_new order uuid model (inputsOf serde rawChunks) with
    ⟨-, m, hm, -⟩ | ⟨pre, u, post, he, -, -, m, hm, hf⟩
  · exact hpre hm
  · have hstop : .messageStop ∈ (convertInputs order (pre ++ [u]) (.new uuid model)).2 := by
      rw [← List.count_pos_iff, (Client.reads_of_read hm).stopped, hf.stopped]
      decide
    rw [he, List.append_cons, convertInputs_append, upToStop_append hstop]
    exact hpre hm

/-! ## Closed blocks -/

/-- A tool call with an id, at a slot whose block has another id. -/
def ReusesSlot (c : StreamState) : Fragment → Prop
  | .toolCall tc => ∃ st id, c.toolBlocks.get (slotOf order c tc) = some st ∧
      toolCallId tc = some id ∧ st.id ≠ id
  | .reasoning _ | .content _ | .toolCalls => False

/-- No fragment of an input reuses a slot. -/
def KeepsSlots (c : StreamState) : Upstream → Prop
  | .chunk value => Along (fun c f => ¬ReusesSlot order c f) (convertFragment order)
      (beginChunk value c).1 (chunkFragments value)
  | .overflow | .done => True

/-- No fragment before the end of the message reuses a slot. -/
def KeepsSlotsToEnd (c : StreamState) (inputs : List Upstream) : Prop :=
  Along (fun c u => c.messageEnded = false → KeepsSlots order c u) (convertInput order) c inputs

/-- A fragment loses a block exactly if it reuses a slot. -/
theorem lostBy_eq_nil {c : StreamState} {f : Fragment} :
    lostBy order c f = [] ↔ ¬ReusesSlot order c f := by
  cases f with
  | reasoning | content | toolCalls => simp [lostBy, ReusesSlot]
  | toolCall tc =>
    have hslot : ∀ x : Option ToolBlockState,
        (if isNewCall (toolCallId tc) (x.map (·.id)) then (x.map (·.blockIndex)).toList else []) = [] ↔
          ¬∃ st id, x = some st ∧ toolCallId tc = some id ∧ st.id ≠ id := by
      intro x
      rcases x with _ | st <;> rcases toolCallId tc with _ | id <;> simp [isNewCall]
    exact hslot _

theorem lostByInput_eq_nil {c : StreamState} {u : Upstream} :
    lostByInput order c u = [] ↔ KeepsSlots order c u := by
  cases u with
  | overflow | done => simp [lostByInput, KeepsSlots]
  | chunk value =>
    rw [lostByInput, gather_eq_nil, KeepsSlots]
    simp only [lostBy_eq_nil]

theorem lostAlong_eq_nil {c : StreamState} {inputs : List Upstream} :
    lostAlong order c inputs = [] ↔ Along (KeepsSlots order) (convertInput order) c inputs := by
  rw [lostAlong, gather_eq_nil]
  simp only [lostByInput_eq_nil]

/-- Inputs after the end do not count. -/
theorem keepsSlotsToEnd_append {c : StreamState} {pre post : List Upstream}
    (hpre : NotEndedAlong order c pre) (hend : (convertInputs order pre c).1.messageEnded = true) :
    KeepsSlotsToEnd order c (pre ++ post) ↔ lostAlong order c pre = [] := by
  rw [KeepsSlotsToEnd, Along.append, lostAlong_eq_nil]
  have hpost : Along (fun c u => c.messageEnded = false → KeepsSlots order c u) (convertInput order)
      (Prog.forEach (convertInput order) pre c).1 post :=
    Along.of_invariant (fun u c hc => (convertInput_ended order u c hc).1)
      (fun u c hc h => by simp [hc] at h) post hend
  rw [and_iff_left hpost]
  exact Along.congr (fun c u hc => by simp [hc]) hpre

/-- At the end every block is closed exactly if none is lost. -/
theorem Finished.allClosed_iff {lost : List Nat} {c : StreamState} {m : Client}
    (h : Finished lost c m) :
    (∀ (i : Nat) (b : Block), m.blocks[i]? = some b → b.isOpen = false) ↔ lost = [] := by
  constructor
  · intro hc
    refine List.eq_nil_iff_forall_not_mem.mpr fun i hi => ?_
    have hb := List.getElem?_eq_getElem (h.lost_lt i hi)
    have := (h.isOpen i _ hb).mpr hi
    rw [hc i _ hb] at this
    cases this
  · intro hnil i b hb
    have := h.isOpen i b hb
    rw [hnil] at this
    simpa using this

/-- In a list that goes on behind an accepted and ended one, without another `message_delta`, every
block is closed exactly if the client has no open block. -/
theorem everyBlockClosed_append {h rest : List StreamEvent} {m : Client}
    (hm : Client.read h = some m) (hd : ∃ e ∈ h, e.isMessageDelta = true)
    (hrest : ∀ e ∈ rest, e.isMessageDelta = false) :
    EveryBlockClosed (h ++ rest) ↔
      ∀ (i : Nat) (b : Block), m.blocks[i]? = some b → b.isOpen = false := by
  -- A `message_delta` is in `h`, and the blocks stay as they are before it.
  have hsplit : ∀ {pre r n post}, h = pre ++ .messageDelta r n :: post →
      ∃ m₁, Client.read pre = some m₁ ∧ m.blocks = m₁.blocks := by
    rintro pre r n post rfl
    obtain ⟨m₁, m₂, h₁, h₂, h₃⟩ := Client.read_split hm
    obtain ⟨-, rfl⟩ := Client.step_messageDelta h₂
    have hb := Client.foldlM_ended (by rfl) h₃
    exact ⟨m₁, h₁, hb⟩
  constructor
  · intro hc
    obtain ⟨e, he, hed⟩ := hd
    obtain ⟨pre, post, rfl⟩ := List.append_of_mem he
    cases e with
    | messageDelta r n =>
      obtain ⟨m₁, h₁, hb⟩ := hsplit rfl
      rw [hb]
      exact (Client.all_closed_iff h₁).mp (hc pre r n (post ++ rest) (by simp))
    | _ => cases hed
  · intro hc pre r n post he
    obtain ⟨x, rfl⟩ : ∃ x, h = pre ++ .messageDelta r n :: x := by
      rcases List.append_eq_append_iff.mp he with ⟨x, hx, hr⟩ | ⟨x, hx, hr⟩
      · have := hrest (.messageDelta r n) (by rw [hr]; simp)
        cases this
      · cases x with
        | nil =>
          have := hrest (.messageDelta r n) (by rw [List.nil_append] at hr; rw [← hr]; simp)
          cases this
        | cons e x =>
          cases hr
          exact ⟨x, hx⟩
    obtain ⟨m₁, h₁, hb⟩ := hsplit rfl
    rw [hb] at hc
    exact (Client.all_closed_iff h₁).mpr hc

theorem convertInputs_closed_iff (uuid model : String) (inputs : List Upstream)
    (hd : ∃ e ∈ (convertInputs order inputs (.new uuid model)).2, e.isMessageDelta = true) :
    EveryBlockClosed (convertInputs order inputs (.new uuid model)).2 ↔
      KeepsSlotsToEnd order (.new uuid model) inputs := by
  rcases run_new order uuid model inputs with
    ⟨-, m, hm, hl⟩ | ⟨pre, u, post, he, hn, -, m, hm, hf⟩
  · obtain ⟨e, he, hed⟩ := hd
    have hpos := List.countP_pos_iff.mpr ⟨e, he, hed⟩
    rw [(Client.reads_of_read hm).deltas, hl.stopReason] at hpos
    cases hpos
  · rw [he, List.append_cons, convertInputs_append] at hd ⊢
    have hrest : ∀ e ∈ (convertInputs order post (convertInputs order (pre ++ [u])
        (.new uuid model)).1).2, e.isMessageDelta = false ∧ e ≠ .messageStop :=
      (convertInputs_ended order post _ hf.ended).2
    have hd' : ∃ e ∈ (convertInputs order (pre ++ [u]) (.new uuid model)).2,
        e.isMessageDelta = true := by
      obtain ⟨e, he, hed⟩ := hd
      rcases List.mem_append.mp he with h | h
      · exact ⟨e, h, hed⟩
      · rw [(hrest e h).1] at hed
        cases hed
    rw [everyBlockClosed_append hm hd' fun e he => (hrest e he).1,
      keepsSlotsToEnd_append order hn hf.ended, hf.allClosed_iff]

/-- **Closed blocks.** A stream with a `message_delta` has closed all blocks before it if and only
if no tool call before the end of the message reuses a slot. -/
theorem everyBlockClosed_iff (uuid model : String) (rawChunks : List (List Char))
    (hd : ∃ e ∈ convertedEvents order serde uuid model rawChunks, e.isMessageDelta = true) :
    EveryBlockClosed (convertedEvents order serde uuid model rawChunks) ↔
      KeepsSlotsToEnd order (.new uuid model) (inputsOf serde rawChunks) := by
  rw [convertedEvents_eq] at hd ⊢
  exact convertInputs_closed_iff order uuid model _ hd

/-! ## A reused index -/

/-- The text of a chunk with the start of a call. -/
def callStartText (index id : String) : String :=
  "\x7b\"choices\":[\x7b\"delta\":\x7b\"tool_calls\":[\x7b\"index\":" ++ index ++ ",\"id\":\"" ++ id ++
    "\"\x7d]\x7d\x7d]\x7d"

def callStart (index : UInt64) (id : String) : Value :=
  .object [("choices", .array [.object [("delta", .object [("tool_calls", .array [.object [
    ("index", .number (.posInt index)), ("id", .string id)]])])]])]

/-- The text of a chunk with a `finish_reason`. -/
def finishText : String := "\x7b\"choices\":[\x7b\"finish_reason\":\"stop\"\x7d]\x7d"

def finishChunk : Value := .object [("choices", .array [.object [("finish_reason", .string "stop")]])]

def callsSerde : Serde := tableSerde [(callStartText "0" "a", callStart 0 "a"),
  (callStartText "0" "b", callStart 0 "b"), (finishText, finishChunk)]

/-- A call `b` at the index of the call `a`. -/
def reusedIndex : List (List Char) :=
  [sseText [callStartText "0" "a", callStartText "0" "b", finishText]]

/-- Block 0 is never closed. -/
theorem reusedIndex_not_closed :
    (∃ e ∈ convertedEvents .entries callsSerde "0" "m" reusedIndex, e.isMessageDelta = true) ∧
      ¬EveryBlockClosed (convertedEvents .entries callsSerde "0" "m" reusedIndex) := by
  have hevs : convertedEvents .entries callsSerde "0" "m" reusedIndex =
      [.messageStart "msg_0" "m" 0, .contentBlockStart 0 (.toolUse "a" ""),
        .contentBlockStart 1 (.toolUse "b" ""), .contentBlockStop 1, .messageDelta "end_turn" 0,
        .messageStop] := by decide +kernel
  rw [hevs]
  refine ⟨by decide, fun hc => ?_⟩
  have h := hc _ "end_turn" 0 [.messageStop] rfl [.messageStart "msg_0" "m" 0] 0 (.toolUse "a" "")
    [.contentBlockStart 1 (.toolUse "b" ""), .contentBlockStop 1] rfl
  revert h
  decide

theorem everyBlockClosed_iff_reusedIndex :
    EveryBlockClosed (convertedEvents .entries callsSerde "0" "m" reusedIndex) ↔
      KeepsSlotsToEnd .entries (.new "0" "m") (inputsOf callsSerde reusedIndex) :=
  everyBlockClosed_iff .entries callsSerde "0" "m" reusedIndex (by decide +kernel)

end

end ApertureRouter
