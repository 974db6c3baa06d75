import ApertureRouter.Stream.Client

/-!
# The block protocol

Statements about a list of events, and how each follows from a client that accepts the list.

* `BlockProtocol`: `message_start` comes once and first, blocks are numbered without gap, and a
  delta or a stop is for a block that is open (and of the delta's kind).
* `EveryBlockClosed`: each block that starts before a `message_delta` stops once before it.
* `NothingFollows`: nothing comes after `message_stop`, and after an error at most the events
  that close the stream.
-/

namespace ApertureRouter

def StreamEvent.isError : StreamEvent → Bool
  | .error _ => true
  | _ => false

/-- The events up to and including the first `message_stop`. -/
def upToStop : List StreamEvent → List StreamEvent
  | [] => []
  | e :: evs => if e = .messageStop then [e] else e :: upToStop evs

/-- The block protocol of an Anthropic stream. Error events are outside it. -/
structure BlockProtocol (evs : List StreamEvent) : Prop where
  messageStart_once : evs.countP (·.isMessageStart) ≤ 1
  messageStart_first : ∀ pre e post, evs = pre ++ e :: post → e.isMessageStart = false →
    e.isError = false → ∃ s ∈ pre, s.isMessageStart = true
  starts_consecutive : (startsOf evs).map Prod.fst = List.range (startsOf evs).length
  delta_open : ∀ pre i d post, evs = pre ++ .contentBlockDelta i d :: post →
    ∃ b, .contentBlockStart i b ∈ pre ∧ .contentBlockStop i ∉ pre ∧ d.Fits b
  stop_open : ∀ pre i post, evs = pre ++ .contentBlockStop i :: post →
    (∃ b, .contentBlockStart i b ∈ pre) ∧ .contentBlockStop i ∉ pre

/-- Each block that starts before a `message_delta` stops exactly once between its start and the
`message_delta`. -/
def EveryBlockClosed (evs : List StreamEvent) : Prop :=
  ∀ pre r n post, evs = pre ++ .messageDelta r n :: post →
    ∀ before i b after, pre = before ++ .contentBlockStart i b :: after →
      after.count (.contentBlockStop i) = 1

/-- The events that close a stream: stops, `message_delta`, `message_stop`. -/
def IsClosing (evs : List StreamEvent) : Prop :=
  ∃ (stops : List Nat) (r : String) (n : UInt32),
    evs = stops.map .contentBlockStop ++ [.messageDelta r n, .messageStop]

/-- Nothing comes after `message_stop`; after an error come at most the events that close the
stream. -/
structure NothingFollows (evs : List StreamEvent) : Prop where
  stop_last : ∀ pre post, evs = pre ++ .messageStop :: post → post = []
  error_last : ∀ pre msg post, evs = pre ++ .error msg :: post → post = [] ∨ IsClosing post

/-! ## What a client that accepts a list knows -/

theorem mem_startsOf {evs : List StreamEvent} {i : Nat} {b : ContentBlock} :
    (i, b) ∈ startsOf evs ↔ .contentBlockStart i b ∈ evs := by
  rw [startsOf, List.mem_filterMap]
  constructor
  · rintro ⟨e, he, h⟩
    cases e <;> cases h
    exact he
  · exact fun h => ⟨_, h, rfl⟩

namespace Reads

variable {h : List StreamEvent} {m : Client}

theorem mem_start (hr : Reads h m) {i : Nat} {b : ContentBlock} :
    .contentBlockStart i b ∈ h ↔ ∃ c, m.blocks[i]? = some c ∧ c.start = b := by
  rw [← mem_startsOf, hr.starts]
  constructor
  · intro hm
    obtain ⟨j, hj⟩ := List.mem_iff_getElem?.mp hm
    rw [getElem?_numbered, Option.map_eq_some_iff] at hj
    obtain ⟨c, hc, he⟩ := hj
    obtain ⟨rfl, rfl⟩ := Prod.mk.inj he
    exact ⟨c, hc, rfl⟩
  · rintro ⟨c, hc, rfl⟩
    exact List.mem_iff_getElem?.mpr ⟨i, by rw [getElem?_numbered, hc]; rfl⟩

theorem not_mem_stop (hr : Reads h m) {i : Nat} {c : Block} (hc : m.blocks[i]? = some c)
    (ho : c.isOpen = true) : .contentBlockStop i ∉ h := by
  rw [← List.count_eq_zero, hr.stops, hc]
  simp [ho]

theorem exists_messageStart (hr : Reads h m) (hs : m.started = true) :
    ∃ s ∈ h, s.isMessageStart = true := by
  rw [← List.countP_pos_iff, hr.started, hs]
  decide

end Reads

/-- An accepted list keeps the block protocol. -/
theorem Client.blockProtocol {evs : List StreamEvent} {m : Client} (h : Client.read evs = some m) :
    BlockProtocol evs where
  messageStart_once := by
    rw [(reads_of_read h).started]
    exact Bool.toNat_le _
  messageStart_first := by
    rintro pre e post rfl hs he
    obtain ⟨m₁, m₂, h₁, h₂, -⟩ := read_split h
    apply (reads_of_read h₁).exists_messageStart
    cases e with
    | messageStart => cases hs
    | error => cases he
    | contentBlockStart => exact (step_start h₂).1.1
    | contentBlockDelta => obtain ⟨-, -, hl, -⟩ := step_delta h₂; exact hl.1
    | contentBlockStop => obtain ⟨-, -, hl, -⟩ := step_stop h₂; exact hl.1
    | messageDelta => exact (step_messageDelta h₂).1.1
    | messageStop => exact (step_messageStop h₂).1
  starts_consecutive := by
    rw [(reads_of_read h).starts]
    apply List.ext_getElem?
    intro i
    rw [List.getElem?_map, getElem?_numbered]
    by_cases hi : i < m.blocks.length
    · simp [hi, numbered]
    · rw [List.getElem?_eq_none (by omega), List.getElem?_eq_none (by simp [numbered]; omega)]
      rfl
  delta_open := by
    rintro pre i d post rfl
    obtain ⟨m₁, m₂, h₁, h₂, -⟩ := read_split h
    obtain ⟨b, hb, -, ho, hf, -⟩ := step_delta h₂
    have hr := reads_of_read h₁
    exact ⟨b.start, hr.mem_start.mpr ⟨b, hb, rfl⟩, hr.not_mem_stop hb ho, hf⟩
  stop_open := by
    rintro pre i post rfl
    obtain ⟨m₁, m₂, h₁, h₂, -⟩ := read_split h
    obtain ⟨b, hb, -, ho, -⟩ := step_stop h₂
    have hr := reads_of_read h₁
    exact ⟨⟨b.start, hr.mem_start.mpr ⟨b, hb, rfl⟩⟩, hr.not_mem_stop hb ho⟩

/-- In an accepted list, every block that has started has stopped exactly once after its start if
and only if the client has no open block. -/
theorem Client.all_closed_iff {h : List StreamEvent} {m : Client} (hr : Client.read h = some m) :
    (∀ before i b after, h = before ++ .contentBlockStart i b :: after →
      after.count (.contentBlockStop i) = 1) ↔
    ∀ (i : Nat) (c : Block), m.blocks[i]? = some c → c.isOpen = false := by
  have hm := reads_of_read hr
  -- Before its start, a block has no stop.
  have hcount : ∀ before i b after, h = before ++ .contentBlockStart i b :: after →
      after.count (.contentBlockStop i) = h.count (.contentBlockStop i) := by
    rintro before i b after rfl
    obtain ⟨m₁, m₂, h₁, h₂, -⟩ := read_split hr
    obtain ⟨-, hi, -⟩ := step_start h₂
    have h0 : before.count (.contentBlockStop i) = 0 := by
      rw [(reads_of_read h₁).stops, List.getElem?_eq_none (by omega)]
      rfl
    rw [List.count_append, h0, List.count_cons_of_ne (by simp)]
    simp
  constructor
  · intro hall i c hc
    obtain ⟨before, after, rfl⟩ := List.append_of_mem (hm.mem_start.mpr ⟨c, hc, rfl⟩)
    have h1 := hall before i c.start after rfl
    rw [hcount before i c.start after rfl, hm.stops, hc] at h1
    cases ho : c.isOpen with
    | false => rfl
    | true => simp [ho] at h1
  · intro hall before i b after he
    obtain ⟨c, hc, -⟩ := hm.mem_start.mp (show .contentBlockStart i b ∈ h by rw [he]; simp)
    rw [hcount before i b after he, hm.stops, hc]
    simp [hall i c hc]

theorem upToStop_prefix (evs : List StreamEvent) : upToStop evs <+: evs := by
  induction evs with
  | nil => exact List.nil_prefix
  | cons e evs ih =>
    rw [upToStop]
    split
    · exact ⟨evs, rfl⟩
    · exact List.prefix_cons_inj e |>.mpr ih

theorem upToStop_append {evs : List StreamEvent} (h : .messageStop ∈ evs) (rest : List StreamEvent) :
    upToStop (evs ++ rest) = upToStop evs := by
  induction evs with
  | nil => simp at h
  | cons e evs ih =>
    rw [List.cons_append, upToStop, upToStop]
    by_cases he : e = .messageStop
    · rw [if_pos he, if_pos he]
    · rw [if_neg he, if_neg he, ih ((List.mem_cons.mp h).resolve_left (Ne.symm he))]

end ApertureRouter
