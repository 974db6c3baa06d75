import ApertureRouter.Types.Stream

/-!
# The client of an Anthropic stream

What the events are for: a client that reads them one by one and puts the message together, and
that gives up on an event that breaks the protocol (`Client.step`). A block is its
`content_block`, what its deltas added and whether it is open; the blocks of a message are
numbered from 0 in the order of their starts.

* `Client.read`: the client after a list of events, if it accepts all of them.
* `Reads`: what the client's state says about the events that it has read. Each statement about
  the order of events (`BlockProtocol`, `EveryBlockClosed`) follows from `Reads` at the prefix
  before the event that it is about.
-/

namespace ApertureRouter

/-! ## The client -/

/-- A content block that the client has read so far. -/
structure Block where
  start : ContentBlock
  payload : String
  isOpen : Bool
  deriving DecidableEq, Repr

structure Client where
  started : Bool := false
  blocks : List Block := []
  stopReason : Option String := none
  stopped : Bool := false
  deriving DecidableEq, Repr

def Delta.payload : Delta → String
  | text s | thinking s | inputJson s => s

/-- The delta is of the kind of the block. -/
def Delta.Fits : Delta → ContentBlock → Prop
  | .text _, .text => True
  | .thinking _, .thinking => True
  | .inputJson _, .toolUse .. => True
  | _, _ => False

instance (d : Delta) (b : ContentBlock) : Decidable (d.Fits b) := by
  cases d <;> cases b <;> unfold Delta.Fits <;> infer_instance

namespace Client

/-- Between `message_start` and the end. -/
def live (m : Client) : Prop := m.started = true ∧ m.stopReason = none

instance (m : Client) : Decidable m.live := by unfold live; infer_instance

def addBlock (m : Client) (b : ContentBlock) : Client :=
  { m with blocks := m.blocks ++ [⟨b, "", true⟩] }

def setBlock (m : Client) (i : Nat) (b : Block) : Client :=
  { m with blocks := m.blocks.set i b }

def step (m : Client) : StreamEvent → Option Client
  | .error _ => some m
  | .messageStart .. => if m.started then none else some { m with started := true }
  | .contentBlockStart i b =>
    if m.live ∧ i = m.blocks.length then some (m.addBlock b) else none
  | .contentBlockDelta i d =>
    match m.blocks[i]? with
    | some b =>
      if m.live ∧ b.isOpen ∧ d.Fits b.start then
        some (m.setBlock i { b with payload := b.payload ++ d.payload })
      else none
    | none => none
  | .contentBlockStop i =>
    match m.blocks[i]? with
    | some b => if m.live ∧ b.isOpen then some (m.setBlock i { b with isOpen := false }) else none
    | none => none
  | .messageDelta r _ => if m.live then some { m with stopReason := some r } else none
  | .messageStop =>
    if m.started ∧ m.stopReason.isSome ∧ m.stopped = false then some { m with stopped := true }
    else none

/-- What the blocks hold: the kind and the payload of each. -/
def contents (m : Client) : List (ContentBlock × String) :=
  m.blocks.map fun b => (b.start, b.payload)

/-- The client after `evs`. -/
def read (evs : List StreamEvent) : Option Client := evs.foldlM step {}

theorem read_append (h evs : List StreamEvent) :
    read (h ++ evs) = read h >>= fun m => evs.foldlM step m := by
  simp [read, List.foldlM_append]

/-- Every prefix of an accepted list is accepted. -/
theorem read_prefix {pre post : List StreamEvent} {m : Client} (h : read (pre ++ post) = some m) :
    ∃ m', read pre = some m' ∧ post.foldlM step m' = some m := by
  rw [read_append] at h
  exact Option.bind_eq_some_iff.mp h

/-- The client before and after one event of an accepted list. -/
theorem read_split {pre post : List StreamEvent} {e : StreamEvent} {m : Client}
    (h : read (pre ++ e :: post) = some m) :
    ∃ m₁ m₂, read pre = some m₁ ∧ m₁.step e = some m₂ ∧ post.foldlM step m₂ = some m := by
  obtain ⟨m₁, h₁, h₂⟩ := read_prefix h
  rw [List.foldlM_cons] at h₂
  obtain ⟨m₂, h₂, h₃⟩ := Option.bind_eq_some_iff.mp h₂
  exact ⟨m₁, m₂, h₁, h₂, h₃⟩

end Client

/-! ## What a step accepts -/

namespace Client

variable {m m' : Client}

theorem step_messageStart {id mo : String} {n : UInt32}
    (h : m.step (.messageStart id mo n) = some m') :
    m.started = false ∧ m' = { m with started := true } := by
  simp only [step] at h
  split at h
  · cases h
  · rename_i hs
    exact ⟨by simpa using hs, by cases h; rfl⟩

theorem step_start {i : Nat} {b : ContentBlock} (h : m.step (.contentBlockStart i b) = some m') :
    m.live ∧ i = m.blocks.length ∧ m' = m.addBlock b := by
  simp only [step] at h
  split at h
  · rename_i hs
    exact ⟨hs.1, hs.2, by cases h; rfl⟩
  · cases h

theorem step_delta {i : Nat} {d : Delta} (h : m.step (.contentBlockDelta i d) = some m') :
    ∃ b, m.blocks[i]? = some b ∧ m.live ∧ b.isOpen = true ∧ d.Fits b.start ∧
      m' = m.setBlock i { b with payload := b.payload ++ d.payload } := by
  simp only [step] at h
  split at h
  · rename_i b hb
    split at h
    · rename_i hs
      exact ⟨b, hb, hs.1, hs.2.1, hs.2.2, by cases h; rfl⟩
    · cases h
  · cases h

theorem step_stop {i : Nat} (h : m.step (.contentBlockStop i) = some m') :
    ∃ b, m.blocks[i]? = some b ∧ m.live ∧ b.isOpen = true ∧
      m' = m.setBlock i { b with isOpen := false } := by
  simp only [step] at h
  split at h
  · rename_i b hb
    split at h
    · rename_i hs
      exact ⟨b, hb, hs.1, hs.2, by cases h; rfl⟩
    · cases h
  · cases h

theorem step_messageDelta {r : String} {n : UInt32} (h : m.step (.messageDelta r n) = some m') :
    m.live ∧ m' = { m with stopReason := some r } := by
  simp only [step] at h
  split at h
  · rename_i hs
    exact ⟨hs, by cases h; rfl⟩
  · cases h

theorem step_messageStop (h : m.step .messageStop = some m') :
    m.started = true ∧ m.stopReason.isSome = true ∧ m.stopped = false ∧
      m' = { m with stopped := true } := by
  simp only [step] at h
  split at h
  · rename_i hs
    exact ⟨hs.1, hs.2.1, hs.2.2, by cases h; rfl⟩
  · cases h

end Client

/-! ## What the client's state says about the events -/

/-- The index and the block of a `content_block_start`. -/
def StreamEvent.startOf : StreamEvent → Option (Nat × ContentBlock)
  | .contentBlockStart i b => some (i, b)
  | _ => none

/-- The payload of a delta of block `i`. -/
def StreamEvent.payloadOf (i : Nat) : StreamEvent → Option String
  | .contentBlockDelta j d => if j = i then some d.payload else none
  | _ => none

def StreamEvent.isMessageStart : StreamEvent → Bool
  | .messageStart .. => true
  | _ => false

def StreamEvent.isMessageDelta : StreamEvent → Bool
  | .messageDelta .. => true
  | _ => false

/-- The starts of a list of events. -/
def startsOf (evs : List StreamEvent) : List (Nat × ContentBlock) := evs.filterMap (·.startOf)

/-- What the deltas of block `i` add up to. -/
def payloadAt (i : Nat) (evs : List StreamEvent) : String :=
  String.join (evs.filterMap (·.payloadOf i))

/-- The blocks with their numbers. -/
def numbered (blocks : List Block) : List (Nat × ContentBlock) :=
  blocks.zipIdx.map fun p => (p.2, p.1.start)

/-- The state `m` of a client that has read `h`. -/
structure Reads (h : List StreamEvent) (m : Client) : Prop where
  started : h.countP (·.isMessageStart) = m.started.toNat
  starts : startsOf h = numbered m.blocks
  stops : ∀ i, h.count (.contentBlockStop i) = m.blocks[i]?.elim 0 fun b => (!b.isOpen).toNat
  payload : ∀ i b, m.blocks[i]? = some b → b.payload = payloadAt i h
  empty : ∀ i, m.blocks[i]? = none → payloadAt i h = ""
  deltas : h.countP (·.isMessageDelta) = m.stopReason.isSome.toNat
  stopped : h.count .messageStop = m.stopped.toNat

theorem startsOf_append (h evs : List StreamEvent) :
    startsOf (h ++ evs) = startsOf h ++ startsOf evs := by
  simp [startsOf]

theorem payloadAt_append (i : Nat) (h evs : List StreamEvent) :
    payloadAt i (h ++ evs) = payloadAt i h ++ payloadAt i evs := by
  simp [payloadAt, String.join_append]

theorem payloadAt_singleton (i : Nat) (e : StreamEvent) :
    payloadAt i [e] = (e.payloadOf i).getD "" := by
  cases hp : e.payloadOf i <;> simp [payloadAt, hp]

theorem numbered_append (l : List Block) (b : Block) :
    numbered (l ++ [b]) = numbered l ++ [(l.length, b.start)] := by
  simp [numbered, List.zipIdx_append]

theorem getElem?_numbered (l : List Block) (i : Nat) :
    (numbered l)[i]? = l[i]?.map fun b => (i, b.start) := by
  simp [numbered, List.getElem?_zipIdx, Function.comp_def]

/-- A block that changes keeps its number, and its start if that stays. -/
theorem numbered_set {l : List Block} {i : Nat} {b b' : Block} (hb : l[i]? = some b)
    (hs : b'.start = b.start) : numbered (l.set i b') = numbered l := by
  apply List.ext_getElem?
  intro j
  rw [getElem?_numbered, getElem?_numbered, List.getElem?_set]
  have hlt : i < l.length := (List.getElem?_eq_some_iff.mp hb).1
  by_cases hj : i = j
  · subst hj
    rw [if_pos rfl, if_pos hlt, hb, Option.map_some, Option.map_some, hs]
  · rw [if_neg hj]

namespace Reads

variable {h : List StreamEvent} {m m' : Client} {e : StreamEvent}

theorem nil : Reads [] {} := by
  constructor <;> simp [startsOf, numbered, payloadAt]

/-- An event that touches no block. -/
theorem flags (hr : Reads h m) (hb : m'.blocks = m.blocks) (hs : e.startOf = none)
    (hp : ∀ i, e.payloadOf i = none) (hc : ∀ i, e ≠ .contentBlockStop i)
    (h1 : m'.started.toNat = m.started.toNat + e.isMessageStart.toNat)
    (h6 : m'.stopReason.isSome.toNat = m.stopReason.isSome.toNat + e.isMessageDelta.toNat)
    (h7 : m'.stopped.toNat = m.stopped.toNat + (e == .messageStop).toNat) :
    Reads (h ++ [e]) m' where
  started := by rw [List.countP_append, hr.started, h1, List.countP_singleton]; cases e <;> rfl
  starts := by rw [startsOf_append, hr.starts, hb]; simp [startsOf, hs]
  stops i := by
    rw [List.count_append, hr.stops, hb, List.count_singleton, if_neg (by simpa using hc i)]
    rfl
  payload i b hi := by
    rw [hb] at hi
    rw [payloadAt_append, payloadAt_singleton, hp, hr.payload i b hi]
    simp
  empty i hi := by
    rw [hb] at hi
    rw [payloadAt_append, payloadAt_singleton, hp, hr.empty i hi]
    rfl
  deltas := by rw [List.countP_append, hr.deltas, h6, List.countP_singleton]; cases e <;> rfl
  stopped := by
    rw [List.count_append, hr.stopped, h7, List.count_singleton]
    cases hm : e == StreamEvent.messageStop <;> rfl

/-- A start of the next block. -/
theorem addBlock (hr : Reads h m) (b : ContentBlock) :
    Reads (h ++ [.contentBlockStart m.blocks.length b]) (m.addBlock b) where
  started := by rw [List.countP_append, hr.started]; rfl
  starts := by
    rw [startsOf_append, hr.starts, Client.addBlock, numbered_append]
    rfl
  stops i := by
    rw [List.count_append, hr.stops, Client.addBlock]
    rcases Nat.lt_trichotomy i m.blocks.length with hi | hi | hi
    · rw [List.getElem?_append_left hi]; rfl
    · subst hi; simp
    · rw [List.getElem?_eq_none (by omega), List.getElem?_eq_none (by simp; omega)]
      rfl
  payload i c hi := by
    rw [payloadAt_append, payloadAt_singleton]
    simp only [Client.addBlock] at hi
    by_cases hlt : i < m.blocks.length
    · rw [List.getElem?_append_left hlt] at hi
      simp [hr.payload i c hi, StreamEvent.payloadOf]
    · have hil : i = m.blocks.length := by
        have := (List.getElem?_eq_some_iff.mp hi).1
        simp at this
        omega
      subst hil
      rw [List.getElem?_append_right (Nat.le_refl _), Nat.sub_self] at hi
      cases hi
      simp [hr.empty _ (List.getElem?_eq_none (Nat.le_refl _)), StreamEvent.payloadOf]
  empty i hi := by
    rw [Client.addBlock, List.getElem?_eq_none_iff, List.length_append, List.length_singleton] at hi
    rw [payloadAt_append, payloadAt_singleton, hr.empty i (List.getElem?_eq_none (by omega))]
    rfl
  deltas := by rw [List.countP_append, hr.deltas]; rfl
  stopped := by rw [List.count_append, hr.stopped]; rfl

/-- A change of block `i` that keeps its start: a delta or a stop. -/
theorem setBlock (hr : Reads h m) {i : Nat} {b b' : Block} (hb : m.blocks[i]? = some b)
    (hs : b'.start = b.start) (hp : ∀ j, (e.payloadOf j).getD "" = if i = j then
      (e.payloadOf i).getD "" else "") (hpay : b'.payload = b.payload ++ (e.payloadOf i).getD "")
    (hstop : ∀ j, [e].count (.contentBlockStop j) =
      if i = j then b.isOpen.toNat - b'.isOpen.toNat else 0)
    (hopen : b'.isOpen = true → b.isOpen = true) (h0 : e.startOf = none)
    (h1 : e.isMessageStart = false) (h2 : e.isMessageDelta = false) (h3 : e ≠ .messageStop) :
    Reads (h ++ [e]) (m.setBlock i b') := by
  have hlt : i < m.blocks.length := (List.getElem?_eq_some_iff.mp hb).1
  have hget : ∀ j, (m.setBlock i b').blocks[j]? = if i = j then some b' else m.blocks[j]? := by
    intro j
    simp only [Client.setBlock, List.getElem?_set, hlt, if_true]
  refine ⟨?_, ?_, fun j => ?_, fun j c hj => ?_, fun j hj => ?_, ?_, ?_⟩
  · rw [List.countP_append, hr.started]
    simp [h1, Client.setBlock]
  · rw [startsOf_append, hr.starts, Client.setBlock, numbered_set hb hs]
    simp [startsOf, h0]
  · rw [List.count_append, hr.stops, hget, hstop]
    by_cases hij : i = j
    · subst hij
      rw [hb, if_pos rfl, if_pos rfl]
      cases ho : b.isOpen <;> cases ho' : b'.isOpen <;> simp_all
    · rw [if_neg hij, if_neg hij]
      rfl
  · rw [payloadAt_append, payloadAt_singleton, hp]
    rw [hget] at hj
    by_cases hij : i = j
    · subst hij
      rw [if_pos rfl] at hj ⊢
      cases hj
      rw [hpay, hr.payload i b hb]
    · rw [if_neg hij] at hj ⊢
      rw [hr.payload j c hj]
      simp
  · rw [hget] at hj
    have hij : i ≠ j := fun hij => by simp [hij] at hj
    rw [if_neg hij] at hj
    rw [payloadAt_append, payloadAt_singleton, hp, if_neg hij, hr.empty j hj]
    rfl
  · rw [List.countP_append, hr.deltas]
    simp [h2, Client.setBlock]
  · rw [List.count_append, hr.stopped]
    simp [h3, Client.setBlock]

/-- One event that the client accepts. -/
theorem step (hr : Reads h m) (he : m.step e = some m') : Reads (h ++ [e]) m' := by
  cases e with
  | messageStart id mo n =>
    obtain ⟨hs, rfl⟩ := Client.step_messageStart he
    exact hr.flags rfl rfl (fun _ => rfl) (by simp) (by simp [hs, StreamEvent.isMessageStart]) rfl
      rfl
  | contentBlockStart i b =>
    obtain ⟨-, rfl, rfl⟩ := Client.step_start he
    exact hr.addBlock b
  | contentBlockDelta i d =>
    obtain ⟨b, hb, -, -, -, rfl⟩ := Client.step_delta he
    refine hr.setBlock hb rfl (fun j => ?_) (by simp [StreamEvent.payloadOf]) (by simp) id rfl rfl rfl
      (by simp)
    by_cases hij : i = j <;> simp [StreamEvent.payloadOf, hij]
  | contentBlockStop i =>
    obtain ⟨b, hb, -, ho, rfl⟩ := Client.step_stop he
    refine hr.setBlock hb rfl (fun j => ?_) (by simp [StreamEvent.payloadOf]) (fun j => ?_) (by simp)
      rfl rfl rfl (by simp)
    · simp [StreamEvent.payloadOf]
    · by_cases hij : i = j <;> simp [hij, ho]
  | messageDelta r n =>
    obtain ⟨⟨-, hs⟩, rfl⟩ := Client.step_messageDelta he
    exact hr.flags rfl rfl (fun _ => rfl) (by simp) rfl (by simp [hs, StreamEvent.isMessageDelta]) rfl
  | messageStop =>
    obtain ⟨-, -, hs, rfl⟩ := Client.step_messageStop he
    exact hr.flags rfl rfl (fun _ => rfl) (by simp) rfl rfl (by simp [hs])
  | error msg =>
    have hm : m = m' := by simpa [Client.step] using he
    subst hm
    exact hr.flags rfl rfl (fun _ => rfl) (by simp) rfl rfl rfl

theorem foldlM {evs : List StreamEvent} (hr : Reads h m) (he : evs.foldlM Client.step m = some m') :
    Reads (h ++ evs) m' := by
  induction evs generalizing h m with
  | nil => cases he; simpa using hr
  | cons e evs ih =>
    rw [List.foldlM_cons] at he
    obtain ⟨m₁, h₁, h₂⟩ := Option.bind_eq_some_iff.mp he
    simpa using ih (hr.step h₁) h₂

end Reads

theorem Client.reads_of_read {h : List StreamEvent} {m : Client} (hr : Client.read h = some m) :
    Reads h m := by
  simpa using Reads.nil.foldlM hr

/-- After a `message_delta` the client takes no more blocks. -/
theorem Client.foldlM_ended {m m' : Client} {evs : List StreamEvent} (hm : m.stopReason.isSome = true)
    (h : evs.foldlM step m = some m') : m'.blocks = m.blocks := by
  induction evs generalizing m with
  | nil => cases h; rfl
  | cons e evs ih =>
    rw [List.foldlM_cons] at h
    obtain ⟨m₁, h₁, h₂⟩ := Option.bind_eq_some_iff.mp h
    have hlive : ¬m.live := fun hl => by simp [hl.2] at hm
    suffices m₁.blocks = m.blocks ∧ m₁.stopReason = m.stopReason by
      rw [ih (this.2 ▸ hm) h₂, this.1]
    cases e with
    | messageStart => obtain ⟨-, rfl⟩ := step_messageStart h₁; exact ⟨rfl, rfl⟩
    | contentBlockStart => exact absurd (step_start h₁).1 hlive
    | contentBlockDelta => obtain ⟨-, -, hl, -⟩ := step_delta h₁; exact absurd hl hlive
    | contentBlockStop => obtain ⟨-, -, hl, -⟩ := step_stop h₁; exact absurd hl hlive
    | messageDelta => exact absurd (step_messageDelta h₁).1 hlive
    | messageStop => obtain ⟨-, -, -, rfl⟩ := step_messageStop h₁; exact ⟨rfl, rfl⟩
    | error => cases h₁; exact ⟨rfl, rfl⟩

end ApertureRouter
