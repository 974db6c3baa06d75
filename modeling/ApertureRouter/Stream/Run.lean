import ApertureRouter.Stream.Flags

/-!
# Runs of the converter

A run has three stages: before the first chunk (`NotStarted`), the message in progress (`Tracks`),
after the end (`Finished`). `Live.input` is one step from the first two stages: the client accepts
its events, and the step is the last one if and only if it `ends` the message. `Live.run` is the
same for a list of steps: either all of it is before the end, or one step ends it.

After the end the client is not asked any more: the converter still emits, and what it emits is
outside the protocol.
-/

namespace ApertureRouter

open Emit

/-! ## Before and after -/

/-- Before the first chunk. -/
structure NotStarted (c : StreamState) (m : Client) : Prop where
  client : m = {}
  started : c.messageStarted = false
  notEnded : c.messageEnded = false
  noneOpen : c.NoneOpen
  index : c.contentBlockIndex = 0
  toolBlocks : c.toolBlocks = ∅
  order : c.toolBlockOrder = []

/-- Before the end. -/
def Live (lost : List Nat) (c : StreamState) (m : Client) : Prop :=
  NotStarted c m ∧ lost = [] ∨ Tracks lost c m

/-- After the end: the blocks that are still open are the lost ones. -/
structure Finished (lost : List Nat) (c : StreamState) (m : Client) : Prop where
  started : c.messageStarted = true
  ended : c.messageEnded = true
  noneOpen : c.NoneOpen
  stopped : m.stopped = true
  lost_lt : ∀ i ∈ lost, i < m.blocks.length
  isOpen : ∀ i b, m.blocks[i]? = some b → (b.isOpen = true ↔ i ∈ lost)

theorem notStarted_new (uuid model : String) :
    NotStarted (.new uuid model) {} :=
  ⟨rfl, rfl, rfl, ⟨rfl, rfl⟩, rfl, rfl, rfl⟩

namespace Live

variable {lost : List Nat} {c : StreamState} {m : Client}

theorem notEnded (h : Live lost c m) : c.messageEnded = false := by
  rcases h with ⟨h, -⟩ | h
  exacts [h.notEnded, h.notEnded]

theorem stopReason (h : Live lost c m) : m.stopReason = none := by
  rcases h with ⟨h, -⟩ | h
  · rw [h.client]
  · exact h.live.2

theorem notStopped (h : Live lost c m) : m.stopped = false := by
  rcases h with ⟨h, -⟩ | h
  · rw [h.client]
  · exact h.notStopped

theorem tracks (h : Live lost c m) (hs : c.messageStarted = true) : Tracks lost c m := by
  rcases h with ⟨h, -⟩ | h
  · simp [h.started] at hs
  · exact h

end Live

/-! ## The start -/

theorem NotStarted.tracks {c : StreamState} {m : Client} (h : NotStarted c m) :
    Tracks [] { c with messageStarted := true } { m with started := true } := by
  have hcur := StreamState.current_eq_none.mpr h.noneOpen
  have hget : ∀ slot, c.toolBlocks.get slot = none := by simp [h.toolBlocks]
  have hm : m.blocks = [] := by rw [h.client]
  constructor
  · exact ⟨rfl, by rw [h.client]⟩
  · rw [h.client]
  · rfl
  · exact h.notEnded
  · simp [h.noneOpen.1]
  · show m.blocks.length = c.contentBlockIndex + c.current.isSome.toNat
    rw [hm, h.index, hcur]
    rfl
  · intro k hk
    exact absurd (hk.symm.trans hcur) (by simp)
  · intro slot st hst
    exact absurd (hst.symm.trans (hget slot)) (by simp)
  · intro slot _ st _ hst
    exact absurd (hst.symm.trans (hget slot)) (by simp)
  · simp [h.order]
  · simp [h.order, h.toolBlocks]
  · simp
  · simp [hm]

theorem Live.beginChunk {lost : List Nat} {c : StreamState} {m : Client} (h : Live lost c m)
    (value : Value) :
    ∃ m', Accepts Client.step (ApertureRouter.beginChunk value) c m m' ∧
      Tracks lost (ApertureRouter.beginChunk value c).1 m' ∧ m'.contents = m.contents := by
  have hstart : ∃ m', Accepts Client.step startMessage c m m' ∧
      Tracks lost (startMessage c).1 m' ∧ m'.contents = m.contents := by
    unfold startMessage Accepts
    rcases h with ⟨h, rfl⟩ | h
    · rw [Prog.cond_pos (by simp [h.started])]
      refine ⟨{ m with started := true }, Accepts.andThen (.silent rfl) (.one rfl ?_), h.tracks, rfl⟩
      simp [Client.step, h.client]
    · rw [Prog.cond_neg (by simp [h.started])]
      exact ⟨m, rfl, h, rfl⟩
  obtain ⟨m', hm, htr, hv⟩ := hstart
  obtain ⟨i, o, f, hu⟩ := readUsage_counters value (startMessage c).1
  refine ⟨m', hm.andThen (.silent (by rw [hu])), ?_, hv⟩
  rw [ApertureRouter.beginChunk, Prog.andThen_apply, hu]
  exact htr.of_eq rfl rfl rfl rfl rfl rfl rfl

/-! ## The end -/

/-- The stops of distinct open blocks. -/
theorem Client.foldlM_stops {is : List Nat} (hn : is.Nodup) {m : Client} (hl : m.live)
    (ho : ∀ i ∈ is, ∃ b, m.blocks[i]? = some b ∧ b.isOpen = true) :
    ∃ m', (is.map StreamEvent.contentBlockStop).foldlM step m = some m' ∧ m'.live ∧
      m'.stopped = m.stopped ∧ m'.contents = m.contents ∧
      ∀ i b, m'.blocks[i]? = some b →
        (b.isOpen = true ↔ i ∉ is ∧ ∃ b', m.blocks[i]? = some b' ∧ b'.isOpen = true) := by
  induction is generalizing m with
  | nil =>
    refine ⟨m, rfl, hl, rfl, rfl, fun i b hb => ?_⟩
    simp [hb]
  | cons j is ih =>
    obtain ⟨hj, hn⟩ := List.nodup_cons.mp hn
    obtain ⟨b, hb, hbo⟩ := ho j (by simp)
    have hget := Client.getElem?_setBlock hb { b with isOpen := false }
    obtain ⟨m', hm', hl', hs', hv', hopen⟩ := ih (m := m.setBlock j { b with isOpen := false }) hn hl
      fun i hi => by
        obtain ⟨b', hb', hbo'⟩ := ho i (by simp [hi])
        exact ⟨b', by rw [hget, if_neg (by rintro rfl; exact hj hi), hb'], hbo'⟩
    refine ⟨m', ?_, hl', hs', hv'.trans (Client.contents_stop hb), fun i b' hb' => ?_⟩
    · rw [List.map_cons, List.foldlM_cons]
      simp only [Client.step, hb]
      rw [if_pos ⟨hl, hbo⟩]
      exact hm'
    · rw [hopen i b' hb', hget]
      by_cases hij : j = i
      · subst hij
        simp
      · simp [hij, Ne.symm hij]

/-- The tool blocks that the end of the message stops are those of the slot map. -/
theorem mem_toolBlockIndices {c : StreamState}
    (h : ∀ slot, slot ∈ c.toolBlockOrder ↔ slot ∈ c.toolBlocks) {i : Nat} :
    i ∈ toolBlockIndices c ↔ ∃ slot st, c.toolBlocks.get slot = some st ∧ st.blockIndex = i := by
  simp only [toolBlockIndices, List.mem_filterMap, Option.map_eq_some_iff]
  constructor
  · rintro ⟨slot, -, st, hst, hi⟩
    exact ⟨slot, st, hst, hi⟩
  · rintro ⟨slot, st, hst, hi⟩
    exact ⟨slot, (h slot).mpr (HashMap.mem_iff_get.mpr ⟨st, hst⟩), st, hst, hi⟩

namespace Tracks

variable {lost : List Nat} {c : StreamState} {m : Client}

theorem nodup_toolBlockIndices (h : Tracks lost c m) : (toolBlockIndices c).Nodup := by
  apply h.orderNodup.filterMap
  intro slot slot' i hi hi'
  obtain ⟨st, hst, rfl⟩ := Option.map_eq_some_iff.mp hi
  obtain ⟨st', hst', he⟩ := Option.map_eq_some_iff.mp hi'
  exact h.apart _ _ _ _ hst hst' he.symm

/-- The end of a message in progress: the lost blocks stay open. -/
theorem closeWithStopReason (h : Tracks lost c m) (reason : String) :
    ∃ m', Accepts Client.step (ApertureRouter.closeWithStopReason reason) c m m' ∧
      Finished lost (ApertureRouter.closeWithStopReason reason c).1 m' ∧
      m'.contents = m.contents ∧ m'.stopReason = some (ApertureRouter.stopReason reason) := by
  obtain ⟨m₁, hm₁, h₁, hv₁⟩ := h.closeForToolCalls
  have hno := closeForToolCalls_noneOpen c
  have hnone := StreamState.current_eq_none.mpr hno
  have hidx : toolBlockIndices (ApertureRouter.closeForToolCalls c).1 = toolBlockIndices c := by
    rw [closeForToolCalls_apply]
    rfl
  unfold Accepts
  rw [closeWithStopReason_eq h.notEnded]
  set c₁ := (ApertureRouter.closeForToolCalls c).1
  have hmem := @mem_toolBlockIndices _ h₁.order
  obtain ⟨m₂, hm₂, hl₂, hs₂, hv₂, ho₂⟩ := Client.foldlM_stops h₁.nodup_toolBlockIndices h₁.live
    fun i hi => by
      obtain ⟨slot, st, hst, rfl⟩ := hmem.mp hi
      obtain ⟨-, b, -, hb, -⟩ := h₁.tool slot st hst
      exact ⟨b, hb, (h₁.isOpen _ b hb).mpr (.inl (.inr ⟨slot, st, hst, rfl⟩))⟩
  have hlen : m₂.blocks.length = m₁.blocks.length := by
    simpa [Client.contents] using congrArg List.length hv₂
  refine ⟨{ m₂ with stopReason := some (ApertureRouter.stopReason reason), stopped := true }, ?_,
    ⟨h₁.started, rfl, hno, rfl, fun i hi => ?_, fun i b hb => ?_⟩, hv₂.trans hv₁, rfl⟩
  · rw [List.foldlM_append, show List.foldlM _ m (ApertureRouter.closeForToolCalls c).2 = _ from hm₁]
    show List.foldlM _ m₁ _ = _
    rw [List.foldlM_append, ← hidx, hm₂]
    simp [Client.step, hl₂, hl₂.1, hs₂, h₁.notStopped]
  · show i < m₂.blocks.length
    have := (h₁.forgotten i hi).1
    have := h₁.length
    omega
  · obtain ⟨b₁, hb₁⟩ : ∃ b₁, m₁.blocks[i]? = some b₁ := by
      have := (List.getElem?_eq_some_iff.mp hb).1
      exact ⟨_, List.getElem?_eq_getElem (hlen ▸ this)⟩
    rw [ho₂ i b hb, hb₁, hmem]
    have := h₁.isOpen i b₁ hb₁
    rw [StreamState.holds_of_none hnone] at this
    constructor
    · rintro ⟨hi, b', hb', ho⟩
      cases hb'
      exact (this.mp ho).resolve_left hi
    · intro hi
      refine ⟨?_, b₁, rfl, this.mpr (.inr hi)⟩
      rintro ⟨slot, st, hst, he⟩
      exact (h₁.forgotten i hi).2 slot st hst he

end Tracks

/-! ## One input -/

section Run

variable (order : IterOrder Nat ToolBlockState)

/-- The blocks that an input makes the converter forget. -/
def lostByInput (c : StreamState) : Upstream → List Nat
  | .overflow | .done => []
  | .chunk value =>
    gather (lostBy order) (convertFragment order) (beginChunk value c).1 (chunkFragments value)

variable {lost : List Nat} {c : StreamState} {m : Client}

theorem Live.closeStream (h : Live lost c m) :
    ∃ m', Accepts Client.step ApertureRouter.closeStream c m m' ∧
      if c.messageStarted then Finished lost (ApertureRouter.closeStream c).1 m'
      else Live lost (ApertureRouter.closeStream c).1 m' := by
  unfold ApertureRouter.closeStream Accepts
  cases hs : c.messageStarted with
  | true =>
    rw [Prog.cond_pos hs]
    obtain ⟨m', hm, hf, -⟩ := (h.tracks hs).closeWithStopReason "stop"
    exact ⟨m', hm, by rw [if_pos rfl]; exact hf⟩
  | false =>
    rw [Prog.cond_neg hs]
    exact ⟨m, rfl, by rw [if_neg (by simp)]; exact h⟩

/-- The fragments of a delta, one after the other. -/
theorem Tracks.fragments (h : Tracks lost c m) (fs : List Fragment) :
    ∃ m', Accepts Client.step (Prog.forEach (convertFragment order) fs) c m m' ∧
      Tracks (lost ++ gather (lostBy order) (convertFragment order) c fs)
        (Prog.forEach (convertFragment order) fs c).1 m' := by
  refine Accepts.forEach (R := Tracks) (fun t s m f hr => ?_) fs h
  obtain ⟨m', hm, htr, -⟩ := hr.fragment order f
  exact ⟨m', hm, htr⟩

/-- **One input before the end.** -/
theorem Live.input (h : Live lost c m) (u : Upstream) :
    ∃ m', Accepts Client.step (convertInput order u) c m m' ∧
      if u.ends c.messageStarted then
        Finished (lost ++ lostByInput order c u) (convertInput order u c).1 m'
      else Live (lost ++ lostByInput order c u) (convertInput order u c).1 m' := by
  cases u with
  | overflow =>
    obtain ⟨m', hm, hl⟩ := h.closeStream
    rw [lostByInput, List.append_nil]
    exact ⟨m', Accepts.andThen (.one rfl rfl) hm, hl⟩
  | done =>
    rw [lostByInput, List.append_nil]
    exact h.closeStream
  | chunk value =>
    obtain ⟨m₁, hm₁, h₁, -⟩ := h.beginChunk value
    obtain ⟨m₂, hm₂, h₂⟩ := h₁.fragments order (chunkFragments value)
    simp only [convertInput, processOpenaiChunk_eq, Upstream.ends, lostByInput]
    cases hf : finishReason value with
    | none =>
      refine ⟨m₂, hm₁.andThen (hm₂.andThen (.silent rfl)), ?_⟩
      rw [if_neg (by simp)]
      exact .inr h₂
    | some reason =>
      obtain ⟨m₃, hm₃, hfin, -⟩ := h₂.closeWithStopReason reason
      refine ⟨m₃, hm₁.andThen (hm₂.andThen hm₃), ?_⟩
      exact (if_pos rfl).mpr hfin

/-! ## A run -/

/-- The blocks that a run makes the converter forget. -/
def lostAlong (c : StreamState) (inputs : List Upstream) : List Nat :=
  gather (lostByInput order) (convertInput order) c inputs

/-- No step of the run starts after the end. -/
def NotEndedAlong (c : StreamState) (inputs : List Upstream) : Prop :=
  Along (fun c _ => c.messageEnded = false) (convertInput order) c inputs

theorem NotEndedAlong.before {c : StreamState} {pre post : List Upstream} {u : Upstream}
    (h : NotEndedAlong order c (pre ++ u :: post)) :
    (convertInputs order pre c).1.messageEnded = false :=
  (Along.append.mp h).2.1

/-- **A run from before the end.** Either it stays there, or one input ends the message. -/
theorem Live.run (h : Live lost c m) (inputs : List Upstream) :
    (NotEndedAlong order c inputs ∧ ∃ m', Accepts Client.step (convertInputs order inputs) c m m' ∧
      Live (lost ++ lostAlong order c inputs) (convertInputs order inputs c).1 m') ∨
    ∃ pre u post, inputs = pre ++ u :: post ∧ NotEndedAlong order c (pre ++ [u]) ∧
      u.ends (convertInputs order pre c).1.messageStarted = true ∧
      ∃ m', Accepts Client.step (convertInputs order (pre ++ [u])) c m m' ∧
        Finished (lost ++ lostAlong order c (pre ++ [u]))
          (convertInputs order (pre ++ [u]) c).1 m' := by
  induction inputs generalizing lost c m with
  | nil => exact .inl ⟨trivial, m, .silent rfl, by simpa [lostAlong, gather, convertInputs] using h⟩
  | cons u inputs ih =>
    obtain ⟨m₁, hm₁, h₁⟩ := h.input order u
    cases hu : u.ends c.messageStarted with
    | true =>
      rw [if_pos hu] at h₁
      refine .inr ⟨[], u, inputs, rfl, ⟨h.notEnded, trivial⟩, hu, m₁, ?_, ?_⟩
      · exact hm₁.andThen (.silent rfl)
      · simpa [lostAlong, gather, convertInputs] using h₁
    | false =>
      rw [if_neg (by simp [hu])] at h₁
      rcases ih h₁ with ⟨hn, m₂, hm₂, h₂⟩ | ⟨pre, v, post, rfl, hn, hv, m₂, hm₂, h₂⟩
      · refine .inl ⟨⟨h.notEnded, hn⟩, m₂, hm₁.andThen hm₂, ?_⟩
        rw [lostAlong, gather, ← List.append_assoc]
        exact h₂
      · refine .inr ⟨u :: pre, v, post, rfl, ⟨h.notEnded, hn⟩, hv, m₂, hm₁.andThen hm₂, ?_⟩
        rw [List.cons_append, lostAlong, gather, ← List.append_assoc]
        exact h₂

/-- The client of a new converter. -/
theorem run_new (uuid model : String) (inputs : List Upstream) :
    let c := StreamState.new uuid model
    (NotEndedAlong order c inputs ∧ ∃ m, Client.read (convertInputs order inputs c).2 = some m ∧
      Live (lostAlong order c inputs) (convertInputs order inputs c).1 m) ∨
    ∃ pre u post, inputs = pre ++ u :: post ∧ NotEndedAlong order c (pre ++ [u]) ∧
      u.ends (convertInputs order pre c).1.messageStarted = true ∧
      ∃ m, Client.read (convertInputs order (pre ++ [u]) c).2 = some m ∧
        Finished (lostAlong order c (pre ++ [u])) (convertInputs order (pre ++ [u]) c).1 m :=
  Live.run order (.inl ⟨notStarted_new uuid model, rfl⟩) inputs

/-- A run in two parts. -/
theorem convertInputs_append (l₁ l₂ : List Upstream) (c : StreamState) :
    convertInputs order (l₁ ++ l₂) c =
      ((convertInputs order l₂ (convertInputs order l₁ c).1).1,
        (convertInputs order l₁ c).2 ++ (convertInputs order l₂ (convertInputs order l₁ c).1).2) := by
  rw [convertInputs, Prog.forEach_append]
  rfl

end Run

end ApertureRouter
