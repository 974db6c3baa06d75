import ApertureRouter.Stream.Run

/-!
# A message from its chunks

The chunks of a message are its fragments, with beginnings of chunks in between that change nothing
but flags and counters. A relation between the fragments so far, the converter and the client's
contents that each fragment keeps (`KeptByFragments`) holds after all chunks of a message
(`KeptByFragments.run`), and the events after the last fragment do not touch a block (`Bare`).
-/

namespace ApertureRouter

open Emit

theorem StreamState.SameSlots.refl (c : StreamState) : c.SameSlots c := ⟨rfl, rfl, rfl, rfl⟩

theorem beginChunk_sameSlots (value : Value) (c : StreamState) :
    (beginChunk value c).1.SameSlots c ∧ (beginChunk value c).1.current = c.current := by
  obtain ⟨i, o, f, hu⟩ := readUsage_counters value (startMessage c).1
  rw [beginChunk, Prog.andThen_apply, hu, startMessage, Prog.cond_apply]
  split <;> exact ⟨⟨rfl, rfl, rfl, rfl⟩, rfl⟩

section

variable (order : IterOrder Nat ToolBlockState)

/-! ## Relations that fragments keep -/

/-- `R fs c v`, for the fragments `fs` so far, the converter `c` and the contents `v`, is kept by
each fragment, and depends on `c` only by its slots and its current block. -/
structure KeptByFragments
    (R : List Fragment → StreamState → List (ContentBlock × String) → Prop) : Prop where
  fragment : ∀ {fs lost c m} f, Tracks lost c m → R fs c m.contents →
    R (fs ++ [f]) (convertFragment order f c).1 (contentsAfter order c m.contents f)
  congr : ∀ {fs c c' v}, c'.SameSlots c → c'.current = c.current → R fs c v → R fs c' v

namespace KeptByFragments

variable {order} {R : List Fragment → StreamState → List (ContentBlock × String) → Prop}
  {fs : List Fragment} {lost : List Nat} {c : StreamState} {m : Client}

theorem fragments (hR : KeptByFragments order R) (ht : Tracks lost c m) (hr : R fs c m.contents)
    (more : List Fragment) :
    ∃ lost' m', Accepts Client.step (Prog.forEach (convertFragment order) more) c m m' ∧
      Tracks lost' (Prog.forEach (convertFragment order) more c).1 m' ∧
      R (fs ++ more) (Prog.forEach (convertFragment order) more c).1 m'.contents := by
  induction more generalizing fs lost c m with
  | nil => exact ⟨lost, m, .silent rfl, ht, by rw [List.append_nil]; exact hr⟩
  | cons f more ih =>
    obtain ⟨m₁, hm₁, ht₁, hv₁⟩ := ht.fragment order f
    have hr₁ := hR.fragment f ht hr
    rw [← hv₁] at hr₁
    obtain ⟨lost', m₂, hm₂, ht₂, hr₂⟩ := ih ht₁ hr₁
    refine ⟨lost', m₂, hm₁.andThen hm₂, ht₂, ?_⟩
    rw [List.append_cons]
    exact hr₂

/-- The body of a chunk. -/
theorem chunkBody (hR : KeptByFragments order R) (hl : Live lost c m) (hr : R fs c m.contents)
    (value : Value) :
    ∃ lost' m', Accepts Client.step (chunkBody order value) c m m' ∧
      Tracks lost' (ApertureRouter.chunkBody order value c).1 m' ∧
      R (fs ++ chunkFragments value) (ApertureRouter.chunkBody order value c).1 m'.contents := by
  obtain ⟨m₁, hm₁, ht₁, hv₁⟩ := hl.beginChunk value
  obtain ⟨hs, hcur⟩ := beginChunk_sameSlots value c
  have hr₁ := hR.congr hs hcur hr
  rw [← hv₁] at hr₁
  obtain ⟨lost', m₂, hm₂, ht₂, hr₂⟩ := hR.fragments ht₁ hr₁ (chunkFragments value)
  exact ⟨lost', m₂, hm₁.andThen hm₂, ht₂, hr₂⟩

/-- Chunks that do not end the message. -/
theorem chunks (hR : KeptByFragments order R) (hl : Live lost c m) (hr : R fs c m.contents)
    {values : List Value} (hf : ∀ v ∈ values, finishReason v = none) :
    ∃ lost' m', Accepts Client.step (convertInputs order (values.map .chunk)) c m m' ∧
      Live lost' (convertInputs order (values.map .chunk) c).1 m' ∧
      R (fs ++ values.flatMap chunkFragments) (convertInputs order (values.map .chunk) c).1
        m'.contents := by
  induction values generalizing fs lost c m with
  | nil => exact ⟨lost, m, .silent rfl, hl, by rw [List.flatMap_nil, List.append_nil]; exact hr⟩
  | cons value values ih =>
    have hchunk : convertInput order (.chunk value) c = ApertureRouter.chunkBody order value c := by
      rw [convertInput_chunk, hf value (by simp), Prog.andThen_apply]
      simp
    obtain ⟨lost₁, m₁, hm₁, ht₁, hr₁⟩ := hR.chunkBody hl hr value
    obtain ⟨lost₂, m₂, hm₂, hl₂, hr₂⟩ := ih (.inr ht₁) hr₁ fun v hv => hf v (by simp [hv])
    rw [← hchunk] at hl₂ hr₂
    refine ⟨lost₂, m₂, Accepts.andThen ?_ (hchunk ▸ hm₂), hl₂, ?_⟩
    · rw [Accepts, hchunk]
      exact hm₁
    · rw [List.flatMap_cons, ← List.append_assoc]
      exact hr₂

/-- **The chunks of a message**, up to the last fragment of the last one. -/
theorem run (hR : KeptByFragments order R) (uuid model : String) (hr : R [] (.new uuid model) [])
    {init : List Value} (hf : ∀ v ∈ init, finishReason v = none) (last : Value) :
    ∃ lost m, Client.read
        ((convertInputs order (init.map .chunk) >> ApertureRouter.chunkBody order last)
          (.new uuid model)).2 = some m ∧
      Tracks lost ((convertInputs order (init.map .chunk) >> ApertureRouter.chunkBody order last)
        (.new uuid model)).1 m ∧
      R ((init ++ [last]).flatMap chunkFragments)
        ((convertInputs order (init.map .chunk) >> ApertureRouter.chunkBody order last)
          (.new uuid model)).1 m.contents := by
  obtain ⟨lost₁, m₁, hm₁, hl₁, hr₁⟩ :=
    hR.chunks (.inl ⟨notStarted_new uuid model, rfl⟩) hr hf
  obtain ⟨lost₂, m₂, hm₂, ht₂, hr₂⟩ := hR.chunkBody hl₁ hr₁ last
  refine ⟨lost₂, m₂, hm₁.andThen hm₂, ht₂, ?_⟩
  rw [List.flatMap_append, List.flatMap_singleton]
  exact hr₂

end KeptByFragments

/-- The inputs of a message: its chunks up to the last fragment, and the rest. -/
theorem convertInputs_message (init : List Value) (last : Value) (ending : List Upstream) :
    convertInputs order ((init ++ [last]).map .chunk ++ ending) =
      ((convertInputs order (init.map .chunk) >> chunkBody order last) >>
        (Prog.ifSome closeWithStopReason (finishReason last) >> convertInputs order ending)) := by
  unfold convertInputs
  rw [List.map_append, Prog.forEach_append, Prog.forEach_append, List.map_singleton,
    Prog.forEach_cons, convertInput_chunk]
  funext c
  simp [List.append_assoc]

/-! ## Events that touch no block -/

/-- An event that neither starts a block nor adds to one. -/
def StreamEvent.Bare (e : StreamEvent) : Prop := e.startOf = none ∧ ∀ i, e.payloadOf i = none

/-- The fragments of an input. -/
def Upstream.fragments : Upstream → List Fragment
  | .overflow | .done => []
  | .chunk value => chunkFragments value

def Upstream.isOverflow : Upstream → Bool
  | .overflow => true
  | .done | .chunk _ => false

theorem closeWithStopReason_bare (reason : String) (c : StreamState) :
    ∀ e ∈ (closeWithStopReason reason c).2, e.Bare := by
  cases he : c.messageEnded with
  | true =>
    rw [closeWithStopReason, Prog.cond_neg (by simp [he])]
    simp
  | false =>
    obtain ⟨stops, r, n, h⟩ := closeWithStopReason_isClosing he reason
    rw [h]
    intro e hmem
    rcases List.mem_append.mp hmem with hmem | hmem
    · obtain ⟨i, -, rfl⟩ := List.mem_map.mp hmem
      exact ⟨rfl, fun _ => rfl⟩
    · simp only [List.mem_cons, List.not_mem_nil, or_false] at hmem
      rcases hmem with rfl | rfl <;> exact ⟨rfl, fun _ => rfl⟩

/-- An input without fragments touches no block. -/
theorem convertInput_bare {u : Upstream} (hu : u.fragments = []) :
    Emits (fun _ => True) StreamEvent.Bare (convertInput order u) := by
  have hclose : ∀ reason, Emits (fun _ => True) StreamEvent.Bare (closeWithStopReason reason) :=
    fun reason c _ => ⟨trivial, closeWithStopReason_bare reason c⟩
  cases u with
  | overflow =>
    refine .andThen (.emit fun _ e he => ?_) (.cond (hclose _))
    rw [List.mem_singleton.mp he]
    exact ⟨rfl, fun _ => rfl⟩
  | done => exact .cond (hclose _)
  | chunk value =>
    simp only [convertInput, processOpenaiChunk_eq, show chunkFragments value = [] from hu]
    refine .andThen (.andThen (.cond (.andThen (.modify fun _ h => h) (.emit fun _ e he => ?_)))
      (.modify fun _ h => h)) (.andThen .skip (.ifSome hclose _))
    rw [List.mem_singleton.mp he]
    exact ⟨rfl, fun _ => rfl⟩

theorem convertInputs_bare {inputs : List Upstream} (h : ∀ u ∈ inputs, u.fragments = []) :
    Emits (fun _ => True) StreamEvent.Bare (convertInputs order inputs) :=
  .forEach fun u hu => convertInput_bare order (h u hu)

/-- After the end of the message, an input without fragments says nothing. -/
theorem convertInput_silent {u : Upstream} (hu : u.fragments = []) (ho : u.isOverflow = false) :
    Emits (fun c => c.messageStarted = true ∧ c.messageEnded = true) (fun _ => False)
      (convertInput order u) := by
  have hclose : ∀ reason, Emits (fun c => c.messageStarted = true ∧ c.messageEnded = true)
      (fun _ => False) (closeWithStopReason reason) :=
    fun reason => .cond_off fun c hc => by simp [hc.2]
  cases u with
  | overflow => cases ho
  | done => exact .cond (hclose _)
  | chunk value =>
    simp only [convertInput, processOpenaiChunk_eq, show chunkFragments value = [] from hu]
    refine .andThen (.andThen (.cond_off fun c hc => by simp [hc.1]) fun c hc => ?_)
      (.andThen .skip (.ifSome hclose _))
    obtain ⟨i, o, f, hr⟩ := readUsage_counters value c
    rw [hr]
    exact ⟨hc, by simp⟩

theorem startsOf_of_bare {evs : List StreamEvent} (h : ∀ e ∈ evs, e.Bare) : startsOf evs = [] := by
  rw [startsOf, List.filterMap_eq_nil_iff]
  exact fun e he => (h e he).1

end

end ApertureRouter
