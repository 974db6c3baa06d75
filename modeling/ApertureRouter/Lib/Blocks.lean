import Mathlib.Data.List.Basic

/-!
# Streams of indexed blocks

A block starts, has deltas and stops. Each event names its block by an index.

* `WellFormed`: every delta and every stop is for a block that is open.
* `wellFormed_forwarded_iff`: what is left of a well-formed stream, when some of its events are
  dropped, is well formed exactly if no block is orphaned.
-/

namespace Blocks

/-- An event of the block `i`. -/
inductive BlockEvent (ι : Type) where
  | start (i : ι)
  | delta (i : ι)
  | stop (i : ι)
  deriving DecidableEq, Repr

variable {ι : Type} {i : ι} {evs as bs : List (BlockEvent ι)}

/-- The block that has to be open for the event. -/
def BlockEvent.refersTo : BlockEvent ι → Option ι
  | .start _ => none
  | .delta i => some i
  | .stop i => some i

/-- The block has started and not stopped. -/
def IsOpen (i : ι) (evs : List (BlockEvent ι)) : Prop :=
  ∃ pre post, evs = pre ++ .start i :: post ∧ .stop i ∉ post

/-- Every delta and every stop is for a block that is open. -/
def WellFormed (evs : List (BlockEvent ι)) : Prop :=
  ∀ pre e post, evs = pre ++ e :: post → ∀ i ∈ e.refersTo, IsOpen i pre

theorem not_isOpen_nil : ¬IsOpen i [] := by
  rintro ⟨pre, post, h, -⟩
  simp at h

theorem isOpen_of_append (h : IsOpen i (as ++ bs)) : IsOpen i as ∨ .start i ∈ bs := by
  obtain ⟨pre, post, hsplit, hstop⟩ := h
  rcases List.append_eq_append_iff.mp hsplit with ⟨rest, -, rfl⟩ | ⟨rest, rfl, hrest⟩
  · exact .inr (by simp)
  · cases rest with
    | nil => exact .inr (by rw [List.nil_append] at hrest; rw [← hrest]; simp)
    | cons e rest =>
      obtain ⟨rfl, rfl⟩ := List.cons.inj hrest
      exact .inl ⟨pre, rest, rfl, fun hm => hstop (by simp [hm])⟩

theorem isOpen_append (hstop : .stop i ∉ bs) (h : IsOpen i as ∨ .start i ∈ bs) :
    IsOpen i (as ++ bs) := by
  rcases h with ⟨pre, post, rfl, hpost⟩ | hstart
  · exact ⟨pre, post ++ bs, by simp, by simp [hpost, hstop]⟩
  · obtain ⟨pre, post, rfl⟩ := List.append_of_mem hstart
    exact ⟨as ++ pre, post, by simp, fun hm => hstop (by simp [hm])⟩

/-! ## Dropped events -/

/-- The events that are kept. -/
def forwarded (l : List (BlockEvent ι × Bool)) : List (BlockEvent ι) :=
  (l.filter Prod.snd).map Prod.fst

/-- When the start of a block that is not open is dropped, nothing else of the block is kept before
another start of it. -/
def NoOrphans (l : List (BlockEvent ι × Bool)) : Prop :=
  ∀ pre mid post i e, l = pre ++ (.start i, false) :: mid ++ (e, true) :: post → i ∈ e.refersTo →
    ¬IsOpen i (forwarded pre) → (.start i, true) ∈ mid

variable {l : List (BlockEvent ι × Bool)}

@[simp] theorem forwarded_append (k l : List (BlockEvent ι × Bool)) :
    forwarded (k ++ l) = forwarded k ++ forwarded l := by
  simp [forwarded]

@[simp] theorem forwarded_cons_true (e : BlockEvent ι) (l : List (BlockEvent ι × Bool)) :
    forwarded ((e, true) :: l) = e :: forwarded l := by
  simp [forwarded]

@[simp] theorem forwarded_cons_false (e : BlockEvent ι) (l : List (BlockEvent ι × Bool)) :
    forwarded ((e, false) :: l) = forwarded l := by
  simp [forwarded]

theorem mem_forwarded {e : BlockEvent ι} : e ∈ forwarded l ↔ (e, true) ∈ l := by
  simp [forwarded]

/-- Where an event is kept. -/
theorem forwarded_split {pre post : List (BlockEvent ι)} {e : BlockEvent ι}
    (h : forwarded l = pre ++ e :: post) :
    ∃ before after, l = before ++ (e, true) :: after ∧ forwarded before = pre := by
  induction l generalizing pre with
  | nil => simp [forwarded] at h
  | cons x l ih =>
    obtain ⟨x, kept⟩ := x
    cases kept with
    | false =>
      rw [forwarded_cons_false] at h
      obtain ⟨before, after, rfl, rfl⟩ := ih h
      exact ⟨(x, false) :: before, after, rfl, by simp⟩
    | true =>
      rw [forwarded_cons_true] at h
      cases pre with
      | nil =>
        obtain ⟨rfl, -⟩ := List.cons.inj h
        exact ⟨[], l, rfl, rfl⟩
      | cons y pre =>
        obtain ⟨rfl, hrest⟩ := List.cons.inj h
        obtain ⟨before, after, rfl, rfl⟩ := ih hrest
        exact ⟨(x, true) :: before, after, rfl, by simp⟩

/-- **Dropped events.** What is kept of a well-formed stream is well formed exactly if no block is
orphaned. -/
theorem wellFormed_forwarded_iff (h : WellFormed (l.map Prod.fst)) :
    WellFormed (forwarded l) ↔ NoOrphans l := by
  constructor
  · rintro hkept pre mid post i e rfl he hpre
    have hsplit : forwarded (pre ++ (.start i, false) :: mid ++ (e, true) :: post) =
        (forwarded pre ++ forwarded mid) ++ e :: forwarded post := by
      simp
    have hopen := hkept _ e _ hsplit i he
    exact mem_forwarded.mp ((isOpen_of_append hopen).resolve_left hpre)
  · intro hno pre e post hsplit i he
    obtain ⟨before, after, rfl, rfl⟩ := forwarded_split hsplit
    have hopen : IsOpen i (before.map Prod.fst) := h _ e (after.map Prod.fst) (by simp) i he
    obtain ⟨as, bs, hbefore, hstop⟩ := hopen
    obtain ⟨pre, rest, rfl, rfl, hrest⟩ := List.map_eq_append_iff.mp hbefore
    obtain ⟨⟨s, kept⟩, mid, rfl, hs, rfl⟩ := List.map_eq_cons_iff.mp hrest
    obtain rfl : s = .start i := hs
    have hmid : .stop i ∉ forwarded mid := fun hm =>
      hstop (List.mem_map.mpr ⟨_, mem_forwarded.mp hm, rfl⟩)
    rw [forwarded_append]
    cases kept with
    | true =>
      rw [forwarded_cons_true]
      exact isOpen_append (by simp [hmid]) (.inr (by simp))
    | false =>
      rw [forwarded_cons_false]
      apply isOpen_append hmid
      by_cases hpre : IsOpen i (forwarded pre)
      · exact .inl hpre
      · exact .inr (mem_forwarded.mpr (hno pre mid after i e (by simp) he hpre))

/-- A block that is complete. -/
theorem wellFormed_block (i : ι) : WellFormed [.start i, .delta i, .stop i] := by
  have hopen : ∀ post : List (BlockEvent ι), .stop i ∉ post → IsOpen i (.start i :: post) :=
    fun post h => ⟨[], post, rfl, h⟩
  rintro pre e post h j hj
  rcases pre with _ | ⟨x, _ | ⟨y, _ | ⟨z, pre⟩⟩⟩
  · simp only [List.nil_append, List.cons.injEq] at h
    rw [← h.1] at hj
    cases hj
  · simp only [List.cons_append, List.nil_append, List.cons.injEq] at h
    obtain ⟨rfl, rfl, -⟩ := h
    cases hj
    exact hopen [] (by simp)
  · simp only [List.cons_append, List.nil_append, List.cons.injEq] at h
    obtain ⟨rfl, rfl, rfl, -⟩ := h
    cases hj
    exact hopen [.delta i] (by simp)
  · simp at h

end Blocks
