/-!
# Lines of a text that arrives in chunks

`split sep cs` cuts `cs` at every `sep`: the complete pieces, and what follows the last `sep`.
A reader that keeps the rest in a buffer and puts each new chunk behind it sees the pieces of the
whole text, whatever the cuts are (`split_append`): splitting is an action of concatenation on
the buffer.
-/

namespace Lines

variable {α : Type} [DecidableEq α] (sep : α)

/-- Cuts `cs` at every `sep`, with `cur` in front of the first piece. -/
def scan : List α → List α → List (List α) × List α
  | cur, [] => ([], cur)
  | cur, c :: cs =>
    if c = sep then (cur :: (scan [] cs).1, (scan [] cs).2) else scan (cur ++ [c]) cs

/-- The pieces of `cs` that `sep` ends, and the rest. -/
def split (cs : List α) : List (List α) × List α := scan sep [] cs

/-- All pieces of `cs`; the last one has not ended. -/
def pieces (cs : List α) : List (List α) := (split sep cs).1 ++ [(split sep cs).2]

variable {sep}

theorem scan_append (cur a b : List α) :
    scan sep cur (a ++ b) =
      ((scan sep cur a).1 ++ (scan sep (scan sep cur a).2 b).1,
        (scan sep (scan sep cur a).2 b).2) := by
  induction a generalizing cur with
  | nil => simp [scan]
  | cons c cs ih =>
    simp only [List.cons_append, scan]
    split
    · rw [ih]; rfl
    · exact ih _

/-- A stretch without `sep` goes into the current piece. -/
theorem scan_of_notMem {l : List α} (h : sep ∉ l) (cur cs : List α) :
    scan sep cur (l ++ cs) = scan sep (cur ++ l) cs := by
  induction l generalizing cur with
  | nil => simp
  | cons c l ih =>
    obtain ⟨hc, hl⟩ := not_or.mp (mt List.mem_cons.mpr h)
    rw [List.cons_append, scan, if_neg (Ne.symm hc), ih hl, List.append_assoc]
    rfl

theorem scan_rest_notMem {cur : List α} (h : sep ∉ cur) (cs : List α) :
    sep ∉ (scan sep cur cs).2 := by
  induction cs generalizing cur with
  | nil => exact h
  | cons c cs ih =>
    simp only [scan]
    split
    · exact ih List.not_mem_nil
    · rename_i hc
      exact ih (by simp [h, Ne.symm hc])

theorem scan_notMem {cur : List α} (h : sep ∉ cur) (cs : List α) :
    ∀ l ∈ (scan sep cur cs).1, sep ∉ l := by
  induction cs generalizing cur with
  | nil => exact fun l hl => absurd hl List.not_mem_nil
  | cons c cs ih =>
    simp only [scan]
    split
    · exact List.forall_mem_cons.mpr ⟨h, ih List.not_mem_nil⟩
    · rename_i hc
      exact ih (by simp [h, Ne.symm hc])

@[simp] theorem split_nil : split sep [] = ([], []) := rfl

/-- No `sep` is in a piece. -/
theorem split_notMem (cs : List α) : ∀ l ∈ (split sep cs).1, sep ∉ l :=
  scan_notMem List.not_mem_nil cs

/-- No `sep` is left in the rest. -/
theorem split_rest_notMem (cs : List α) : sep ∉ (split sep cs).2 :=
  scan_rest_notMem List.not_mem_nil cs

theorem pieces_notMem (cs : List α) : ∀ l ∈ pieces sep cs, sep ∉ l := by
  unfold pieces
  rw [List.forall_mem_append, List.forall_mem_singleton]
  exact ⟨split_notMem cs, split_rest_notMem cs⟩

/-- The loop that takes pieces off a buffer stops at a text without `sep`. -/
theorem split_of_notMem {cs : List α} (h : sep ∉ cs) : split sep cs = ([], cs) := by
  have := scan_of_notMem h [] []
  rw [List.append_nil] at this
  exact this

/-- One iteration of the loop: the text up to the first `sep` is a piece. -/
theorem split_cons {l : List α} (h : sep ∉ l) (cs : List α) :
    split sep (l ++ sep :: cs) = (l :: (split sep cs).1, (split sep cs).2) := by
  unfold split
  rw [scan_of_notMem h, scan, if_pos rfl]
  rfl

/-- **Chunks.** The pieces of `a ++ b` are those of `a` and those of `b` behind the rest of
`a`. -/
theorem split_append (a b : List α) :
    split sep (a ++ b) =
      ((split sep a).1 ++ (split sep ((split sep a).2 ++ b)).1,
        (split sep ((split sep a).2 ++ b)).2) := by
  unfold split
  rw [scan_append, scan_of_notMem (scan_rest_notMem List.not_mem_nil a)]
  rfl

variable (sep) in
theorem scan_pieces (cs : List α) :
    ∃ f g, ∀ cur, (scan sep cur cs).1 ++ [(scan sep cur cs).2] = (cur ++ f) :: g := by
  induction cs with
  | nil => exact ⟨[], [], fun cur => by simp [scan]⟩
  | cons c cs ih =>
    obtain ⟨f, g, h⟩ := ih
    by_cases hc : c = sep
    · refine ⟨[], f :: g, fun cur => ?_⟩
      have := h []
      simp only [List.nil_append] at this
      simp only [scan, if_pos hc, List.cons_append, this, List.append_nil]
    · refine ⟨c :: f, g, fun cur => ?_⟩
      simp only [scan, if_neg hc, h, List.append_assoc, List.singleton_append]

variable (sep) in
/-- The pieces of `a ++ b`: the last one of `a` and the first one of `b` are joined. -/
theorem pieces_append (a b : List α) : ∃ init f g,
    pieces sep a = init ++ [(split sep a).2] ∧ pieces sep b = f :: g ∧
      pieces sep (a ++ b) = init ++ ((split sep a).2 ++ f) :: g := by
  obtain ⟨f, g, h⟩ := scan_pieces sep b
  refine ⟨(split sep a).1, f, g, rfl, ?_, ?_⟩
  · have := h []
    rwa [List.nil_append] at this
  · have := h (split sep a).2
    unfold split at this
    unfold pieces split
    rw [scan_append, ← this, List.append_assoc]

/-- Splitting a text that is written piece by piece gives the pieces back. -/
theorem split_flatMap {ls : List (List α)} (h : ∀ l ∈ ls, sep ∉ l) (cs : List α) :
    split sep (ls.flatMap (· ++ [sep]) ++ cs) = (ls ++ (split sep cs).1, (split sep cs).2) := by
  induction ls with
  | nil => simp
  | cons l ls ih =>
    have hl : sep ∉ l := h l (by simp)
    rw [List.flatMap_cons, List.append_assoc, List.append_assoc, List.singleton_append,
      split_cons hl, ih fun x hx => h x (by simp [hx])]
    rfl

theorem scan_flatMap (cur cs : List α) :
    (scan sep cur cs).1.flatMap (· ++ [sep]) ++ (scan sep cur cs).2 = cur ++ cs := by
  induction cs generalizing cur with
  | nil => simp [scan]
  | cons c cs ih =>
    simp only [scan]
    split
    · rename_i hc
      rw [List.flatMap_cons, List.append_assoc, ih, hc]
      simp
    · rw [ih]
      simp

/-- The pieces with their ends, and the rest, are the text. -/
theorem join_split (cs : List α) :
    (split sep cs).1.flatMap (· ++ [sep]) ++ (split sep cs).2 = cs :=
  scan_flatMap [] cs

end Lines
