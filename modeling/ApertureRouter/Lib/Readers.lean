import Mathlib.Data.List.Basic

/-!
# Readers of a text

A reader takes a value off the front of a text and leaves the rest. `Reads stop read`: what it leaves
is the end of the text, and it neither takes nor looks for more than there is in front of a
character in `stop`. So a text that goes on with one of these is read as if it ended there.
-/

namespace Readers

variable {α β γ : Type}

/-- The text is empty, or begins with a character in `stop`. -/
def Stops (stop : Char → Prop) (rest : List Char) : Prop := ∀ c ∈ rest.head?, stop c

structure Reads (stop : Char → Prop) (read : List Char → Option (α × List Char)) : Prop where
  suffix : ∀ {s a rest}, read s = some (a, rest) → rest <:+ s
  append : ∀ (s : List Char) {rest}, Stops stop rest →
    read (s ++ rest) = (read s).map fun r => (r.1, r.2 ++ rest)

namespace Reads

variable {stop stop' : Char → Prop} {read : List Char → Option (α × List Char)}

theorem mono (h : Reads stop read) (hstop : ∀ c, stop' c → stop c) : Reads stop' read where
  suffix := h.suffix
  append s _ hrest := h.append s fun c hc => hstop c (hrest c hc)

/-- A value made of the value that is read. -/
theorem map (h : Reads stop read) (f : α → β) :
    Reads stop fun s => (read s).map fun r => (f r.1, r.2) where
  suffix {s b rest} hread := by
    obtain ⟨⟨a, rest'⟩, hr, heq⟩ := Option.map_eq_some_iff.mp hread
    obtain ⟨-, rfl⟩ := Prod.mk.inj heq
    exact h.suffix hr
  append s rest hrest := by
    rw [h.append s hrest]
    cases read s <;> rfl

/-- One reader after the other. -/
theorem bind (h : Reads stop read) (next : α → List Char → Option (β × List Char))
    (hnext : ∀ a, Reads stop (next a)) :
    Reads stop fun s => (read s).bind fun r => next r.1 r.2 where
  suffix {s b rest} hread := by
    obtain ⟨⟨a, rest'⟩, hr, hn⟩ := Option.bind_eq_some_iff.mp hread
    exact ((hnext a).suffix hn).trans (h.suffix hr)
  append s rest hrest := by
    rw [h.append s hrest]
    cases read s with
    | none => rfl
    | some r => exact (hnext r.1).append r.2 hrest

/-- The first reader that reads something. -/
theorem or {other : List Char → Option (α × List Char)} (h : Reads stop read)
    (hother : Reads stop other) : Reads stop fun s => (read s).or (other s) where
  suffix {s a rest} hread := by
    rcases Option.or_eq_some_iff.mp hread with hr | ⟨-, hr⟩
    · exact h.suffix hr
    · exact hother.suffix hr
  append s rest hrest := by
    rw [h.append s hrest, hother.append s hrest]
    cases read s <;> rfl

/-- A value that is there without reading. -/
theorem pure (a : α) : Reads stop fun s => some (a, s) where
  suffix {s b rest} h := by
    obtain ⟨-, rfl⟩ := Prod.mk.inj (Option.some.inj h)
    exact List.suffix_rfl
  append _ _ _ := rfl

theorem none : Reads stop fun _ => (Option.none : Option (α × List Char)) where
  suffix h := by cases h
  append _ _ _ := rfl

end Reads

end Readers
