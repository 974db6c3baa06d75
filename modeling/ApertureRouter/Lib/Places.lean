import Mathlib.Data.List.Range
import Mathlib.Logic.Function.Basic

/-!
# How many are where

Agents `0`, …, `k - 1`, each at a place. `count` says how many are at the places of a kind, and
`count_update` how this changes when one of them moves.
-/

namespace Places

variable {β : Type} {k : Nat} {p q r : β → Bool} {place : Nat → β}

/-- How many of the first `k` are at a place with `p`. -/
def count (k : Nat) (p : β → Bool) (place : Nat → β) : Nat :=
  (List.range k).countP fun i => p (place i)

theorem count_succ : count (k + 1) p place = count k p place + (p (place k)).toNat := by
  rw [count, List.range_succ, List.countP_append, List.countP_singleton, count]
  cases p (place k) <;> rfl

theorem count_le : count k p place ≤ k := by
  have hle := List.countP_le_length (p := fun i => p (place i)) (l := List.range k)
  rwa [List.length_range] at hle

/-- Nobody is there. -/
theorem count_eq_zero (h : ∀ i, p (place i) = false) : count k p place = 0 := by
  refine List.countP_eq_zero.mpr fun i _ => ?_
  rw [h]
  exact Bool.false_ne_true

/-- Places of one kind are of one of two kinds. -/
theorem count_le_add (h : ∀ b, p b = true → q b = true ∨ r b = true) :
    count k p place ≤ count k q place + count k r place := by
  induction k with
  | zero => exact Nat.zero_le _
  | succ k ih =>
    have hk : (p (place k)).toNat ≤ (q (place k)).toNat + (r (place k)).toNat := by
      cases hp : p (place k) with
      | false => exact Nat.zero_le _
      | true =>
        rcases h _ hp with hq | hr
        · rw [hq]
          exact Nat.le_add_right _ _
        · rw [hr]
          exact Nat.le_add_left _ _
    rw [count_succ, count_succ, count_succ]
    omega

/-- The agent `i` moves to `b`. -/
theorem count_update {i : Nat} (hi : i < k) (b : β) :
    count k p (Function.update place i b) + (p (place i)).toNat =
      count k p place + (p b).toNat := by
  induction k with
  | zero => exact absurd hi (Nat.not_lt_zero i)
  | succ k ih =>
    rw [count_succ, count_succ]
    rcases Nat.lt_succ_iff_lt_or_eq.mp hi with hlt | rfl
    · rw [Function.update_of_ne (Nat.ne_of_gt hlt)]
      have := ih hlt
      omega
    · have hrest : count i p (Function.update place i b) = count i p place := by
        refine List.countP_congr fun j hj => ?_
        rw [Function.update_of_ne (Nat.ne_of_lt (List.mem_range.mp hj))]
      rw [hrest, Function.update_self]
      omega

/-- A move between two places of the kind, or between two others. -/
theorem count_stay {i : Nat} (hi : i < k) {b : β} (h : p (place i) = p b) :
    count k p (Function.update place i b) = count k p place := by
  have hmove : count k p (Function.update place i b) + (p (place i)).toNat =
      count k p place + (p b).toNat := count_update hi b
  rw [h] at hmove
  exact Nat.add_right_cancel hmove

/-- A move to a place of the kind. -/
theorem count_enter {i : Nat} (hi : i < k) {b : β} (h : p (place i) = false) (hb : p b = true) :
    count k p (Function.update place i b) = count k p place + 1 := by
  have hmove : count k p (Function.update place i b) + (p (place i)).toNat =
      count k p place + (p b).toNat := count_update hi b
  rw [h, hb] at hmove
  exact hmove

end Places
