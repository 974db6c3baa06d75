import Mathlib.Data.List.Induction
import Mathlib.Data.List.Nodup

/-!
# Pieces of texts, by key

A list of pairs of a key and a piece, as a reader gets it that has to put several texts together
from pieces in any interleaving: `keys` are the texts in the order in which they first appear,
`text f k` is the text of key `k`. The lemmas say what one more piece does to both.
-/

namespace Keyed

variable {κ β : Type} [DecidableEq κ]

/-- The keys, in the order in which they first appear. -/
def keys (l : List (κ × β)) : List κ := (l.map Prod.fst).eraseDups

/-- The pieces of key `k`, in order, as one text. -/
def text (f : β → String) (k : κ) (l : List (κ × β)) : String :=
  String.join ((l.filter fun e => e.1 = k).map fun e => f e.2)

variable {k : κ} {b : β} {l : List (κ × β)}

theorem mem_keys : k ∈ keys l ↔ k ∈ l.map Prod.fst := List.mem_eraseDups

theorem keys_concat_of_mem (h : k ∈ keys l) : keys (l ++ [(k, b)]) = keys l := by
  rw [keys, List.map_append, List.eraseDups_append]
  have : k ∈ l.map Prod.fst := mem_keys.mp h
  simp [List.removeAll, this]
  rfl

theorem keys_concat_of_notMem (h : k ∉ keys l) : keys (l ++ [(k, b)]) = keys l ++ [k] := by
  rw [keys, List.map_append, List.eraseDups_append]
  have : k ∉ l.map Prod.fst := fun hm => h (mem_keys.mpr hm)
  rw [List.removeAll, List.map_singleton, List.filter_cons_of_pos (by simpa using this)]
  rfl

theorem mem_keys_concat {j : κ} : j ∈ keys (l ++ [(k, b)]) ↔ j ∈ keys l ∨ j = k := by
  simp [mem_keys]

theorem nodup_keys (l : List (κ × β)) : (keys l).Nodup := by
  induction l using List.reverseRecOn with
  | nil => exact List.nodup_nil
  | append_singleton l e ih =>
    by_cases h : e.1 ∈ keys l
    · rw [keys_concat_of_mem h]
      exact ih
    · rw [keys_concat_of_notMem h, List.nodup_append]
      refine ⟨ih, List.nodup_singleton _, fun a ha b hb e => h ?_⟩
      rw [← List.mem_singleton.mp hb, ← e]
      exact ha

theorem text_concat (f : β → String) (j : κ) :
    text f j (l ++ [(k, b)]) = if k = j then text f j l ++ f b else text f j l := by
  unfold text
  by_cases h : k = j <;> simp [h, String.join_append]

theorem text_of_notMem {f : β → String} (h : k ∉ keys l) : text f k l = "" := by
  unfold text
  rw [List.filter_eq_nil_iff.mpr]
  · rfl
  · intro e he hk
    exact h (mem_keys.mpr (List.mem_map.mpr ⟨e, he, by simpa using hk⟩))

omit [DecidableEq κ] in
/-- A list of pairs with distinct first parts is determined by its first parts and its members. -/
theorem eq_map_of_mem {α γ : Type} {l : List (α × γ)} {ks : List κ} {f : κ → α} {g : κ → γ}
    (hk : l.map Prod.fst = ks.map f) (hn : (ks.map f).Nodup) (h : ∀ k ∈ ks, (f k, g k) ∈ l) :
    l = ks.map fun k => (f k, g k) := by
  induction ks generalizing l with
  | nil => exact List.map_eq_nil_iff.mp hk
  | cons k ks ih =>
    obtain ⟨e, l, rfl, he, hl⟩ := List.map_eq_cons_iff.mp hk
    obtain ⟨hk', hn'⟩ := List.nodup_cons.mp hn
    have hfst : ∀ x ∈ l, x.1 ≠ f k := by
      rintro x hx hxk
      rw [← hl, ← hxk] at hk'
      exact hk' (List.mem_map_of_mem hx)
    have heq : e = (f k, g k) := by
      rcases List.mem_cons.mp (h k (by simp)) with h' | h'
      · exact h'.symm
      · exact absurd rfl (hfst _ h')
    rw [heq, List.map_cons, ← ih hl hn' fun j hj => ?_]
    rcases List.mem_cons.mp (h j (by simp [hj])) with h' | h'
    · have hjk : f j = f k := by rw [← he, ← h']
      exact absurd (hjk ▸ List.mem_map_of_mem hj) hk'
    · exact h'

end Keyed
