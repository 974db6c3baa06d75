import Mathlib.Data.List.Basic

/-!
# Sliding windows

A log of times, oldest first, of which the ones less than `width` ago count. A program that keeps
such a log throws away what does not count any more, now and then. `Agrees`: from some time on, this
makes no difference.
-/

namespace Window

/-- The time is in `(now - width, now]`. -/
def Within (width now t : Nat) : Prop := t ≤ now ∧ now < t + width

instance (width now t : Nat) : Decidable (Within width now t) := inferInstanceAs (Decidable (_ ∧ _))

/-- `now.duration_since(t) < width`, where a time to come is no time ago. -/
def live (width now t : Nat) : Bool := now - t < width

/-- What still counts. -/
def prune (width now : Nat) (log : List Nat) : List Nat := log.filter (live width now)

variable {width now later t : Nat} {log log' : List Nat}

theorem live_iff_within (h : t ≤ now) : live width now t = true ↔ Within width now t := by
  unfold live Within
  rw [decide_eq_true_iff]
  omega

theorem live_self (h : 0 < width) : live width now now = true := by
  unfold live
  rw [Nat.sub_self]
  exact decide_eq_true h

@[simp] theorem prune_nil : prune width now [] = [] := rfl

theorem prune_append : prune width now (log ++ log') = prune width now log ++ prune width now log' :=
  List.filter_append ..

theorem prune_length_le : (prune width now log).length ≤ log.length := List.length_filter_le ..

/-- A log that a time is put behind. -/
theorem le_of_mem_concat (h : ∀ t ∈ log, t ≤ later) (hle : now ≤ later) :
    ∀ t ∈ log ++ [now], t ≤ later := by
  rw [List.forall_mem_append, List.forall_mem_singleton]
  exact ⟨h, hle⟩

theorem length_prune (h : ∀ t ∈ log, t ≤ now) :
    (prune width now log).length = log.countP (Within width now ·) := by
  rw [prune, ← List.countP_eq_length_filter]
  refine List.countP_congr fun t ht => ?_
  rw [live_iff_within (h t ht), decide_eq_true_iff]

/-- What counts later counted before. -/
theorem prune_prune (h : now ≤ later) :
    prune width later (prune width now log) = prune width later log := by
  rw [prune, prune, prune, List.filter_filter]
  refine List.filter_congr fun t _ => ?_
  rw [Bool.and_eq_left_iff_imp]
  unfold live
  rw [decide_eq_true_iff, decide_eq_true_iff]
  omega

theorem prune_replicate {n : Nat} (h : live width now t = true) :
    prune width now (List.replicate n t) = List.replicate n t := by
  refine List.filter_eq_self.mpr fun t' ht' => ?_
  rw [List.eq_of_mem_replicate ht']
  exact h

/-- What has come since `first` counts as long as `width` is not over. -/
theorem countP_prune {first : Nat} (hfirst : first ≤ now) (h : now < first + width) :
    (prune width now log).countP (first ≤ ·) = log.countP (first ≤ ·) := by
  rw [prune, List.countP_filter]
  refine List.countP_congr fun t _ => ?_
  unfold live
  rw [Bool.and_eq_true, decide_eq_true_iff, decide_eq_true_iff]
  omega

/-- A window that ends later holds no more of the times before. -/
theorem countP_within_anti (h : ∀ t ∈ log, t ≤ now) (hle : now ≤ later) :
    log.countP (Within width later ·) ≤ log.countP (Within width now ·) := by
  refine List.countP_mono_left fun t ht hwithin => ?_
  have hbefore := h t ht
  rw [decide_eq_true_iff] at hwithin ⊢
  unfold Within at hwithin ⊢
  omega

/-- Nothing counts after a `width`. -/
theorem prune_eq_nil (h : ∀ t ∈ log, t + width ≤ now) : prune width now log = [] := by
  rw [prune, List.filter_eq_nil_iff]
  intro t ht
  unfold live
  rw [decide_eq_true_iff]
  have := h t ht
  omega

/-- From `now` on, the same times of the two logs count. -/
def Agrees (width now : Nat) (log log' : List Nat) : Prop :=
  ∀ later, now ≤ later → prune width later log = prune width later log'

theorem Agrees.refl (log : List Nat) : Agrees width now log log := fun _ _ => rfl

theorem Agrees.mono (h : Agrees width now log log') (hle : now ≤ later) :
    Agrees width later log log' :=
  fun t ht => h t (Nat.le_trans hle ht)

/-- Throwing away what does not count makes no difference. -/
theorem Agrees.prune_left (h : Agrees width now log log') :
    Agrees width now (prune width now log) log' :=
  fun later hle => (prune_prune hle).trans (h later hle)

/-- Logs of which the same counts now agree from now on. -/
theorem Agrees.of_prune_eq (h : prune width now log = prune width now log') :
    Agrees width now log log' :=
  fun later hle => by rw [← prune_prune hle, h, prune_prune hle]

theorem Agrees.trans {log'' : List Nat} (h : Agrees width now log log')
    (h' : Agrees width now log' log'') : Agrees width now log log'' :=
  fun later hle => (h later hle).trans (h' later hle)

theorem Agrees.concat (h : Agrees width now log log') (t : Nat) :
    Agrees width now (log ++ [t]) (log' ++ [t]) :=
  fun later hle => by rw [prune_append, prune_append, h later hle]

/-! ## Rates -/

/-- No window holds more than `max` times. -/
def Sparse (width max : Nat) (log : List Nat) : Prop :=
  ∀ now, log.countP (Within width now ·) ≤ max

namespace Sparse

variable {max first : Nat}

theorem nil : Sparse width max [] := fun _ => Nat.zero_le max

/-- A time that finds room is one more in the windows that end after it. -/
theorem concat (h : Sparse width max log) (hle : ∀ t ∈ log, t ≤ now)
    (hroom : log.countP (Within width now ·) < max) : Sparse width max (log ++ [now]) := by
  intro later
  rw [List.countP_append]
  rcases Nat.lt_or_ge later now with hlt | hge
  · have hout : ([now].countP fun t => decide (Within width later t)) = 0 := by
      rw [List.countP_eq_zero]
      intro t ht
      rw [List.mem_singleton.mp ht, decide_eq_true_iff]
      exact fun hwithin => absurd hwithin.1 (Nat.not_le.mpr hlt)
    rw [hout]
    exact h later
  · have hone : ([now].countP fun t => decide (Within width later t)) ≤ 1 := List.countP_le_length
    have hbefore : log.countP (Within width later ·) ≤ log.countP (Within width now ·) :=
      countP_within_anti hle hge
    omega

/-- Windows one after the other. -/
theorem countP_windows (h : Sparse width max log) (hpos : 0 < width) (n : Nat) :
    (log.countP fun t => first ≤ t ∧ t < first + n * width) ≤ n * max := by
  induction n with
  | zero =>
    refine Nat.le_trans (Nat.le_of_eq (List.countP_eq_zero.mpr fun t _ => ?_)) (Nat.zero_le _)
    rw [decide_eq_true_iff]
    omega
  | succ n ih =>
    -- The last window ends just before `first + (n + 1) * width`.
    have hlast := h (first + n * width + (width - 1))
    have hsplit : (log.countP fun t => first ≤ t ∧ t < first + (n + 1) * width) ≤
        (log.countP fun t => first ≤ t ∧ t < first + n * width) +
          log.countP fun t => Within width (first + n * width + (width - 1)) t := by
      clear ih hlast h
      induction log with
      | nil => exact Nat.le_refl 0
      | cons t log ih =>
        have ht : first ≤ t ∧ t < first + (n + 1) * width →
            (first ≤ t ∧ t < first + n * width) ∨
              Within width (first + n * width + (width - 1)) t := by
          unfold Within
          rw [Nat.succ_mul]
          omega
        simp only [List.countP_cons, decide_eq_true_iff]
        split
        · rename_i hin
          rcases ht hin with h | h <;> rw [if_pos h] <;> omega
        · omega
    have hmul : (n + 1) * max = n * max + max := Nat.succ_mul n max
    omega

/-- An interval of any length, its ends included. -/
theorem countP_interval (h : Sparse width max log) (hpos : 0 < width) (len : Nat) :
    (log.countP fun t => first ≤ t ∧ t ≤ first + len) ≤ (len / width + 1) * max := by
  have hwindows : (log.countP fun t => first ≤ t ∧ t < first + (len / width + 1) * width) ≤
      (len / width + 1) * max := h.countP_windows hpos (len / width + 1)
  refine Nat.le_trans (List.countP_mono_left fun t _ ht => ?_) hwindows
  have hlen := Nat.lt_div_mul_add hpos (a := len)
  rw [decide_eq_true_iff] at ht ⊢
  rw [Nat.succ_mul]
  omega

end Sparse

end Window
