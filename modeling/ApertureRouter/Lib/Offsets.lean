import ApertureRouter.Lib.Text

/-!
# Byte offsets into Rust text

`str::find`, slices and `String::split_off` speak of byte offsets, and panic at an offset that is
not a character boundary. On the list of characters an offset is the length of a prefix
(`splitOff_utf8Len`), and the loop that looks for the last boundary below an offset ends at the
one that `splitAtBoundary` cuts at (`splitOff_floorBoundary`).
-/

namespace Text

theorem utf8Len_append (a b : List Char) : utf8Len (a ++ b) = utf8Len a + utf8Len b := by
  induction a with
  | nil => simp [utf8Len]
  | cons c a ih => rw [List.cons_append, utf8Len, utf8Len, ih, Nat.add_assoc]

theorem utf8Len_replicate (n : Nat) (c : Char) :
    utf8Len (List.replicate n c) = n * c.utf8Size := by
  induction n with
  | zero => simp [utf8Len]
  | succ n ih => rw [List.replicate_succ, utf8Len, ih, Nat.succ_mul, Nat.add_comm]

/-- `str::is_char_boundary`. -/
def isCharBoundary : List Char → Nat → Bool
  | _, 0 => true
  | [], _ + 1 => false
  | c :: s, n + 1 => c.utf8Size ≤ n + 1 && isCharBoundary s (n + 1 - c.utf8Size)

/-- The texts before and behind a byte offset; `none` is the panic off a boundary. -/
def splitOff (s : List Char) (offset : Nat) : Option (List Char × List Char) :=
  if isCharBoundary s offset then some (splitAtBoundary offset s) else none

/-- `str::find(c)`: the byte offset of the first `c`. -/
def find (c : Char) : List Char → Option Nat
  | [] => none
  | d :: s => if d = c then some 0 else (find c s).map (d.utf8Size + ·)

/-- The last boundary at or below an offset, as a loop that counts down finds it. -/
def floorBoundary (s : List Char) : Nat → Nat
  | 0 => 0
  | cut + 1 => if isCharBoundary s (cut + 1) then cut + 1 else floorBoundary s cut

theorem splitAtBoundary_utf8Len (l r : List Char) : splitAtBoundary (utf8Len l) (l ++ r) = (l, r) := by
  induction l with
  | nil =>
    cases r with
    | nil => rfl
    | cons c r =>
      have := c.utf8Size_pos
      rw [List.nil_append, splitAtBoundary, utf8Len, if_neg (by omega)]
  | cons c l ih =>
    rw [List.cons_append, splitAtBoundary, utf8Len, if_pos (Nat.le_add_right _ _),
      Nat.add_sub_cancel_left, ih]

theorem isCharBoundary_utf8Len (l r : List Char) : isCharBoundary (l ++ r) (utf8Len l) = true := by
  induction l with
  | nil => cases r <;> rfl
  | cons c l ih =>
    have := c.utf8Size_pos
    rw [List.cons_append, utf8Len]
    obtain ⟨n, hn⟩ : ∃ n, c.utf8Size + utf8Len l = n + 1 :=
      ⟨c.utf8Size + utf8Len l - 1, by omega⟩
    have hsub : n + 1 - c.utf8Size = utf8Len l := by omega
    rw [hn, isCharBoundary, hsub, ih, Bool.and_true, decide_eq_true_iff]
    omega

/-- The length of a prefix is a boundary. -/
theorem splitOff_utf8Len (l r : List Char) : splitOff (l ++ r) (utf8Len l) = some (l, r) := by
  rw [splitOff, if_pos (isCharBoundary_utf8Len l r), splitAtBoundary_utf8Len]

/-- Off a boundary the cut is where it is one byte before. -/
theorem splitAtBoundary_succ {s : List Char} {n : Nat} (h : isCharBoundary s (n + 1) = false) :
    splitAtBoundary (n + 1) s = splitAtBoundary n s := by
  induction s generalizing n with
  | nil => rfl
  | cons c s ih =>
    have hpos := c.utf8Size_pos
    simp only [splitAtBoundary]
    by_cases hn : c.utf8Size ≤ n
    · have hsub : n + 1 - c.utf8Size = n - c.utf8Size + 1 := by omega
      have hle : c.utf8Size ≤ n + 1 := by omega
      rw [isCharBoundary, hsub, decide_eq_true hle, Bool.true_and] at h
      rw [if_pos hle, if_pos hn, hsub, ih h]
    · by_cases heq : c.utf8Size = n + 1
      · cases s <;> simp [isCharBoundary, heq] at h
      · rw [if_neg (by omega), if_neg hn]

/-- **The loop that looks for a boundary** ends at one, and it is the last one that fits. -/
theorem splitOff_floorBoundary (s : List Char) (n : Nat) :
    splitOff s (floorBoundary s n) = some (splitAtBoundary n s) := by
  induction n with
  | zero => cases s <;> rfl
  | succ n ih =>
    rw [floorBoundary]
    split
    · rename_i h
      rw [splitOff, if_pos h]
    · rename_i h
      rw [ih, splitAtBoundary_succ (Bool.eq_false_iff.mpr h)]

theorem find_eq_none_iff {c : Char} {s : List Char} : find c s = none ↔ c ∉ s := by
  induction s with
  | nil => simp [find]
  | cons d s ih =>
    rw [find, List.mem_cons, not_or]
    split
    · rename_i h
      simp [h]
    · rename_i h
      simp [ih, Ne.symm h]

/-- `find` finds the length of what is before the first `c`. -/
theorem find_append_cons {c : Char} {l : List Char} (h : c ∉ l) (r : List Char) :
    find c (l ++ c :: r) = some (utf8Len l) := by
  induction l with
  | nil => simp [find, utf8Len]
  | cons d l ih =>
    obtain ⟨hd, hl⟩ := not_or.mp (mt List.mem_cons.mpr h)
    rw [List.cons_append, find, if_neg (Ne.symm hd), ih hl]
    rfl

theorem utf8Len_splitAtBoundary_le (n : Nat) (s : List Char) :
    utf8Len (splitAtBoundary n s).1 ≤ n := by
  induction s generalizing n with
  | nil => exact Nat.zero_le n
  | cons c s ih =>
    rw [splitAtBoundary]
    split
    · have := ih (n - c.utf8Size)
      simp only [utf8Len]
      omega
    · exact Nat.zero_le n

/-- A text that does not fit is cut short. -/
theorem length_splitAtBoundary_lt {n : Nat} {s : List Char} (h : n < utf8Len s) :
    (splitAtBoundary n s).1.length < s.length := by
  have happ := splitAtBoundary_append n s
  have hhead := utf8Len_splitAtBoundary_le n s
  have hrest : (splitAtBoundary n s).2 ≠ [] := by
    intro hnil
    rw [hnil, List.append_nil] at happ
    rw [happ] at hhead
    omega
  have hlen := congrArg List.length happ
  have hpos := List.length_pos_iff.mpr hrest
  rw [List.length_append] at hlen
  omega

/-- A cut inside a text does not see what is behind the text. -/
theorem splitAtBoundary_append_left {n : Nat} {s t : List Char} (h : n < utf8Len s) :
    (splitAtBoundary n (s ++ t)).1 = (splitAtBoundary n s).1 := by
  induction s generalizing n with
  | nil => simp [utf8Len] at h
  | cons c s ih =>
    rw [utf8Len] at h
    rw [List.cons_append, splitAtBoundary, splitAtBoundary]
    split
    · rw [ih (by omega)]
    · rfl

end Text
