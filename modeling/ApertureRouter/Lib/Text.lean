import Mathlib.Data.List.DropRight
import ApertureRouter.Lib.Lines

/-!
# Rust text

The operations of Rust's `str` that the sources use on text that they scan. A `str` that is
scanned is the list of its characters; `utf8Len` is its length in bytes, as `str::len` counts.
-/

namespace Text

/-- `str::len`: the length in UTF-8 bytes. -/
def utf8Len : List Char → Nat
  | [] => 0
  | c :: s => c.utf8Size + utf8Len s

/-- The longest prefix of at most `n` bytes, and the rest: `str::split_off` at the last character
boundary at or below `n`. -/
def splitAtBoundary : Nat → List Char → List Char × List Char
  | _, [] => ([], [])
  | n, c :: s =>
    if c.utf8Size ≤ n then
      (c :: (splitAtBoundary (n - c.utf8Size) s).1, (splitAtBoundary (n - c.utf8Size) s).2)
    else ([], c :: s)

/-- `char::is_whitespace`: the Unicode property `White_Space`. -/
def isWhitespace (c : Char) : Bool :=
  (9 ≤ c.toNat && c.toNat ≤ 13) || c.toNat == 0x20 || c.toNat == 0x85 || c.toNat == 0xA0 ||
    c.toNat == 0x1680 || (0x2000 ≤ c.toNat && c.toNat ≤ 0x200A) || c.toNat == 0x2028 ||
    c.toNat == 0x2029 || c.toNat == 0x202F || c.toNat == 0x205F || c.toNat == 0x3000

/-- `str::trim_end_matches(c)`. -/
def trimEndMatches (c : Char) (s : List Char) : List Char :=
  (s.reverse.dropWhile (· == c)).reverse

/-- `str::trim`. -/
def trim (s : List Char) : List Char :=
  ((s.dropWhile isWhitespace).reverse.dropWhile isWhitespace).reverse

/-- `str::strip_prefix`. -/
def stripPrefix : List Char → List Char → Option (List Char)
  | [], s => some s
  | _ :: _, [] => none
  | p :: ps, c :: s => if p = c then stripPrefix ps s else none

/-- `str::strip_suffix(c)`, and the text itself if it does not end in `c`. -/
def stripSuffix (c : Char) (s : List Char) : List Char :=
  if s.getLast? = some c then s.dropLast else s

/-- `str::parse` for the unsigned type of the values below `size`: digits, after a `+` if there is one. -/
def parseUint (size : Nat) (s : List Char) : Except String Nat :=
  let digits := if s.head? = some '+' then s.tail else s
  if s = [] then .error "cannot parse integer from empty string"
  else if digits = [] then .error "invalid digit found in string"
  else digits.foldlM (fun n c =>
    if !c.isDigit then .error "invalid digit found in string"
    else if size ≤ 10 * n + (c.toNat - '0'.toNat) then
      .error "number too large to fit in target type"
    else .ok (10 * n + (c.toNat - '0'.toNat))) 0

/-- `str::lines`: a line ends in `\n` or `\r\n`, and the last one need not end. -/
def lines (s : List Char) : List (List Char) :=
  (Lines.split '\n' s).1.map (stripSuffix '\r') ++
    if (Lines.split '\n' s).2 = [] then [] else [(Lines.split '\n' s).2]

theorem splitAtBoundary_append (n : Nat) (s : List Char) :
    (splitAtBoundary n s).1 ++ (splitAtBoundary n s).2 = s := by
  induction s generalizing n with
  | nil => rfl
  | cons c s ih =>
    rw [splitAtBoundary]
    split
    · rw [List.cons_append, ih]
    · rfl

/-- A text that fits is not split. -/
theorem splitAtBoundary_of_le {n : Nat} {s : List Char} (h : utf8Len s ≤ n) :
    splitAtBoundary n s = (s, []) := by
  induction s generalizing n with
  | nil => rfl
  | cons c s ih =>
    rw [utf8Len] at h
    rw [splitAtBoundary, if_pos (by omega), ih (by omega)]

theorem stripPrefix_append (p s : List Char) : stripPrefix p (p ++ s) = some s := by
  induction p with
  | nil => rfl
  | cons c p ih => simp [stripPrefix, ih]

theorem stripPrefix_eq_some_iff {p s r : List Char} : stripPrefix p s = some r ↔ s = p ++ r := by
  constructor
  · intro h
    induction p generalizing s with
    | nil => exact Option.some.inj h
    | cons c p ih =>
      cases s with
      | nil => simp [stripPrefix] at h
      | cons d s =>
        by_cases hc : c = d
        · rw [stripPrefix, if_pos hc] at h
          rw [hc, ih h, List.cons_append]
        · simp [stripPrefix, hc] at h
  · rintro rfl
    exact stripPrefix_append p r

/-- Nothing to trim at the end of a text without `c`. -/
theorem trimEndMatches_of_notMem {c : Char} {s : List Char} (h : c ∉ s) :
    trimEndMatches c s = s := by
  unfold trimEndMatches
  have : s.reverse.dropWhile (· == c) = s.reverse := by
    cases hr : s.reverse with
    | nil => rfl
    | cons d l =>
      have hd : d ∈ s := by rw [← List.mem_reverse, hr]; simp
      have : (d == c) = false := by
        rw [beq_eq_false_iff_ne]
        rintro rfl
        exact h hd
      rw [List.dropWhile_cons_of_neg (by simp [this])]
  rw [this, List.reverse_reverse]

theorem trimEndMatches_append (c : Char) (a b : List Char) :
    trimEndMatches c (a ++ b) =
      if trimEndMatches c b = [] then trimEndMatches c a else a ++ trimEndMatches c b := by
  unfold trimEndMatches
  rw [List.reverse_append, List.dropWhile_append]
  by_cases h : b.reverse.dropWhile (· == c) = [] <;> simp [h]

theorem trimEndMatches_prefix_self (c : Char) (s : List Char) : trimEndMatches c s <+: s := by
  unfold trimEndMatches
  rw [← List.reverse_suffix, List.reverse_reverse]
  exact List.dropWhile_suffix _

theorem trimEndMatches_eq_nil_iff {c : Char} {s : List Char} :
    trimEndMatches c s = [] ↔ ∀ d ∈ s, d = c := by
  unfold trimEndMatches
  rw [List.reverse_eq_nil_iff, List.dropWhile_eq_nil_iff]
  simp

/-- Nothing is left to strip behind a text that was trimmed. -/
theorem stripSuffix_trimEndMatches (c : Char) (s : List Char) :
    stripSuffix c (trimEndMatches c s) = trimEndMatches c s := by
  refine if_neg fun h => ?_
  obtain ⟨hne, hlast⟩ := List.mem_getLast?_eq_getLast h
  exact List.rdropWhile_last_not (· == c) s hne (beq_iff_eq.mpr hlast.symm)

theorem stripSuffix_prefix_self (c : Char) (s : List Char) : stripSuffix c s <+: s := by
  unfold stripSuffix
  split
  · exact List.dropLast_prefix s
  · exact List.prefix_refl s

theorem mem_of_mem_trim {c : Char} {s : List Char} (h : c ∈ trim s) : c ∈ s := by
  have hdrop := (List.dropWhile_suffix isWhitespace).subset (List.mem_reverse.mp h)
  exact (List.dropWhile_suffix isWhitespace).subset (List.mem_reverse.mp hdrop)

/-- The lines have no line feed. -/
theorem lines_notMem (s : List Char) : ∀ l ∈ lines s, '\n' ∉ l := by
  intro l hl
  unfold lines at hl
  rcases List.mem_append.mp hl with h | h
  · obtain ⟨line, hline, rfl⟩ := List.mem_map.mp h
    exact fun hmem =>
      Lines.split_notMem s line hline ((stripSuffix_prefix_self '\r' line).subset hmem)
  · split at h
    · cases h
    · rw [List.mem_singleton.mp h]
      exact Lines.split_rest_notMem s

/-- There is nothing to trim in a text without whitespace. -/
theorem trim_eq_self {s : List Char} (h : ∀ c ∈ s, isWhitespace c = false) : trim s = s := by
  have hdrop : ∀ s : List Char, (∀ c ∈ s, isWhitespace c = false) → s.dropWhile isWhitespace = s := by
    intro s hs
    cases s with
    | nil => rfl
    | cons c s => rw [List.dropWhile_cons, hs c List.mem_cons_self, if_neg Bool.false_ne_true]
  rw [trim, hdrop s h, hdrop s.reverse fun c hc => h c (List.mem_reverse.mp hc),
    List.reverse_reverse]

theorem stripSuffix_of_notMem {c : Char} {s : List Char} (h : c ∉ s) : stripSuffix c s = s :=
  if_neg fun he => h (List.mem_of_getLast? he)

theorem stripSuffix_append (c : Char) (s : List Char) : stripSuffix c (s ++ [c]) = s := by
  simp [stripSuffix]

theorem trimEndMatches_stripSuffix (c : Char) (s : List Char) :
    trimEndMatches c (stripSuffix c s) = trimEndMatches c s := by
  unfold stripSuffix
  split
  · rename_i h
    obtain ⟨l, rfl⟩ := List.getLast?_eq_some_iff.mp h
    rw [List.dropLast_concat, trimEndMatches_append, if_pos (by simp [trimEndMatches])]
  · rfl

end Text
