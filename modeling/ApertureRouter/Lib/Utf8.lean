import Mathlib.Data.List.Basic
import ApertureRouter.Lib.Text

/-!
# UTF-8

Bytes as Rust's `std` decodes them. A text is the list of its characters, and `encode` its bytes.

* `head`: the character that bytes begin with, or the length of the invalid sequence there
  (`Utf8Error::error_len`: `none` where the bytes end before the character does).
* `validPrefix`: the longest prefix that is UTF-8, as a text, and the bytes behind it. `fromUtf8` is
  `str::from_utf8`.
* `lossy`: `String::from_utf8_lossy`, one `U+FFFD` for each invalid sequence.

The decoder reads a character and then passes over its remaining bytes (`skip`), so the recursions
are on the bytes.
-/

namespace Utf8

/-- The bytes of a text. -/
def encode (s : List Char) : List UInt8 := s.flatMap String.utf8EncodeChar

/-- What the first byte of a character says: how many bytes follow, its own bits, and the bounds of
the byte behind it. -/
structure Lead where
  more : Nat
  bits : Nat
  low : Nat
  high : Nat

/-- The bytes that can begin a character. -/
def lead (b : UInt8) : Option Lead :=
  if b.toNat ≤ 0x7F then some ⟨0, b.toNat, 0x80, 0xBF⟩
  else if b.toNat < 0xC2 then none
  else if b.toNat ≤ 0xDF then some ⟨1, b.toNat % 32, 0x80, 0xBF⟩
  else if b.toNat = 0xE0 then some ⟨2, 0, 0xA0, 0xBF⟩
  else if b.toNat = 0xED then some ⟨2, 13, 0x80, 0x9F⟩
  else if b.toNat ≤ 0xEF then some ⟨2, b.toNat % 16, 0x80, 0xBF⟩
  else if b.toNat = 0xF0 then some ⟨3, 0, 0x90, 0xBF⟩
  else if b.toNat ≤ 0xF3 then some ⟨3, b.toNat % 8, 0x80, 0xBF⟩
  else if b.toNat = 0xF4 then some ⟨3, 4, 0x80, 0x8F⟩
  else none

/-- Reads `more` bytes, the first of them within the bounds. `seen` counts the bytes so far. -/
def tails (seen : Nat) : Nat → Nat → Nat → Nat → List UInt8 → Except (Option Nat) Char
  | 0, bits, _, _, _ => .ok (Char.ofNat bits)
  | _ + 1, _, _, _, [] => .error none
  | more + 1, bits, low, high, b :: bytes =>
    if low ≤ b.toNat ∧ b.toNat ≤ high then
      tails (seen + 1) more (bits * 64 + b.toNat % 64) 0x80 0xBF bytes
    else .error (some seen)

/-- The character that the bytes begin with. -/
def head : List UInt8 → Except (Option Nat) Char
  | [] => .error none
  | b :: bytes =>
    match lead b with
    | none => .error (some 1)
    | some l => tails 1 l.more l.bits l.low l.high bytes

/-- The longest valid prefix, after `skip` bytes, and what is behind it. -/
def validPrefixFrom : Nat → List UInt8 → List Char × List UInt8
  | _, [] => ([], [])
  | skip + 1, _ :: bytes => validPrefixFrom skip bytes
  | 0, b :: bytes =>
    match head (b :: bytes) with
    | .ok c =>
      let valid := validPrefixFrom (c.utf8Size - 1) bytes
      (c :: valid.1, valid.2)
    | .error _ => ([], b :: bytes)

def validPrefix (bytes : List UInt8) : List Char × List UInt8 := validPrefixFrom 0 bytes

/-- `Utf8Error`. -/
structure Error where
  validUpTo : Nat
  errorLen : Option Nat

/-- `str::from_utf8`. -/
def fromUtf8 (bytes : List UInt8) : Except Error (List Char) :=
  let valid := validPrefix bytes
  match head valid.2 with
  | .ok _ => .ok valid.1
  | .error errorLen =>
    if valid.2 = [] then .ok valid.1
    else .error ⟨bytes.length - valid.2.length, errorLen⟩

/-- `char::REPLACEMENT_CHARACTER`. -/
def replacement : Char := '\uFFFD'

/-- `String::from_utf8_lossy`, after `skip` bytes. -/
def lossyFrom : Nat → List UInt8 → List Char
  | _, [] => []
  | skip + 1, _ :: bytes => lossyFrom skip bytes
  | 0, b :: bytes =>
    match head (b :: bytes) with
    | .ok c => c :: lossyFrom (c.utf8Size - 1) bytes
    | .error (some n) => replacement :: lossyFrom (n - 1) bytes
    | .error none => [replacement]

def lossy (bytes : List UInt8) : List Char := lossyFrom 0 bytes

/-! ## The bytes of a character -/

/-- The bytes that `tails` reads. -/
def Follows : Nat → Nat → Nat → List UInt8 → Prop
  | 0, _, _, bytes => bytes = []
  | _ + 1, _, _, [] => False
  | more + 1, low, high, b :: bytes =>
    (low ≤ b.toNat ∧ b.toNat ≤ high) ∧ Follows more 0x80 0xBF bytes

theorem exists_of_follows {more low high : Nat} {bytes : List UInt8}
    (h : Follows (more + 1) low high bytes) : ∃ b rest, bytes = b :: rest ∧
      (low ≤ b.toNat ∧ b.toNat ≤ high) ∧ Follows more 0x80 0xBF rest := by
  cases bytes with
  | nil => exact h.elim
  | cons b rest => exact ⟨b, rest, rfl, h⟩

/-- The bits of these bytes, behind the bits of the first byte. -/
def value (bits : Nat) (bytes : List UInt8) : Nat :=
  bytes.foldl (fun v b => v * 64 + b.toNat % 64) bits

theorem tails_of_follows {more low high : Nat} {bytes : List UInt8}
    (h : Follows more low high bytes) (seen bits : Nat) (rest : List UInt8) :
    tails seen more bits low high (bytes ++ rest) = .ok (Char.ofNat (value bits bytes)) := by
  induction more generalizing seen bits low high bytes with
  | zero =>
    rw [show bytes = [] from h]
    rfl
  | succ more ih =>
    cases bytes with
    | nil => exact h.elim
    | cons b bytes =>
      rw [List.cons_append, tails, if_pos h.1]
      exact ih h.2 (seen + 1) (bits * 64 + b.toNat % 64)

theorem tails_of_incomplete {more low high : Nat} {bytes rest : List UInt8}
    (h : Follows more low high (bytes ++ rest)) (hrest : rest ≠ []) (seen bits : Nat) :
    tails seen more bits low high bytes = .error none := by
  induction more generalizing seen bits low high bytes with
  | zero => exact absurd (List.append_eq_nil_iff.mp h).2 hrest
  | succ more ih =>
    cases bytes with
    | nil => rfl
    | cons b bytes =>
      rw [tails, if_pos h.1]
      exact ih h.2 (seen + 1) (bits * 64 + b.toNat % 64)

theorem exists_follows_of_tails {more low high : Nat} {bytes : List UInt8} {seen bits : Nat}
    {c : Char} (h : tails seen more bits low high bytes = .ok c) :
    ∃ l rest, bytes = l ++ rest ∧ Follows more low high l ∧ c = Char.ofNat (value bits l) := by
  induction more generalizing seen bits low high bytes with
  | zero => exact ⟨[], bytes, rfl, rfl, (Except.ok.inj h).symm⟩
  | succ more ih =>
    cases bytes with
    | nil => cases h
    | cons b bytes =>
      rw [tails] at h
      split at h
      · next hb =>
        obtain ⟨l, rest, rfl, hl, hc⟩ := ih h
        exact ⟨b :: l, rest, rfl, ⟨hb, hl⟩, hc⟩
      · cases h

theorem toNat_ofNat {n : Nat} (h : n < 256) : (UInt8.ofNat n).toNat = n := by
  rw [UInt8.toNat_ofNat']
  omega

theorem lead_three {v : Nat} (h : 0x7FF < v) (h' : v ≤ 0xFFFF) (hv : v < 0xD800 ∨ 0xDFFF < v) :
    ∃ low high, lead (UInt8.ofNat (v / 4096 % 16 + 224)) = some ⟨2, v / 4096, low, high⟩ ∧
      low ≤ v / 64 % 64 + 128 ∧ v / 64 % 64 + 128 ≤ high := by
  have hb : (UInt8.ofNat (v / 4096 % 16 + 224)).toNat = v / 4096 + 224 := by
    rw [toNat_ofNat (by omega)]
    omega
  unfold lead
  rw [hb, if_neg (by omega), if_neg (by omega), if_neg (by omega)]
  by_cases he0 : v / 4096 = 0
  · exact ⟨0xA0, 0xBF, by rw [if_pos (by omega), he0], by omega, by omega⟩
  rw [if_neg (by omega)]
  by_cases hed : v / 4096 = 13
  · exact ⟨0x80, 0x9F, by rw [if_pos (by omega), hed], by omega, by omega⟩
  rw [if_neg (by omega), if_pos (by omega), show (v / 4096 + 224) % 16 = v / 4096 by omega]
  exact ⟨0x80, 0xBF, rfl, by omega, by omega⟩

theorem lead_four {v : Nat} (h : 0xFFFF < v) (h' : v < 0x110000) :
    ∃ low high, lead (UInt8.ofNat (v / 262144 % 8 + 240)) = some ⟨3, v / 262144, low, high⟩ ∧
      low ≤ v / 4096 % 64 + 128 ∧ v / 4096 % 64 + 128 ≤ high := by
  have hb : (UInt8.ofNat (v / 262144 % 8 + 240)).toNat = v / 262144 + 240 := by
    rw [toNat_ofNat (by omega)]
    omega
  unfold lead
  rw [hb, if_neg (by omega), if_neg (by omega), if_neg (by omega), if_neg (by omega),
    if_neg (by omega), if_neg (by omega)]
  by_cases hf0 : v / 262144 = 0
  · exact ⟨0x90, 0xBF, by rw [if_pos (by omega), hf0], by omega, by omega⟩
  rw [if_neg (by omega)]
  by_cases hf4 : v / 262144 = 4
  · exact ⟨0x80, 0x8F, by rw [if_neg (by omega), if_pos (by omega), hf4], by omega, by omega⟩
  rw [if_pos (by omega), show (v / 262144 + 240) % 8 = v / 262144 by omega]
  exact ⟨0x80, 0xBF, rfl, by omega, by omega⟩

/-- A character is a first byte and what this byte asks for. -/
theorem exists_lead (c : Char) : ∃ b bytes l, String.utf8EncodeChar c = b :: bytes ∧
    lead b = some l ∧ Follows l.more l.low l.high bytes ∧ value l.bits bytes = c.toNat := by
  have hvalid : c.toNat < 0xD800 ∨ 0xDFFF < c.toNat ∧ c.toNat < 0x110000 := c.valid
  unfold String.utf8EncodeChar
  rw [show c.val.toNat = c.toNat from rfl]
  generalize c.toNat = v at hvalid
  by_cases h1 : v ≤ 0x7F
  · have hb : (UInt8.ofNat v).toNat = v := toNat_ofNat (by omega)
    simp only [h1, if_true]
    exact ⟨_, _, ⟨0, v, 0x80, 0xBF⟩, rfl, by rw [lead, hb, if_pos h1], rfl, rfl⟩
  have hx : (UInt8.ofNat (v % 64 + 128)).toNat = v % 64 + 128 := toNat_ofNat (by omega)
  by_cases h2 : v ≤ 0x7FF
  · have hb : (UInt8.ofNat (v / 64 % 32 + 192)).toNat = v / 64 % 32 + 192 := toNat_ofNat (by omega)
    simp only [h1, h2, if_true, if_false]
    refine ⟨_, _, ⟨1, (v / 64 % 32 + 192) % 32, 0x80, 0xBF⟩, rfl, ?_, ?_, ?_⟩
    · rw [lead, hb, if_neg (by omega), if_neg (by omega), if_pos (by omega)]
    · simp only [Follows, hx, and_true]
      omega
    · simp only [value, List.foldl, hx]
      omega
  have hy : (UInt8.ofNat (v / 64 % 64 + 128)).toNat = v / 64 % 64 + 128 := toNat_ofNat (by omega)
  by_cases h3 : v ≤ 0xFFFF
  · obtain ⟨low, high, hlead, hlow, hhigh⟩ := lead_three (v := v) (by omega) h3 (by omega)
    simp only [h1, h2, h3, if_true, if_false]
    refine ⟨_, _, _, rfl, hlead, ?_, ?_⟩
    · exact ⟨by rw [hy]; exact ⟨hlow, hhigh⟩, by rw [hx]; omega, rfl⟩
    · simp only [value, List.foldl, hx, hy]
      omega
  have hz : (UInt8.ofNat (v / 4096 % 64 + 128)).toNat = v / 4096 % 64 + 128 :=
    toNat_ofNat (by omega)
  obtain ⟨low, high, hlead, hlow, hhigh⟩ := lead_four (v := v) (by omega) (by omega)
  simp only [h1, h2, h3, if_false]
  refine ⟨_, _, _, rfl, hlead, ?_, ?_⟩
  · exact ⟨by rw [hz]; exact ⟨hlow, hhigh⟩, by rw [hy]; omega, by rw [hx]; omega, rfl⟩
  · simp only [value, List.foldl, hx, hy, hz]
    omega

theorem encodeChar_ofNat {v : Nat} (h : v < 0xD800 ∨ 0xDFFF < v ∧ v < 0x110000) :
    String.utf8EncodeChar (Char.ofNat v) =
      if v ≤ 0x7F then [UInt8.ofNat v]
      else if v ≤ 0x7FF then [UInt8.ofNat (v / 64 % 32 + 192), UInt8.ofNat (v % 64 + 128)]
      else if v ≤ 0xFFFF then
        [UInt8.ofNat (v / 4096 % 16 + 224), UInt8.ofNat (v / 64 % 64 + 128),
          UInt8.ofNat (v % 64 + 128)]
      else
        [UInt8.ofNat (v / 262144 % 8 + 240), UInt8.ofNat (v / 4096 % 64 + 128),
          UInt8.ofNat (v / 64 % 64 + 128), UInt8.ofNat (v % 64 + 128)] := by
  have hv : (Char.ofNat v).val.toNat = v := by
    rw [Char.ofNat, dif_pos h]
    rfl
  rw [String.utf8EncodeChar, hv]

theorem ofNat_eq {n : Nat} {b : UInt8} (h : n = b.toNat) : UInt8.ofNat n = b := by
  rw [h, UInt8.ofNat_toNat]

theorem encodeChar_two {bits : Nat} {b x : UInt8} (hb : b.toNat = bits + 192)
    (hx : 0x80 ≤ x.toNat ∧ x.toNat ≤ 0xBF) (h2 : 2 ≤ bits) (h32 : bits < 32) :
    String.utf8EncodeChar (Char.ofNat (value bits [x])) = [b, x] := by
  have hv : value bits [x] = bits * 64 + (x.toNat - 128) := by
    simp only [value, List.foldl]
    omega
  rw [hv, encodeChar_ofNat (by omega), if_neg (by omega), if_pos (by omega),
    ofNat_eq (b := b) (by omega), ofNat_eq (b := x) (by omega)]

theorem encodeChar_three {bits : Nat} {b x y : UInt8} (hb : b.toNat = bits + 224)
    (hx : 0x80 ≤ x.toNat ∧ x.toNat ≤ 0xBF) (hy : 0x80 ≤ y.toNat ∧ y.toNat ≤ 0xBF)
    (h0 : bits = 0 → 0xA0 ≤ x.toNat) (h13 : bits = 13 → x.toNat ≤ 0x9F) (h16 : bits < 16) :
    String.utf8EncodeChar (Char.ofNat (value bits [x, y])) = [b, x, y] := by
  have hv : value bits [x, y] = bits * 4096 + (x.toNat - 128) * 64 + (y.toNat - 128) := by
    simp only [value, List.foldl]
    omega
  rw [hv, encodeChar_ofNat (by omega), if_neg (by omega), if_neg (by omega), if_pos (by omega),
    ofNat_eq (b := b) (by omega), ofNat_eq (b := x) (by omega), ofNat_eq (b := y) (by omega)]

theorem encodeChar_four {bits : Nat} {b x y z : UInt8} (hb : b.toNat = bits + 240)
    (hx : 0x80 ≤ x.toNat ∧ x.toNat ≤ 0xBF) (hy : 0x80 ≤ y.toNat ∧ y.toNat ≤ 0xBF)
    (hz : 0x80 ≤ z.toNat ∧ z.toNat ≤ 0xBF)
    (h0 : bits = 0 → 0x90 ≤ x.toNat) (h4 : bits = 4 → x.toNat ≤ 0x8F) (h5 : bits < 5) :
    String.utf8EncodeChar (Char.ofNat (value bits [x, y, z])) = [b, x, y, z] := by
  have hv : value bits [x, y, z] =
      bits * 262144 + (x.toNat - 128) * 4096 + (y.toNat - 128) * 64 + (z.toNat - 128) := by
    simp only [value, List.foldl]
    omega
  rw [hv, encodeChar_ofNat (by omega), if_neg (by omega), if_neg (by omega), if_neg (by omega),
    ofNat_eq (b := b) (by omega), ofNat_eq (b := x) (by omega), ofNat_eq (b := y) (by omega),
    ofNat_eq (b := z) (by omega)]

/-- What the decoder reads is a character. -/
theorem encodeChar_of_lead {b : UInt8} {bytes : List UInt8} {l : Lead} (hl : lead b = some l)
    (h : Follows l.more l.low l.high bytes) :
    String.utf8EncodeChar (Char.ofNat (value l.bits bytes)) = b :: bytes := by
  unfold lead at hl
  split_ifs at hl with h1 h2 h3 h4 h5 h6 h7 h8 h9
  all_goals
    obtain rfl := Option.some.inj hl
    dsimp only at h ⊢
  · obtain rfl : bytes = [] := h
    show String.utf8EncodeChar (Char.ofNat b.toNat) = [b]
    rw [encodeChar_ofNat (by omega), if_pos h1, UInt8.ofNat_toNat]
  · obtain ⟨x, _, rfl, hx, rfl⟩ := exists_of_follows h
    exact encodeChar_two (by omega) hx (by omega) (by omega)
  · obtain ⟨x, _, rfl, hx, h⟩ := exists_of_follows h
    obtain ⟨y, _, rfl, hy, rfl⟩ := exists_of_follows h
    exact encodeChar_three (by omega) ⟨by omega, hx.2⟩ hy (by omega) (by omega) (by omega)
  · obtain ⟨x, _, rfl, hx, h⟩ := exists_of_follows h
    obtain ⟨y, _, rfl, hy, rfl⟩ := exists_of_follows h
    exact encodeChar_three (by omega) ⟨hx.1, by omega⟩ hy (by omega) (by omega) (by omega)
  · obtain ⟨x, _, rfl, hx, h⟩ := exists_of_follows h
    obtain ⟨y, _, rfl, hy, rfl⟩ := exists_of_follows h
    exact encodeChar_three (by omega) hx hy (by omega) (by omega) (by omega)
  · obtain ⟨x, _, rfl, hx, h⟩ := exists_of_follows h
    obtain ⟨y, _, rfl, hy, h⟩ := exists_of_follows h
    obtain ⟨z, _, rfl, hz, rfl⟩ := exists_of_follows h
    exact encodeChar_four (by omega) ⟨by omega, hx.2⟩ hy hz (by omega) (by omega) (by omega)
  · obtain ⟨x, _, rfl, hx, h⟩ := exists_of_follows h
    obtain ⟨y, _, rfl, hy, h⟩ := exists_of_follows h
    obtain ⟨z, _, rfl, hz, rfl⟩ := exists_of_follows h
    exact encodeChar_four (by omega) hx hy hz (by omega) (by omega) (by omega)
  · obtain ⟨x, _, rfl, hx, h⟩ := exists_of_follows h
    obtain ⟨y, _, rfl, hy, h⟩ := exists_of_follows h
    obtain ⟨z, _, rfl, hz, rfl⟩ := exists_of_follows h
    exact encodeChar_four (by omega) ⟨hx.1, by omega⟩ hy hz (by omega) (by omega) (by omega)

theorem lead_bounds {b : UInt8} {l : Lead} (h : lead b = some l) :
    0x80 ≤ l.low ∧ l.high ≤ 0xBF := by
  unfold lead at h
  split_ifs at h
  all_goals
    obtain rfl := Option.some.inj h
    simp

/-- The bytes that never begin a character. -/
theorem lead_eq_none {b : UInt8} (h : 0x80 ≤ b.toNat ∧ b.toNat ≤ 0xBF ∨ 0xF5 ≤ b.toNat) :
    lead b = none := by
  unfold lead
  rw [if_neg (by omega)]
  rcases h with h | h
  · rw [if_pos (by omega)]
  · rw [if_neg (by omega), if_neg (by omega), if_neg (by omega), if_neg (by omega),
      if_neg (by omega), if_neg (by omega), if_neg (by omega), if_neg (by omega)]

theorem lead_of_follows {more low high : Nat} {bytes : List UInt8}
    (h : Follows more low high bytes) (hlow : 0x80 ≤ low) (hhigh : high ≤ 0xBF) :
    ∀ b ∈ bytes, lead b = none := by
  induction more generalizing low high bytes with
  | zero =>
    obtain rfl : bytes = [] := h
    exact fun _ hb => absurd hb List.not_mem_nil
  | succ more ih =>
    obtain ⟨b, rest, rfl, hb, hrest⟩ := exists_of_follows h
    intro x hx
    rcases List.mem_cons.mp hx with rfl | hx
    · exact lead_eq_none (.inl (by omega))
    · exact ih hrest (by omega) (by omega) x hx

/-! ## The first character -/

theorem head_encodeChar (c : Char) (rest : List UInt8) :
    head (String.utf8EncodeChar c ++ rest) = .ok c := by
  obtain ⟨b, bytes, l, hc, hl, hf, hv⟩ := exists_lead c
  rw [hc, List.cons_append, head, hl]
  show tails 1 l.more l.bits l.low l.high (bytes ++ rest) = .ok c
  rw [tails_of_follows hf, hv, Char.ofNat_toNat]

theorem exists_of_head {bytes : List UInt8} {c : Char} (h : head bytes = .ok c) :
    ∃ rest, bytes = String.utf8EncodeChar c ++ rest := by
  cases bytes with
  | nil => cases h
  | cons b bytes =>
    rw [head] at h
    cases hl : lead b with
    | none =>
      rw [hl] at h
      cases h
    | some l =>
      rw [hl] at h
      obtain ⟨read, rest, rfl, hf, rfl⟩ := exists_follows_of_tails h
      exact ⟨rest, by rw [encodeChar_of_lead hl hf, List.cons_append]⟩

theorem head_of_lead_eq_none {b : UInt8} (h : lead b = none) (bytes : List UInt8) :
    head (b :: bytes) = .error (some 1) := by
  rw [head, h]

/-- The rest of a character begins no character. -/
theorem lead_of_encodeChar_eq {c : Char} {part more : List UInt8}
    (h : String.utf8EncodeChar c = part ++ more) (hpart : part ≠ []) :
    ∀ b ∈ more, lead b = none := by
  obtain ⟨b, bytes, l, hc, hl, hf, -⟩ := exists_lead c
  obtain ⟨x, part, rfl⟩ := List.exists_cons_of_ne_nil hpart
  obtain ⟨-, rfl⟩ := List.cons.inj (hc.symm.trans h)
  intro y hy
  exact lead_of_follows hf (lead_bounds hl).1 (lead_bounds hl).2 y (List.mem_append_right _ hy)

/-- The bytes are a part of the first character of the text, or there are none. -/
def Begins (part : List UInt8) (s : List Char) : Prop :=
  part = [] ∨ ∃ c s' more, s = c :: s' ∧ part ≠ [] ∧ more ≠ [] ∧
    String.utf8EncodeChar c = part ++ more

theorem Begins.head_eq {part : List UInt8} {s : List Char} (h : Begins part s) :
    head part = .error none := by
  rcases h with rfl | ⟨c, s', more, rfl, hpart, hmore, hc⟩
  · rfl
  obtain ⟨b, bytes, l, hc', hl, hf, -⟩ := exists_lead c
  obtain ⟨x, part, rfl⟩ := List.exists_cons_of_ne_nil hpart
  obtain ⟨rfl, rfl⟩ := List.cons.inj (hc'.symm.trans hc)
  rw [head, hl]
  exact tails_of_incomplete hf hmore 1 l.bits

theorem Begins.length_le {part : List UInt8} {s : List Char} (h : Begins part s) :
    part.length ≤ 3 := by
  rcases h with rfl | ⟨c, s', more, rfl, hpart, hmore, hc⟩
  · exact Nat.zero_le 3
  have hlen := congrArg List.length hc
  have hmore := List.length_pos_iff.mpr hmore
  have hwidth := c.utf8Size_le_four
  rw [String.length_utf8EncodeChar, List.length_append] at hlen
  omega

theorem Begins.eq_nil {part : List UInt8} (h : Begins part []) : part = [] := by
  rcases h with rfl | ⟨c, s', more, hs, -⟩
  · rfl
  · cases hs

/-! ## Texts -/

@[simp] theorem encode_nil : encode [] = [] := rfl

theorem encode_cons (c : Char) (s : List Char) :
    encode (c :: s) = String.utf8EncodeChar c ++ encode s := rfl

theorem encode_append (s t : List Char) : encode (s ++ t) = encode s ++ encode t :=
  List.flatMap_append

theorem length_encode (s : List Char) : (encode s).length = Text.utf8Len s := by
  induction s with
  | nil => rfl
  | cons c s ih =>
    rw [encode_cons, List.length_append, String.length_utf8EncodeChar, ih, Text.utf8Len]

theorem encode_eq_nil_iff {s : List Char} : encode s = [] ↔ s = [] := by
  constructor
  · intro h
    cases s with
    | nil => rfl
    | cons c s =>
      have hlen := congrArg List.length h
      have hpos := c.utf8Size_pos
      rw [encode_cons, List.length_append, String.length_utf8EncodeChar, List.length_nil] at hlen
      omega
  · rintro rfl
    rfl

theorem Begins.length_lt {part : List UInt8} {s : List Char} (h : Begins part s) (hs : s ≠ []) :
    part.length < (encode s).length := by
  rcases h with rfl | ⟨c, s', more, rfl, hpart, hmore, hc⟩
  · exact List.length_pos_iff.mpr fun hnil => hs (encode_eq_nil_iff.mp hnil)
  · have hmore := List.length_pos_iff.mpr hmore
    rw [encode_cons, hc, List.length_append, List.length_append]
    omega

/-- Where bytes of a text are cut, whole characters and a part of one are before the cut. -/
theorem exists_cut {s : List Char} {bytes rest : List UInt8} (h : bytes ++ rest = encode s) :
    ∃ t s' part, s = t ++ s' ∧ bytes = encode t ++ part ∧ part ++ rest = encode s' ∧
      Begins part s' := by
  induction s generalizing bytes with
  | nil =>
    obtain ⟨rfl, rfl⟩ := List.append_eq_nil_iff.mp h
    exact ⟨[], [], [], rfl, rfl, rfl, .inl rfl⟩
  | cons c s ih =>
    rw [encode_cons] at h
    rcases List.append_eq_append_iff.mp h with ⟨more, hc, hrest⟩ | ⟨bytes', rfl, hrest⟩
    · by_cases hbytes : bytes = []
      · subst hbytes
        exact ⟨[], c :: s, [], rfl, rfl, h, .inl rfl⟩
      by_cases hmore : more = []
      · refine ⟨[c], s, [], rfl, ?_, ?_, .inl rfl⟩
        · rw [encode_cons, hc, hmore]
          simp
        · rw [hrest, hmore]
          rfl
      refine ⟨[], c :: s, bytes, rfl, rfl, ?_, .inr ⟨c, s, more, rfl, hbytes, hmore, hc⟩⟩
      rw [h, encode_cons]
    · obtain ⟨t, s', part, rfl, rfl, hs', hpart⟩ := ih hrest.symm
      refine ⟨c :: t, s', part, rfl, ?_, hs', hpart⟩
      rw [encode_cons, List.append_assoc]

/-! ## Decoding -/

theorem validPrefixFrom_append (bytes rest : List UInt8) :
    validPrefixFrom bytes.length (bytes ++ rest) = validPrefix rest := by
  induction bytes with
  | nil => rfl
  | cons b bytes ih => exact ih

theorem lossyFrom_append (bytes rest : List UInt8) :
    lossyFrom bytes.length (bytes ++ rest) = lossy rest := by
  induction bytes with
  | nil => rfl
  | cons b bytes ih => exact ih

/-- The first byte of a character, and what the decoder passes over. -/
theorem encodeChar_append (c : Char) (rest : List UInt8) :
    ∃ b bytes, String.utf8EncodeChar c ++ rest = b :: (bytes ++ rest) ∧
      c.utf8Size - 1 = bytes.length := by
  obtain ⟨b, bytes, l, hc, -⟩ := exists_lead c
  refine ⟨b, bytes, by rw [hc, List.cons_append], ?_⟩
  rw [← String.length_utf8EncodeChar, hc, List.length_cons, Nat.add_sub_cancel]

theorem validPrefix_encodeChar (c : Char) (rest : List UInt8) :
    validPrefix (String.utf8EncodeChar c ++ rest) =
      (c :: (validPrefix rest).1, (validPrefix rest).2) := by
  have hhead := head_encodeChar c rest
  obtain ⟨b, bytes, hc, hlen⟩ := encodeChar_append c rest
  rw [hc] at hhead ⊢
  rw [validPrefix, validPrefixFrom, hhead]
  simp only [hlen, validPrefixFrom_append]

theorem lossy_encodeChar (c : Char) (rest : List UInt8) :
    lossy (String.utf8EncodeChar c ++ rest) = c :: lossy rest := by
  have hhead := head_encodeChar c rest
  obtain ⟨b, bytes, hc, hlen⟩ := encodeChar_append c rest
  rw [hc] at hhead ⊢
  rw [lossy, lossyFrom, hhead]
  simp only [hlen, lossyFrom_append]

theorem validPrefix_of_error {bytes : List UInt8} {e : Option Nat} (h : head bytes = .error e) :
    validPrefix bytes = ([], bytes) := by
  cases bytes with
  | nil => rfl
  | cons b bytes => rw [validPrefix, validPrefixFrom, h]

theorem validPrefix_encode (s : List Char) {rest : List UInt8} {e : Option Nat}
    (h : head rest = .error e) : validPrefix (encode s ++ rest) = (s, rest) := by
  induction s with
  | nil => exact validPrefix_of_error h
  | cons c s ih => rw [encode_cons, List.append_assoc, validPrefix_encodeChar, ih]

/-- All bytes are a text, and bytes that begin no character. -/
theorem exists_valid (bytes : List UInt8) : ∃ s rest e, bytes = encode s ++ rest ∧
    head rest = .error e := by
  induction hn : bytes.length using Nat.strongRecOn generalizing bytes with
  | ind n ih =>
    cases h : head bytes with
    | error e => exact ⟨[], bytes, e, rfl, h⟩
    | ok c =>
      obtain ⟨tail, rfl⟩ := exists_of_head h
      have hpos := c.utf8Size_pos
      rw [List.length_append, String.length_utf8EncodeChar] at hn
      obtain ⟨s, rest, e, rfl, he⟩ := ih tail.length (by omega) tail rfl
      exact ⟨c :: s, rest, e, by rw [encode_cons, List.append_assoc], he⟩

/-- `str::from_utf8` finds the text. -/
theorem fromUtf8_append (s : List Char) {rest : List UInt8} {e : Option Nat}
    (h : head rest = .error e) : fromUtf8 (encode s ++ rest) =
      if rest = [] then .ok s else .error ⟨(encode s).length, e⟩ := by
  rw [fromUtf8, validPrefix_encode s h]
  simp only [h, List.length_append, Nat.add_sub_cancel]

theorem fromUtf8_encode (s : List Char) : fromUtf8 (encode s) = .ok s := by
  simpa using @fromUtf8_append s [] none rfl

theorem lossy_encode (s : List Char) (rest : List UInt8) :
    lossy (encode s ++ rest) = s ++ lossy rest := by
  induction s with
  | nil => rfl
  | cons c s ih => rw [encode_cons, List.append_assoc, lossy_encodeChar, ih, List.cons_append]

/-- Bytes that begin no character are replaced one by one. -/
theorem lossy_of_lead_eq_none {bytes : List UInt8} (h : ∀ b ∈ bytes, lead b = none)
    (rest : List UInt8) :
    lossy (bytes ++ rest) = List.replicate bytes.length replacement ++ lossy rest := by
  induction bytes with
  | nil => rfl
  | cons b bytes ih =>
    have hhead := head_of_lead_eq_none (h b List.mem_cons_self) (bytes ++ rest)
    rw [List.cons_append, lossy, lossyFrom, hhead]
    show replacement :: lossy (bytes ++ rest) = _
    rw [ih fun x hx => h x (List.mem_cons_of_mem b hx)]
    rfl

/-- A part of a character at the end is replaced as a whole. -/
theorem Begins.lossy_eq {part : List UInt8} {s : List Char} (h : Begins part s) :
    lossy part = if part = [] then [] else [replacement] := by
  have hhead := h.head_eq
  cases part with
  | nil => rfl
  | cons b part => rw [lossy, lossyFrom, hhead, if_neg (List.cons_ne_nil b part)]

end Utf8
