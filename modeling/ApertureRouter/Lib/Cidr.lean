import Mathlib.Algebra.Group.Nat.Defs
import Mathlib.Data.Nat.Basic

/-!
# Blocks of addresses

Addresses are bit vectors, and a block holds those that begin like its base.

* `contains_append`, `contains_whole`: a block of a composed address, by its first part or as a
  whole.
* `contains_iff_div`, `contains_iff_mask`: the arithmetic and the bitwise test.
-/

namespace ApertureRouter

/-- The block `base/len` of addresses of `width` bits. -/
structure Cidr (width : Nat) where
  base : BitVec width
  len : Nat
  len_le : len ≤ width

namespace Cidr

/-! ## Composed bit vectors -/

/-- The number of a composed bit vector. -/
theorem toNat_append {m n : Nat} (hi : BitVec m) (lo : BitVec n) :
    (hi ++ lo).toNat = hi.toNat * 2 ^ n + lo.toNat := by
  rw [BitVec.toNat_append, ← Nat.shiftLeft_add_eq_or_of_lt lo.isLt, Nat.shiftLeft_eq]

theorem append_inj {m n : Nat} {hi hi' : BitVec m} {lo lo' : BitVec n} :
    hi ++ lo = hi' ++ lo' ↔ hi = hi' ∧ lo = lo' := by
  constructor
  · intro h
    have hlo : lo.toNat = lo'.toNat := by
      have hmod := congrArg (fun x => x.toNat % 2 ^ n) h
      simpa only [toNat_append, Nat.mul_add_mod', Nat.mod_eq_of_lt lo.isLt,
        Nat.mod_eq_of_lt lo'.isLt] using hmod
    obtain rfl := BitVec.eq_of_toNat_eq hlo
    exact ⟨(BitVec.append_left_inj lo).mp h, rfl⟩
  · rintro ⟨rfl, rfl⟩
    rfl

/-! ## Membership -/

variable {width : Nat}

def Contains (block : Cidr width) (addr : BitVec width) : Prop :=
  addr >>> (width - block.len) = block.base >>> (width - block.len)

instance (block : Cidr width) (addr : BitVec width) : Decidable (block.Contains addr) :=
  inferInstanceAs (Decidable (_ = _))

theorem contains_iff_div {block : Cidr width} {addr : BitVec width} :
    block.Contains addr ↔ addr.toNat / 2 ^ (width - block.len) =
      block.base.toNat / 2 ^ (width - block.len) := by
  rw [Contains, ← BitVec.toNat_inj, BitVec.toNat_ushiftRight, BitVec.toNat_ushiftRight,
    Nat.shiftRight_eq_div_pow, Nat.shiftRight_eq_div_pow]

/-- The first bits are what a mask lets through. -/
theorem contains_iff_mask {block : Cidr width} {addr : BitVec width} :
    block.Contains addr ↔ addr &&& BitVec.allOnes width <<< (width - block.len) =
      block.base &&& BitVec.allOnes width <<< (width - block.len) := by
  rw [← BitVec.shiftLeft_ushiftRight, ← BitVec.shiftLeft_ushiftRight, contains_iff_div]
  constructor
  · intro h
    have hshift : addr >>> (width - block.len) = block.base >>> (width - block.len) := by
      rw [← contains_iff_div] at h
      exact h
    rw [hshift]
  · intro h
    have hmul : addr.toNat / 2 ^ (width - block.len) * 2 ^ (width - block.len) =
        block.base.toNat / 2 ^ (width - block.len) * 2 ^ (width - block.len) := by
      have hnat := congrArg BitVec.toNat h
      simp only [BitVec.toNat_shiftLeft, BitVec.toNat_ushiftRight, Nat.shiftRight_eq_div_pow,
        Nat.shiftLeft_eq] at hnat
      rwa [Nat.mod_eq_of_lt (Nat.lt_of_le_of_lt (Nat.div_mul_le_self _ _) addr.isLt),
        Nat.mod_eq_of_lt (Nat.lt_of_le_of_lt (Nat.div_mul_le_self _ _) block.base.isLt)] at hnat
    exact Nat.eq_of_mul_eq_mul_right (Nat.two_pow_pos _) hmul

/-- A block of full length holds one address. -/
theorem contains_whole {base addr : BitVec width} :
    (Cidr.mk base width (Nat.le_refl width)).Contains addr ↔ addr = base := by
  rw [contains_iff_div, Nat.sub_self, Nat.pow_zero, Nat.div_one, Nat.div_one, BitVec.toNat_inj]

/-- A block that ends in the first part of an address is a block of that part. -/
theorem contains_append {m n len : Nat} {hi hi' : BitVec m} {lo lo' : BitVec n} (hlen : len ≤ m) :
    (Cidr.mk (hi' ++ lo') len (Nat.le_add_right_of_le hlen)).Contains (hi ++ lo) ↔
      (Cidr.mk hi' len hlen).Contains hi := by
  have hdiv : ∀ (x : BitVec m) (y : BitVec n),
      (x ++ y).toNat / 2 ^ (m + n - len) = x.toNat / 2 ^ (m - len) := by
    intro x y
    rw [toNat_append, show m + n - len = n + (m - len) by omega, Nat.pow_add,
      ← Nat.div_div_eq_div_mul, Nat.mul_comm, Nat.mul_add_div (Nat.two_pow_pos n),
      Nat.div_eq_of_lt y.isLt, Nat.add_zero]
  rw [contains_iff_div, contains_iff_div]
  dsimp only
  rw [hdiv, hdiv]

end Cidr

end ApertureRouter
