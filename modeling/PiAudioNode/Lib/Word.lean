import Mathlib

/-! Octets and the big-endian words read from them. -/
namespace PiAudioNode.Lib

instance instLinearOrderBitVec (n : Nat) : LinearOrder (BitVec n) := .ofStd (BitVec n)

abbrev Byte := BitVec 8
abbrev Bytes := List Byte

/-- Octet at an offset. Callers check the length first. -/
def byteAt (p : Bytes) (i : Nat) : Byte := p.getD i 0

def get16 (p : Bytes) (i : Nat) : BitVec 16 := byteAt p i ++ byteAt p (i + 1)
def get32 (p : Bytes) (i : Nat) : BitVec 32 := get16 p i ++ get16 p (i + 2)

/-- Counting on by one more. -/
theorem add_ofNat_add_one {n : Nat} (x : BitVec n) (k : Nat) :
    x + BitVec.ofNat n k + 1 = x + BitVec.ofNat n (k + 1) := by
  rw [BitVec.ofNat_add, ← BitVec.add_assoc]
  rfl

/-- The word a signed number of counts away. -/
def shift {n : Nat} (x : BitVec n) (k : Int) : BitVec n := x + BitVec.ofInt n k

@[simp] theorem shift_zero {n : Nat} (x : BitVec n) : shift x 0 = x := by
  simp [shift]

theorem shift_shift {n : Nat} (x : BitVec n) (j k : Int) : shift (shift x j) k = shift x (j + k) := by
  rw [shift, shift, shift, BitVec.ofInt_add, BitVec.add_assoc]

theorem add_one_eq_shift {n : Nat} (x : BitVec n) : x + 1 = shift x 1 := by
  simp [shift]

theorem add_ofNat_eq_shift {n : Nat} (x : BitVec n) (k : Nat) : x + BitVec.ofNat n k = shift x k := by
  rw [shift, BitVec.ofInt_natCast]

theorem shift_inj {n : Nat} (x : BitVec n) (j k : Int) : shift x j = shift x k ↔ (j - k) % 2 ^ n = 0 := by
  rw [shift, shift, BitVec.add_right_inj, ← BitVec.toNat_inj, BitVec.toNat_ofInt, BitVec.toNat_ofInt,
    ← Int.emod_eq_emod_iff_emod_sub_eq_zero]
  have hpos : ((2 ^ n : Nat) : Int) ≠ 0 := by exact_mod_cast (Nat.two_pow_pos n).ne'
  have hj := Int.emod_nonneg j hpos
  have hk := Int.emod_nonneg k hpos
  push_cast at hj hk ⊢
  omega

end PiAudioNode.Lib
