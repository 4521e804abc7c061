import Gridded.Proofs.Binary.Conversion
import Gridded.Proofs.Number.Order
import Mathlib.Data.Nat.Bitwise

namespace Gridded

theorem xor_two_pow_sub_one {m p : Nat} (h : m < 2 ^ p) : m ^^^ (2 ^ p - 1) = 2 ^ p - 1 - m := by
  have := congrArg BitVec.toNat (BitVec.xor_allOnes (x := BitVec.ofNat p m))
  rwa [BitVec.toNat_xor, BitVec.toNat_not, BitVec.toNat_ofNat, BitVec.toNat_allOnes,
    Nat.mod_eq_of_lt h] at this

theorem two_pow_add_xor {m n p : Nat} (hm : m < 2 ^ p) (hn : n < 2 ^ p) :
    (2 ^ p + m) ^^^ n = 2 ^ p + (m ^^^ n) := by
  have hor := Nat.two_pow_add_eq_or_of_lt hm 1
  have hor' := Nat.two_pow_add_eq_or_of_lt (Nat.xor_lt_two_pow hm hn) 1
  rw [Nat.mul_one] at hor hor'
  rw [hor, hor']
  apply Nat.eq_of_testBit_eq
  intro i
  rw [Nat.testBit_xor, Nat.testBit_or, Nat.testBit_or, Nat.testBit_xor, Nat.testBit_two_pow]
  rcases eq_or_ne p i with rfl | hne
  · simp [Nat.testBit_lt_two_pow hn]
  · simp [hne]

namespace Binary

variable {f : Format} {x : Binary f}

/-- The word as a signed integer, with the bits below a set sign flipped. -/
def flipped (x : Binary f) : Int := (x.bits ^^^ x.bits.sshiftRight f.payload >>> 1).toInt

theorem msb_bits (x : Binary f) : x.bits.msb = x.negative := by
  rw [BitVec.msb_eq_decide]
  rfl

theorem flipped_of_not_negative (hx : x.negative = false) : x.flipped = x.magnitude := by
  have hmsb := x.msb_bits.trans hx
  have hzero : x.bits.sshiftRight f.payload >>> 1 = 0#_ := by
    apply BitVec.eq_of_toNat_eq
    rw [BitVec.sshiftRight_eq_of_msb_false hmsb, BitVec.toNat_ushiftRight, BitVec.toNat_ushiftRight,
      ← Nat.shiftRight_add, Nat.shiftRight_eq_div_pow]
    exact Nat.div_eq_of_lt x.bits.isLt
  rw [flipped, hzero, BitVec.xor_zero, BitVec.toInt_eq_toNat_of_msb hmsb]
  exact congrArg _ ((toNat_eq x).trans (by rw [hx]; rfl))

theorem flipped_of_negative (hx : x.negative = true) : x.flipped = -(x.magnitude : Int) - 1 := by
  have hmsb := x.msb_bits.trans hx
  have hlt := x.magnitude_lt
  have hwidth : 2 ^ f.width = 2 ^ f.payload * 2 := Nat.pow_succ ..
  have hnat : x.bits.toNat = 2 ^ f.payload + x.magnitude :=
    (toNat_eq x).trans (by rw [hx, if_pos rfl, Nat.add_comm])
  have hmask : (x.bits.sshiftRight f.payload >>> 1).toNat = 2 ^ f.payload - 1 := by
    have hsmall : 2 ^ f.width - 1 - x.bits.toNat < 2 ^ f.payload := by omega
    rw [BitVec.toNat_ushiftRight, BitVec.toNat_sshiftRight_of_msb_true hmsb,
      Nat.shiftRight_eq_div_pow, Nat.shiftRight_eq_div_pow, Nat.div_eq_of_lt hsmall]
    omega
  have hflip : (x.bits ^^^ x.bits.sshiftRight f.payload >>> 1).toNat =
      2 ^ f.payload + (2 ^ f.payload - 1 - x.magnitude) := by
    rw [BitVec.toNat_xor, hmask, hnat, ← xor_two_pow_sub_one hlt]
    exact two_pow_add_xor hlt (by omega)
  rw [flipped, BitVec.toInt_eq_toNat_cond, hflip, if_neg (by omega)]
  omega

theorem flipped_eq_key (x : Binary f) : x.flipped = x.key := by
  rw [key]
  split
  · next hx => exact flipped_of_negative hx
  · next hx => exact flipped_of_not_negative (Bool.eq_false_of_not_eq_true hx)

end Binary

end Gridded
