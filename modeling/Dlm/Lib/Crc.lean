import Mathlib.Data.BitVec

/-!
# Reflected cyclic redundancy checks

A check of any width and polynomial, computed bit by bit.  The step of one bit
is linear, and a remainder whose lowest bits are clear is only shifted.  So the
steps of several bits are a table lookup for these bits and a shift of the
others.
-/

namespace Dlm.Crc

variable {width : Nat} {polynomial : BitVec width}

/-- The step of one bit, the lowest of the remainder. -/
def bitStep (polynomial remainder : BitVec width) : BitVec width :=
  if remainder.getLsbD 0 then (remainder >>> 1) ^^^ polynomial
  else remainder >>> 1

/-- The steps of several bits. -/
def bitSteps (polynomial : BitVec width) :
    Nat → BitVec width → BitVec width
  | 0, remainder => remainder
  | count + 1, remainder =>
      bitStep polynomial (bitSteps polynomial count remainder)

/-- The step of one byte of the data. -/
def byteStep (polynomial remainder : BitVec width) (byte : UInt8) :
    BitVec width :=
  bitSteps polynomial 8 (remainder ^^^ byte.toBitVec.setWidth width)

/-- The check of some bytes from an initial remainder, complemented at the
end. -/
def check (polynomial initial : BitVec width) (bytes : List UInt8) :
    BitVec width :=
  ~~~bytes.foldl (byteStep polynomial) initial

theorem bitStep_xor (left right : BitVec width) :
    bitStep polynomial (left ^^^ right) =
      bitStep polynomial left ^^^ bitStep polynomial right := by
  simp only [bitStep, BitVec.getLsbD_xor, BitVec.ushiftRight_xor_distrib]
  cases left.getLsbD 0 with
  | false =>
      cases right.getLsbD 0 with
      | false => rfl
      | true => exact BitVec.xor_assoc _ _ _
  | true =>
      cases right.getLsbD 0 with
      | false =>
          simp only [Bool.xor_false, if_true, Bool.false_eq_true, if_false]
          ac_rfl
      | true =>
          have cancel : (left >>> 1 ^^^ polynomial) ^^^
              (right >>> 1 ^^^ polynomial) =
              (left >>> 1 ^^^ right >>> 1) ^^^ (polynomial ^^^ polynomial) := by
            ac_rfl
          simp only [Bool.xor_true, Bool.not_true, Bool.false_eq_true,
            if_false, if_true]
          rw [cancel, BitVec.xor_self, BitVec.xor_zero]

theorem bitSteps_xor (count : Nat) (left right : BitVec width) :
    bitSteps polynomial count (left ^^^ right) =
      bitSteps polynomial count left ^^^ bitSteps polynomial count right := by
  induction count with
  | zero => rfl
  | succ count induction =>
      rw [bitSteps, induction, bitStep_xor]
      rfl

/-- Bits that are clear are only shifted out. -/
theorem bitSteps_of_clear {count : Nat} {remainder : BitVec width}
    (clear : ∀ place < count, remainder.getLsbD place = false) :
    bitSteps polynomial count remainder = remainder >>> count := by
  induction count with
  | zero => rw [bitSteps, BitVec.ushiftRight_zero]
  | succ count induction =>
      have lowest : (remainder >>> count).getLsbD 0 = false := by
        rw [BitVec.getLsbD_ushiftRight]
        exact clear count (Nat.lt_succ_self count)
      rw [bitSteps, induction fun place below =>
        clear place (Nat.lt_succ_of_lt below)]
      simp only [bitStep, lowest, Bool.false_eq_true, if_false]
      rw [BitVec.shiftRight_add]

/-- The lowest bits of a remainder. -/
def lowBits (count : Nat) (remainder : BitVec width) : BitVec width :=
  remainder &&& BitVec.ofNat width (2 ^ count - 1)

theorem getLsbD_lowBits (count : Nat) (remainder : BitVec width)
    (place : Nat) :
    (lowBits count remainder).getLsbD place =
      (remainder.getLsbD place && decide (place < count)) := by
  rw [lowBits, BitVec.getLsbD_and, BitVec.getLsbD_ofNat,
    Nat.testBit_two_pow_sub_one]
  by_cases inside : place < width
  · simp [inside]
  · rw [BitVec.getLsbD_of_ge remainder place (Nat.le_of_not_lt inside)]
    rfl

theorem lowBits_xor (count : Nat) (left right : BitVec width) :
    lowBits count (left ^^^ right) =
      lowBits count left ^^^ lowBits count right := by
  apply BitVec.eq_of_getLsbD_eq
  intro place _
  rw [getLsbD_lowBits, BitVec.getLsbD_xor, BitVec.getLsbD_xor,
    getLsbD_lowBits, getLsbD_lowBits, Bool.and_xor_distrib_right]

/-- The steps of several bits are those of the lowest bits, and a shift. -/
theorem bitSteps_eq_lookup (count : Nat) (remainder : BitVec width) :
    bitSteps polynomial count remainder =
      bitSteps polynomial count (lowBits count remainder) ^^^
        (remainder >>> count) := by
  have clear : ∀ place < count,
      (remainder ^^^ lowBits count remainder).getLsbD place = false := by
    intro place below
    rw [BitVec.getLsbD_xor, getLsbD_lowBits, decide_eq_true below,
      Bool.and_true, Bool.xor_self]
  have shifted : lowBits count remainder >>> count = BitVec.ofNat width 0 := by
    apply BitVec.eq_of_getLsbD_eq
    intro place _
    rw [BitVec.getLsbD_ushiftRight, getLsbD_lowBits]
    simp
  have split : remainder =
      lowBits count remainder ^^^ (remainder ^^^ lowBits count remainder) := by
    rw [BitVec.xor_comm remainder, ← BitVec.xor_assoc, BitVec.xor_self,
      BitVec.zero_xor]
  calc
    bitSteps polynomial count remainder =
        bitSteps polynomial count (lowBits count remainder ^^^
          (remainder ^^^ lowBits count remainder)) := by rw [← split]
    _ = bitSteps polynomial count (lowBits count remainder) ^^^
        ((remainder ^^^ lowBits count remainder) >>> count) := by
      rw [bitSteps_xor, bitSteps_of_clear clear]
    _ = bitSteps polynomial count (lowBits count remainder) ^^^
        (remainder >>> count) := by
      rw [BitVec.ushiftRight_xor_distrib, shifted, BitVec.xor_zero]

end Dlm.Crc
