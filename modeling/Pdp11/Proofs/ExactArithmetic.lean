import Pdp11.Alu
import Pdp11.Proofs.StatusBits
import Mathlib.Algebra.Group.Int.Defs
import Mathlib.Algebra.Group.Nat.Defs

/-! The arithmetic primitives compute what they are named for. An operand is read as a number
in its own width, with a sign or without. A result is the exact number cut to that width.
Overflow and carry say whether the two readings of the exact number would have fitted. -/

namespace Pdp11

open StatusWord

namespace Width

/-- Number of bits of an operand. -/
def bits : Width → Nat
  | word => 16
  | byte => 8

/-- The bits of an operand that count in this width. -/
def cut (width : Width) (value : Word) : BitVec width.bits := value.setWidth width.bits

/-- An operand as a number without a sign. -/
def unsigned (width : Width) (value : Word) : Int := (width.cut value).toNat

/-- An operand as a number with a sign. -/
def signed (width : Width) (value : Word) : Int := (width.cut value).toInt

/-- Whether the number is one that a signed operand of this width can be. -/
def fits (width : Width) (number : Int) : Bool := -2 ^ (width.bits - 1) ≤ number && number < 2 ^ (width.bits - 1)

variable (width : Width) (value other : Word)

theorem bits_pos : 0 < width.bits := by cases width <;> decide

theorem bits_le : width.bits ≤ 16 := by cases width <;> decide

theorem natCast_power : ((2 ^ width.bits : Nat) : Int) = 2 ^ width.bits := Int.natCast_pow ..

theorem toNat_mask : width.mask.toNat = 2 ^ width.bits - 1 := by cases width <;> rfl

theorem toNat_signBit : width.signBit.toNat = 2 ^ (width.bits - 1) := by cases width <;> rfl

theorem toNat_maxPositive : width.maxPositive.toNat = 2 ^ (width.bits - 1) - 1 := by cases width <;> rfl

theorem signBit_eq : width.signBit = BitVec.twoPow 16 (width.bits - 1) := by cases width <;> rfl

theorem toNat_cut : (width.cut value).toNat = value.toNat % 2 ^ width.bits := BitVec.toNat_setWidth _ _

theorem cut_add : width.cut (value + other) = width.cut value + width.cut other :=
  BitVec.setWidth_add _ _ width.bits_le

theorem cut_sub : width.cut (value - other) = width.cut value - width.cut other := by
  refine BitVec.eq_sub_iff_add_eq.mpr ?_
  rw [← cut_add, BitVec.sub_add_cancel]

theorem cut_not : width.cut (~~~value) = ~~~width.cut value := BitVec.setWidth_not width.bits_le

theorem cut_and : width.cut (value &&& other) = width.cut value &&& width.cut other := BitVec.setWidth_and

theorem cut_xor : width.cut (value ^^^ other) = width.cut value ^^^ width.cut other := BitVec.setWidth_xor

theorem cut_mask : width.cut width.mask = BitVec.allOnes width.bits := by cases width <;> rfl

theorem cut_masked : width.cut (value &&& width.mask) = width.cut value := by
  rw [cut_and, cut_mask, BitVec.and_allOnes]

/-- Nothing of a masked operand lies outside its width. -/
theorem toNat_masked : (value &&& width.mask).toNat = (width.cut value).toNat := by
  rw [toNat_cut, BitVec.toNat_and, toNat_mask]
  exact Nat.and_two_pow_sub_one_eq_mod _ _

theorem masked_beq (constant : Word) :
    (value &&& width.mask == constant) = decide ((width.cut value).toNat = constant.toNat) := by
  rw [Bool.beq_eq_decide_eq, decide_eq_decide, ← BitVec.toNat_inj, toNat_masked]

theorem and_signBit_eq : value &&& width.signBit = if (width.cut value).msb then width.signBit else 0 := by
  rw [signBit_eq, BitVec.and_twoPow, cut, BitVec.msb_setWidth, decide_eq_true width.bits_pos, Bool.true_and]
  rfl

theorem and_signBit : (value &&& width.signBit != 0) = (width.cut value).msb := by
  have nonzero : (width.signBit != 0) = true := by cases width <;> decide
  rw [and_signBit_eq]
  cases (width.cut value).msb with
  | true => exact nonzero
  | false => rfl

theorem not_fits_iff (number : Int) :
    (!width.fits number) = true ↔ number < -2 ^ (width.bits - 1) ∨ (2 : Int) ^ (width.bits - 1) ≤ number := by
  simp only [fits, Bool.not_eq_true', Bool.and_eq_false_iff, decide_eq_false_iff_not, Int.not_le, Int.not_lt]

theorem not_fits_add (a b : BitVec width.bits) : (!width.fits (a.toInt + b.toInt)) = a.saddOverflow b := by
  rw [Bool.eq_iff_iff, not_fits_iff, BitVec.saddOverflow, Bool.or_eq_true, decide_eq_true_iff, decide_eq_true_iff]
  exact Or.comm

theorem not_fits_sub (a b : BitVec width.bits) : (!width.fits (a.toInt - b.toInt)) = a.ssubOverflow b := by
  rw [Bool.eq_iff_iff, not_fits_iff, BitVec.ssubOverflow, Bool.or_eq_true, decide_eq_true_iff, decide_eq_true_iff]
  exact Or.comm

end Width

/-- What recording a result in a status word comes to. The result is the number up to its width,
the codes tell its sign and whether it is zero, and nothing but the codes changes. -/
structure AluResult.Tells (result : AluResult) (width : Width) (before : StatusWord) (number : Int)
    (overflow carry : Bool) : Prop where
  value : (result.value.toNat : Int) = number % 2 ^ width.bits
  negative : (result.status width before).negative = result.value.getLsbD (width.bits - 1)
  zero : (result.status width before).zero = decide (result.value = 0)
  overflow : (result.status width before).overflow = overflow
  carry : (result.status width before).carry = carry
  others : SameOutside codeBits (result.status width before) before

/-- The same of a shift, which overflows when the sign that it gives is not the bit that it puts out. -/
def AluResult.Shifts (result : AluResult) (width : Width) (before : StatusWord) (number : Int) (out : Bool) : Prop :=
  result.Tells width before number (result.value.getLsbD (width.bits - 1) ^^ out) out

namespace Alu

section

variable {width : Width} {value : Word} {number : Int} {overflow carry : Bool} {before : StatusWord}

theorem result_negative (width : Width) (value : Word) :
    CodesUpdate.isNegative width (value &&& width.mask) = (value &&& width.mask).getLsbD (width.bits - 1) := by
  rw [CodesUpdate.isNegative, width.and_signBit, Width.cut, BitVec.msb_setWidth, decide_eq_true width.bits_pos,
    Bool.true_and]

theorem result_zero (width : Width) (value : Word) :
    CodesUpdate.isZero width (value &&& width.mask) = decide (value &&& width.mask = 0) := by
  rw [CodesUpdate.isZero, BitVec.and_assoc, BitVec.and_self]
  exact Bool.beq_eq_decide_eq _ _

theorem result_tells {update : CodesUpdate} (counted : ((width.cut value).toNat : Int) = number % 2 ^ width.bits)
    (recorded : ∀ result, update.apply width result before =
      before.setCodes (CodesUpdate.isNegative width result) (CodesUpdate.isZero width result) overflow carry) :
    (result width value update).Tells width before number overflow carry where
  value := by rw [result, width.toNat_masked, counted]
  negative := by
    rw [AluResult.status, result, recorded, negative_setCodes, result_negative]
  zero := by
    rw [AluResult.status, result, recorded, zero_setCodes, result_zero]
  overflow := by
    rw [AluResult.status, result, recorded, overflow_setCodes]
  carry := by
    rw [AluResult.status, result, recorded, carry_setCodes]
  others := CodesUpdate.apply_sameOutside _ _ _ _

theorem arithmetic_tells {overflows carries : Bool} (counted : ((width.cut value).toNat : Int) = number % 2 ^ width.bits)
    (overflowed : overflows = overflow) (carried : carries = carry) :
    (result width value (.arithmetic overflows carries)).Tells width before number overflow carry := by
  subst overflowed carried
  exact result_tells counted fun _ => rfl

theorem keepCarry_tells {overflows : Bool} (counted : ((width.cut value).toNat : Int) = number % 2 ^ width.bits)
    (overflowed : overflows = overflow) :
    (result width value (.keepCarry overflows)).Tells width before number overflow before.carry := by
  subst overflowed
  exact result_tells counted fun _ => rfl

end

variable (width : Width) (before : StatusWord) (dst src : Word) (carry : Bool)

theorem add_tells : (add width dst src).Tells width before ((width.cut dst).toNat + (width.cut src).toNat)
    (!width.fits ((width.cut dst).toInt + (width.cut src).toInt))
    ((2 : Int) ^ width.bits ≤ (width.cut dst).toNat + (width.cut src).toNat) := by
  refine arithmetic_tells ?_ ?_ ?_
  · rw [width.cut_masked, width.cut_add, width.cut_masked, width.cut_masked, BitVec.toNat_add]
    exact Int.natCast_emod ..
  · rw [width.and_signBit, width.not_fits_add, BitVec.saddOverflow_eq]
    simp only [width.cut_add, width.cut_and, width.cut_not, width.cut_xor, width.cut_mask, BitVec.and_allOnes,
      BitVec.msb_and, BitVec.msb_not, BitVec.msb_xor, width.bits_pos, decide_true, Bool.true_and]
    cases (width.cut dst).msb <;> cases (width.cut src).msb <;> simp
  · have positive := Nat.two_pow_pos width.bits
    rw [width.toNat_masked, width.toNat_masked, width.toNat_mask, decide_eq_decide, ← width.natCast_power]
    omega

theorem sub_tells : (sub width dst src).Tells width before ((width.cut dst).toNat - (width.cut src).toNat)
    (!width.fits ((width.cut dst).toInt - (width.cut src).toInt))
    ((width.cut dst).toNat - (width.cut src).toNat < (0 : Int)) := by
  refine arithmetic_tells ?_ ?_ ?_
  · have bounded := (width.cut src).isLt
    rw [width.cut_masked, width.cut_sub, width.cut_masked, width.cut_masked, BitVec.toNat_sub]
    generalize (width.cut dst).toNat = a, (width.cut src).toNat = b at *
    cases width <;> simp only [Width.bits] at * <;> omega
  · rw [width.and_signBit, width.not_fits_sub, BitVec.ssubOverflow_eq]
    simp only [width.cut_sub, width.cut_and, width.cut_xor, width.cut_mask, BitVec.and_allOnes,
      BitVec.msb_and, BitVec.msb_xor]
    cases (width.cut dst).msb <;> cases (width.cut src).msb <;> simp
  · simp only [BitVec.lt_def, width.toNat_masked, decide_eq_decide]
    omega

theorem toNat_bit (on : Bool) : (bit on).toNat = on.toNat := by cases on <;> rfl

/-- A test for one value that counts only with the carry set. -/
theorem carry_and_masked_beq (constant : Word) :
    (carry && dst &&& width.mask == constant) = decide (carry.toNat = 1 ∧ (width.cut dst).toNat = constant.toNat) := by
  rw [width.masked_beq, Bool.decide_and]
  cases carry <;> rfl

theorem toNat_add_bit : ((width.cut ((dst &&& width.mask) + bit carry)).toNat : Int) =
    ((width.cut dst).toNat + carry.toNat) % 2 ^ width.bits := by
  have bounded := (width.cut dst).isLt
  have digit := carry.toNat_le
  rw [width.toNat_cut, BitVec.toNat_add, width.toNat_masked, toNat_bit]
  generalize (width.cut dst).toNat = a, carry.toNat = c at *
  cases width <;> simp only [Width.bits] at * <;> omega

theorem toNat_sub_bit : ((width.cut ((dst &&& width.mask) - bit carry)).toNat : Int) =
    ((width.cut dst).toNat - carry.toNat) % 2 ^ width.bits := by
  have bounded := (width.cut dst).isLt
  have digit := carry.toNat_le
  rw [width.toNat_cut, BitVec.toNat_sub, width.toNat_masked, toNat_bit]
  generalize (width.cut dst).toNat = a, carry.toNat = c at *
  cases width <;> simp only [Width.bits] at * <;> omega

/-- Only the greatest positive number has no successor. -/
theorem add_bit_overflows : (carry && dst &&& width.mask == width.maxPositive) =
    !width.fits ((width.cut dst).toInt + carry.toNat) := by
  have bounded := (width.cut dst).isLt
  have digit := carry.toNat_le
  rw [carry_and_masked_beq, width.toNat_maxPositive, Bool.eq_iff_iff, decide_eq_true_iff, width.not_fits_iff,
    BitVec.toInt_eq_toNat_cond]
  generalize (width.cut dst).toNat = a, carry.toNat = c at *
  cases width <;> simp only [Width.bits] at * <;> omega

/-- Only the least negative number has no predecessor. -/
theorem sub_bit_overflows : (carry && dst &&& width.mask == width.signBit) =
    !width.fits ((width.cut dst).toInt - carry.toNat) := by
  have bounded := (width.cut dst).isLt
  have digit := carry.toNat_le
  rw [carry_and_masked_beq, width.toNat_signBit, Bool.eq_iff_iff, decide_eq_true_iff, width.not_fits_iff,
    BitVec.toInt_eq_toNat_cond]
  generalize (width.cut dst).toNat = a, carry.toNat = c at *
  cases width <;> simp only [Width.bits] at * <;> omega

theorem inc_tells : (inc width dst).Tells width before ((width.cut dst).toNat + 1)
    (!width.fits ((width.cut dst).toInt + 1)) before.carry :=
  keepCarry_tells (toNat_add_bit width dst true) (add_bit_overflows width dst true)

theorem dec_tells : (dec width dst).Tells width before ((width.cut dst).toNat - 1)
    (!width.fits ((width.cut dst).toInt - 1)) before.carry :=
  keepCarry_tells (toNat_sub_bit width dst true) (sub_bit_overflows width dst true)

theorem adc_tells : (adc width dst carry).Tells width before ((width.cut dst).toNat + carry.toNat)
    (!width.fits ((width.cut dst).toInt + carry.toNat)) ((2 : Int) ^ width.bits ≤ (width.cut dst).toNat + carry.toNat) := by
  refine arithmetic_tells (toNat_add_bit width dst carry) (add_bit_overflows width dst carry) ?_
  have bounded := (width.cut dst).isLt
  have digit := carry.toNat_le
  rw [carry_and_masked_beq, width.toNat_mask, decide_eq_decide, ← width.natCast_power]
  omega

theorem sbc_tells : (sbc width dst carry).Tells width before ((width.cut dst).toNat - carry.toNat)
    (!width.fits ((width.cut dst).toInt - carry.toNat)) ((width.cut dst).toNat - carry.toNat < (0 : Int)) := by
  refine arithmetic_tells (toNat_sub_bit width dst carry) (sub_bit_overflows width dst carry) ?_
  have digit := carry.toNat_le
  rw [carry_and_masked_beq, decide_eq_decide, show (0 : Word).toNat = 0 from rfl]
  omega

theorem neg_tells : (neg width dst).Tells width before (-(width.cut dst).toNat)
    (!width.fits (-(width.cut dst).toInt)) (-(width.cut dst).toNat < (0 : Int)) := by
  have bounded := (width.cut dst).isLt
  have negated : (width.cut (0 - dst)).toNat = (2 ^ width.bits - (width.cut dst).toNat) % 2 ^ width.bits := by
    rw [width.cut_sub, BitVec.toNat_sub, width.toNat_cut 0, show (0 : Word).toNat = 0 from rfl, Nat.zero_mod,
      Nat.add_zero]
  refine arithmetic_tells ?_ ?_ ?_
  · rw [width.cut_masked, negated]
    generalize (width.cut dst).toNat = a at *
    cases width <;> simp only [Width.bits] at * <;> omega
  · rw [width.masked_beq, width.toNat_signBit, negated, Bool.eq_iff_iff, decide_eq_true_iff, width.not_fits_iff,
      BitVec.toInt_eq_toNat_cond]
    generalize (width.cut dst).toNat = a at *
    cases width <;> simp only [Width.bits] at * <;> omega
  · rw [bne, width.masked_beq, negated, ← decide_not, decide_eq_decide, show (0 : Word).toNat = 0 from rfl]
    generalize (width.cut dst).toNat = a at *
    cases width <;> simp only [Width.bits] at * <;> omega

theorem shifted_shifts {value : Word} {number : Int} {out : Bool}
    (counted : ((width.cut value).toNat : Int) = number % 2 ^ width.bits) :
    (shifted width value out).Shifts width before number out := by
  refine arithmetic_tells counted ?_ rfl
  change _ = ((value &&& width.mask).getLsbD (width.bits - 1) ^^ out)
  rw [← result_negative, CodesUpdate.isNegative, CodesUpdate.isNegative, width.and_signBit, width.and_signBit,
    width.cut_masked]

theorem masked_and_one : (dst &&& width.mask &&& 1 != 0) = (width.cut dst).getLsbD 0 := by
  have inside : (width.mask &&& 1 : Word) = 1 := by cases width <;> rfl
  rw [BitVec.and_assoc, inside, show (1 : Word) = BitVec.twoPow 16 0 from rfl, BitVec.and_twoPow, Width.cut,
    BitVec.getLsbD_setWidth, decide_eq_true width.bits_pos, Bool.true_and]
  cases dst.getLsbD 0 <;> rfl

/-- A shift to the right lets a bit in at the top. -/
theorem toNat_shiftRight_or (top : Bool) :
    ((dst &&& width.mask) >>> 1 ||| (if top then width.signBit else 0)).toNat =
      (width.cut dst).toNat / 2 + top.toNat * 2 ^ (width.bits - 1) := by
  have bounded := (width.cut dst).isLt
  have half : (width.cut dst).toNat / 2 < 2 ^ (width.bits - 1) := by
    cases width <;> simp only [Width.bits] at * <;> omega
  have entering : (if top then width.signBit else 0).toNat = 2 ^ (width.bits - 1) * top.toNat := by
    cases top with
    | true => rw [if_pos rfl, width.toNat_signBit, Bool.toNat_true, Nat.mul_one]
    | false => rfl
  rw [BitVec.toNat_or, BitVec.toNat_ushiftRight, width.toNat_masked, entering, Nat.shiftRight_eq_div_pow, Nat.or_comm,
    ← Nat.two_pow_add_eq_or_of_lt half, Nat.add_comm, Nat.mul_comm]

theorem ror_shifts : (ror width dst carry).Shifts width before
    ((width.cut dst).toNat / 2 + carry.toNat * 2 ^ (width.bits - 1)) ((width.cut dst).getLsbD 0) := by
  rw [ror, masked_and_one]
  refine shifted_shifts width before ?_
  rw [width.toNat_cut, toNat_shiftRight_or]
  push_cast
  rfl

theorem asr_shifts : (asr width dst).Shifts width before ((width.cut dst).toInt / 2) ((width.cut dst).getLsbD 0) := by
  have bounded := (width.cut dst).isLt
  have sign := BitVec.msb_eq_decide (width.cut dst)
  rw [asr, masked_and_one]
  refine shifted_shifts width before ?_
  rw [width.toNat_cut, width.and_signBit_eq, width.cut_masked, toNat_shiftRight_or, BitVec.toInt_eq_msb_cond]
  generalize (width.cut dst).toNat = a, (width.cut dst).msb = top at *
  cases top with
  | true =>
    have high := decide_eq_true_iff.mp sign.symm
    rw [if_pos rfl, Bool.toNat_true]
    cases width <;> simp only [Width.bits] at * <;> omega
  | false =>
    rw [if_neg Bool.false_ne_true, Bool.toNat_false]
    cases width <;> simp only [Width.bits] at * <;> omega

/-- A shift to the left lets a bit in at the bottom. -/
theorem toNat_shiftLeft_or : ((dst &&& width.mask) <<< 1 ||| bit carry).toNat =
    2 * ((width.cut dst).toNat % 2 ^ 15) + carry.toNat := by
  have shifted : ((dst &&& width.mask) <<< 1).toNat = 2 ^ 1 * ((width.cut dst).toNat % 2 ^ 15) := by
    rw [BitVec.toNat_shiftLeft, width.toNat_masked, Nat.shiftLeft_eq]
    omega
  have digit : carry.toNat < 2 ^ 1 := Nat.lt_succ_of_le carry.toNat_le
  rw [BitVec.toNat_or, shifted, toNat_bit, ← Nat.two_pow_add_eq_or_of_lt digit]

theorem rol_shifts : (rol width dst carry).Shifts width before
    (2 * (width.cut dst).toNat + carry.toNat) (width.cut dst).msb := by
  rw [rol, width.and_signBit, width.cut_masked]
  refine shifted_shifts width before ?_
  rw [width.toNat_cut, toNat_shiftLeft_or]
  cases width <;> simp only [Width.bits] <;> omega

theorem asl_eq_rol : asl width dst = rol width dst false := by
  change shifted width _ _ = shifted width (_ ||| 0) _
  rw [show ∀ value : Word, value ||| 0 = value from fun _ => BitVec.or_zero]

theorem asl_shifts : (asl width dst).Shifts width before (2 * (width.cut dst).toNat) (width.cut dst).msb := by
  have rotated := rol_shifts width before dst false
  rw [← asl_eq_rol, Bool.toNat_false, Int.natCast_zero, Int.add_zero] at rotated
  exact rotated

/-- Doubling overflows exactly when the sign changes. -/
theorem asl_overflow : ((asl width dst).status width before).overflow = !width.fits (2 * (width.cut dst).toInt) := by
  have doubled : width.cut ((dst &&& width.mask) <<< 1) = width.cut dst + width.cut dst := by
    have twice : (dst &&& width.mask) <<< 1 = (dst &&& width.mask) + (dst &&& width.mask) := by
      apply BitVec.eq_of_toNat_eq
      rw [BitVec.toNat_shiftLeft, BitVec.toNat_add, Nat.shiftLeft_eq]
      omega
    rw [twice, width.cut_add, width.cut_masked]
  have sign : (asl width dst).value.getLsbD (width.bits - 1) = (width.cut dst + width.cut dst).msb := by
    change ((dst &&& width.mask) <<< 1 &&& width.mask).getLsbD (width.bits - 1) = _
    rw [← result_negative, CodesUpdate.isNegative, width.and_signBit, width.cut_masked, doubled]
  rw [(asl_shifts width before dst).overflow, sign, Int.two_mul, width.not_fits_add, BitVec.saddOverflow_eq]
  cases (width.cut dst).msb <;> simp

/-- Every primitive yields the exact number up to its width. An operand is read without sign
for the result and for carry, which is set when the sum or the difference leaves that range,
and with its sign for overflow, which is set when the signed result does not fit. INC and DEC
leave carry alone. A shift puts the bit that it drops into carry. -/
theorem primitives_exact :
    (add width dst src).Tells width before (width.unsigned dst + width.unsigned src)
      (!width.fits (width.signed dst + width.signed src)) (2 ^ width.bits ≤ width.unsigned dst + width.unsigned src) ∧
    (sub width dst src).Tells width before (width.unsigned dst - width.unsigned src)
      (!width.fits (width.signed dst - width.signed src)) (width.unsigned dst - width.unsigned src < 0) ∧
    (inc width dst).Tells width before (width.unsigned dst + 1) (!width.fits (width.signed dst + 1)) before.carry ∧
    (dec width dst).Tells width before (width.unsigned dst - 1) (!width.fits (width.signed dst - 1)) before.carry ∧
    (neg width dst).Tells width before (-width.unsigned dst) (!width.fits (-width.signed dst)) (-width.unsigned dst < 0) ∧
    (adc width dst carry).Tells width before (width.unsigned dst + carry.toNat)
      (!width.fits (width.signed dst + carry.toNat)) (2 ^ width.bits ≤ width.unsigned dst + carry.toNat) ∧
    (sbc width dst carry).Tells width before (width.unsigned dst - carry.toNat)
      (!width.fits (width.signed dst - carry.toNat)) (width.unsigned dst - carry.toNat < 0) ∧
    (ror width dst carry).Shifts width before (width.unsigned dst / 2 + carry.toNat * 2 ^ (width.bits - 1))
      ((width.cut dst).getLsbD 0) ∧
    (rol width dst carry).Shifts width before (2 * width.unsigned dst + carry.toNat) (width.cut dst).msb ∧
    (asr width dst).Shifts width before (width.signed dst / 2) ((width.cut dst).getLsbD 0) ∧
    (asl width dst).Shifts width before (2 * width.unsigned dst) (width.cut dst).msb ∧
    ((asl width dst).status width before).overflow = !width.fits (2 * width.signed dst) :=
  ⟨add_tells .., sub_tells .., inc_tells .., dec_tells .., neg_tells .., adc_tells .., sbc_tells .., ror_shifts ..,
    rol_shifts .., asr_shifts .., asl_shifts .., asl_overflow ..⟩

end Alu
end Pdp11
