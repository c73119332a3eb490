import Mathlib.Data.Nat.Digits.Defs
import Mathlib.Tactic.LinearCombination
import Pdp11.Microcode.Execute
import Pdp11.Proofs.ExactArithmetic

/-! Arithmetic on numbers of several words. A program works through such a number one operand
at a time, and what one operation leaves in the carry the next one takes from there. Sums and
differences, and shifts to the left, go from the lowest operand up. Shifts to the right go from
the highest one down. -/

namespace Pdp11

namespace Width

/-- Operands as the digits of one number, the lowest first. -/
def number (width : Width) (values : List Word) : Nat :=
  Nat.ofDigits (2 ^ width.bits) (values.map fun value => (width.cut value).toNat)

/-- The same number read with a sign. -/
def signedNumber (width : Width) (values : List Word) : Int :=
  Int.bmod (width.number values) (2 ^ (width.bits * values.length))

variable (width : Width) (value : Word) (values rest : List Word)

theorem number_nil : width.number [] = 0 := rfl

theorem number_cons : (width.number (value :: rest) : Int) = width.unsigned value + 2 ^ width.bits * width.number rest := by
  rw [number, List.map_cons, Nat.ofDigits_cons, Nat.cast_add, Nat.cast_mul, Nat.cast_pow]
  rfl

/-- The highest operand comes first where a list is reversed. -/
theorem number_reverse_cons : (width.number (value :: rest).reverse : Int) =
    width.number rest.reverse + 2 ^ (width.bits * rest.length) * width.unsigned value := by
  rw [number, List.reverse_cons, List.map_append, Nat.ofDigits_append, List.length_map, List.length_reverse,
    ← Nat.pow_mul, List.map_singleton, Nat.ofDigits_singleton, Nat.cast_add, Nat.cast_mul, Nat.cast_pow]
  rfl

theorem number_lt : width.number values < 2 ^ (width.bits * values.length) := by
  have bounded := Nat.ofDigits_lt_base_pow_length (b := 2 ^ width.bits)
    (l := values.map fun value => (width.cut value).toNat) (Nat.one_lt_two_pow width.bits_pos.ne') (by
      intro digit inside
      obtain ⟨value, _, rfl⟩ := List.mem_map.mp inside
      exact (width.cut value).isLt)
  rwa [List.length_map, ← Nat.pow_mul] at bounded

theorem signedNumber_eq : width.signedNumber values = width.number values -
    if 2 ^ (width.bits * values.length) ≤ 2 * width.number values then 2 ^ (width.bits * values.length) else 0 := by
  have bounded : (width.number values : Int) < 2 ^ (width.bits * values.length) := by
    exact_mod_cast width.number_lt values
  rw [signedNumber, Int.bmod_def, Int.natCast_pow, Int.emod_eq_of_lt (Int.natCast_nonneg _) (by exact_mod_cast bounded)]
  by_cases negative : 2 ^ (width.bits * values.length) ≤ 2 * width.number values
  · have large : (2 : Int) ^ (width.bits * values.length) ≤ 2 * width.number values := by exact_mod_cast negative
    rw [if_pos negative, if_neg]
    · rfl
    · omega
  · have small : 2 * width.number values < (2 : Int) ^ (width.bits * values.length) := by
      exact_mod_cast Nat.lt_of_not_le negative
    rw [if_neg negative, if_pos]
    · omega
    · omega

/-- The sign of the number is the sign of its highest operand. -/
theorem msb_iff_number : (width.cut value).msb = true ↔
    2 ^ (width.bits * (rest.length + 1)) ≤ 2 * width.number (value :: rest).reverse := by
  have low : (width.number rest.reverse : Int) < 2 ^ (width.bits * rest.length) := by
    have bounded := width.number_lt rest.reverse
    rw [List.length_reverse] at bounded
    exact_mod_cast bounded
  have split := width.number_reverse_cons value rest
  have radix : (2 : Int) ^ (width.bits * (rest.length + 1)) =
      2 * (2 ^ (width.bits * rest.length) * 2 ^ (width.bits - 1)) := by
    rw [Nat.mul_succ, Int.pow_add, ← Int.mul_left_comm, ← Int.pow_succ', Nat.sub_add_cancel width.bits_pos]
  have cast : 2 ^ (width.bits * (rest.length + 1)) ≤ 2 * width.number (value :: rest).reverse ↔
      (2 : Int) ^ (width.bits * (rest.length + 1)) ≤ 2 * width.number (value :: rest).reverse := by
    exact_mod_cast Iff.rfl
  rw [cast, radix, split, BitVec.msb_eq_decide, decide_eq_true_iff, unsigned]
  have place : (0 : Int) ≤ 2 ^ (width.bits * rest.length) := by positivity
  constructor
  · intro high
    have scaled := Int.mul_le_mul_of_nonneg_left (show (2 : Int) ^ (width.bits - 1) ≤ (width.cut value).toNat by
      exact_mod_cast high) place
    omega
  · intro reaches
    by_contra short
    have scaled := Int.mul_le_mul_of_nonneg_left (show ((width.cut value).toNat : Int) + 1 ≤ 2 ^ (width.bits - 1) by
      exact_mod_cast Nat.lt_of_not_le short) place
    rw [Int.mul_add, Int.mul_one] at scaled
    omega

end Width

namespace Alu

/-- An operation that lets a bit in at the bottom of its operand and puts one out at the top.
With the bit put out, the result is the operand times `factor` and the bit let in; both bits
count as borrowed where `unit` is negative. -/
def Raises (width : Width) (op : UnaryOp) (factor unit : Int) (entering : StatusWord → Bool) : Prop :=
  ∀ value before,
    width.unsigned (op.compute width value before.carry).value +
        unit * (2 ^ width.bits * ((op.compute width value before.carry).status width before).carry.toNat) =
      factor * width.unsigned value + unit * (entering before).toNat

/-- An operation that lets a bit in at the top of its operand and puts one out at the bottom. -/
def Lowers (width : Width) (op : UnaryOp) (entering : Word → StatusWord → Bool) : Prop :=
  ∀ value before,
    2 * width.unsigned (op.compute width value before.carry).value +
        ((op.compute width value before.carry).status width before).carry.toNat =
      width.unsigned value + 2 ^ width.bits * (entering value before).toNat

section

variable (width : Width) (op : UnaryOp) (value : Word) (carry : Bool)

theorem compute_masked : (op.compute width value carry).value = (op.compute width value carry).value &&& width.mask := by
  have masked : ∀ value : Word, value &&& width.mask = value &&& width.mask &&& width.mask := by
    intro value
    rw [BitVec.and_assoc, BitVec.and_self]
  cases op <;> exact masked _

theorem unsigned_compute : width.unsigned (op.compute width value carry).value = (op.compute width value carry).value.toNat := by
  rw [Width.unsigned, compute_masked, width.toNat_masked, ← compute_masked]

/-- The bit that is put out is what the exact result has above the width. -/
theorem raises_of_tells {width : Width} {op : UnaryOp} {factor unit : Int} {entering : StatusWord → Bool}
    (told : ∀ value before, ∃ overflow out,
      (op.compute width value before.carry).Tells width before
        (factor * width.unsigned value + unit * (entering before).toNat) overflow out ∧
      (factor * width.unsigned value + unit * (entering before).toNat) / 2 ^ width.bits = unit * out.toNat) :
    Raises width op factor unit entering := by
  intro value before
  obtain ⟨overflow, out, tells, above⟩ := told value before
  rw [unsigned_compute, tells.value, tells.carry, Int.mul_left_comm, ← above]
  exact Int.emod_add_mul_ediv _ _

private theorem toNat_decide (asked : Prop) [Decidable asked] : ((decide asked).toNat : Int) = if asked then 1 else 0 := by
  by_cases holds : asked
  · rw [decide_eq_true holds, if_pos holds]
    rfl
  · rw [decide_eq_false holds, if_neg holds]
    rfl

theorem adc_raises : Raises width .adc 1 1 StatusWord.carry := by
  apply raises_of_tells
  intro value before
  have bounded := (width.cut value).isLt
  have digit := before.carry.toNat_le
  have tells := adc_tells width before value before.carry
  rw [Int.one_mul, Int.one_mul]
  refine ⟨_, _, tells, ?_⟩
  rw [Width.unsigned, Int.one_mul]
  generalize (width.cut value).toNat = a, before.carry.toNat = c at *
  rw [toNat_decide]
  cases width <;> simp only [Width.bits] at * <;> omega

theorem sbc_raises : Raises width .sbc 1 (-1) StatusWord.carry := by
  apply raises_of_tells
  intro value before
  have bounded := (width.cut value).isLt
  have digit := before.carry.toNat_le
  have tells := sbc_tells width before value before.carry
  rw [Int.one_mul, Int.neg_one_mul, ← Int.sub_eq_add_neg]
  refine ⟨_, _, tells, ?_⟩
  rw [Width.unsigned, Int.neg_one_mul]
  generalize (width.cut value).toNat = a, before.carry.toNat = c at *
  rw [toNat_decide]
  cases width <;> simp only [Width.bits] at * <;> omega

theorem double_above : (2 * width.unsigned value + carry.toNat) / 2 ^ width.bits = (width.cut value).msb.toNat := by
  have bounded := (width.cut value).isLt
  have digit := carry.toNat_le
  rw [Width.unsigned, BitVec.msb_eq_decide]
  generalize (width.cut value).toNat = a, carry.toNat = c at *
  rw [toNat_decide]
  cases width <;> simp only [Width.bits] at * <;> omega

theorem rol_raises : Raises width .rol 2 1 StatusWord.carry := by
  apply raises_of_tells
  intro value before
  rw [Int.one_mul]
  refine ⟨_, _, rol_shifts width before value before.carry, ?_⟩
  rw [Int.one_mul]
  exact double_above width value before.carry

theorem asl_raises : Raises width .asl 2 1 fun _ => false := by
  apply raises_of_tells
  intro value before
  have rotated := rol_shifts width before value false
  rw [← asl_eq_rol] at rotated
  rw [Int.one_mul]
  refine ⟨_, _, rotated, ?_⟩
  rw [Int.one_mul]
  exact double_above width value false

theorem double_halved : 2 * ((width.unsigned value / 2 + carry.toNat * 2 ^ (width.bits - 1)) % 2 ^ width.bits) +
    ((width.cut value).getLsbD 0).toNat = width.unsigned value + 2 ^ width.bits * carry.toNat := by
  have bounded := (width.cut value).isLt
  have digit := carry.toNat_le
  have low : (width.cut value).getLsbD 0 = decide ((width.cut value).toNat % 2 = 1) := Nat.testBit_zero _
  rw [Width.unsigned, low]
  generalize (width.cut value).toNat = a, carry.toNat = c at *
  rw [toNat_decide]
  cases width <;> simp only [Width.bits] at * <;> omega

theorem ror_lowers : Lowers width .ror fun _ before => before.carry := by
  intro value before
  have shifts := ror_shifts width before value before.carry
  rw [unsigned_compute]
  change 2 * ((ror width value before.carry).value.toNat : Int) + ((ror ..).status width before).carry.toNat = _
  rw [shifts.value, shifts.carry]
  exact double_halved width value before.carry

theorem asr_eq_ror : asr width value = ror width value (width.cut value).msb := by
  rw [asr, ror, width.and_signBit_eq, width.cut_masked]

theorem asr_lowers : Lowers width .asr fun value _ => (width.cut value).msb := by
  intro value before
  have shifts := ror_shifts width before value (width.cut value).msb
  rw [← asr_eq_ror] at shifts
  rw [unsigned_compute]
  change 2 * ((asr width value).value.toNat : Int) + ((asr ..).status width before).carry.toNat = _
  rw [shifts.value, shifts.carry]
  exact double_halved width value (width.cut value).msb

end

/-- Works through operands one after the other, each with the status word that the one before
has left. The first operation may be another than those that follow it. -/
def carryChain (width : Width) (first next : UnaryOp) : List Word → StatusWord → List Word × StatusWord
  | [], status => ([], status)
  | value :: rest, status =>
    let result := first.compute width value status.carry
    let (results, last) := carryChain width next next rest (result.status width status)
    (result.value :: results, last)

/-- The same from the highest operand down. -/
def carryChainDown (width : Width) (first next : UnaryOp) (values : List Word) (status : StatusWord) :
    List Word × StatusWord :=
  let (results, last) := carryChain width first next values.reverse status
  (results.reverse, last)

section

variable {width : Width} {first next : UnaryOp} {factor unit : Int}

theorem length_carryChain (values : List Word) (status : StatusWord) :
    (carryChain width first next values status).1.length = values.length := by
  induction values generalizing first status with
  | nil => rfl
  | cons value rest ih => exact congrArg (· + 1) (ih _)

theorem carryChain_cons (value : Word) (rest : List Word) (status : StatusWord) :
    carryChain width first next (value :: rest) status =
      ((first.compute width value status.carry).value ::
        (carryChain width next next rest ((first.compute width value status.carry).status width status)).1,
      (carryChain width next next rest ((first.compute width value status.carry).status width status)).2) :=
  rfl

/-- Bits that pass from one operand to the next cancel out, so the chain as a whole is one
operation on the whole number. -/
theorem carryChain_raises {entering : StatusWord → Bool} (starts : Raises width first factor unit entering)
    (goes : Raises width next factor unit StatusWord.carry) (value : Word) (rest : List Word) (status : StatusWord) :
    (width.number (carryChain width first next (value :: rest) status).1 : Int) +
        unit * (2 ^ (width.bits * (rest.length + 1)) *
          (carryChain width first next (value :: rest) status).2.carry.toNat) =
      factor * width.number (value :: rest) + unit * (entering status).toNat := by
  induction rest generalizing first entering value status with
  | nil =>
    have link := starts value status
    rw [carryChain_cons, Width.number_cons, Width.number_cons]
    simp only [carryChain, Width.number_nil, List.length_nil, Nat.cast_zero]
    linear_combination link
  | cons other rest ih =>
    have link := starts value status
    have later := ih goes other ((first.compute width value status.carry).status width status)
    rw [carryChain_cons, Width.number_cons, Width.number_cons width value, List.length_cons]
    linear_combination link + 2 ^ width.bits * later

theorem carryChain_lowers {entering : Word → StatusWord → Bool} (starts : Lowers width first entering)
    (goes : Lowers width next fun _ before => before.carry) (value : Word) (rest : List Word) (status : StatusWord) :
    2 * (width.number (carryChain width first next (value :: rest) status).1.reverse : Int) +
        (carryChain width first next (value :: rest) status).2.carry.toNat =
      width.number (value :: rest).reverse + 2 ^ (width.bits * (rest.length + 1)) * (entering value status).toNat := by
  induction rest generalizing first entering value status with
  | nil =>
    have link := starts value status
    rw [carryChain_cons, Width.number_reverse_cons, Width.number_reverse_cons]
    simp only [carryChain, List.reverse_nil, Width.number_nil, List.length_nil, Nat.cast_zero]
    linear_combination link
  | cons other rest ih =>
    have link := starts value status
    have later := ih goes other ((first.compute width value status.carry).status width status)
    rw [carryChain_cons, Width.number_reverse_cons, Width.number_reverse_cons width value, length_carryChain,
      List.length_cons]
    linear_combination later + 2 ^ (width.bits * (rest.length + 1)) * link

end

section

variable (width : Width) (next : UnaryOp)

theorem carryChain_append (values later : List Word) (status : StatusWord) :
    carryChain width next next (values ++ later) status =
      ((carryChain width next next values status).1 ++
        (carryChain width next next later (carryChain width next next values status).2).1,
      (carryChain width next next later (carryChain width next next values status).2).2) := by
  induction values generalizing status with
  | nil => rfl
  | cons value rest ih =>
    rw [List.cons_append, carryChain_cons, ih, carryChain_cons]
    rfl

/-- From the highest operand down, the lowest one comes last. -/
theorem carryChainDown_cons (value : Word) (rest : List Word) (status : StatusWord) :
    carryChainDown width next next (value :: rest) status =
      ((next.compute width value (carryChainDown width next next rest status).2.carry).value ::
        (carryChainDown width next next rest status).1,
      (next.compute width value (carryChainDown width next next rest status).2.carry).status width
        (carryChainDown width next next rest status).2) := by
  have split := carryChain_append width next rest.reverse [value] status
  rw [← List.reverse_cons] at split
  change ((carryChain width next next (value :: rest).reverse status).1.reverse,
    (carryChain width next next (value :: rest).reverse status).2) = _
  rw [split, List.reverse_append]
  rfl

private theorem eq_of_toNat_eq : ∀ {first second : Bool}, first.toNat = second.toNat → first = second := by
  decide

/-- A rotation to the right undoes one to the left if it is given the bit that came out. -/
theorem ror_rol (value : Word) {status later : StatusWord}
    (carried : later.carry = ((rol width value status.carry).status width status).carry) :
    (ror width (rol width value status.carry).value later.carry).value = value &&& width.mask ∧
      ((ror width (rol width value status.carry).value later.carry).status width later).carry = status.carry := by
  let rotated := (rol width value status.carry).value
  let back := ror width rotated later.carry
  have raised : width.unsigned rotated +
      1 * (2 ^ width.bits * ((rol width value status.carry).status width status).carry.toNat) =
    2 * width.unsigned value + 1 * status.carry.toNat := rol_raises width value status
  have lowered : 2 * width.unsigned back.value + (back.status width later).carry.toNat =
      width.unsigned rotated + 2 ^ width.bits * later.carry.toNat := ror_lowers width rotated later
  have same : 2 * width.unsigned back.value + (back.status width later).carry.toNat =
      2 * width.unsigned value + status.carry.toNat := by
    rw [carried] at lowered
    linear_combination lowered + raised
  have digit := status.carry.toNat_le
  have digitBack := (back.status width later).carry.toNat_le
  have operand : back.value.toNat = (width.cut value).toNat := by
    rw [show width.unsigned back.value = back.value.toNat from unsigned_compute width .ror rotated later.carry,
      Width.unsigned] at same
    omega
  have carry : (back.status width later).carry.toNat = status.carry.toNat := by omega
  constructor
  · apply BitVec.eq_of_toNat_eq
    rw [width.toNat_masked]
    exact operand
  · exact eq_of_toNat_eq carry

theorem carryChain_rotated (values : List Word) (status : StatusWord) :
    let rotated := carryChain width .rol .rol values status
    let back := carryChainDown width .ror .ror rotated.1 rotated.2
    back.1 = values.map (· &&& width.mask) ∧ back.2.carry = status.carry := by
  induction values generalizing status with
  | nil => exact ⟨rfl, rfl⟩
  | cons value rest ih =>
    intro rotated back
    obtain ⟨restored, carried⟩ := ih ((rol width value status.carry).status width status)
    obtain ⟨lowest, last⟩ := ror_rol width value carried
    have split : back = _ := carryChainDown_cons width .ror (rol width value status.carry).value _ _
    rw [split]
    exact ⟨congrArg₂ List.cons lowest restored, last⟩

end

/-- What a chain comes to: as much of the number as its operands hold, and a carry. -/
structure Yields (width : Width) (outcome : List Word × StatusWord) (count : Nat) (number : Int) (carry : Bool) : Prop where
  length : outcome.1.length = count
  number : width.number outcome.1 = number % 2 ^ (width.bits * count)
  carry : outcome.2.carry = carry

/-- What the operands hold differs from the number by what came out at the top. -/
theorem Yields.of_balanced {width : Width} {outcome : List Word × StatusWord} {count : Nat} {number unit : Int}
    {carry : Bool} (length : outcome.1.length = count) (single : unit = 1 ∨ unit = -1)
    (balanced : (width.number outcome.1 : Int) + unit * (2 ^ (width.bits * count) * outcome.2.carry.toNat) = number)
    (outside : carry = true ↔ number < 0 ∨ 2 ^ (width.bits * count) ≤ number) :
    Yields width outcome count number carry := by
  have bounded : (width.number outcome.1 : Int) < 2 ^ (width.bits * count) := by
    exact_mod_cast length ▸ width.number_lt outcome.1
  refine ⟨length, ?_, ?_⟩
  · rw [← balanced, Int.mul_left_comm, Int.add_mul_emod_self_left, Int.emod_eq_of_lt (Int.natCast_nonneg _) bounded]
  · rw [Bool.eq_iff_iff, outside]
    generalize outcome.2.carry = out at *
    cases out with
    | true =>
      rw [Bool.toNat_true] at balanced
      apply iff_of_true rfl
      rcases single with rfl | rfl <;> omega
    | false =>
      rw [Bool.toNat_false] at balanced
      apply iff_of_false Bool.false_ne_true
      omega

/-- The highest bit of a number of so many bits. -/
theorem testBit_top {number count : Nat} (positive : 0 < count) (bounded : number < 2 ^ count) :
    number.testBit (count - 1) = true ↔ 2 ^ count ≤ 2 * number := by
  obtain ⟨lower, rfl⟩ := Nat.exists_eq_succ_of_ne_zero positive.ne'
  rw [Nat.succ_sub_one, Nat.testBit_eq_decide_div_mod_eq, decide_eq_true_iff]
  rw [Nat.pow_succ] at bounded ⊢
  by_cases high : 2 ^ lower ≤ number
  · have once : number / 2 ^ lower = 1 := Nat.div_eq_of_lt_le (by omega) (by omega)
    rw [once]
    exact iff_of_true rfl (by omega)
  · rw [Nat.div_eq_of_lt (by omega)]
    exact iff_of_false (by omega) (by omega)

section

variable (width : Width) (value : Word) (rest : List Word) (status : StatusWord)

theorem carryChain_adds : Yields width (carryChain width .adc .adc (value :: rest) status) (rest.length + 1)
    (width.number (value :: rest) + status.carry.toNat)
    ((2 : Int) ^ (width.bits * (rest.length + 1)) ≤ width.number (value :: rest) + status.carry.toNat) := by
  have balanced := carryChain_raises (adc_raises width) (adc_raises width) value rest status
  rw [Int.one_mul (width.number _), Int.one_mul (status.carry.toNat : Int)] at balanced
  apply Yields.of_balanced (length_carryChain ..) (.inl rfl) balanced
  rw [decide_eq_true_iff, List.length_cons]
  omega

theorem carryChain_subtracts : Yields width (carryChain width .sbc .sbc (value :: rest) status) (rest.length + 1)
    (width.number (value :: rest) - status.carry.toNat)
    (width.number (value :: rest) - status.carry.toNat < (0 : Int)) := by
  have bounded : (width.number (value :: rest) : Int) < 2 ^ (width.bits * (rest.length + 1)) := by
    exact_mod_cast width.number_lt (value :: rest)
  have balanced := carryChain_raises (sbc_raises width) (sbc_raises width) value rest status
  rw [Int.one_mul, Int.neg_one_mul (status.carry.toNat : Int), ← Int.sub_eq_add_neg] at balanced
  apply Yields.of_balanced (length_carryChain ..) (.inr rfl) balanced
  rw [decide_eq_true_iff, List.length_cons]
  omega

theorem carryChain_doubles : Yields width (carryChain width .asl .rol (value :: rest) status) (rest.length + 1)
    (2 * width.number (value :: rest))
    ((width.number (value :: rest)).testBit (width.bits * (rest.length + 1) - 1)) := by
  have balanced := carryChain_raises (asl_raises width) (rol_raises width) value rest status
  rw [Bool.toNat_false, Int.natCast_zero, Int.mul_zero, Int.add_zero] at balanced
  apply Yields.of_balanced (length_carryChain ..) (.inl rfl) balanced
  have positive : 0 < width.bits * (rest.length + 1) := Nat.mul_pos width.bits_pos (Nat.succ_pos _)
  rw [testBit_top positive (width.number_lt (value :: rest))]
  have cast : 2 ^ (width.bits * (rest.length + 1)) ≤ 2 * width.number (value :: rest) ↔
      (2 : Int) ^ (width.bits * (rest.length + 1)) ≤ 2 * width.number (value :: rest) := by
    exact_mod_cast Iff.rfl
  rw [cast, List.length_cons]
  omega

/-- Halving goes through the number from its sign down to its lowest bit. -/
theorem carryChainDown_halves :
    Yields width (carryChainDown width .asr .ror (value :: rest) status) (rest.length + 1)
      (width.signedNumber (value :: rest) / 2) ((width.number (value :: rest)).testBit 0) := by
  obtain ⟨high, lower, reversed⟩ : ∃ high lower, (value :: rest).reverse = high :: lower :=
    List.exists_cons_of_ne_nil (by simp)
  have restored : (high :: lower).reverse = value :: rest := by
    rw [← reversed, List.reverse_reverse]
  have count : lower.length + 1 = rest.length + 1 := by
    rw [← List.length_cons, ← reversed, List.length_reverse, List.length_cons]
  have sign := width.msb_iff_number high lower
  have lowered := carryChain_lowers (asr_lowers width) (ror_lowers width) high lower status
  rw [restored, count] at sign lowered
  rw [← reversed] at lowered
  change 2 * (width.number (carryChainDown width .asr .ror (value :: rest) status).1 : Int) +
    (carryChainDown width .asr .ror (value :: rest) status).2.carry.toNat = _ at lowered
  have length : (carryChainDown width .asr .ror (value :: rest) status).1.length = rest.length + 1 := by
    change (carryChain width .asr .ror (value :: rest).reverse status).1.reverse.length = _
    rw [List.length_reverse, length_carryChain, List.length_reverse, List.length_cons]
  have bounded := width.number_lt (carryChainDown width .asr .ror (value :: rest) status).1
  rw [length] at bounded
  have below : (width.number (carryChainDown width .asr .ror (value :: rest) status).1 : Int) <
      2 ^ (width.bits * (rest.length + 1)) := by exact_mod_cast bounded
  have signed : width.signedNumber (value :: rest) =
      width.number (value :: rest) - 2 ^ (width.bits * (rest.length + 1)) * (width.cut high).msb.toNat := by
    rw [width.signedNumber_eq, List.length_cons, if_congr sign.symm rfl rfl]
    cases (width.cut high).msb <;> simp
  have digit := (carryChainDown width .asr .ror (value :: rest) status).2.carry.toNat_le
  have half : width.signedNumber (value :: rest) / 2 =
      width.number (carryChainDown width .asr .ror (value :: rest) status).1 -
        2 ^ (width.bits * (rest.length + 1)) * (width.cut high).msb.toNat := by omega
  refine ⟨length, ?_, ?_⟩
  · rw [half, Int.sub_mul_emod_self_left, Int.emod_eq_of_lt (Int.natCast_nonneg _) below]
  · have positive : 0 < width.bits * (rest.length + 1) := Nat.mul_pos width.bits_pos (Nat.succ_pos _)
    have even : (2 : Int) ^ (width.bits * (rest.length + 1)) = 2 * 2 ^ (width.bits * (rest.length + 1) - 1) := by
      rw [← Int.pow_succ', Nat.sub_add_cancel positive]
    rw [even, Int.mul_assoc] at lowered
    rw [Nat.testBit_zero]
    generalize (carryChainDown width .asr .ror (value :: rest) status).2.carry = out at *
    cases out with
    | true =>
      rw [Bool.toNat_true] at lowered
      apply Eq.symm
      apply decide_eq_true
      omega
    | false =>
      rw [Bool.toNat_false] at lowered
      apply Eq.symm
      apply decide_eq_false
      omega

end

/-- Chains of one-operand operations are exact on numbers of any length. Adding the carry and
taking it away go from the lowest operand up and leave the carry, or the borrow, of the whole
number. Doubling leaves its highest bit. Halving goes from the highest operand down, rounds
downwards, and leaves the lowest bit. Rotating up and then down brings the operands back, cut to
their width, and the carry too. -/
theorem carry_chains_exact (width : Width) (value : Word) (rest : List Word) (status : StatusWord) :
    let values := value :: rest
    let number := width.number values
    let rotated := carryChain width .rol .rol values status
    let back := carryChainDown width .ror .ror rotated.1 rotated.2
    Yields width (carryChain width .adc .adc values status) values.length (number + status.carry.toNat)
      ((2 : Int) ^ (width.bits * values.length) ≤ number + status.carry.toNat) ∧
    Yields width (carryChain width .sbc .sbc values status) values.length (number - status.carry.toNat)
      (number - status.carry.toNat < (0 : Int)) ∧
    Yields width (carryChain width .asl .rol values status) values.length (2 * number)
      (number.testBit (width.bits * values.length - 1)) ∧
    Yields width (carryChainDown width .asr .ror values status) values.length (width.signedNumber values / 2)
      (number.testBit 0) ∧
    back.1 = values.map (· &&& width.mask) ∧ back.2.carry = status.carry := by
  exact ⟨carryChain_adds .., carryChain_subtracts .., carryChain_doubles .., carryChainDown_halves ..,
    carryChain_rotated ..⟩

end Alu
end Pdp11
