import Pdp11.Board.Flat
import Pdp11.Proofs.ExactArithmetic
import Pdp11.Proofs.OperandStage

/-! Branches after a comparison. CMP subtracts its second operand from its first, and SUB
subtracts its first operand from its second. What the condition codes keep of the difference
is enough to order the two operands, with their signs and without, although the difference
itself may not fit. -/

namespace Pdp11

open Microcode

/-- What a branch asks of two operands that were compared before it. Less and greater order
them as numbers with a sign, lower and higher as numbers without one. -/
def Condition.Asks (condition : Condition) (width : Width) (first second : Word) : Prop :=
  match condition with
  | always => True
  | eq => width.signed first = width.signed second
  | ne => width.signed first ≠ width.signed second
  | lt => width.signed first < width.signed second
  | ge => width.signed first ≥ width.signed second
  | le => width.signed first ≤ width.signed second
  | gt => width.signed first > width.signed second
  | cs => width.unsigned first < width.unsigned second
  | cc => width.unsigned first ≥ width.unsigned second
  | los => width.unsigned first ≤ width.unsigned second
  | hi => width.unsigned first > width.unsigned second
  | mi => width.signed (first - second) < 0
  | pl => width.signed (first - second) ≥ 0
  | vs => width.fits (width.signed first - width.signed second) = false
  | vc => width.fits (width.signed first - width.signed second) = true

instance (condition : Condition) (width : Width) (first second : Word) : Decidable (condition.Asks width first second) :=
  match condition with
  | .always => .isTrue trivial
  | .eq => inferInstanceAs (Decidable (width.signed first = _))
  | .ne => inferInstanceAs (Decidable (width.signed first ≠ _))
  | .lt => inferInstanceAs (Decidable (width.signed first < _))
  | .ge => inferInstanceAs (Decidable (width.signed first ≥ _))
  | .le => inferInstanceAs (Decidable (width.signed first ≤ _))
  | .gt => inferInstanceAs (Decidable (width.signed first > _))
  | .cs => inferInstanceAs (Decidable (width.unsigned first < _))
  | .cc => inferInstanceAs (Decidable (width.unsigned first ≥ _))
  | .los => inferInstanceAs (Decidable (width.unsigned first ≤ _))
  | .hi => inferInstanceAs (Decidable (width.unsigned first > _))
  | .mi => inferInstanceAs (Decidable (width.signed (first - second) < 0))
  | .pl => inferInstanceAs (Decidable (width.signed (first - second) ≥ 0))
  | .vs => inferInstanceAs (Decidable (width.fits _ = false))
  | .vc => inferInstanceAs (Decidable (width.fits _ = true))

/-- The condition codes of a difference, read as an order of its two operands. -/
structure StatusWord.Orders (status : StatusWord) (width : Width) (first second : Word) : Prop where
  equal : status.zero = true ↔ width.signed first = width.signed second
  less : (status.negative != status.overflow) = true ↔ width.signed first < width.signed second
  lower : status.carry = true ↔ width.unsigned first < width.unsigned second
  negative : status.negative = true ↔ width.signed (first - second) < 0
  overflow : status.overflow = true ↔ width.fits (width.signed first - width.signed second) = false

namespace Width

variable (width : Width) (first second : Word)

theorem signed_eq_iff : width.signed first = width.signed second ↔ width.cut first = width.cut second :=
  BitVec.toInt_inj

theorem unsigned_eq_iff : width.unsigned first = width.unsigned second ↔ width.cut first = width.cut second := by
  rw [unsigned, unsigned, Int.natCast_inj]
  exact BitVec.toNat_inj

theorem signed_neg_iff : width.signed first < 0 ↔ (width.cut first).msb = true := by
  rw [signed, BitVec.msb_eq_toInt, decide_eq_true_iff]

end Width

namespace Alu

variable (width : Width) (before : StatusWord) (first second : Word)

theorem cut_sub_value : width.cut (sub width first second).value = width.cut first - width.cut second := by
  change width.cut ((first &&& width.mask) - (second &&& width.mask) &&& width.mask &&& width.mask) = _
  rw [width.cut_masked, width.cut_masked, width.cut_sub, width.cut_masked, width.cut_masked]

theorem sub_negative : ((sub width first second).status width before).negative =
    (width.cut first - width.cut second).msb := by
  rw [← cut_sub_value, (sub_tells width before first second).negative, Width.cut, BitVec.msb_setWidth,
    decide_eq_true width.bits_pos, Bool.true_and]

theorem sub_zero : ((sub width first second).status width before).zero = true ↔ width.cut first = width.cut second := by
  have within : (sub width first second).value = (sub width first second).value &&& width.mask := by
    change _ = _ &&& width.mask &&& width.mask
    rw [BitVec.and_assoc, BitVec.and_self]
    rfl
  have vanishes : (sub width first second).value = 0 ↔ width.cut (sub width first second).value = 0 := by
    constructor
    · intro zero
      rw [zero]
      exact BitVec.setWidth_zero _ _
    · intro zero
      apply BitVec.eq_of_toNat_eq
      rw [within, width.toNat_masked, zero]
      rfl
  rw [(sub_tells width before first second).zero, decide_eq_true_iff, vanishes, cut_sub_value]
  constructor
  · intro zero
    rw [← BitVec.sub_add_cancel (width.cut first) (width.cut second), zero]
    exact BitVec.zero_add _
  · intro same
    rw [same]
    exact BitVec.sub_self _

/-- The sign of a difference is wrong exactly when the difference does not fit. -/
theorem sub_less : (((sub width first second).status width before).negative !=
    ((sub width first second).status width before).overflow) = true ↔ width.signed first < width.signed second := by
  rw [sub_negative, (sub_tells width before first second).overflow, bne_iff_ne, ne_eq, Bool.eq_iff_iff,
    width.not_fits_iff, ← width.cut_sub, ← width.signed_neg_iff]
  rw [Width.signed, Width.signed, Width.signed, width.cut_sub, BitVec.toInt_sub]
  have low := BitVec.le_toInt (width.cut first)
  have high := BitVec.toInt_lt (x := width.cut first)
  have lowSecond := BitVec.le_toInt (width.cut second)
  have highSecond := BitVec.toInt_lt (x := width.cut second)
  generalize (width.cut first).toInt = a, (width.cut second).toInt = b at *
  rw [Int.bmod_def]
  cases width <;> simp only [Width.bits] at * <;> omega

theorem sub_orders : ((sub width first second).status width before).Orders width first second where
  equal := (sub_zero ..).trans (width.signed_eq_iff ..).symm
  less := sub_less ..
  lower := by
    rw [(sub_tells width before first second).carry, decide_eq_true_iff, Width.unsigned, Width.unsigned]
    omega
  negative := by
    rw [sub_negative, width.signed_neg_iff, width.cut_sub]
  overflow := by
    rw [(sub_tells width before first second).overflow, Bool.not_eq_true']
    rfl

end Alu

private theorem not_iff {flag : Bool} {asked : Prop} (on : flag = true ↔ asked) : (!flag) = true ↔ ¬asked := by
  rw [Bool.not_eq_true', ← Bool.not_eq_true, on]

/-- A condition holds after a comparison exactly when it holds of the operands. -/
theorem Condition.holds_iff {status : StatusWord} {width : Width} {first second : Word}
    (orders : status.Orders width first second) (condition : Condition) :
    condition.holds status = true ↔ condition.Asks width first second := by
  have same : width.signed first = width.signed second ↔ width.unsigned first = width.unsigned second :=
    (width.signed_eq_iff ..).trans (width.unsigned_eq_iff ..).symm
  obtain ⟨equal, less, lower, negative, overflow⟩ := orders
  cases condition with
  | always => exact iff_of_true rfl trivial
  | eq => exact equal
  | lt => exact less
  | cs => exact lower
  | mi => exact negative
  | vs => exact overflow
  | ne => exact not_iff equal
  | ge => exact (not_iff less).trans Int.not_lt
  | cc => exact (not_iff lower).trans Int.not_lt
  | pl => exact (not_iff negative).trans Int.not_lt
  | vc =>
    refine (not_iff overflow).trans ?_
    rw [Bool.not_eq_false]
    rfl
  | le =>
    change (status.zero || status.negative != status.overflow) = true ↔ width.signed first ≤ width.signed second
    rw [Bool.or_eq_true, equal, less]
    omega
  | gt =>
    change (!(status.zero || status.negative != status.overflow)) = true ↔ width.signed first > width.signed second
    rw [Bool.not_or, Bool.and_eq_true, not_iff equal, not_iff less]
    omega
  | los =>
    change (status.carry || status.zero) = true ↔ width.unsigned first ≤ width.unsigned second
    rw [Bool.or_eq_true, lower, equal, same]
    omega
  | hi =>
    change (!status.carry && !status.zero) = true ↔ width.unsigned first > width.unsigned second
    rw [Bool.and_eq_true, not_iff lower, not_iff equal, same]
    omega

/-- Where a taken branch goes: the offset counts words, backwards or forwards, from the
address after the branch. -/
def branchTarget (following : Word) (offset : BitVec 8) : Word := .ofInt 16 (following.toNat + 2 * offset.toInt)

theorem branchTarget_eq (following : Word) (offset : BitVec 8) :
    branchTarget following offset = following + branchDistance offset := by
  rw [branchTarget, branchDistance, BitVec.ofInt_add, BitVec.ofInt_mul, BitVec.ofInt_natCast, BitVec.ofNat_toNat,
    BitVec.setWidth_eq]
  rfl

variable {β : Type} [Board β]

/-- The branches after a comparison are taken exactly when they should be, and a branch does
nothing else. Whatever takes place before the branch must leave the status word alone. -/
def StatusWord.Decides (β : Type) [Board β] (status : StatusWord) (width : Width) (first second : Word) : Prop :=
  ∀ (fetched : Machine β) (condition : Condition) (offset : BitVec 8), fetched.processor.status = status →
    execute (.branch condition offset) fetched = .ok .completed
      (if condition.Asks width first second then fetched.update (·.setPc (branchTarget fetched.processor.pc offset))
      else fetched)

theorem Microcode.execute_branch (condition : Condition) (offset : BitVec 8) (fetched : Machine β) :
    execute (.branch condition offset) fetched = .ok .completed
      (if condition.holds fetched.processor.status then
        fetched.update (·.setPc (branchTarget fetched.processor.pc offset))
      else fetched) := by
  rw [branchTarget_eq]
  cases holds : condition.holds fetched.processor.status with
  | true | false =>
    simp only [execute, Bind.bind, EStateM.bind, processor, holds]
    rfl

theorem StatusWord.Orders.decides {status : StatusWord} {width : Width} {first second : Word}
    (orders : status.Orders width first second) : status.Decides β width first second := by
  intro fetched condition offset same
  rw [execute_branch, same]
  by_cases asked : condition.Asks width first second
  · rw [if_pos asked, if_pos ((condition.holds_iff orders).mpr asked)]
  · rw [if_neg asked, if_neg fun holds => asked ((condition.holds_iff orders).mp holds)]

namespace Microcode

/-- Reads both operands of an instruction, the source first. What is read second is also
where a result would go. -/
def readBoth (width : Width) (src dst : Operand) : Microcode β (Word × Location × Word) := do
  let (_, first) ← readOperand width src
  let (location, second) ← readOperand width dst
  return (first, location, second)

theorem compareOperands_eq (width : Width) (src dst : Operand) (compute : Word → Word → AluResult) :
    (compareOperands width src dst compute : Microcode β Retirement) = (do
      let (first, _, second) ← readBoth width src dst
      let _ ← commit width (compute first second)
      return .completed) := by
  simp only [compareOperands, readBoth, bind_assoc, pure_bind]

theorem combineOperands_eq (width : Width) (src dst : Operand) (compute : Word → Word → AluResult) :
    (combineOperands width src dst compute : Microcode β Retirement) = (do
      let (first, location, second) ← readBoth width src dst
      let result ← commit width (compute second first)
      store width result location
      return .completed) := by
  simp only [combineOperands, modifyOperand, readBoth, bind_assoc, pure_bind]
  rfl

omit [Board β] in
theorem commit_eq (width : Width) (result : AluResult) (machine : Machine β) : commit width result machine =
    .ok result.value (machine.update ({ · with status := result.status width machine.processor.status })) :=
  rfl

variable {width : Width} {src dst : Operand} {machine located : Machine β} {location : Location} {first second : Word}

theorem execute_cmp (read : readBoth width src dst machine = .ok (first, location, second) located) :
    execute (.cmp width src dst) machine = .ok .completed (located.update
      ({ · with status := (Alu.sub width first second).status width located.processor.status })) := by
  change compareOperands width src dst (Alu.sub width) machine = _
  rw [compareOperands_eq, bind_of_ok read]
  exact bind_of_ok (commit_eq ..) _

/-- Both operands are read and the codes set before the difference is stored. -/
theorem execute_sub (read : readBoth .word src dst machine = .ok (first, location, second) located) :
    execute (.sub src dst) machine =
      (do
        store .word (Alu.sub .word second first).value location
        return .completed : Microcode β Retirement)
      (located.update
        ({ · with status := (Alu.sub .word second first).status .word located.processor.status })) := by
  change combineOperands .word src dst (Alu.sub .word) machine = _
  rw [combineOperands_eq, bind_of_ok read]
  exact bind_of_ok (commit_eq ..) _

end Microcode

/-- A comparison decides the branches after it, for all operands and wherever they are found.
CMP compares its first operand with its second and stores nothing. SUB compares the other way
round, what its destination held with its source; it goes on as soon as the difference is stored. -/
theorem comparison_decides_branches {width : Width} {src dst : Operand} {machine located : Machine β}
    {location : Location} {first second : Word}
    (read : readBoth width src dst machine = .ok (first, location, second) located) :
    (∃ status, execute (.cmp width src dst) machine = .ok .completed (located.update ({ · with status })) ∧
      status.Decides β width first second) ∧
    (width = .word → ∃ status,
      execute (.sub src dst) machine =
        (do
          store .word (second - first) location
          return .completed : Microcode β Retirement) (located.update ({ · with status })) ∧
      (∀ retirement after, execute (.sub src dst) machine = .ok retirement after →
        retirement = .completed ∧ after.processor.status = status) ∧
      status.Decides β .word second first) := by
  constructor
  · refine ⟨_, execute_cmp read, ?_⟩
    exact (Alu.sub_orders width located.processor.status first second).decides
  · intro whole
    subst whole
    have difference : (Alu.sub .word second first).value = second - first := by
      have masked : ∀ value : Word, value &&& Width.word.mask = value := fun value => BitVec.and_allOnes
      change (second &&& _) - (first &&& _) &&& _ &&& _ = _
      rw [masked, masked, masked, masked]
    have subtracted := execute_sub read
    rw [difference] at subtracted
    refine ⟨_, subtracted, ?_, (Alu.sub_orders .word located.processor.status second first).decides⟩
    intro retirement after done
    rw [subtracted] at done
    obtain ⟨_, stored, store, done⟩ := bind_eq_ok done
    cases done
    obtain ⟨_, moved⟩ := OnlyMoves.store .word _ location _ _ _ store
    exact ⟨rfl, congrArg Processor.status moved⟩

/-- Two bytes that are ordered one way with their signs and the other way without. -/
def comparing : Machine FlatBoard :=
  ⟨(Processor.create { model := .t11 }).setRegister .r1 0o1000, FlatBoard.load {} 0o1000 [0o600]⟩

theorem comparison_decides_branches_bytes :
    ∃ compared, execute (.cmp .byte ⟨.autoIncrement, .r1⟩ ⟨.registerDeferred, .r1⟩) comparing = .ok .completed compared ∧
      ∀ following offset,
        let fetched := compared.update (·.setPc following)
        let taken := fetched.update (·.setPc (branchTarget following offset))
        execute (.branch .lt offset) fetched = .ok .completed taken ∧
          execute (.branch .hi offset) fetched = .ok .completed taken ∧
          execute (.branch .eq offset) fetched = .ok .completed fetched ∧
          execute (.branch .los offset) fetched = .ok .completed fetched := by
  have read : readBoth .byte ⟨.autoIncrement, .r1⟩ ⟨.registerDeferred, .r1⟩ comparing =
      .ok (0o200, .memory 0o1001, 1) _ := eq_ok_of_answer (by decide +kernel)
  obtain ⟨⟨status, compared, decides⟩, -⟩ := comparison_decides_branches read
  refine ⟨_, compared, ?_⟩
  intro following offset fetched taken
  have target : fetched.processor.pc = following := RegisterFile.pc_setPc _ _
  have branches := fun condition => decides fetched condition offset rfl
  rw [target] at branches
  have less := branches .lt
  have higher := branches .hi
  have equal := branches .eq
  have lowerOrSame := branches .los
  rw [if_pos (by decide)] at less higher
  rw [if_neg (by decide)] at equal lowerOrSame
  exact ⟨less, higher, equal, lowerOrSame⟩

end Pdp11
