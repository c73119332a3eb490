import Pdp11.Instruction
import Mathlib.Data.List.Nodup

/-! A decoded instruction has all that was in its word. The encoding table fixes the bits above
the fields of a layout, the fields hold the bits below, and no bit is left over. -/

namespace Pdp11

/-- The words have the same bits from one place up to another. -/
def Word.Agree (one other : Word) (low high : Nat) : Prop :=
  ∀ bit, low ≤ bit → bit < high → one.getLsbD bit = other.getLsbD bit

section

variable {one other : Word}

namespace Word.Agree

theorem join {low middle high : Nat} (below : one.Agree other low middle) (above : one.Agree other middle high) :
    one.Agree other low high := by
  intro bit least most
  by_cases first : bit < middle
  · exact below bit least first
  · exact above bit (Nat.le_of_not_lt first) most

theorem of_extractLsb' {low count : Nat} (same : one.extractLsb' low count = other.extractLsb' low count) :
    one.Agree other low (low + count) := by
  intro bit least most
  obtain ⟨offset, rfl⟩ := Nat.exists_eq_add_of_le least
  have inside : offset < count := by omega
  have equal := congrArg (·.getLsbD offset) same
  simpa [BitVec.getLsbD_extractLsb', inside] using equal

theorem of_setWidth {count : Nat} (same : one.setWidth count = other.setWidth count) : one.Agree other 0 count := by
  intro bit _ most
  have equal := congrArg (·.getLsbD bit) same
  simpa [BitVec.getLsbD_setWidth, most] using equal

theorem eq (all : one.Agree other 0 16) : one = other :=
  BitVec.eq_of_getLsbD_eq fun bit inside => all bit (Nat.zero_le bit) inside

end Word.Agree

theorem Register.agree_of_ofField {shift : Nat} (same : ofField one shift = ofField other shift) :
    one.Agree other shift (shift + 3) := by
  have index_ofIndex : ∀ index : Fin 8, (ofIndex index).index = index := by decide
  have field := congrArg index same
  rw [ofField, ofField, index_ofIndex, index_ofIndex] at field
  exact .of_extractLsb' (BitVec.toFin_inj.mp field)

theorem Operand.agree_of_ofField {shift : Nat} (same : ofField one shift = ofField other shift) :
    one.Agree other shift (shift + 6) := by
  have bits_ofBits : ∀ bits : Fin 8, (AddressingMode.ofBits bits).bits = bits := by decide
  have field : (AddressingMode.ofBits _).bits = (AddressingMode.ofBits _).bits := congrArg (·.mode.bits) same
  rw [bits_ofBits, bits_ofBits] at field
  exact (Register.agree_of_ofField (congrArg Operand.register same)).join (.of_extractLsb' (BitVec.toFin_inj.mp field))

end

/-- How many bits the fields take. They are the low ones. -/
def Layout.fieldBits : Layout → Nat
  | bare => 0
  | register => 3
  | mask => 4
  | destination | count => 6
  | branch | code => 8
  | registerDestination | loop => 9
  | sourceDestination => 12

theorem Encoding.mask_eq : ∀ row ∈ table, row.mask = BitVec.allOnes 16 <<< row.opcode.layout.fieldBits := by
  decide +kernel

theorem Encoding.eq_of_opcode {row other : Encoding} (member : row ∈ table) (present : other ∈ table)
    (same : row.opcode = other.opcode) : row = other := by
  have apart : (table.map (·.opcode)).Nodup := by decide +kernel
  exact List.inj_on_of_nodup_map apart member present same

/-- An opcode was found in a row of the table. -/
theorem Opcode.exists_row {word : Word} {opcode : Opcode} (found : ofWord? word = some opcode) :
    ∃ row ∈ Encoding.table, row.opcode = opcode ∧ word &&& row.mask = row.pattern := by
  obtain ⟨row, first, same⟩ := Option.map_eq_some_iff.mp found
  have admits := List.find?_some first
  exact ⟨row, List.mem_of_find?_eq_some first, same, beq_iff_eq.mp admits⟩

section

variable {one other : Word}

/-- The opcode fixes the bits above the fields. -/
theorem Opcode.agree_of_ofWord? {opcode : Opcode} (found : ofWord? one = some opcode) (also : ofWord? other = some opcode) :
    one.Agree other opcode.layout.fieldBits 16 := by
  obtain ⟨row, member, rfl, admits⟩ := exists_row found
  obtain ⟨twin, present, same, shared⟩ := exists_row also
  obtain rfl := Encoding.eq_of_opcode present member same
  intro bit least most
  have masked : twin.mask.getLsbD bit = true := by
    rw [Encoding.mask_eq twin present, BitVec.getLsbD_shiftLeft, BitVec.getLsbD_allOnes]
    simpa [most] using ⟨least, Nat.lt_of_le_of_lt (Nat.sub_le _ _) most⟩
  have equal := congrArg (·.getLsbD bit) (admits.trans shared.symm)
  simpa only [BitVec.getLsbD_and, masked, Bool.and_true] using equal

/-- The fields hold the bits below. -/
theorem Opcode.agree_of_instruction {opcode : Opcode} (same : opcode.instruction one = opcode.instruction other) :
    one.Agree other 0 opcode.layout.fieldBits := by
  cases opcode with
  | control => exact fun bit _ most => absurd most (Nat.not_lt_zero bit)
  | jmp | swab | sxt | mtps | mfps | clr | tst | unary =>
    exact Operand.agree_of_ofField (Option.some.inj (congrArg Instruction.destination? same))
  | jsr | xor =>
    exact (Operand.agree_of_ofField (Option.some.inj (congrArg Instruction.destination? same))).join
      (Register.agree_of_ofField (Option.some.inj (congrArg Instruction.register? same)))
  | mov | cmp | bit | bic | bis | add | sub =>
    exact (Operand.agree_of_ofField (Option.some.inj (congrArg Instruction.destination? same))).join
      (Operand.agree_of_ofField (Option.some.inj (congrArg Instruction.source? same)))
  | rts => exact Register.agree_of_ofField (Option.some.inj (congrArg Instruction.register? same))
  | codes => exact .of_setWidth (Instruction.codes.inj same).2
  | branch => exact .of_setWidth (Instruction.branch.inj same).2
  | mark => exact .of_setWidth (Instruction.mark.inj same)
  | call => exact .of_setWidth (Instruction.call.inj same).2
  | sob =>
    obtain ⟨register, offset⟩ := Instruction.sob.inj same
    exact (Word.Agree.of_setWidth offset).join (Register.agree_of_ofField register)

/-- No two words decode to one instruction. -/
theorem Instruction.ofWord?_inj {instruction : Instruction} (decoded : ofWord? one = some instruction)
    (also : ofWord? other = some instruction) : one = other := by
  obtain ⟨opcode, found, rfl⟩ := Option.map_eq_some_iff.mp decoded
  obtain ⟨twin, present, same⟩ := Option.map_eq_some_iff.mp also
  have opcodes := congrArg Instruction.opcode same
  rw [Opcode.opcode_instruction, Opcode.opcode_instruction] at opcodes
  subst opcodes
  exact ((Opcode.agree_of_instruction same.symm).join (Opcode.agree_of_ofWord? found present)).eq

end

end Pdp11
