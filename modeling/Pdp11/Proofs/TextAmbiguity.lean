import Pdp11.Proofs.InstructionWords
import Pdp11.Proofs.OperandText

/-! The text of a row says which words it was made from. Names of instructions differ, so a name
gives the opcode, the operands give its fields and the words after it, and all of them the
instruction word. One name is ambiguous: either group of condition-code instructions has a member
that touches no code. -/

namespace Pdp11

theorem codesMnemonic_inj : ∀ {set : Bool} {mask other : BitVec 4},
    codesMnemonic set mask = codesMnemonic set other → mask = other := by
  decide +kernel

theorem branchDistance_inj {offset other : BitVec 8} (same : branchDistance offset = branchDistance other) :
    offset = other := by
  have halve : ∀ offset : BitVec 8, (branchDistance offset >>> 1).setWidth 8 = offset := by decide +kernel
  rw [← halve offset, same, halve]

theorem loopDistance_inj {offset other : BitVec 6} (same : loopDistance offset = loopDistance other) : offset = other := by
  have halve : ∀ offset : BitVec 6, (loopDistance offset >>> 1).setWidth 6 = offset := by decide +kernel
  rw [← halve offset, same, halve]

namespace Opcode

/-- With its name known, the operands of an instruction give its fields. -/
theorem eq_of_spell {opcode : Opcode} {one other pc : Word} {extension words : List Word}
    (length : extension.length = (opcode.instruction one).taken) (size : words.length = (opcode.instruction other).taken)
    (names : (opcode.instruction one).mnemonic = (opcode.instruction other).mnemonic)
    (same : (opcode.instruction one).spell pc extension = (opcode.instruction other).spell pc words) :
    opcode.instruction one = opcode.instruction other ∧ extension = words := by
  have bare (none : extension.length = 0) (empty : words.length = 0) : extension = words := by
    rw [List.length_eq_zero_iff.mp none, List.length_eq_zero_iff.mp empty]
  have alone {dst : Operand} {extension : List Word} (length : extension.length = 0 + dst.taken) :
      extension.length = dst.taken :=
    length.trans (Nat.zero_add _)
  cases opcode with
  | control => exact ⟨rfl, bare length size⟩
  | jmp | swab | sxt | mtps | mfps | clr | tst | unary =>
    obtain ⟨operands, extensions⟩ := Operand.spell_inj (alone length) (alone size) (String.ofList_inj.mp same)
    exact ⟨by simp only [instruction, operands], extensions⟩
  | jsr | xor =>
    obtain ⟨registers, texts⟩ := comma_inj (Register.comma_not_mem_name _) (Register.comma_not_mem_name _) same
    obtain ⟨operands, extensions⟩ := Operand.spell_inj (alone length) (alone size) (String.ofList_inj.mp texts)
    exact ⟨by simp only [instruction, Register.name_inj registers, operands], extensions⟩
  | mov | cmp | bit | bic | bis | add | sub =>
    obtain ⟨sources, destinations, extensions⟩ := Operand.spell_pair_inj length size same
    exact ⟨by simp only [instruction, sources, destinations], extensions⟩
  | rts => exact ⟨congrArg Instruction.rts (Register.name_inj same), bare length size⟩
  | codes set => exact ⟨congrArg (Instruction.codes set) (codesMnemonic_inj names), bare length size⟩
  | branch condition =>
    have offsets := branchDistance_inj ((BitVec.add_right_inj _).mp (octal_inj same))
    exact ⟨congrArg (Instruction.branch condition) offsets, bare length size⟩
  | mark => exact ⟨congrArg Instruction.mark (octal_inj same), bare length size⟩
  | call op => exact ⟨congrArg (Instruction.call op) (octal_inj same), bare length size⟩
  | sob =>
    obtain ⟨registers, targets⟩ := comma_inj (Register.comma_not_mem_name _) (Register.comma_not_mem_name _) same
    have offsets := loopDistance_inj ((BitVec.sub_right_inj _).mp (octal_inj targets))
    exact ⟨by simp only [instruction, Register.name_inj registers, offsets], bare length size⟩

/-- Names that instructions with this opcode have. -/
def names : Opcode → List String
  | codes set => (List.finRange 16).map fun mask => codesMnemonic set ⟨mask⟩
  | opcode => [opcode.mnemonic]

theorem mnemonic_mem_names (opcode : Opcode) (word : Word) : (opcode.instruction word).mnemonic ∈ opcode.names := by
  cases opcode with
  | codes set => exact List.mem_map.mpr ⟨(word.setWidth 4).toFin, List.mem_finRange _, rfl⟩
  | _ => exact List.mem_singleton.mpr rfl

/-- The first opcode that has a name is the only one, unless nothing is done by that name. -/
theorem find?_name : ∀ row ∈ Encoding.table, ∀ name ∈ row.opcode.names,
    name = "NOP" ∨ Encoding.table.find? (name ∈ ·.opcode.names) = some row := by
  decide +kernel

theorem codes_of_idle : ∀ row ∈ Encoding.table, "NOP" ∈ row.opcode.names → ∃ set, row.opcode = codes set := by
  decide +kernel

theorem names_plain : ∀ row ∈ Encoding.table, ∀ name ∈ row.opcode.names, name ≠ ".WORD" ∧ ' ' ∉ name.toList := by
  decide +kernel

end Opcode

namespace Instruction

variable {word other pc : Word} {extension words : List Word} {instruction twin : Instruction}

theorem exists_row (decoded : ofWord? word = some instruction) :
    ∃ row ∈ Encoding.table, instruction = row.opcode.instruction word ∧ instruction.mnemonic ∈ row.opcode.names := by
  obtain ⟨opcode, found, rfl⟩ := Option.map_eq_some_iff.mp decoded
  obtain ⟨row, member, rfl, _⟩ := Opcode.exists_row found
  exact ⟨row, member, rfl, row.opcode.mnemonic_mem_names word⟩

theorem mnemonic_plain (decoded : ofWord? word = some instruction) :
    instruction.mnemonic ≠ ".WORD" ∧ ' ' ∉ instruction.mnemonic.toList := by
  obtain ⟨row, member, _, named⟩ := exists_row decoded
  exact Opcode.names_plain row member _ named

theorem word_of_idle (decoded : ofWord? word = some instruction) (idle : instruction.mnemonic = "NOP") :
    word = 0o240 ∨ word = 0o260 := by
  obtain ⟨row, member, rfl, named⟩ := exists_row decoded
  rw [idle] at named
  obtain ⟨set, opcode⟩ := Opcode.codes_of_idle row member named
  rw [opcode] at decoded idle
  have empty : (Opcode.codes set).instruction word = codes set 0 := congrArg (codes set) (codesMnemonic_inj idle)
  rw [empty] at decoded
  cases set with
  | false => exact .inl (ofWord?_inj decoded (by decide))
  | true => exact .inr (ofWord?_inj decoded (by decide))

theorem eq_of_text (decoded : ofWord? word = some instruction) (also : ofWord? other = some twin)
    (length : extension.length = instruction.taken) (size : words.length = twin.taken)
    (names : instruction.mnemonic = twin.mnemonic) (operands : instruction.spell pc extension = twin.spell pc words) :
    word = other ∧ extension = words ∨ instruction.mnemonic = "NOP" := by
  obtain ⟨row, member, rfl, named⟩ := exists_row decoded
  obtain ⟨shared, present, rfl, called⟩ := exists_row also
  rw [← names] at called
  rcases Opcode.find?_name row member _ named with idle | first
  · exact .inr idle
  rcases Opcode.find?_name shared present _ called with idle | again
  · exact .inr idle
  obtain rfl := Option.some.inj (first.symm.trans again)
  obtain ⟨same, extensions⟩ := Opcode.eq_of_spell length size names operands
  rw [same] at decoded
  exact .inl ⟨ofWord?_inj decoded also, extensions⟩

end Instruction

namespace Row

/-- Shows one of the two words that touch no condition code. -/
def Idle (row : Row) : Prop := row.words = [0o240] ∨ row.words = [0o260]

theorem Idle.length {row : Row} (idle : row.Idle) : row.length = 2 := by
  rcases idle with words | words <;> rw [Row.length, words] <;> rfl

/-- What comes after the name: nothing, or a space and the operands. -/
def rest (row : Row) : List Char := if row.operands.isEmpty then [] else ' ' :: row.operands.toList

theorem toList_text (row : Row) : row.text.toList = row.mnemonic.toList ++ row.rest := by
  rw [text, rest]
  split
  · rw [List.append_nil]
  · rw [String.toList_append, String.toList_append, List.append_assoc]
    rfl

theorem stops_rest (row : Row) : Stops (· != ' ') row.rest := by
  rw [rest]
  split
  · exact nofun
  · exact .separated ' ' _

theorem tail_rest (row : Row) : row.rest.tail = row.operands.toList := by
  rw [rest]
  split
  · next none =>
    rw [String.isEmpty_iff.mp none]
    rfl
  · rfl

/-- No name has a space, so the first one is where the operands begin. -/
theorem eq_of_text {row other : Row} (plain : ' ' ∉ row.mnemonic.toList) (bare : ' ' ∉ other.mnemonic.toList)
    (same : row.text = other.text) : row.mnemonic = other.mnemonic ∧ row.operands = other.operands := by
  have texts : row.mnemonic.toList ++ row.rest = other.mnemonic.toList ++ other.rest := by
    rw [← toList_text, ← toList_text, same]
  obtain ⟨names, rests⟩ := append_inj_of_separator plain bare row.stops_rest other.stops_rest texts
  have operands := congrArg List.tail rests
  rw [tail_rest, tail_rest] at operands
  exact ⟨String.toList_inj.mp names, String.toList_inj.mp operands⟩

section

variable {address word other : Word} {extension words : List Word}

theorem shown_plain (address word : Word) (extension : List Word) : ' ' ∉ (shown address word extension).mnemonic.toList := by
  cases decoded : Instruction.ofWord? word with
  | none =>
    rw [shown_of_reserved decoded]
    show ' ' ∉ ".WORD".toList
    decide
  | some instruction =>
    rw [shown_of_decoded decoded]
    exact (Instruction.mnemonic_plain decoded).2

theorem idle_of_name {instruction : Instruction} (decoded : Instruction.ofWord? word = some instruction)
    (length : extension.length = extensionCount word) (idle : instruction.mnemonic = "NOP") :
    (shown address word extension).Idle := by
  rw [Idle, shown_words]
  rcases Instruction.word_of_idle decoded idle with rfl | rfl
  · exact .inl (congrArg (0o240 :: ·) (List.length_eq_zero_iff.mp length))
  · exact .inr (congrArg (0o260 :: ·) (List.length_eq_zero_iff.mp length))

theorem words_of_text (length : extension.length = extensionCount word) (size : words.length = extensionCount other)
    (same : (shown address word extension).text = (shown address other words).text) :
    word :: extension = other :: words ∨ (shown address word extension).Idle ∧ (shown address other words).Idle := by
  obtain ⟨names, operands⟩ := eq_of_text (shown_plain _ _ _) (shown_plain _ _ _) same
  cases decoded : Instruction.ofWord? word with
  | none =>
    rw [shown_of_reserved decoded] at names operands
    cases also : Instruction.ofWord? other with
    | none =>
      rw [shown_of_reserved also] at operands
      rw [extensionCount_of_reserved decoded] at length
      rw [extensionCount_of_reserved also] at size
      rw [List.length_eq_zero_iff.mp length, List.length_eq_zero_iff.mp size, octal_inj operands]
      exact .inl rfl
    | some twin =>
      rw [shown_of_decoded also] at names
      exact absurd names.symm (Instruction.mnemonic_plain also).1
  | some instruction =>
    rw [shown_of_decoded decoded] at names operands
    cases also : Instruction.ofWord? other with
    | none =>
      rw [shown_of_reserved also] at names
      exact absurd names (Instruction.mnemonic_plain decoded).1
    | some twin =>
      rw [shown_of_decoded also] at names operands
      have taken := length.trans (extensionCount_of_decoded decoded)
      have takes := size.trans (extensionCount_of_decoded also)
      rcases Instruction.eq_of_text decoded also taken takes names operands with ⟨rfl, rfl⟩ | idle
      · exact .inl rfl
      · exact .inr ⟨idle_of_name decoded length idle, idle_of_name also size (names.symm.trans idle)⟩

theorem idle_iff (length : extension.length = extensionCount word) :
    (shown address word extension).Idle ↔ (shown address word extension).text = "NOP" := by
  constructor
  · rw [Idle, shown_words]
    rintro (words | words)
    all_goals
      obtain ⟨rfl, rfl⟩ := List.cons.inj words
      rfl
  · intro named
    have idle : (shown address 0o240 []).text = "NOP" := rfl
    rcases words_of_text length rfl (named.trans idle.symm) with words | ⟨both, _⟩
    · rw [Idle, shown_words]
      exact .inl words
    · exact both

/-- Rows at one address have the same text only if they have the same words, but for the two words
that touch no condition code. -/
theorem text_eq_iff {first second : Array Byte} {pc : Word} {row other : Row}
    (found : disassemble? first pc = some row) (also : disassemble? second pc = some other) :
    (row.text = other.text ↔ row.words = other.words ∨ row.Idle ∧ other.Idle) ∧
      (row.text = other.text → row.length = other.length) ∧ (row.Idle ↔ row.text = "NOP") := by
  obtain ⟨word, extension, length, rfl, _⟩ := disassemble?_eq_some_iff.mp found
  obtain ⟨twin, words, size, rfl, _⟩ := disassemble?_eq_some_iff.mp also
  have determined := @words_of_text pc.even word twin extension words length size
  refine ⟨⟨?_, ?_⟩, ?_, idle_iff length⟩
  · rw [shown_words, shown_words]
    exact determined
  · rw [shown_words, shown_words]
    rintro (same | ⟨idle, either⟩)
    · obtain ⟨rfl, rfl⟩ := List.cons.inj same
      rfl
    · rw [(idle_iff length).mp idle, (idle_iff size).mp either]
  · intro same
    rcases determined same with words | ⟨idle, either⟩
    · rw [Row.length, Row.length, shown_words, shown_words, words]
    · rw [idle.length, either.length]

/-- A move of 64 to memory, with its two extension words. -/
def move (displacement : Word) (operands : String) : Row :=
  ⟨0, [0o12761, 0o100, displacement], "MOV", operands, false⟩

/-- The two words, each in an image of its own, and moves that differ in their last word alone. -/
theorem text_eq_of_idle_ne_of_extension :
    disassemble? #[0o240, 0] 0 = some ⟨0, [0o240], "NOP", "", false⟩ ∧
      disassemble? #[0o260, 0] 0 = some ⟨0, [0o260], "NOP", "", false⟩ ∧
      Row.text ⟨0, [0o240], "NOP", "", false⟩ = Row.text ⟨0, [0o260], "NOP", "", false⟩ ∧
      disassemble? #[0o361, 0o25, 0o100, 0, 2, 0] 0 = some (move 2 "#100, 2(R1)") ∧
      disassemble? #[0o361, 0o25, 0o100, 0, 4, 0, 0o240, 0] 0 = some (move 4 "#100, 4(R1)") ∧
      (move 2 "#100, 2(R1)").text ≠ (move 4 "#100, 4(R1)").text := by
  have first : disassemble? #[0o240, 0] 0 = some ⟨0, [0o240], "NOP", "", false⟩ := by decide +kernel
  have second : disassemble? #[0o260, 0] 0 = some ⟨0, [0o260], "NOP", "", false⟩ := by decide +kernel
  have moved : disassemble? #[0o361, 0o25, 0o100, 0, 2, 0] 0 = some (move 2 "#100, 2(R1)") := by decide +kernel
  have farther : disassemble? #[0o361, 0o25, 0o100, 0, 4, 0, 0o240, 0] 0 = some (move 4 "#100, 4(R1)") := by
    decide +kernel
  refine ⟨first, second, (text_eq_iff first second).1.mpr (.inr ⟨.inl rfl, .inr rfl⟩), moved, farther, fun same => ?_⟩
  rcases (text_eq_iff moved farther).1.mp same with words | ⟨idle, _⟩
  · exact absurd words (by decide)
  · exact absurd idle.length (by decide)

end

end Row
end Pdp11
