import Pdp11.Proofs.InstructionLayout

/-! A row of the disassembly is a function of its words and of where they lie. The image is asked
for the instruction word and for as many words after it as the operands take, and for nothing
else. A row is missing only where one of them is. -/

namespace Pdp11

/-- Words at consecutive even addresses, going on at address zero past the top, if the image
holds them all. -/
def imageWords? (image : Array Byte) (address : Word) : Nat → Option (List Word)
  | 0 => some []
  | count + 1 => do
    let word ← imageWord? image address
    let rest ← imageWords? image (address + 2) count
    return word :: rest

section

variable {image : Array Byte} {address word : Word} {words : List Word} {count : Nat}

theorem imageWord?_eq_some_iff : imageWord? image address = some word ↔
    image[address.even.toNat]? = some word.low ∧ image[address.even.toNat + 1]? = some word.high := by
  simp only [imageWord?, Option.bind_eq_bind, Option.bind_eq_some_iff]
  constructor
  · rintro ⟨low, lowFound, high, highFound, same⟩
    obtain rfl := Option.some_inj.mp same
    rw [Word.low_ofBytes, Word.high_ofBytes]
    exact ⟨lowFound, highFound⟩
  · rintro ⟨lowFound, highFound⟩
    exact ⟨word.low, lowFound, word.high, highFound, congrArg some word.ofBytes_low_high⟩

theorem Word.first_place (address : Word) : address + 2 * BitVec.ofNat 16 0 = address := by simp

/-- The place of a word in a run of them. -/
theorem Word.next_place (address : Word) (index : Nat) :
    address + 2 + 2 * BitVec.ofNat 16 index = address + 2 * BitVec.ofNat 16 (index + 1) := by
  rw [BitVec.ofNat_add]
  bv_omega

theorem imageWords?_eq_some_iff : imageWords? image address count = some words ↔ words.length = count ∧
    ∀ index (inside : index < words.length), imageWord? image (address + 2 * BitVec.ofNat 16 index) = some words[index] := by
  induction count generalizing address words with
  | zero =>
    rw [imageWords?, Option.some_inj]
    constructor
    · rintro rfl
      exact ⟨rfl, nofun⟩
    · rintro ⟨none, _⟩
      exact (List.length_eq_zero_iff.mp none).symm
  | succ count ih =>
    simp only [imageWords?, Option.bind_eq_bind, Option.bind_eq_some_iff, ih]
    constructor
    · rintro ⟨word, first, rest, ⟨length, later⟩, same⟩
      obtain rfl := Option.some_inj.mp same
      refine ⟨congrArg (· + 1) length, fun index inside => ?_⟩
      cases index with
      | zero =>
        rw [Word.first_place]
        exact first
      | succ index =>
        rw [← Word.next_place]
        exact later index (Nat.lt_of_succ_lt_succ inside)
    · rintro ⟨length, found⟩
      cases words with
      | nil => cases length
      | cons word rest =>
        have first := found 0 (Nat.zero_lt_succ _)
        rw [Word.first_place] at first
        refine ⟨word, first, rest, ⟨Nat.succ_inj.mp length, fun index inside => ?_⟩, rfl⟩
        rw [Word.next_place]
        exact found (index + 1) (Nat.succ_lt_succ inside)

theorem length_imageWords? (found : imageWords? image address count = some words) : words.length = count :=
  (imageWords?_eq_some_iff.mp found).1

theorem imageWords?_cons : imageWords? image address (count + 1) = some (word :: words) ↔
    imageWord? image address = some word ∧ imageWords? image (address + 2) count = some words := by
  simp only [imageWords?, Option.bind_eq_bind, Option.bind_eq_some_iff]
  constructor
  · rintro ⟨first, found, rest, held, same⟩
    obtain ⟨rfl, rfl⟩ := List.cons.inj (Option.some_inj.mp same)
    exact ⟨found, held⟩
  · rintro ⟨found, held⟩
    exact ⟨word, found, words, held, rfl⟩

theorem imageWords?_add (image : Array Byte) (address : Word) (first second : Nat) :
    imageWords? image address (first + second) = (imageWords? image address first).bind fun front =>
      (imageWords? image (address + 2 * BitVec.ofNat 16 first) second).map (front ++ ·) := by
  induction first generalizing address with
  | zero =>
    rw [Nat.zero_add, imageWords?, Option.bind_some, Word.first_place]
    exact Option.map_id'.symm
  | succ first ih =>
    rw [Nat.add_right_comm, imageWords?, imageWords?, ih, Word.next_place]
    cases imageWord? image address with
    | none => rfl
    | some word =>
      cases imageWords? image (address + 2) first with
      | none => rfl
      | some front =>
        cases imageWords? image (address + 2 * BitVec.ofNat 16 (first + 1)) second <;> rfl

end

namespace Operand

/-- What is written before the number or the register. -/
def marks (operand : Operand) : List Char :=
  match operand.mode with
  | .register | .registerDeferred | .index => []
  | .autoIncrement => if operand.register = .pc then ['#'] else []
  | .autoIncrementDeferred => if operand.register = .pc then ['@', '#'] else ['@']
  | .autoDecrement => ['-']
  | .autoDecrementDeferred => ['@', '-']
  | .indexDeferred => ['@']

/-- What is written after the number: the register, unless a word of the instruction stream
stands for the operand. -/
def tail (operand : Operand) : List Char :=
  match operand.mode with
  | .register => operand.register.name.toList
  | .registerDeferred | .autoDecrement | .autoDecrementDeferred => '(' :: operand.register.name.toList ++ [')']
  | .autoIncrement | .autoIncrementDeferred =>
    if operand.register = .pc then [] else '(' :: operand.register.name.toList ++ [')', '+']
  | .index | .indexDeferred => if operand.register = .pc then [] else '(' :: operand.register.name.toList ++ [')']

/-- The number that an extension word at `pc` is written as. -/
def number (operand : Operand) (pc word : Word) : Word :=
  match operand.mode with
  | .index | .indexDeferred => if operand.register = .pc then pc + 2 + word else word
  | _ => word

/-- Digits of that number; there are none without an extension word. -/
def digits (operand : Operand) (pc : Word) (extension : List Word) : List Char :=
  extension.flatMap fun word => octalDigits (operand.number pc word).toNat

/-- Text of an operand from its extension word at `pc`, if it has one. -/
def spell (operand : Operand) (pc : Word) (extension : List Word) : List Char :=
  operand.marks ++ operand.digits pc extension ++ operand.tail

theorem digits_word (operand : Operand) (pc word : Word) :
    operand.digits pc [word] = octalDigits (operand.number pc word).toNat :=
  List.flatMap_singleton _ word

theorem spell_word (operand : Operand) (pc word : Word) :
    operand.spell pc [word] = operand.marks ++ octalDigits (operand.number pc word).toNat ++ operand.tail := by
  rw [spell, digits_word]

theorem listing?_eq (operand : Operand) (image : Array Byte) (pc : Word) :
    operand.listing? image pc = (imageWords? image pc operand.taken).map fun extension =>
      ⟨String.ofList (operand.spell pc extension), extension⟩ := by
  have one : imageWords? image pc 1 = (imageWord? image pc).map ([·]) := by
    rw [imageWords?]
    cases imageWord? image pc <;> rfl
  obtain ⟨mode, register⟩ := operand
  by_cases relative : register = .pc
  · subst relative
    cases mode with
    | register | registerDeferred | autoDecrement | autoDecrementDeferred => rfl
    | autoIncrement | autoIncrementDeferred | index | indexDeferred =>
      refine Eq.trans ?_ (congrArg (Option.map _) one.symm)
      simp only [listing?, listing?.indexed, beq_self_eq_true, if_true, Option.map_map, Function.comp_def, spell_word]
      cases imageWord? image pc with
      | none => rfl
      | some word =>
        refine congrArg (fun text => some (Listing.mk text [word])) (String.toList_inj.mp ?_)
        simp [marks, tail, number, octal]
  · cases mode with
    | register | registerDeferred | autoDecrement | autoDecrementDeferred =>
      cases register <;> rfl
    | autoIncrement | autoIncrementDeferred =>
      simp [listing?, taken, usesExtensionWord, imageWords?, spell, digits, marks, tail, relative, ← String.toList_inj]
    | index | indexDeferred =>
      refine Eq.trans ?_ (congrArg (Option.map _) one.symm)
      simp only [listing?, listing?.indexed, beq_eq_false_iff_ne.mpr relative, Option.map_map, Function.comp_def, spell_word]
      cases imageWord? image pc with
      | none => rfl
      | some word =>
        refine congrArg (fun text => some (Listing.mk text [word])) (String.toList_inj.mp ?_)
        simp [marks, tail, number, octal, relative]

end Operand

namespace Instruction

/-- Words that the source takes before the destination has its turn. -/
def sourceTaken (instruction : Instruction) : Nat := instruction.source?.elim 0 (·.taken)

/-- Operand text of an instruction from its extension words, the first of which lies at `pc`. -/
def spell (instruction : Instruction) (pc : Word) (extension : List Word) : String :=
  let before := instruction.sourceTaken
  let source := instruction.source?.elim [] (·.spell pc (extension.take before))
  let destination := instruction.destination?.elim [] (·.spell (pc + 2 * BitVec.ofNat 16 before) (extension.drop before))
  instruction.operandText (String.ofList source) (String.ofList destination) (octal (instruction.target pc).toNat)

theorem listing?_eq (instruction : Instruction) (image : Array Byte) (pc : Word) :
    instruction.listing? image pc = (imageWords? image pc instruction.taken).map fun extension =>
      ⟨instruction.spell pc extension, extension⟩ := by
  cases instruction with
  | control | codes | rts | branch | sob | mark | call => rfl
  | jmp dst | swab dst | sxt dst | mtps dst | mfps dst | clr _ dst | tst _ dst | unary _ _ dst =>
    simp only [listing?, spell, taken, sourceTaken, operandText, source?, destination?, Option.elim, Word.first_place,
      Nat.zero_add, List.drop_zero]
    exact dst.listing?_eq image pc
  | jsr _ dst | xor _ dst =>
    simp only [listing?, spell, taken, sourceTaken, operandText, source?, destination?, Option.elim, Word.first_place,
      Nat.zero_add, List.drop_zero, dst.listing?_eq]
    cases imageWords? image pc dst.taken <;> rfl
  | mov _ src dst | cmp _ src dst | bit _ src dst | bic _ src dst | bis _ src dst | add src dst | sub src dst =>
    simp only [listing?, spell, taken, sourceTaken, operandText, source?, destination?, Option.elim, imageWords?_add,
      src.listing?_eq, dst.listing?_eq]
    cases front : imageWords? image pc src.taken with
    | none => rfl
    | some first =>
      have length := length_imageWords? front
      simp only [Option.map_some, Option.bind_eq_bind, Option.bind_some, length]
      cases imageWords? image (pc + 2 * BitVec.ofNat 16 src.taken) dst.taken with
      | none => rfl
      | some second => simp [← length]

end Instruction

/-- How many words after it the instruction word asks for. -/
def extensionCount (word : Word) : Nat := (Instruction.ofWord? word).elim 0 (·.taken)

/-- The row of an instruction word and its extension words at an address. -/
def Row.shown (address word : Word) (extension : List Word) : Row :=
  match Instruction.ofWord? word with
  | some instruction =>
    ⟨address, word :: extension, instruction.mnemonic, instruction.spell (address + 2) extension, false⟩
  | none => ⟨address, word :: extension, ".WORD", octal word.toNat, true⟩

section

variable {address word : Word} {instruction : Instruction}

theorem Row.shown_of_decoded (decoded : Instruction.ofWord? word = some instruction) (extension : List Word) :
    Row.shown address word extension =
      ⟨address, word :: extension, instruction.mnemonic, instruction.spell (address + 2) extension, false⟩ := by
  rw [Row.shown, decoded]

theorem Row.shown_of_reserved (reserved : Instruction.ofWord? word = none) (extension : List Word) :
    Row.shown address word extension = ⟨address, word :: extension, ".WORD", octal word.toNat, true⟩ := by
  rw [Row.shown, reserved]

theorem extensionCount_of_decoded (decoded : Instruction.ofWord? word = some instruction) :
    extensionCount word = instruction.taken := by
  rw [extensionCount, decoded, Option.elim_some]

theorem extensionCount_of_reserved (reserved : Instruction.ofWord? word = none) : extensionCount word = 0 := by
  rw [extensionCount, reserved, Option.elim_none]

end

theorem disassemble?_eq (image : Array Byte) (pc : Word) :
    disassemble? image pc = (imageWord? image pc.even).bind fun word =>
      (imageWords? image (pc.even + 2) (extensionCount word)).map (Row.shown pc.even word) := by
  rw [disassemble?]
  cases imageWord? image pc.even with
  | none => rfl
  | some word =>
    simp only [Option.bind_eq_bind, Option.bind_some]
    cases decoded : Instruction.ofWord? word with
    | none =>
      rw [extensionCount_of_reserved decoded]
      exact congrArg some (Row.shown_of_reserved decoded []).symm
    | some instruction =>
      simp only [extensionCount_of_decoded decoded, instruction.listing?_eq]
      cases imageWords? image (pc.even + 2) instruction.taken with
      | none => rfl
      | some extension => exact congrArg some (Row.shown_of_decoded decoded extension).symm

end Pdp11
