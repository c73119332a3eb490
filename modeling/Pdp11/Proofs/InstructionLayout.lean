import Pdp11.Disassembly
import Pdp11.Proofs.InstructionCases
import Pdp11.Proofs.OperandStage
import Pdp11.Proofs.TrapReturn

/-! A row of the disassembly shows an instruction as it is executed. One walk over the
instruction stream goes through an image, the other fetches from memory and moves the program
counter. Both take the same words from the same places, so the addresses that a row shows are
the ones that the processor computes. -/

namespace Pdp11

namespace Word

theorem even_add_even (address step : Word) (even : step.even = step) :
    (address.even + step).even = address.even + step := by
  rw [← even]
  apply BitVec.eq_of_toNat_eq
  rw [toNat_even, BitVec.toNat_add, toNat_even, toNat_even]
  omega

theorem even_double (word : Word) : (2 * word).even = 2 * word := by
  apply BitVec.eq_of_toNat_eq
  rw [toNat_even, BitVec.toNat_mul, show (2 : Word).toNat = 2 from rfl]
  omega

end Word

namespace Memory

/-- Consecutive words, going on at address zero past the top. -/
def words (memory : Memory) (address : Word) : Nat → List Word
  | 0 => []
  | count + 1 => memory.word address :: memory.words (address + 2) count

theorem length_words (memory : Memory) (address : Word) (count : Nat) : (memory.words address count).length = count := by
  induction count generalizing address with
  | zero => rfl
  | succ count ih => exact congrArg (· + 1) (ih (address + 2))

theorem words_append (memory : Memory) (address : Word) (first second : Nat) :
    memory.words address first ++ memory.words (address + 2 * BitVec.ofNat 16 first) second =
      memory.words address (first + second) := by
  induction first generalizing address with
  | zero => simp [words]
  | succ count ih =>
    have further : address + 2 * BitVec.ofNat 16 (count + 1) = address + 2 + 2 * BitVec.ofNat 16 count := by
      rw [BitVec.ofNat_add]
      bv_omega
    rw [further, Nat.add_right_comm, words, words, List.cons_append, ih]

theorem getElem?_image (memory : Memory) (address : Word) : memory.image[address.toNat]? = some (memory.byte address) :=
  Vector.getElem?_toArray.trans (Vector.getElem?_eq_getElem address.isLt)

/-- An image holds every word of the memory that it was taken from. -/
theorem imageWord?_image (memory : Memory) (address : Word) :
    imageWord? memory.image address = some (memory.word address) := by
  have bounded := address.isLt
  have parity := Word.toNat_even address
  have next : (address.even + 1).toNat = address.even.toNat + 1 := by
    rw [BitVec.toNat_add]
    have one : (1 : Word).toNat = 1 := rfl
    omega
  have low : memory.image[address.even.toNat]? = some (memory.byte address.even) := memory.getElem?_image _
  have high : memory.image[address.even.toNat + 1]? = some (memory.byte (address.even + 1)) :=
    next ▸ memory.getElem?_image _
  simp only [imageWord?, low, high]
  rfl

end Memory

namespace Operand

/-- How many words of the instruction stream an operand takes. -/
def taken (operand : Operand) : Nat := if operand.usesExtensionWord then 1 else 0

/-- Text of an operand whose extension word, if it has one, lies at `pc`. -/
def shown (operand : Operand) (memory : Memory) (pc : Word) : String :=
  ((operand.listing? memory.image pc).map (·.text)).getD ""

theorem listing?_extension (operand : Operand) (memory : Memory) (pc : Word) :
    (operand.listing? memory.image pc).map (·.extension) = some (memory.words pc operand.taken) := by
  obtain ⟨mode, register⟩ := operand
  cases mode with
  | register | registerDeferred | autoDecrement | autoDecrementDeferred => rfl
  | autoIncrement | autoIncrementDeferred =>
    by_cases relative : register = .pc
    · simp [listing?, memory.imageWord?_image, taken, usesExtensionWord, Memory.words, relative]
    · simp [listing?, taken, usesExtensionWord, Memory.words, relative]
  | index | indexDeferred =>
    by_cases relative : register = .pc
    · simp [listing?, listing?.indexed, memory.imageWord?_image, taken, usesExtensionWord, Memory.words, relative]
    · simp [listing?, listing?.indexed, memory.imageWord?_image, taken, usesExtensionWord, Memory.words, relative]

theorem listing?_image (operand : Operand) (memory : Memory) (pc : Word) :
    operand.listing? memory.image pc = some ⟨operand.shown memory pc, memory.words pc operand.taken⟩ := by
  have extension := operand.listing?_extension memory pc
  rw [shown]
  cases listed : operand.listing? memory.image pc with
  | none =>
    rw [listed] at extension
    cases extension
  | some listing =>
    rw [listed, Option.map_some, Option.some_inj] at extension
    rw [← extension]
    rfl

theorem shown_relative (memory : Memory) (pc : Word) :
    shown ⟨.index, .pc⟩ memory pc = octal (pc + 2 + memory.word pc).toNat := by
  rw [shown, show listing? memory.image pc ⟨.index, .pc⟩ =
    (imageWord? memory.image pc).bind fun offset => some ⟨"" ++ octal (pc + 2 + offset).toNat, [offset]⟩ from rfl,
    memory.imageWord?_image]
  exact String.empty_append

theorem shown_relativeDeferred (memory : Memory) (pc : Word) :
    shown ⟨.indexDeferred, .pc⟩ memory pc = "@" ++ octal (pc + 2 + memory.word pc).toNat := by
  rw [shown, show listing? memory.image pc ⟨.indexDeferred, .pc⟩ =
    (imageWord? memory.image pc).bind fun offset => some ⟨"@" ++ octal (pc + 2 + offset).toNat, [offset]⟩ from rfl,
    memory.imageWord?_image]
  rfl

/-- The operand moves the program counter back. No extension word is skipped that way. -/
def StepsPcBack (operand : Operand) : Prop :=
  operand = ⟨.autoDecrement, .pc⟩ ∨ operand = ⟨.autoDecrementDeferred, .pc⟩

end Operand

theorem RegisterFile.pc_advance (file : RegisterFile) (name : Register) (step : Word) (whole : name = .pc → step = 2) :
    (file.set name (file.get name + step)).pc = file.pc + 2 * BitVec.ofNat 16 (if name == .pc then 1 else 0) := by
  by_cases relative : name = .pc
  · subst relative
    rw [pc, get_set, if_pos rfl, whole rfl]
    rfl
  · rw [pc, get_set, if_neg relative]
    simp [relative, pc]

open Microcode

/-- Address of an indexed operand, or of its pointer in the deferred mode. -/
def Microcode.indexedAddress {β : Type} [Board β] (name : Register) : Microcode β Word := do
  let offset ← fetchWord
  return (← register name) + offset

theorem Microcode.resolve_index {β : Type} [Board β] (width : Width) (name : Register) :
    (resolve width ⟨.index, name⟩ : Microcode β Location) = (do return .memory (← indexedAddress name)) := by
  simp only [resolve, indexedAddress, bind_assoc, pure_bind]

theorem Microcode.resolve_indexDeferred {β : Type} [Board β] (width : Width) (name : Register) :
    (resolve width ⟨.indexDeferred, name⟩ : Microcode β Location) =
      (do return .memory (← readWord (← indexedAddress name))) := by
  simp only [resolve, indexedAddress, bind_assoc, pure_bind]

/-- With other contents of the registers. -/
def Machine.moved {β : Type} (machine : Machine β) (registers : RegisterFile) : Machine β :=
  machine.update ({ · with registers })

/-- Nothing stands in the way of a read: the board has no holes, and there is no bus error left
to answer. -/
structure Machine.Open (machine : Machine FlatBoard) : Prop where
  unobstructed : machine.board.holes = []
  ready : machine.processor.lines.hasBusError = false

section

variable {machine : Machine FlatBoard}

namespace Machine.Open

theorem moved (opened : machine.Open) (registers : RegisterFile) : (machine.moved registers).Open :=
  ⟨opened.unobstructed, opened.ready⟩

theorem checkMapped (opened : machine.Open) (address : Word) : machine.board.checkMapped address = .ok () := by
  rw [FlatBoard.checkMapped, opened.unobstructed]
  rfl

theorem readWord (opened : machine.Open) (address : Word) :
    readWord address machine = .ok (machine.board.memory.word address) machine := by
  rw [← Memory.word_even]
  exact cycle_of_ok opened.ready (FlatBoard.readWord_of_mapped (opened.checkMapped _))

theorem throughPointer (opened : machine.Open) (registers : RegisterFile) (pointer : Word) :
    (do return .memory (← Microcode.readWord pointer) : Microcode FlatBoard Location) (machine.moved registers) =
      .ok (.memory (machine.board.memory.word pointer)) (machine.moved registers) := by
  rw [bind_of_ok ((opened.moved registers).readWord pointer)]
  rfl

theorem readByte (opened : machine.Open) (address : Word) :
    readByte address machine = .ok (machine.board.memory.byte address) machine :=
  cycle_of_ok opened.ready (FlatBoard.readByte_of_mapped (opened.checkMapped _))

theorem load (opened : machine.Open) (width : Width) (location : Location) :
    ∃ value, load width location machine = .ok value machine := by
  cases location with
  | register name => exact ⟨_, rfl⟩
  | memory address =>
    cases width with
    | word => exact ⟨_, opened.readWord address⟩
    | byte =>
      refine ⟨(machine.board.memory.byte address).setWidth 16, ?_⟩
      rw [Microcode.load, bind_of_ok (opened.readByte address)]
      rfl

theorem fetchWord (opened : machine.Open) (even : machine.processor.pc.even = machine.processor.pc) :
    fetchWord machine = .ok (machine.board.memory.word machine.processor.pc)
      (machine.moved (machine.processor.registers.setPc (machine.processor.pc + 2))) := by
  change (do
    let word ← Microcode.readWord machine.processor.pc.even
    setPc (machine.processor.pc.even + 2)
    return word : Microcode FlatBoard Word) machine = _
  rw [even, bind_of_ok (opened.readWord _)]
  rfl

theorem indexedAddress (opened : machine.Open) (even : machine.processor.pc.even = machine.processor.pc) (name : Register) :
    indexedAddress name machine =
      .ok ((machine.processor.registers.setPc (machine.processor.pc + 2)).get name +
        machine.board.memory.word machine.processor.pc)
      (machine.moved (machine.processor.registers.setPc (machine.processor.pc + 2))) := by
  rw [Microcode.indexedAddress, bind_of_ok (opened.fetchWord even)]
  rfl

end Machine.Open

end

/-- An operand is located between two machines. A relative operand's text is the address that
is computed for it, or with a mark before it the address of its pointer. -/
structure Operand.Found (operand : Operand) (width : Width) (text : String) (location : Location)
    (before after : Machine FlatBoard) : Prop where
  resolved : resolve width operand before = .ok location after
  relative : operand = ⟨.index, .pc⟩ → ∃ address, indexedAddress .pc before = .ok address after ∧
    location = .memory address ∧ text = octal address.toNat
  relativeDeferred : operand = ⟨.indexDeferred, .pc⟩ → ∃ pointer middle address,
    indexedAddress .pc before = .ok pointer middle ∧ readWord pointer middle = .ok address after ∧
    location = .memory address ∧ text = "@" ++ octal pointer.toNat

section

variable {machine : Machine FlatBoard}

/-- Nothing but the two indexed modes has an address in its text. -/
theorem Operand.Found.of_resolved {mode : AddressingMode} {name : Register} {width : Width} {text : String}
    {location : Location} {after : Machine FlatBoard} (direct : mode ≠ .index) (apart : mode ≠ .indexDeferred)
    (resolved : resolve width ⟨mode, name⟩ machine = .ok location after) :
    Operand.Found ⟨mode, name⟩ width text location machine after :=
  ⟨resolved, fun same => absurd (congrArg Operand.mode same) direct,
    fun same => absurd (congrArg Operand.mode same) apart⟩

theorem Operand.exists_found (opened : machine.Open) (even : machine.processor.pc.even = machine.processor.pc)
    (operand : Operand) (width : Width) : ∃ location registers,
    operand.Found width (operand.shown machine.board.memory machine.processor.pc) location machine (machine.moved registers) ∧
      (¬operand.StepsPcBack → registers.pc = machine.processor.pc + 2 * BitVec.ofNat 16 operand.taken) := by
  obtain ⟨mode, name⟩ := operand
  let registers := machine.processor.registers
  let memory := machine.board.memory
  have stays : registers.pc = machine.processor.pc + 2 * BitVec.ofNat 16 0 := by simp [registers, Processor.pc]
  cases mode with
  | register => exact ⟨.register name, registers, .of_resolved (by decide) (by decide) rfl, fun _ => stays⟩
  | registerDeferred =>
    exact ⟨.memory (registers.get name), registers, .of_resolved (by decide) (by decide) rfl, fun _ => stays⟩
  | autoIncrement =>
    refine ⟨.memory (registers.get name), registers.set name (registers.get name + stepOf name width),
      .of_resolved (by decide) (by decide) rfl, fun _ => ?_⟩
    exact registers.pc_advance name _ fun same => same ▸ rfl
  | autoIncrementDeferred =>
    let advanced := registers.set name (registers.get name + 2)
    refine ⟨.memory (memory.word (registers.get name)), advanced, .of_resolved (by decide) (by decide) ?_, fun _ => ?_⟩
    · exact opened.throughPointer advanced (registers.get name)
    · exact registers.pc_advance name 2 fun _ => rfl
  | autoDecrement =>
    refine ⟨.memory (registers.get name - stepOf name width), registers.set name (registers.get name - stepOf name width),
      .of_resolved (by decide) (by decide) rfl, fun steady => ?_⟩
    rw [RegisterFile.pc, RegisterFile.get_set, if_neg fun same => steady (.inl (by rw [same]))]
    exact stays
  | autoDecrementDeferred =>
    let lowered := registers.set name (registers.get name - 2)
    refine ⟨.memory (memory.word (registers.get name - 2)), lowered,
      .of_resolved (by decide) (by decide) ?_, fun steady => ?_⟩
    · exact opened.throughPointer lowered (registers.get name - 2)
    · rw [RegisterFile.pc, RegisterFile.get_set, if_neg fun same => steady (.inr (by rw [same]))]
      exact stays
  | index =>
    let fetched := registers.setPc (machine.processor.pc + 2)
    have computed := opened.indexedAddress even name
    refine ⟨.memory (fetched.get name + memory.word machine.processor.pc), fetched, ⟨?_, ?_, (by intro same; cases same)⟩,
      fun _ => RegisterFile.pc_setPc _ _⟩
    · rw [resolve_index, bind_of_ok computed]
      rfl
    · rintro ⟨rfl⟩
      refine ⟨_, computed, rfl, ?_⟩
      change _ = octal (fetched.pc + _).toNat
      rw [shown_relative, RegisterFile.pc_setPc]
  | indexDeferred =>
    let fetched := registers.setPc (machine.processor.pc + 2)
    have computed := opened.indexedAddress even name
    have pointed := (opened.moved fetched).readWord (fetched.get name + memory.word machine.processor.pc)
    refine ⟨.memory (memory.word (fetched.get name + memory.word machine.processor.pc)), fetched,
      ⟨?_, (by intro same; cases same), ?_⟩, fun _ => RegisterFile.pc_setPc _ _⟩
    · rw [resolve_indexDeferred, bind_of_ok computed, bind_of_ok pointed]
      rfl
    · rintro ⟨rfl⟩
      refine ⟨_, _, _, computed, pointed, rfl, ?_⟩
      change _ = "@" ++ octal (fetched.pc + _).toNat
      rw [shown_relativeDeferred, RegisterFile.pc_setPc]

/-- What the instruction stream gives an instruction, at most one word for each operand. -/
def Instruction.taken (instruction : Instruction) : Nat :=
  instruction.source?.elim 0 (·.taken) + instruction.destination?.elim 0 (·.taken)

/-- How the operands of an instruction are written, from their texts and a branch target's. -/
def Instruction.operandText (source destination target : String) : Instruction → String
  | control _ | codes _ _ => ""
  | jmp _ | swab _ | sxt _ | mtps _ | mfps _ => destination
  | clr _ _ | tst _ _ | unary _ _ _ => destination
  | jsr register _ | xor register _ => register.name ++ ", " ++ destination
  | mov _ _ _ | cmp _ _ _ | bit _ _ _ | bic _ _ _ | bis _ _ _ | add _ _ | sub _ _ => source ++ ", " ++ destination
  | rts register => register.name
  | branch _ _ => target
  | sob register _ => register.name ++ ", " ++ target
  | mark count => octal count.toNat
  | call _ code => octal code.toNat

/-- Where a branch or a loop goes from a program counter that is past it. -/
def Instruction.target (pc : Word) : Instruction → Word
  | branch _ offset => pc + branchDistance offset
  | sob _ offset => pc - loopDistance offset
  | _ => pc

/-- Text of the source where the extension words begin at `pc`. -/
def Instruction.sourceText (memory : Memory) (pc : Word) (instruction : Instruction) : String :=
  instruction.source?.elim "" (·.shown memory pc)

/-- Text of the destination, whose extension word comes after that of the source. -/
def Instruction.destinationText (memory : Memory) (pc : Word) (instruction : Instruction) : String :=
  instruction.destination?.elim "" (·.shown memory (pc + 2 * BitVec.ofNat 16 (instruction.source?.elim 0 (·.taken))))

theorem Instruction.listing?_image (instruction : Instruction) (memory : Memory) (pc : Word) :
    instruction.listing? memory.image pc = some
      ⟨instruction.operandText (instruction.sourceText memory pc) (instruction.destinationText memory pc)
          (octal (instruction.target pc).toNat),
        memory.words pc instruction.taken⟩ := by
  have past : pc + 2 * BitVec.ofNat 16 0 = pc := by simp
  cases instruction with
  | control | codes | rts | branch | sob | mark | call => rfl
  | jmp dst | swab dst | sxt dst | mtps dst | mfps dst | clr _ dst | tst _ dst | unary _ _ dst =>
    simp only [listing?, taken, operandText, destinationText, source?, destination?, Option.elim, past, Nat.zero_add]
    exact dst.listing?_image memory pc
  | jsr _ dst | xor _ dst =>
    simp only [listing?, taken, operandText, destinationText, source?, destination?, Option.elim, past, Nat.zero_add,
      dst.listing?_image]
    rfl
  | mov _ src dst | cmp _ src dst | bit _ src dst | bic _ src dst | bis _ src dst | add src dst | sub src dst =>
    simp only [listing?, taken, operandText, sourceText, destinationText, source?, destination?, Option.elim,
      src.listing?_image, dst.listing?_image, Option.bind_eq_bind, Option.bind_some, Memory.length_words, memory.words_append]
    rfl

theorem disassemble?_image {instruction : Instruction} (memory : Memory) {pc : Word} (even : pc.even = pc)
    (decoded : Instruction.ofWord? (memory.word pc) = some instruction) :
    disassemble? memory.image pc = some
      { address := pc
        words := memory.words pc (instruction.taken + 1)
        mnemonic := instruction.mnemonic
        operands := instruction.operandText (instruction.sourceText memory (pc + 2))
          (instruction.destinationText memory (pc + 2)) (octal (instruction.target (pc + 2)).toNat)
        reserved := false } := by
  simp only [disassemble?, even, memory.imageWord?_image, Option.bind_eq_bind, Option.bind_some, decoded,
    instruction.listing?_image]
  rfl

/-- The same of an operand that the instruction may lack. -/
def Operand.FoundIfAny (width : Width) (text : String) (before after : Machine FlatBoard) :
    Option Operand → Option Location → Prop
  | none, none => after = before
  | some operand, some location => operand.Found width text location before after
  | _, _ => False

/-- A branch goes to this address if it is taken, and so does a loop. A loop that counts in the
program counter is left out: its count moves what its distance is measured from. -/
def Instruction.Reaches (target : Word) (fetched : Machine FlatBoard) : Instruction → Prop
  | branch condition offset => execute (branch condition offset) fetched =
      .ok .completed (if condition.holds fetched.processor.status then fetched.update (·.setPc target) else fetched)
  | sob counter offset => counter ≠ .pc →
      let count := fetched.processor.registers.get counter - 1
      let counted := fetched.update (·.setRegister counter count)
      execute (sob counter offset) fetched = .ok .completed (if count = 0 then counted else counted.update (·.setPc target))
  | _ => True

theorem Instruction.reaches_target (instruction : Instruction) (fetched : Machine FlatBoard) :
    instruction.Reaches (instruction.target fetched.processor.pc) fetched := by
  cases instruction with
  | branch condition offset =>
    cases taken : condition.holds fetched.processor.status with
    | true | false =>
      simp only [Reaches, execute, Bind.bind, EStateM.bind, processor, taken]
      rfl
  | sob counter offset =>
    intro apart count counted
    have kept : counted.processor.registers.get .pc = fetched.processor.pc := by
      change (fetched.processor.registers.set counter count).get .pc = _
      rw [RegisterFile.get_set, if_neg apart]
      rfl
    have counting : execute (sob counter offset) fetched = (if count != 0 then (do
        setPc ((← register .pc) - loopDistance offset)
        return .completed) else return .completed : Microcode FlatBoard Retirement) counted := rfl
    by_cases done : count = 0
    · rw [counting, if_pos done, done]
      rfl
    · rw [counting, if_neg done, if_pos (bne_iff_ne.mpr done), target, ← kept]
      rfl
  | _ => trivial

theorem Instruction.exists_located (opened : machine.Open) (even : machine.processor.pc.even = machine.processor.pc)
    (instruction : Instruction) (steady : ∀ source ∈ instruction.source?, ¬source.StepsPcBack) :
    ∃ located rest middle registers, operandStage instruction machine = .ok (located, rest) (machine.moved registers) ∧
      Operand.FoundIfAny instruction.opcode.width (instruction.sourceText machine.board.memory machine.processor.pc)
        machine middle instruction.source? located.source ∧
      Operand.FoundIfAny instruction.opcode.width (instruction.destinationText machine.board.memory machine.processor.pc)
        middle (machine.moved registers) instruction.destination? located.destination ∧
      ((∀ destination ∈ instruction.destination?, ¬destination.StepsPcBack) →
        registers.pc = machine.processor.pc + 2 * BitVec.ofNat 16 instruction.taken) := by
  have past : machine.processor.pc + 2 * BitVec.ofNat 16 0 = machine.processor.pc := by simp
  rw [taken, sourceText, destinationText]
  rcases operandStage_cases instruction machine with ⟨source, destination, staged⟩ |
    ⟨dst, rest, source, destination, staged⟩ | ⟨src, dst, rest, source, destination, staged⟩
  · rw [source, destination]
    exact ⟨_, _, machine, machine.processor.registers, staged, rfl, rfl, fun _ => past.symm⟩
  · rw [source, destination]
    obtain ⟨location, registers, found, advanced⟩ := dst.exists_found opened even instruction.opcode.width
    refine ⟨{ destination := some location }, rest location, machine, registers, ?_, rfl, ?_, fun forward => ?_⟩
    · rw [staged, locateDestination, bind_of_ok found.resolved]
      rfl
    · rw [Option.elim_none, past]
      exact found
    · rw [Option.elim_none, Nat.zero_add]
      exact advanced (forward dst rfl)
  · rw [source] at steady ⊢
    rw [destination]
    obtain ⟨first, moved, foundFirst, passed⟩ := src.exists_found opened even instruction.opcode.width
    replace passed := passed (steady src rfl)
    have openedMiddle := opened.moved moved
    have evenMiddle : moved.pc.even = moved.pc := by
      rw [passed, ← even]
      exact Word.even_add_even _ _ (Word.even_double _)
    obtain ⟨value, loaded⟩ := openedMiddle.load instruction.opcode.width first
    obtain ⟨second, registers, foundSecond, advanced⟩ := dst.exists_found openedMiddle evenMiddle instruction.opcode.width
    refine ⟨{ source := some first, destination := some second }, rest value second, machine.moved moved, registers,
      ?_, foundFirst, ?_, fun forward => ?_⟩
    · have read : readOperand instruction.opcode.width src machine = .ok (first, value) (machine.moved moved) := by
        rw [readOperand, bind_of_ok foundFirst.resolved, bind_of_ok loaded]
        rfl
      rw [staged, locateBoth, bind_of_ok read]
      exact bind_of_ok foundSecond.resolved fun location =>
        pure (({ source := some first, destination := some location } : Located), rest value location)
    · change (dst.Found _ (dst.shown _ moved.pc) _ _ _) at foundSecond
      rw [passed] at foundSecond
      exact foundSecond
    · rw [advanced (forward dst rfl)]
      change moved.pc + _ = _
      rw [passed, Option.elim_some, Option.elim_some, BitVec.ofNat_add]
      bv_omega

theorem Machine.Open.fetchInstruction (opened : machine.Open) (even : machine.processor.pc.even = machine.processor.pc) :
    ∃ fetched, fetchInstruction machine = .ok (machine.board.memory.word machine.processor.pc) fetched ∧
      fetched.Open ∧ fetched.board = machine.board ∧ fetched.processor.pc = machine.processor.pc + 2 := by
  have begun : machine.begun.processor.pc = machine.processor.pc ∧
      machine.begun.processor.lines = machine.processor.lines := by
    rw [Machine.begun, update_processor, Processor.emit_eq]
    exact ⟨(RegisterFile.pc_setPc _ _).trans even, rfl⟩
  have openedBegun : machine.begun.Open := ⟨opened.unobstructed, begun.2 ▸ opened.ready⟩
  have evenBegun : machine.begun.processor.pc.even = machine.begun.processor.pc := by rw [begun.1, even]
  refine ⟨_, ?_, openedBegun.moved (machine.begun.processor.registers.setPc (machine.processor.pc + 2)), rfl,
    RegisterFile.pc_setPc _ _⟩
  have fetch := openedBegun.fetchWord evenBegun
  rw [begun.1] at fetch
  exact fetch

/-- A row of the disassembly is right about the instruction at the program counter. The words
of the row are those that lie there. They are what the processor takes while it fetches the
instruction and locates its operands, before anything is stored and before any jump: by then the
program counter is at the end of the row, unless the destination has moved it back. A relative
operand is shown by the address computed for it, and a branch or a loop by where it goes. -/
theorem disassemble?_shows_execution {instruction : Instruction} (opened : machine.Open)
    (even : machine.processor.pc.even = machine.processor.pc)
    (decoded : Instruction.ofWord? (machine.board.memory.word machine.processor.pc) = some instruction)
    (steady : ∀ source ∈ instruction.source?, ¬source.StepsPcBack) :
    ∃ row fetched located rest resolved, disassemble? machine.board.memory.image machine.processor.pc = some row ∧
      fetchInstruction machine = .ok (machine.board.memory.word machine.processor.pc) fetched ∧
      operandStage instruction fetched = .ok (located, rest) resolved ∧
      execute instruction fetched = rest resolved ∧
      resolved.board = machine.board ∧
      ((∀ destination ∈ instruction.destination?, ¬destination.StepsPcBack) →
        resolved.processor.pc = machine.processor.pc + BitVec.ofNat 16 row.length) ∧
      row.words = machine.board.memory.words machine.processor.pc row.words.length ∧
      ∃ source destination target middle,
        row.operands = instruction.operandText source destination (octal target.toNat) ∧
        Operand.FoundIfAny instruction.opcode.width source fetched middle instruction.source? located.source ∧
        Operand.FoundIfAny instruction.opcode.width destination middle resolved instruction.destination? located.destination ∧
        instruction.Reaches target fetched := by
  obtain ⟨fetched, fetch, openedFetched, board, pc⟩ := opened.fetchInstruction even
  have evenFetched : fetched.processor.pc.even = fetched.processor.pc := by
    rw [pc, ← even]
    exact Word.even_add_even _ _ rfl
  obtain ⟨located, rest, middle, registers, staged, foundSource, foundDestination, advanced⟩ :=
    instruction.exists_located openedFetched evenFetched steady
  rw [board, pc] at foundSource foundDestination
  rw [pc] at advanced
  have reaches := instruction.reaches_target fetched
  rw [pc] at reaches
  refine ⟨_, fetched, located, rest, fetched.moved registers, disassemble?_image _ even decoded, fetch, staged, ?_, board,
    fun forward => ?_, ?_,
    _, _, _, middle, rfl, foundSource, foundDestination, reaches⟩
  · rw [execute_eq_stages, bind_of_ok staged]
  · change registers.pc = _
    rw [advanced forward, Row.length, Memory.length_words, BitVec.ofNat_mul, BitVec.ofNat_add]
    bv_omega
  · rw [Memory.length_words]

end

/-- A move between two relative operands, the second one deferred. -/
def relativeMove : Instruction := .mov .word ⟨.index, .pc⟩ ⟨.indexDeferred, .pc⟩

theorem relativeMove_text (memory : Memory) (pc : Word) (target : String) :
    relativeMove.operandText (relativeMove.sourceText memory pc) (relativeMove.destinationText memory pc) target =
      octal (pc + 2 + memory.word pc).toNat ++ ", " ++ ("@" ++ octal (pc + 2 + 2 + memory.word (pc + 2)).toNat) :=
  congrArg₂ (· ++ ", " ++ ·) (Operand.shown_relative _ _) (Operand.shown_relativeDeferred _ _)

/-- The move lies across the top of memory. -/
def wrappingMove : Machine FlatBoard :=
  ⟨(Processor.create { model := .t11 }).setPc 0o177776, FlatBoard.load {} 0o177776 [0o016777, 0o10, 0o177774]⟩

theorem disassemble?_shows_execution_wrapping :
    ∃ row fetched located rest resolved,
      disassemble? wrappingMove.board.memory.image wrappingMove.processor.pc = some row ∧
        row.operands = "12, @0" ∧ row.length = 6 ∧
        fetchInstruction wrappingMove = .ok 0o016777 fetched ∧
        operandStage relativeMove fetched = .ok (located, rest) resolved ∧
        located = { source := some (.memory 0o12), destination := some (.memory 0o10) } ∧
        resolved.processor.pc = 4 := by
  have opened : wrappingMove.Open := ⟨rfl, rfl⟩
  have pc : wrappingMove.processor.pc = 0o177776 := RegisterFile.pc_setPc _ _
  have word : wrappingMove.board.memory.word wrappingMove.processor.pc = 0o016777 := by
    rw [pc]
    change (((Memory.blank.setWord 0o177776 0o016777).setWord (0o177776 + 2) 0o10).setWord (0o177776 + 2 + 2) 0o177774).word
      0o177776 = _
    rw [Memory.word_setWord_of_ne _ _ (by decide), Memory.word_setWord_of_ne _ _ (by decide), Memory.word_setWord]
  have even : wrappingMove.processor.pc.even = wrappingMove.processor.pc := by
    rw [pc]
    decide
  have decoded : Instruction.ofWord? 0o016777 = some relativeMove := by decide +kernel
  rw [← word] at decoded
  obtain ⟨row, fetched, located, rest, resolved, listed, fetch, staged, _, _, advanced, _⟩ :=
    disassemble?_shows_execution opened even decoded (by rintro source ⟨⟩ (back | back) <;> cases back)
  have shown := Option.some_inj.mp (listed.symm.trans (disassemble?_image _ even decoded))
  have operands : row.operands = "12, @0" := by
    rw [shown, relativeMove_text]
    decide +kernel
  have length : row.length = 6 := by
    rw [shown, Row.length, Memory.length_words]
    rfl
  have found : (answer? (operandStage relativeMove (ended (fetchInstruction wrappingMove)))).map Prod.fst =
      some { source := some (.memory 0o12), destination := some (.memory 0o10) } := by decide +kernel
  rw [fetch, ended, staged] at found
  have past : resolved.processor.pc = 4 := by
    rw [advanced (by rintro destination ⟨⟩ (back | back) <;> cases back), pc, length]
    rfl
  exact ⟨row, fetched, located, rest, resolved, listed, operands, length, word ▸ fetch, staged, Option.some_inj.mp found,
    past⟩

end Pdp11
