import Pdp11.Proofs.OperandRules
import Pdp11.Proofs.TrapEntry

/-! Instructions in two stages. The operands come first: the source is resolved and read, then
the destination is resolved. What is left after that resolves nothing and takes no more words of
the instruction stream. -/

namespace Pdp11

/-- Where the operands of an instruction have been found. -/
structure Located where
  source : Option Location := none
  destination : Option Location := none
deriving DecidableEq

namespace Microcode

variable {β : Type} [Board β]

/-- What is left of an instruction that jumps, once its target is located. -/
def jumpAt (location : Location) (jump : Word → Microcode β Unit) : Microcode β Retirement :=
  match location with
  | .register _ => trapped .illegalInstruction
  | .memory address => do
    jump address
    return .completed

/-- What is left of an instruction that replaces its operand. -/
def modifyAt (width : Width) (compute : Word → Bool → AluResult) (location : Location) : Microcode β Retirement := do
  let value ← load width location
  let result ← commit width (compute value (← processor).status.carry)
  store width result location
  return .completed

/-- What is left of an instruction that only looks at its operands. -/
def compareAt (width : Width) (compute : Word → AluResult) (location : Location) : Microcode β Retirement := do
  let value ← load width location
  let _ ← commit width (compute value)
  return .completed

def locateDestination (width : Width) (dst : Operand) (rest : Location → Microcode β Retirement) :
    Microcode β (Located × Microcode β Retirement) := do
  let location ← resolve width dst
  return ({ destination := some location }, rest location)

def locateBoth (width : Width) (src dst : Operand) (rest : Word → Location → Microcode β Retirement) :
    Microcode β (Located × Microcode β Retirement) := do
  let (first, value) ← readOperand width src
  let second ← resolve width dst
  return ({ source := some first, destination := some second }, rest value second)

/-- Locates the operands of an instruction, and hands on what is left of it. -/
def operandStage : Instruction → Microcode β (Located × Microcode β Retirement)
  | .jmp target => locateDestination .word target fun location => jumpAt location setPc
  | .jsr link target => locateDestination .word target fun location => jumpAt location fun address => do
      push (← register link)
      setRegister link (← register .pc)
      setPc address
  | .swab dst => locateDestination .word dst fun location => do
      let value ← load .word location
      let swapped := Word.ofBytes value.high value.low
      updateStatus ((Alu.test .byte swapped).update.apply .byte swapped)
      store .word swapped location
      return .completed
  | .sxt dst => locateDestination .word dst fun location => do
      let negative := (← processor).status.negative
      store .word (if negative then 0xFFFF else 0) location
      updateStatus fun status => (status.set StatusWord.zeroBit !negative).set StatusWord.overflowBit false
      return .completed
  | .mtps src => locateDestination .byte src fun location => do
      let value ← load .byte location
      update fun processor =>
        let bits := (processor.status.bits &&& ~~~mtpsMask) ||| (value &&& mtpsMask)
        { processor with status := StatusWord.masked ⟨bits⟩ processor.model.implemented }
      return .completed
  | .mfps dst => locateDestination .byte dst fun location => do
      let value := (← processor).status.bits.low.setWidth 16
      let value ← commit .byte (Alu.logic .byte value)
      storeSigned value location
      return .completed
  | .clr width dst => locateDestination width dst fun location => do
      let value ← commit width (Alu.test width 0)
      store width value location
      return .completed
  | .tst width src => locateDestination width src (compareAt width (Alu.test width))
  | .unary op width dst => locateDestination width dst (modifyAt width (op.compute width))
  | .mov width src dst => locateBoth width src dst fun value location => do
      let value ← commit width (Alu.logic width value)
      match width with
      | .word => store .word value location
      | .byte => storeSigned value location
      return .completed
  | .cmp width src dst => locateBoth width src dst fun value => compareAt width (Alu.sub width value)
  | .bit width src dst => locateBoth width src dst fun value =>
      compareAt width fun other => Alu.logic width (value &&& other)
  | .bic width src dst => locateBoth width src dst fun value =>
      modifyAt width fun old _ => Alu.logic width (old &&& ~~~value)
  | .bis width src dst => locateBoth width src dst fun value =>
      modifyAt width fun old _ => Alu.logic width (old ||| value)
  | .add src dst => locateBoth .word src dst fun value => modifyAt .word fun old _ => Alu.add .word old value
  | .sub src dst => locateBoth .word src dst fun value => modifyAt .word fun old _ => Alu.sub .word old value
  | .xor src dst => do
      let value ← register src
      locateDestination .word dst (modifyAt .word fun old _ => Alu.logic .word (value ^^^ old))
  | instruction => return ({}, execute instruction)

/-- Every instruction has no operand to locate, or one, or two. -/
theorem operandStage_cases (instruction : Instruction) (machine : Machine β) :
    (instruction.source? = none ∧ instruction.destination? = none ∧
      operandStage instruction machine = .ok ({}, execute instruction) machine) ∨
    (∃ dst rest, instruction.source? = none ∧ instruction.destination? = some dst ∧
      operandStage instruction machine = locateDestination instruction.opcode.width dst rest machine) ∨
    ∃ src dst rest, instruction.source? = some src ∧ instruction.destination? = some dst ∧
      operandStage instruction machine = locateBoth instruction.opcode.width src dst rest machine := by
  cases instruction with
  | control | rts | codes | branch | sob | mark | call => exact .inl ⟨rfl, rfl, rfl⟩
  | jmp dst | jsr _ dst | swab dst | sxt dst | mtps dst | mfps dst | clr _ dst | tst _ dst | unary _ _ dst =>
    exact .inr (.inl ⟨dst, _, rfl, rfl, rfl⟩)
  | xor src dst =>
    exact .inr (.inl ⟨dst, modifyAt .word fun old _ => Alu.logic .word (machine.processor.registers.get src ^^^ old),
      rfl, rfl, rfl⟩)
  | mov _ src dst | cmp _ src dst | bit _ src dst | bic _ src dst | bis _ src dst | add src dst | sub src dst =>
    refine .inr (.inr ⟨src, dst, ?_, rfl, rfl, ?_⟩)
    rotate_left
    rw [operandStage]
    rfl

/-- Code that finishes has changed no more of the processor than the registers. -/
def OnlyMoves {α : Type} (code : Microcode β α) : Prop :=
  ∀ before after value, code before = .ok value after →
    ∃ registers, after.processor = { before.processor with registers }

namespace OnlyMoves

variable {α γ : Type}

omit [Board β] in
theorem pure (value : α) : OnlyMoves (pure value : Microcode β α) := by
  intro before after answer done
  cases done
  exact ⟨_, rfl⟩

omit [Board β] in
theorem bind {code : Microcode β α} {next : α → Microcode β γ} (first : OnlyMoves code)
    (rest : ∀ value, OnlyMoves (next value)) : OnlyMoves (code >>= next) := by
  intro before after answer done
  obtain ⟨part, middle, begun, finished⟩ := bind_eq_ok done
  obtain ⟨_, moved⟩ := first before middle part begun
  obtain ⟨_, later⟩ := rest part middle after answer finished
  rw [moved] at later
  exact ⟨_, later⟩

omit [Board β] in
theorem register (name : Register) : OnlyMoves (register name : Microcode β Word) := by
  intro before after value done
  cases done
  exact ⟨_, rfl⟩

omit [Board β] in
theorem setRegister (name : Register) (value : Word) : OnlyMoves (setRegister name value : Microcode β Unit) := by
  intro before after answer done
  cases done
  exact ⟨_, rfl⟩

omit [Board β] in
theorem cycle (request : β → Except BusError α × β) : OnlyMoves (cycle request) := by
  intro before after value done
  obtain ⟨_, kept⟩ := cycle_ok done
  exact ⟨_, kept⟩

theorem sequential : Sequential fun _ code => OnlyMoves (β := β) code :=
  ⟨.pure, .bind, .register, fun _ => .cycle _⟩

theorem resolve (width : Width) (operand : Operand) : OnlyMoves (resolve width operand : Microcode β Location) :=
  sequential.resolve (setRegister _) width (setRegister _)

theorem store (width : Width) (value : Word) (location : Location) :
    OnlyMoves (store width value location : Microcode β Unit) :=
  sequential.store (fun _ _ => cycle _) (fun _ _ => cycle _) width value fun name _ => setRegister name

theorem readOperand (width : Width) (operand : Operand) :
    OnlyMoves (readOperand width operand : Microcode β (Location × Word)) :=
  sequential.readOperand (setRegister _) (fun _ => cycle _) width (setRegister _)

end OnlyMoves

/-- One board comes from another by reads of words alone. -/
inductive Inspected : β → β → Prop where
  | none (board : β) : Inspected board board
  | next {first last : β} (address : Word) (before : Inspected first last) :
      Inspected first (Board.readWord address.even last).2

theorem Inspected.trans {first middle last : β} (before : Inspected first middle) (after : Inspected middle last) :
    Inspected first last := by
  induction after with
  | none => exact before
  | next address _ ih => exact ih.next address

theorem Inspected.read {first last board : β} {address value : Word} (before : Inspected first last)
    (answered : Board.readWord address.even last = (.ok value, board)) : Inspected first board := by
  have reached : board = (Board.readWord address.even last).2 := by rw [answered]
  rw [reached]
  exact before.next address

/-- Code that finishes has done no more to the board than read words of it. -/
def OnlyInspects {α : Type} (code : Microcode β α) : Prop :=
  ∀ before after value, code before = .ok value after → Inspected before.board after.board

namespace OnlyInspects

variable {α γ : Type}

theorem pure (value : α) : OnlyInspects (pure value : Microcode β α) := by
  intro before after answer done
  cases done
  exact .none _

theorem bind {code : Microcode β α} {next : α → Microcode β γ} (first : OnlyInspects code)
    (rest : ∀ value, OnlyInspects (next value)) : OnlyInspects (code >>= next) := by
  intro before after answer done
  obtain ⟨part, middle, begun, finished⟩ := bind_eq_ok done
  exact (first before middle part begun).trans (rest part middle after answer finished)

theorem register (name : Register) : OnlyInspects (register name : Microcode β Word) := by
  intro before after value done
  cases done
  exact .none _

theorem setRegister (name : Register) (value : Word) : OnlyInspects (setRegister name value : Microcode β Unit) := by
  intro before after answer done
  cases done
  exact .none _

theorem readWord (address : Word) : OnlyInspects (readWord address : Microcode β Word) := by
  intro before after value done
  obtain ⟨answered, _⟩ := cycle_ok done
  exact (Inspected.none before.board).read answered

theorem sequential : Sequential fun _ code => OnlyInspects (β := β) code := ⟨.pure, .bind, .register, .readWord⟩

theorem fetchWord : OnlyInspects (fetchWord : Microcode β Word) := sequential.fetchWord (setRegister _)

theorem resolve (width : Width) (operand : Operand) : OnlyInspects (resolve width operand : Microcode β Location) :=
  sequential.resolve (setRegister _) width (setRegister _)

/-- A byte is read by a cycle of its own, so this is about words. -/
theorem readOperand (operand : Operand) : OnlyInspects (readOperand .word operand : Microcode β (Location × Word)) := by
  apply (resolve .word operand).bind
  intro location
  cases location with
  | register name => exact ((register name).bind fun _ => .pure _).bind fun _ => .pure _
  | memory address => exact (readWord address).bind fun _ => .pure _

end OnlyInspects

/-- Code may look at the status word before it resolves an operand, or after. -/
theorem resolve_status {α : Type} (width : Width) (operand : Operand) (next : StatusWord → Location → Microcode β α) :
    (do
      let status := (← processor).status
      let location ← resolve width operand
      next status location : Microcode β α) =
    (do
      let location ← resolve width operand
      next (← processor).status location) := by
  funext machine
  simp only [Bind.bind, EStateM.bind, processor]
  cases resolved : resolve width operand machine with
  | error abort broken => rfl
  | ok location after =>
    obtain ⟨registers, moved⟩ := OnlyMoves.resolve width operand machine after location resolved
    simp only [moved]

/-- An instruction is executed in these two stages. -/
theorem execute_eq_stages (instruction : Instruction) :
    (execute instruction : Microcode β Retirement) = (do
      let (_, rest) ← operandStage instruction
      rest) := by
  cases instruction with
  | control | rts | codes | branch | sob | mark | call => rfl
  | jmp target | jsr link target =>
    simp only [execute, operandStage, locateDestination, jumpTarget?, bind_assoc, pure_bind]
    refine bind_congr fun location => ?_
    cases location with
    | register | memory => simp only [jumpAt, bind_assoc, pure_bind]
  | swab | mtps | clr =>
    simp only [execute, operandStage, locateDestination, readOperand, bind_assoc, pure_bind]
  | tst | unary =>
    simp only [execute, operandStage, locateDestination, modifyOperand, readOperand, modifyAt, compareAt, bind_assoc,
      pure_bind]
  | sxt dst =>
    simp only [execute, operandStage, locateDestination, bind_assoc, pure_bind]
    exact resolve_status .word dst fun status location => (do
      store .word (if status.negative then 0xFFFF else 0) location
      updateStatus fun later => (later.set StatusWord.zeroBit !status.negative).set StatusWord.overflowBit false
      return .completed : Microcode β Retirement)
  | mfps dst =>
    simp only [execute, operandStage, locateDestination, bind_assoc, pure_bind]
    exact resolve_status .byte dst fun status location => (do
      let value ← commit .byte (Alu.logic .byte (status.bits.low.setWidth 16))
      storeSigned value location
      return .completed : Microcode β Retirement)
  | mov width src dst =>
    cases width with
    | word | byte => simp only [execute, operandStage, locateBoth, bind_assoc, pure_bind]
  | cmp | bit =>
    simp only [execute, operandStage, locateBoth, compareOperands, readOperand, compareAt, bind_assoc, pure_bind]
  | bic | bis | add | sub =>
    simp only [execute, operandStage, locateBoth, combineOperands, modifyOperand, readOperand, modifyAt, bind_assoc,
      pure_bind]
  | xor =>
    simp only [execute, operandStage, locateDestination, modifyOperand, readOperand, modifyAt, bind_assoc, pure_bind]

end Microcode

end Pdp11
