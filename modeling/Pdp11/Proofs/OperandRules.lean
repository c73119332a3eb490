import Pdp11.Microcode.Operand

/-! Code that handles operands is a sequence of a few small operations. A property of code that
sequences keep, and that these operations do not end, therefore holds of it: the rules are put
together once for all such properties. -/

namespace Pdp11.Microcode

variable {β : Type} [Board β]

/-- A property of code that sequences keep, and that looking at the processor and reading a word
do not end. -/
structure Sequential (holds : (α : Type) → Microcode β α → Prop) : Prop where
  pure : ∀ {α : Type} (value : α), holds α (pure value)
  bind : ∀ {α γ : Type} {code : Microcode β α} {next : α → Microcode β γ},
    holds α code → (∀ value, holds γ (next value)) → holds γ (code >>= next)
  register : ∀ name, holds Word (register name)
  readWord : ∀ address, holds Word (readWord address)

/-- A byte goes to a register together with the high half that is there. -/
theorem store_register_byte (value : Word) (name : Register) :
    (store .byte value (.register name) : Microcode β Unit) = (do
      let old ← register name
      setRegister name (.ofBytes value.low old.high)) :=
  rfl

namespace Sequential

variable {holds : (α : Type) → Microcode β α → Prop}

theorem fetchWord (rules : Sequential holds) (counts : ∀ value, holds Unit (setPc value)) :
    holds Word fetchWord :=
  rules.bind (rules.register _) fun _ => rules.bind (rules.readWord _) fun _ =>
    rules.bind (counts _) fun _ => rules.pure _

theorem resolve (rules : Sequential holds) (counts : ∀ value, holds Unit (setPc value)) (width : Width)
    {operand : Operand} (steps : ∀ value, holds Unit (setRegister operand.register value)) :
    holds Location (resolve width operand) := by
  have pointed (pointer : Word) : holds Location (do return .memory (← Microcode.readWord pointer)) :=
    rules.bind (rules.readWord _) fun _ => rules.pure _
  unfold Microcode.resolve
  cases operand.mode with
  | register => exact rules.pure _
  | registerDeferred => exact rules.bind (rules.register _) fun _ => rules.pure _
  | autoIncrement | autoDecrement =>
    exact rules.bind (rules.register _) fun _ => rules.bind (steps _) fun _ => rules.pure _
  | autoIncrementDeferred | autoDecrementDeferred =>
    exact rules.bind (rules.register _) fun _ => rules.bind (steps _) fun _ => pointed _
  | index =>
    exact rules.bind (rules.fetchWord counts) fun _ => rules.bind (rules.register _) fun _ => rules.pure _
  | indexDeferred =>
    exact rules.bind (rules.fetchWord counts) fun _ => rules.bind (rules.register _) fun _ => pointed _

theorem load (rules : Sequential holds) (bytes : ∀ address, holds Byte (readByte address)) (width : Width)
    (location : Location) : holds Word (load width location) := by
  cases location with
  | register name => exact rules.bind (rules.register name) fun _ => rules.pure _
  | memory address =>
    cases width with
    | word => exact rules.readWord address
    | byte => exact rules.bind (bytes address) fun _ => rules.pure _

theorem store (rules : Sequential holds) (words : ∀ address value, holds Unit (writeWord address value))
    (bytes : ∀ address value, holds Unit (writeByte address value)) (width : Width) (value : Word) {location : Location}
    (registers : ∀ name, location = .register name → ∀ value, holds Unit (setRegister name value)) :
    holds Unit (store width value location) := by
  cases location with
  | register name =>
    cases width with
    | word => exact registers name rfl value
    | byte =>
      rw [store_register_byte]
      exact rules.bind (rules.register name) fun _ => registers name rfl _
  | memory address =>
    cases width with
    | word => exact words address value
    | byte => exact bytes address value.low

theorem readOperand (rules : Sequential holds) (counts : ∀ value, holds Unit (setPc value))
    (bytes : ∀ address, holds Byte (readByte address)) (width : Width) {operand : Operand}
    (steps : ∀ value, holds Unit (setRegister operand.register value)) :
    holds (Location × Word) (readOperand width operand) :=
  rules.bind (rules.resolve counts width steps) fun _ => rules.bind (rules.load bytes width _) fun _ => rules.pure _

theorem jumpTarget? (rules : Sequential holds) (counts : ∀ value, holds Unit (setPc value)) {target : Operand}
    (steps : ∀ value, holds Unit (setRegister target.register value)) :
    holds (Option Word) (jumpTarget? target) := by
  refine rules.bind (rules.resolve counts .word steps) fun location => ?_
  cases location with
  | register | memory => exact rules.pure _

end Sequential

end Pdp11.Microcode
