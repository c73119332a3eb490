import Pdp11.Microcode

/-! Operands at run time. Resolving a specifier moves registers and takes
extension words; only afterwards is the operand read or written, so an operand
that is both is resolved once. -/

namespace Pdp11

/-- Where a resolved operand is. -/
inductive Location where
  | register (register : Register)
  | memory (address : Word)
deriving DecidableEq, Repr

namespace Microcode

variable {β : Type} [Board β]

/-- How far autoincrement and autodecrement move a register. -/
def stepOf (register : Register) (width : Width) : Word :=
  if register.stepsByWord then 2 else width.step

/-- Resolves a specifier. A pointer is always a word, so the deferred modes
step by two whatever the width; an index is added to the register as it is
after the index word was fetched. -/
def resolve (width : Width) (operand : Operand) : Microcode β Location := do
  let name := operand.register
  match operand.mode with
  | .register => return .register name
  | .registerDeferred => return .memory (← register name)
  | .autoIncrement =>
    let address ← register name
    setRegister name (address + stepOf name width)
    return .memory address
  | .autoIncrementDeferred =>
    let pointer ← register name
    setRegister name (pointer + 2)
    return .memory (← readWord pointer)
  | .autoDecrement =>
    let address := (← register name) - stepOf name width
    setRegister name address
    return .memory address
  | .autoDecrementDeferred =>
    let pointer := (← register name) - 2
    setRegister name pointer
    return .memory (← readWord pointer)
  | .index =>
    let offset ← fetchWord
    return .memory ((← register name) + offset)
  | .indexDeferred =>
    let offset ← fetchWord
    return .memory (← readWord ((← register name) + offset))

/-- Bytes are loaded with a zero high half. -/
def load (width : Width) : Location → Microcode β Word
  | .register name => do
    let value ← register name
    return match width with
      | .word => value
      | .byte => value.low.setWidth 16
  | .memory address =>
    match width with
    | .word => readWord address
    | .byte => return (← readByte address).setWidth 16

/-- A byte stored in a register leaves its high half alone. -/
def store (width : Width) (value : Word) : Location → Microcode β Unit
  | .register name =>
    match width with
    | .word => setRegister name value
    | .byte => update fun processor =>
        { processor with registers := processor.registers.setByte name value.low }
  | .memory address =>
    match width with
    | .word => writeWord address value
    | .byte => writeByte address value.low

/-- Resolves and reads an operand. -/
def readOperand (width : Width) (operand : Operand) : Microcode β (Location × Word) := do
  let location ← resolve width operand
  return (location, ← load width location)

/-- Target of a jump; a register has no address. -/
def jumpTarget? (operand : Operand) : Microcode β (Option Word) := do
  match ← resolve .word operand with
  | .register _ => return none
  | .memory address => return some address

end Microcode
end Pdp11
