import Pdp11.Register

/-! Operand specifiers: a mode and a register in six bits of an instruction
word. The program counter in an autoincrement or index mode makes the operand
take the next word of the instruction stream. -/

namespace Pdp11

inductive AddressingMode where
  | register
  | registerDeferred
  | autoIncrement
  | autoIncrementDeferred
  | autoDecrement
  | autoDecrementDeferred
  | index
  | indexDeferred
deriving DecidableEq, Repr, Inhabited

namespace AddressingMode

/-- The modes are listed in the order of their encodings. -/
def bits (mode : AddressingMode) : Fin 8 := ⟨mode.ctorIdx, by cases mode <;> decide⟩

def ofBits : Fin 8 → AddressingMode
  | 0 => register
  | 1 => registerDeferred
  | 2 => autoIncrement
  | 3 => autoIncrementDeferred
  | 4 => autoDecrement
  | 5 => autoDecrementDeferred
  | 6 => index
  | 7 => indexDeferred

def ofNat? (number : Nat) : Option AddressingMode :=
  if inside : number < 8 then some (ofBits ⟨number, inside⟩) else none

/-- The odd modes read a pointer where the even one below would read the operand. -/
def isDeferred : AddressingMode → Bool
  | registerDeferred | autoIncrementDeferred | autoDecrementDeferred | indexDeferred => true
  | register | autoIncrement | autoDecrement | index => false

theorem ofBits_bits (mode : AddressingMode) : ofBits mode.bits = mode := by cases mode <;> rfl

end AddressingMode

structure Operand where
  mode : AddressingMode
  register : Register
deriving DecidableEq, Repr, Inhabited

namespace Operand

/-- The six-bit specifier that starts at `shift` in an instruction word. -/
def ofField (word : Word) (shift : Nat) : Operand :=
  ⟨.ofBits (word.extractLsb' (shift + 3) 3).toFin, .ofField word shift⟩

/-- Destination specifier of an instruction word. -/
def destination (word : Word) : Operand := ofField word 0

/-- Source specifier of an instruction word. -/
def source (word : Word) : Operand := ofField word 6

def usesExtensionWord (operand : Operand) : Bool :=
  match operand.mode with
  | .index | .indexDeferred => true
  | .autoIncrement | .autoIncrementDeferred => operand.register == .pc
  | _ => false

end Operand
end Pdp11
