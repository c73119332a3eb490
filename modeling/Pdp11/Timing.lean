import Pdp11.Instruction

/-! Cycle costs. An instruction costs the base of its kind plus the addressing
cost of each operand specifier. -/

namespace Pdp11

/-- What a base cost is charged for. -/
inductive CostKind where
  | conditionCode | halt | wait | returnFromTrap | softwareTrap | reset | mfpt | start
  | jmp | jsr | rts | swab | branch | sob | mark | singleOperand | doubleOperand
  | xor | mtps | mfps
  | interruptEntry
  /-- Bus-error, illegal or reserved instruction trap. -/
  | faultTrapEntry
  | haltEntry
deriving DecidableEq, Repr

namespace CostKind

def cycles : CostKind → Nat
  | conditionCode => 12
  | halt => 48
  | wait => 6
  | returnFromTrap => 24
  | softwareTrap => 48
  | reset => 110
  | mfpt => 6
  | start => 24
  | jmp => 9
  | jsr => 27
  | rts => 21
  | swab => 12
  | branch => 12
  | sob => 18
  | mark => 36
  | singleOperand => 12
  | doubleOperand => 9
  | xor => 12
  | mtps => 24
  | mfps => 12
  | interruptEntry => 114
  | faultTrapEntry => 48
  | haltEntry => 48

def all : List CostKind := [
  conditionCode, halt, wait, returnFromTrap, softwareTrap, reset, mfpt, start, jmp, jsr, rts, swab,
  branch, sob, mark, singleOperand, doubleOperand, xor, mtps, mfps, interruptEntry,
  faultTrapEntry, haltEntry]

end CostKind

def AddressingMode.cycles : AddressingMode → Nat
  | register => 0
  | registerDeferred => 6
  | autoIncrement => 6
  | autoIncrementDeferred => 12
  | autoDecrement => 9
  | autoDecrementDeferred => 15
  | index => 12
  | indexDeferred => 18

/-- Addressing cost by the low three bits of a mode field. -/
def operandCycles (field : Byte) : Nat :=
  (AddressingMode.ofBits (field.extractLsb' 0 3).toFin).cycles

def ControlOp.costKind : ControlOp → CostKind
  | halt => .halt
  | wait => .wait
  | rti | rtt => .returnFromTrap
  | bpt | iot => .softwareTrap
  | reset => .reset
  | mfpt => .mfpt
  | start => .start

def Opcode.costKind : Opcode → CostKind
  | control op => op.costKind
  | jmp => .jmp
  | rts => .rts
  | codes _ => .conditionCode
  | swab => .swab
  | branch _ => .branch
  | jsr => .jsr
  | mark => .mark
  | mtps => .mtps
  | mfps => .mfps
  | call _ => .softwareTrap
  | mov _ | cmp _ | bit _ | bic _ | bis _ | add | sub => .doubleOperand
  | xor => .xor
  | sob => .sob
  | clr _ | tst _ | unary _ _ | sxt => .singleOperand

/-- Cycles of an instruction that retires without entering a fault trap. -/
def Instruction.cycles (instruction : Instruction) : Nat :=
  let cost : Option Operand → Nat
    | some operand => operand.mode.cycles
    | none => 0
  instruction.opcode.costKind.cycles + cost instruction.source? + cost instruction.destination?

end Pdp11
