import Pdp11.Opcode.Encoding
import Pdp11.Operand

/-! Instructions as data: an opcode together with just the fields that its
layout has. Execution and disassembly both start from here, so neither looks at
bits of the instruction word again. -/

namespace Pdp11

inductive Instruction where
  | control (op : ControlOp)
  | jmp (target : Operand)
  | rts (link : Register)
  | codes (set : Bool) (mask : BitVec 4)
  | swab (dst : Operand)
  | branch (condition : Condition) (offset : BitVec 8)
  | jsr (link : Register) (target : Operand)
  | clr (width : Width) (dst : Operand)
  | tst (width : Width) (src : Operand)
  | unary (op : UnaryOp) (width : Width) (dst : Operand)
  | mark (count : BitVec 6)
  | sxt (dst : Operand)
  | mtps (src : Operand)
  | mfps (dst : Operand)
  | call (op : CallOp) (code : BitVec 8)
  | mov (width : Width) (src dst : Operand)
  | cmp (width : Width) (src dst : Operand)
  | bit (width : Width) (src dst : Operand)
  | bic (width : Width) (src dst : Operand)
  | bis (width : Width) (src dst : Operand)
  | add (src dst : Operand)
  | sub (src dst : Operand)
  | xor (src : Register) (dst : Operand)
  | sob (counter : Register) (offset : BitVec 6)
deriving DecidableEq, Repr

/-- The instruction with this opcode whose fields are taken from the word. -/
def Opcode.instruction (opcode : Opcode) (word : Word) : Instruction :=
  let src := Operand.source word
  let dst := Operand.destination word
  match opcode with
  | control op => .control op
  | jmp => .jmp dst
  | rts => .rts (.ofField word 0)
  | codes set => .codes set (word.setWidth 4)
  | swab => .swab dst
  | branch condition => .branch condition (word.setWidth 8)
  | jsr => .jsr (.ofField word 6) dst
  | clr width => .clr width dst
  | tst width => .tst width dst
  | unary op width => .unary op width dst
  | mark => .mark (word.setWidth 6)
  | sxt => .sxt dst
  | mtps => .mtps dst
  | mfps => .mfps dst
  | call op => .call op (word.setWidth 8)
  | mov width => .mov width src dst
  | cmp width => .cmp width src dst
  | bit width => .bit width src dst
  | bic width => .bic width src dst
  | bis width => .bis width src dst
  | add => .add src dst
  | sub => .sub src dst
  | xor => .xor (.ofField word 6) dst
  | sob => .sob (.ofField word 6) (word.setWidth 6)

namespace Instruction

/-- Decodes an instruction word; `none` for a reserved one. Whether a processor
implements the opcode is decided when it executes. -/
def ofWord? (word : Word) : Option Instruction :=
  (Opcode.ofWord? word).map (·.instruction word)

def opcode : Instruction → Opcode
  | control op => .control op
  | jmp _ => .jmp
  | rts _ => .rts
  | codes set _ => .codes set
  | swab _ => .swab
  | branch condition _ => .branch condition
  | jsr _ _ => .jsr
  | clr width _ => .clr width
  | tst width _ => .tst width
  | unary op width _ => .unary op width
  | mark _ => .mark
  | sxt _ => .sxt
  | mtps _ => .mtps
  | mfps _ => .mfps
  | call op _ => .call op
  | mov width _ _ => .mov width
  | cmp width _ _ => .cmp width
  | bit width _ _ => .bit width
  | bic width _ _ => .bic width
  | bis width _ _ => .bis width
  | add _ _ => .add
  | sub _ _ => .sub
  | xor _ _ => .xor
  | sob _ _ => .sob

def source? : Instruction → Option Operand
  | mov _ src _ | cmp _ src _ | bit _ src _ | bic _ src _ | bis _ src _ => some src
  | add src _ | sub src _ => some src
  | _ => none

/-- The specifier in the low six bits, also where the instruction only reads it. -/
def destination? : Instruction → Option Operand
  | jmp dst | swab dst | jsr _ dst | sxt dst | mtps dst | mfps dst => some dst
  | clr _ dst | tst _ dst | unary _ _ dst => some dst
  | mov _ _ dst | cmp _ _ dst | bit _ _ dst | bic _ _ dst | bis _ _ dst => some dst
  | add _ dst | sub _ dst | xor _ dst => some dst
  | _ => none

def register? : Instruction → Option Register
  | rts register | jsr register _ | xor register _ | sob register _ => some register
  | _ => none

/-- The source field, read off the bits of the word where the layout has none. -/
def sourceField (instruction : Instruction) (word : Word) : Operand :=
  instruction.source?.getD (Operand.source word)

def destinationField (instruction : Instruction) (word : Word) : Operand :=
  instruction.destination?.getD (Operand.destination word)

/-- The register field; bits 8 to 6 of the word where the layout has none. -/
def registerField (instruction : Instruction) (word : Word) : Register :=
  instruction.register?.getD (Register.ofField word 6)

/-- Signed branch offset in words; zero for anything but a branch. -/
def offset : Instruction → Int
  | branch _ offset => offset.toInt
  | _ => 0

/-- Small unsigned field: trap code, parameter count, loop offset or code mask. -/
def immediate : Instruction → Nat
  | call _ code => code.toNat
  | mark count => count.toNat
  | sob _ offset => offset.toNat
  | codes _ mask => mask.toNat
  | _ => 0

end Instruction

/-- Distance of a branch whose offset field counts words. -/
def branchDistance (offset : BitVec 8) : Word := 2 * offset.signExtend 16

/-- Distance of a loop, counted backwards in words. -/
def loopDistance (offset : BitVec 6) : Word := 2 * offset.setWidth 16

theorem Opcode.opcode_instruction (opcode : Opcode) (word : Word) :
    (opcode.instruction word).opcode = opcode := by
  cases opcode <;> rfl

end Pdp11
