import Pdp11.Width

/-! Opcodes of both processors. Instructions that differ only in a condition,
an operation or a width share a constructor, so that what they have in common
is said once. -/

namespace Pdp11

/-- Instructions without any operand field. -/
inductive ControlOp where
  | halt | wait | rti | bpt | iot | reset | rtt | mfpt | start
deriving DecidableEq, Repr

/-- Trap instructions with a code that only the trap handler reads. -/
inductive CallOp where
  | emt | trap
deriving DecidableEq, Repr

/-- Branch conditions; the first one always holds. -/
inductive Condition where
  | always | ne | eq | ge | lt | gt | le | pl | mi | hi | los | vc | vs | cc | cs
deriving DecidableEq, Repr

/-- Operations that replace their one operand by a result computed from it. -/
inductive UnaryOp where
  | com | inc | dec | neg | adc | sbc | ror | rol | asr | asl
deriving DecidableEq, Repr

inductive Opcode where
  | control (op : ControlOp)
  | jmp
  | rts
  /-- The group that sets, or clears, the condition codes in a mask. -/
  | codes (set : Bool)
  | swab
  | branch (condition : Condition)
  | jsr
  | clr (width : Width)
  | tst (width : Width)
  | unary (op : UnaryOp) (width : Width)
  | mark
  | sxt
  | mtps
  | mfps
  | call (op : CallOp)
  | mov (width : Width)
  | cmp (width : Width)
  | bit (width : Width)
  | bic (width : Width)
  | bis (width : Width)
  | add
  | sub
  | xor
  | sob
deriving DecidableEq, Repr

/-- Which fields an instruction word has besides its opcode bits. -/
inductive Layout where
  | bare
  /-- Destination in bits 5 to 0. -/
  | destination
  /-- Source in bits 11 to 6 and destination in bits 5 to 0. -/
  | sourceDestination
  /-- Register in bits 8 to 6 and destination in bits 5 to 0. -/
  | registerDestination
  /-- Register in bits 2 to 0. -/
  | register
  /-- Signed word offset in bits 7 to 0. -/
  | branch
  /-- Register in bits 8 to 6 and a backwards word offset in bits 5 to 0. -/
  | loop
  /-- Count in bits 5 to 0. -/
  | count
  /-- Code in bits 7 to 0. -/
  | code
  /-- Condition codes in bits 3 to 0. -/
  | mask
deriving DecidableEq, Repr

def ControlOp.mnemonic : ControlOp → String
  | halt => "HALT" | wait => "WAIT" | rti => "RTI" | bpt => "BPT" | iot => "IOT"
  | reset => "RESET" | rtt => "RTT" | mfpt => "MFPT" | start => "START"

def CallOp.mnemonic : CallOp → String
  | emt => "EMT" | trap => "TRAP"

def Condition.mnemonic : Condition → String
  | always => "BR" | ne => "BNE" | eq => "BEQ" | ge => "BGE" | lt => "BLT"
  | gt => "BGT" | le => "BLE" | pl => "BPL" | mi => "BMI" | hi => "BHI"
  | los => "BLOS" | vc => "BVC" | vs => "BVS" | cc => "BCC" | cs => "BCS"

def UnaryOp.mnemonic : UnaryOp → String
  | com => "COM" | inc => "INC" | dec => "DEC" | neg => "NEG" | adc => "ADC"
  | sbc => "SBC" | ror => "ROR" | rol => "ROL" | asr => "ASR" | asl => "ASL"

namespace Opcode

/-- Assembler name of the opcode, or of its group for the condition codes. -/
def mnemonic : Opcode → String
  | control op => op.mnemonic
  | jmp => "JMP"
  | rts => "RTS"
  | codes set => if set then "SCC" else "CCC"
  | swab => "SWAB"
  | branch condition => condition.mnemonic
  | jsr => "JSR"
  | clr width => "CLR" ++ width.suffix
  | tst width => "TST" ++ width.suffix
  | unary op width => op.mnemonic ++ width.suffix
  | mark => "MARK"
  | sxt => "SXT"
  | mtps => "MTPS"
  | mfps => "MFPS"
  | call op => op.mnemonic
  | mov width => "MOV" ++ width.suffix
  | cmp width => "CMP" ++ width.suffix
  | bit width => "BIT" ++ width.suffix
  | bic width => "BIC" ++ width.suffix
  | bis width => "BIS" ++ width.suffix
  | add => "ADD"
  | sub => "SUB"
  | xor => "XOR"
  | sob => "SOB"

def layout : Opcode → Layout
  | control _ => .bare
  | jmp | swab | clr _ | tst _ | unary _ _ | sxt | mtps | mfps => .destination
  | rts => .register
  | codes _ => .mask
  | branch _ => .branch
  | jsr | xor => .registerDestination
  | mark => .count
  | call _ => .code
  | mov _ | cmp _ | bit _ | bic _ | bis _ | add | sub => .sourceDestination
  | sob => .loop

/-- Width of the memory operands. The two moves between the status word and an
operand have no word form. -/
def width : Opcode → Width
  | clr width | tst width | unary _ width => width
  | mov width | cmp width | bit width | bic width | bis width => width
  | mtps | mfps => .byte
  | _ => .word

end Opcode
end Pdp11
