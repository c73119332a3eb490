import Pdp11.Alu
import Pdp11.Microcode.Operand

/-! Execution of one instruction, from the moment its word is fetched. The
source is resolved and read before the destination is resolved, and condition
codes are set before a result is stored: if the store then fails, the boundary
is restored as a whole. -/

namespace Pdp11

/-- How an instruction leaves the processor. -/
inductive Retirement where
  | completed
  | waiting
  /-- A HALT instruction, whose effect depends on the model. -/
  | halting
  /-- Its fault trap has been entered. -/
  | trapped (cause : FaultCode)
deriving DecidableEq, Repr

/-- Bits of the status word that MTPS writes: all of the low byte but the trace bit. -/
def mtpsMask : Word := 0o357

/-- Whether a branch is taken. The signed order is negative xor overflow after
a comparison, the unsigned order is carry. -/
def Condition.holds (condition : Condition) (status : StatusWord) : Bool :=
  let less := status.negative != status.overflow
  match condition with
  | always => true
  | ne => !status.zero
  | eq => status.zero
  | ge => !less
  | lt => less
  | gt => !(status.zero || less)
  | le => status.zero || less
  | pl => !status.negative
  | mi => status.negative
  | hi => !status.carry && !status.zero
  | los => status.carry || status.zero
  | vc => !status.overflow
  | vs => status.overflow
  | cc => !status.carry
  | cs => status.carry

def UnaryOp.compute (op : UnaryOp) (width : Width) (value : Word) (carry : Bool) : AluResult :=
  match op with
  | com => Alu.com width value
  | inc => Alu.inc width value
  | dec => Alu.dec width value
  | neg => Alu.neg width value
  | adc => Alu.adc width value carry
  | sbc => Alu.sbc width value carry
  | ror => Alu.ror width value carry
  | rol => Alu.rol width value carry
  | asr => Alu.asr width value
  | asl => Alu.asl width value

def CallOp.vector : CallOp → Word
  | emt => TrapVector.emt
  | trap => TrapVector.trap

namespace Microcode

variable {β : Type}

def updateStatus (change : StatusWord → StatusWord) : Microcode β Unit :=
  update fun processor => { processor with status := change processor.status }

/-- Records a result in the condition codes and hands on its value. -/
def commit (width : Width) (result : AluResult) : Microcode β Word := do
  updateStatus (result.status width)
  return result.value

variable [Board β]

/-- Enters the fault trap in place of the instruction. -/
def trapped (cause : FaultCode) : Microcode β Retirement := do
  faultTrap cause
  return .trapped cause

/-- Enters the trap that the instruction asks for. -/
def softwareTrap (vector : Word) : Microcode β Retirement := do
  enterTrap vector
  return .completed

/-- Takes the program counter and the status word back from the stack. -/
def returnFromTrap : Microcode β Unit := do
  let pc ← pop
  let status ← pop
  setPc pc
  installStatus status

/-- Replaces an operand by what is computed from it. -/
def modifyOperand (width : Width) (operand : Operand) (compute : Word → Bool → AluResult) :
    Microcode β Retirement := do
  let (location, value) ← readOperand width operand
  let result ← commit width (compute value (← processor).status.carry)
  store width result location
  return .completed

/-- Replaces the destination by what is computed from it and the source. -/
def combineOperands (width : Width) (src dst : Operand) (compute : Word → Word → AluResult) :
    Microcode β Retirement := do
  let (_, value) ← readOperand width src
  modifyOperand width dst fun old _ => compute old value

/-- Sets the condition codes from both operands and stores nothing. -/
def compareOperands (width : Width) (src dst : Operand) (compute : Word → Word → AluResult) :
    Microcode β Retirement := do
  let (_, first) ← readOperand width src
  let (_, second) ← readOperand width dst
  let _ ← commit width (compute first second)
  return .completed

/-- Stores a byte result. A register takes it with its sign in the high half. -/
def storeSigned (value : Word) : Location → Microcode β Unit
  | .register name => setRegister name (value.low.signExtend 16)
  | .memory address => writeByte address value.low

def executeControl : ControlOp → Microcode β Retirement
  | .halt => return .halting
  | .wait => return .waiting
  | .rti => do
    returnFromTrap
    return .completed
  | .rtt => do
    returnFromTrap
    update ({ · with traceInhibited := true })
    return .completed
  | .bpt => softwareTrap TrapVector.breakpoint
  | .iot => softwareTrap TrapVector.iot
  | .reset => do
    consult fun board => ((), Board.resetDevices board)
    update fun processor => { processor with lines := processor.lines.clearEvent }
    return .completed
  | .mfpt => do
    match (← processor).model.processorType? with
    | some kind =>
      setRegister .r0 kind
      return .completed
    | none => trapped .reservedInstruction
  | .start => do
    let processor ← processor
    if processor.model.hasHaltMode && processor.status.haltMode then
      setPc processor.shadow.pc
      installStatus processor.shadow.status.bits
      return .completed
    else trapped .reservedInstruction

/-- Executes an instruction; the program counter is already past its word. -/
def execute : Instruction → Microcode β Retirement
  | .control op => executeControl op
  | .jmp target => do
    match ← jumpTarget? target with
    | some address =>
      setPc address
      return .completed
    | none => trapped .illegalInstruction
  | .jsr link target => do
    match ← jumpTarget? target with
    | some address =>
      push (← register link)
      setRegister link (← register .pc)
      setPc address
      return .completed
    | none => trapped .illegalInstruction
  | .rts link => do
    setPc (← register link)
    let saved ← pop
    setRegister link saved
    return .completed
  | .codes set mask => do
    updateStatus (·.set (mask.setWidth 16) set)
    return .completed
  | .branch condition offset => do
    if condition.holds (← processor).status then
      setPc ((← register .pc) + branchDistance offset)
    return .completed
  | .sob counter offset => do
    let count := (← register counter) - 1
    setRegister counter count
    if count != 0 then setPc ((← register .pc) - loopDistance offset)
    return .completed
  | .mark count => do
    setRegister .sp ((← register .pc) + 2 * count.setWidth 16)
    setPc (← register .r5)
    let frame ← pop
    setRegister .r5 frame
    return .completed
  | .call op _ => softwareTrap op.vector
  | .swab dst => do
    let (location, value) ← readOperand .word dst
    let swapped := Word.ofBytes value.high value.low
    updateStatus ((Alu.test .byte swapped).update.apply .byte swapped)
    store .word swapped location
    return .completed
  | .sxt dst => do
    let negative := (← processor).status.negative
    let location ← resolve .word dst
    store .word (if negative then 0xFFFF else 0) location
    updateStatus fun status =>
      (status.set StatusWord.zeroBit !negative).set StatusWord.overflowBit false
    return .completed
  | .mtps src => do
    let (_, value) ← readOperand .byte src
    update fun processor =>
      let bits := (processor.status.bits &&& ~~~mtpsMask) ||| (value &&& mtpsMask)
      { processor with status := StatusWord.masked ⟨bits⟩ processor.model.implemented }
    return .completed
  | .mfps dst => do
    let value := (← processor).status.bits.low.setWidth 16
    let location ← resolve .byte dst
    let value ← commit .byte (Alu.logic .byte value)
    storeSigned value location
    return .completed
  | .clr width dst => do
    let location ← resolve width dst
    let value ← commit width (Alu.test width 0)
    store width value location
    return .completed
  | .tst width src => do
    let (_, value) ← readOperand width src
    let _ ← commit width (Alu.test width value)
    return .completed
  | .unary op width dst => modifyOperand width dst (op.compute width)
  | .mov width src dst => do
    let (_, value) ← readOperand width src
    let location ← resolve width dst
    let value ← commit width (Alu.logic width value)
    match width with
    | .word => store .word value location
    | .byte => storeSigned value location
    return .completed
  | .cmp width src dst => compareOperands width src dst (Alu.sub width)
  | .bit width src dst => compareOperands width src dst fun first second =>
      Alu.logic width (first &&& second)
  | .bic width src dst => combineOperands width src dst fun old value =>
      Alu.logic width (old &&& ~~~value)
  | .bis width src dst => combineOperands width src dst fun old value =>
      Alu.logic width (old ||| value)
  | .add src dst => combineOperands .word src dst (Alu.add .word)
  | .sub src dst => combineOperands .word src dst (Alu.sub .word)
  | .xor src dst => do
    let value ← register src
    modifyOperand .word dst fun old _ => Alu.logic .word (value ^^^ old)

end Microcode
end Pdp11
