import Pdp11.Processor

/-! Bus cycles, stack and trap entry. Microcode runs on a processor together
with its board. A failed cycle aborts it and leaves the state as it is: whoever
started the microcode decides what to roll back. -/

namespace Pdp11

structure Machine (β : Type) where
  processor : Processor
  board : β

/-- A board answered an acknowledge with a vector that no trap can use. -/
structure MisalignedVector where
  vector : Word
deriving DecidableEq, Repr

def MisalignedVector.message (stop : MisalignedVector) : String :=
  "trap vector " ++ octalLiteral 1 stop.vector.toNat ++ " is not 4-aligned"

/-- Why microcode breaks off. -/
inductive Abort where
  | failedCycle
  | misaligned (stop : MisalignedVector)
deriving DecidableEq, Repr

abbrev Microcode (β α : Type) := EStateM Abort (Machine β) α

namespace Machine

variable {β : Type}

def update (machine : Machine β) (change : Processor → Processor) : Machine β :=
  { machine with processor := change machine.processor }

variable [Board β]

def selectBank (machine : Machine β) (bank : Bank) : Machine β :=
  match machine with
  | ⟨processor, board⟩ => ⟨{ processor with bank }, Board.selectBank bank board⟩

/-- Installs a status word, cut to the implemented bits. The board hears of the
bank only when HALT mode changes. -/
def installStatus (machine : Machine β) (bits : Word) : Machine β :=
  let model := machine.processor.model
  let status := StatusWord.masked ⟨bits⟩ model.implemented
  let installed := machine.update ({ · with status })
  let wanted := Bank.ofHaltMode status.haltMode
  if model.hasHaltMode && wanted != machine.processor.bank then installed.selectBank wanted
  else installed

/-- Back to an instruction boundary, in the bank that it was in. -/
def restore (machine : Machine β) (checkpoint : Checkpoint) : Machine β :=
  (machine.update ({ · with registers := checkpoint.registers })).installStatus checkpoint.status.bits

end Machine

namespace Microcode

variable {α β : Type}

def processor : Microcode β Processor := fun machine => .ok machine.processor machine

def update (change : Processor → Processor) : Microcode β Unit :=
  modify (·.update change)

def register (name : Register) : Microcode β Word := return (← processor).registers.get name

def setRegister (name : Register) (value : Word) : Microcode β Unit :=
  update (·.setRegister name value)

def setPc (value : Word) : Microcode β Unit := setRegister .pc value

def emit (event : TraceEvent) : Microcode β Unit := update (·.emit event)

def charge (kind : CostKind) : Microcode β Unit := update (·.charge kind.cycles)

/-- A hook that answers something. -/
def consult (hook : β → α × β) : Microcode β α := fun
  | ⟨processor, board⟩ =>
    let (answer, board) := hook board
    .ok answer ⟨processor, board⟩

/-- One bus cycle. It fails if the board says so, and also while an earlier bus
error has not been answered. -/
def cycle (request : β → Except BusError α × β) : Microcode β α := fun
  | ⟨processor, board⟩ =>
    match request board with
    | (.ok value, board) =>
      if processor.lines.hasBusError then .error .failedCycle ⟨processor, board⟩
      else .ok value ⟨processor, board⟩
    | (.error _, board) =>
      .error .failedCycle ⟨{ processor with lines := processor.lines.raiseBusError }, board⟩

variable [Board β]

def readWord (address : Word) : Microcode β Word := cycle (Board.readWord address.even)

def readByte (address : Word) : Microcode β Byte := cycle (Board.readByte address)

def writeWord (address value : Word) : Microcode β Unit := cycle (Board.writeWord address.even value)

def writeByte (address : Word) (value : Byte) : Microcode β Unit := cycle (Board.writeByte address value)

def installStatus (bits : Word) : Microcode β Unit := modify (·.installStatus bits)

/-- Takes the next word of the instruction stream. -/
def fetchWord : Microcode β Word := do
  let pc := (← register .pc).even
  let word ← readWord pc
  setPc (pc + 2)
  return word

/-- The stack pointer moves before the write, so a failed push leaves it moved. -/
def push (value : Word) : Microcode β Unit := do
  let sp := (← register .sp) - 2
  setRegister .sp sp
  writeWord sp value

def pop : Microcode β Word := do
  let sp ← register .sp
  let value ← readWord sp
  setRegister .sp (sp + 2)
  return value

/-- Standard trap entry. The vector is read before anything is pushed, so an
unreadable vector leaves the stack alone. -/
def enterTrap (vector : Word) : Microcode β Unit := do
  if vector &&& 3 != 0 then throw (.misaligned ⟨vector⟩)
  let newPc ← readWord vector
  let newStatus ← readWord (vector + 2)
  let interrupted := (← processor).context
  push interrupted.status.bits
  push interrupted.pc
  setPc newPc
  installStatus newStatus
  update fun processor => { processor.wake with tracePending := false }
  emit (.trapTaken vector interrupted.pc)

/-- Enters the trap of an instruction that cannot be executed. -/
def faultTrap (code : FaultCode) : Microcode β Unit := do
  update fun processor => processor.recordFault code processor.previousPc
  match code.vector? with
  | some vector => enterTrap vector
  | none => return

end Microcode
end Pdp11
