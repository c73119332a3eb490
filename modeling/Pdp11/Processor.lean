import Pdp11.Board
import Pdp11.InputLines
import Pdp11.Model
import Pdp11.Register
import Pdp11.Statistics
import Pdp11.Timing

/-! State of a processor between bus cycles. Everything here is internal to the
processor; what needs the board is microcode. -/

namespace Pdp11

inductive RunState where
  | running
  /-- Idle until an interrupt is taken. -/
  | waiting
  /-- Held by the driver. -/
  | suspended
  /-- Stopped by a terminal fault until reset. -/
  | latched (cause : FaultCode)
deriving DecidableEq, Repr, Inhabited

/-- What a trap saves and a return restores. -/
structure Context where
  pc : Word := 0
  status : StatusWord := {}
deriving DecidableEq, Repr, Inhabited

/-- Notes for an observer, in the order in which things happen. -/
inductive TraceEvent where
  | instructionStart (pc : Word)
  | instructionRetired (pc word : Word) (cycles : Nat)
  /-- A trap entry is complete; `pc` is the one it saved. -/
  | trapTaken (vector pc : Word)
  | busFault (pc : Word)
  /-- HALT mode is entered; `pc` is the one left behind. -/
  | haltEntered (pc : Word)
  | doubleFault (pc : Word)
deriving DecidableEq, Repr

/-- Fixed for the life of a processor. -/
structure Configuration where
  model : Model
  /-- Mode register as strapped. -/
  initialMode : Word := 0
  traceEnabled : Bool := false
deriving DecidableEq, Repr, Inhabited

structure Processor where
  configuration : Configuration
  registers : RegisterFile := {}
  status : StatusWord := {}
  /-- The interrupted user's context while in HALT mode, the current one otherwise. -/
  shadow : Context := {}
  /-- Address of the instruction started last. -/
  previousPc : Word := 0
  lines : InputLines := {}
  runState : RunState := .running
  bank : Bank := .user
  tracePending : Bool := false
  /-- The instruction after RTT is not traced. -/
  traceInhibited : Bool := false
  resetOnResume : Bool := false
  cycles : UInt64 := 0
  mode : Word
  statistics : Statistics := {}
  /-- Events seen so far by an installed observer. -/
  observed : Option (Array TraceEvent) := none
deriving DecidableEq, Inhabited

/-- Registers and status at an instruction boundary. -/
structure Checkpoint where
  registers : RegisterFile
  status : StatusWord
deriving DecidableEq

namespace Processor

/-- A processor at power-on. It has not been reset. -/
def create (configuration : Configuration) : Processor :=
  { configuration, mode := configuration.initialMode }

def model (processor : Processor) : Model := processor.configuration.model

def pc (processor : Processor) : Word := processor.registers.pc

def sp (processor : Processor) : Word := processor.registers.sp

def context (processor : Processor) : Context := ⟨processor.pc, processor.status⟩

def checkpoint (processor : Processor) : Checkpoint := ⟨processor.registers, processor.status⟩

def setRegister (processor : Processor) (register : Register) (value : Word) : Processor :=
  { processor with registers := processor.registers.set register value }

def setPc (processor : Processor) (value : Word) : Processor := processor.setRegister .pc value

def setSp (processor : Processor) (value : Word) : Processor := processor.setRegister .sp value

/-- Events reach an observer only if tracing is configured. -/
def emit (processor : Processor) (event : TraceEvent) : Processor :=
  if processor.configuration.traceEnabled then
    { processor with observed := processor.observed.map (·.push event) }
  else processor

/-- Starts or ends observation. -/
def observe (processor : Processor) (on : Bool) : Processor :=
  { processor with observed := if on then some #[] else none }

/-- Hands out what was observed so far; observation goes on. -/
def takeObserved (processor : Processor) : Array TraceEvent × Processor :=
  (processor.observed.getD #[], { processor with observed := processor.observed.map fun _ => #[] })

/-- Cycles wrap at 64 bits. -/
def charge (processor : Processor) (cycles : Nat) : Processor :=
  { processor with cycles := processor.cycles + UInt64.ofNat cycles }

/-- Cycles since an earlier reading, as far as 32 bits can tell. -/
def elapsed (processor : Processor) (start : UInt64) : Nat :=
  min (processor.cycles - start).toNat 0xFFFFFFFF

def recordFault (processor : Processor) (code : FaultCode) (pc : Word) : Processor :=
  { processor with statistics := processor.statistics.recordFault ⟨code, pc, processor.cycles⟩ }

/-- Stops at a terminal fault; any other has been delivered already. -/
def latch (processor : Processor) (code : FaultCode) : Processor :=
  if code.isTerminal then { processor with runState := .latched code } else processor

def wake (processor : Processor) : Processor :=
  if processor.runState = .waiting then { processor with runState := .running } else processor

/-- The shadow follows the context, except in HALT mode, where it is frozen. -/
def syncShadow (processor : Processor) : Processor :=
  if processor.status.haltMode then processor else { processor with shadow := processor.context }

/-- A trace trap waits behind WAIT until something else wakes the processor. -/
def isTraceDue (processor : Processor) : Bool :=
  processor.tracePending && processor.runState != .waiting

/-- What every reset clears. Shadow, bank and status are left to the model, and
statistics and observer outlive a reset. -/
def cleared (processor : Processor) : Processor :=
  { processor with
    registers := {}
    lines := {}
    runState := .running
    tracePending := false
    traceInhibited := false
    resetOnResume := false
    mode := processor.configuration.initialMode
    previousPc := 0
    cycles := 0 }

end Processor
end Pdp11
