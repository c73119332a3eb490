import Pdp11.Word

/-! Faults and the vectors they trap through. Every fault but the last one is
delivered to the program; a double fault has no vector left to go through. -/

namespace Pdp11

namespace TrapVector

/-- Bus errors, and jumps to a register. -/
def busError : Word := 0o004
def reservedInstruction : Word := 0o010
/-- Breakpoint instruction and trace trap. -/
def breakpoint : Word := 0o014
def iot : Word := 0o020
def powerFail : Word := 0o024
def emt : Word := 0o030
def trap : Word := 0o034
/-- Timer event. -/
def event : Word := 0o100

end TrapVector

inductive FaultClass where
  | bus
  | decode
  | dispatch
deriving DecidableEq, Repr

inductive FaultCode where
  /-- A bus cycle did not complete. -/
  | busError
  /-- A jump whose destination is a register. -/
  | illegalInstruction
  /-- A word that is no instruction, or none of this processor. -/
  | reservedInstruction
  /-- A bus cycle failed inside the bus-error trap entry. -/
  | doubleFault
deriving DecidableEq, Repr

namespace FaultCode

def message : FaultCode → String
  | busError => "bus error"
  | illegalInstruction => "illegal instruction"
  | reservedInstruction => "reserved instruction"
  | doubleFault => "bus error while entering the bus error trap"

def faultClass : FaultCode → FaultClass
  | busError => .bus
  | illegalInstruction | reservedInstruction => .decode
  | doubleFault => .dispatch

def vector? : FaultCode → Option Word
  | busError | illegalInstruction => some TrapVector.busError
  | reservedInstruction => some TrapVector.reservedInstruction
  | doubleFault => none

/-- A terminal fault stops the processor until reset. -/
def isTerminal : FaultCode → Bool
  | doubleFault => true
  | _ => false

def all : List FaultCode := [busError, illegalInstruction, reservedInstruction, doubleFault]

end FaultCode
end Pdp11
