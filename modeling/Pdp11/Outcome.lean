import Pdp11.Fault

/-! What a step of the processor tells its driver. -/

namespace Pdp11

/-- What one step did. -/
inductive Outcome where
  /-- One instruction. -/
  | retired (cycles : Nat)
  /-- One or more interrupts, and no instruction. -/
  | interrupted (cycles : Nat)
  /-- A fault, and its trap entry or recovery. -/
  | faulted (cause : FaultCode) (cycles : Nat)
  | waiting
  | stopped (cause : FaultCode)
  | suspended
deriving DecidableEq, Repr

/-- Cycles of a step that did something; an idle step tells none. -/
def Outcome.cycles? : Outcome → Option Nat
  | retired cycles | interrupted cycles | faulted _ cycles => some cycles
  | waiting | stopped _ | suspended => none

end Pdp11
