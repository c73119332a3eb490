import Pdp11.Microcode

/-! The driver's side of the processor. An operation runs microcode from an
instruction boundary and answers for every failed cycle in it, so it always
finishes, unless a board gives a vector that no trap can use. -/

namespace Pdp11

/-- An operation either finishes or is stopped by a misaligned vector. -/
abbrev Dispatch (β α : Type) := EStateM MisalignedVector (Machine β) α

namespace Dispatch

variable {α β : Type}

/-- Runs microcode; `none` tells that a cycle failed, with the state as it was
left. -/
def attempt (code : Microcode β α) : Dispatch β (Option α) := fun machine =>
  match code machine with
  | .ok value machine => .ok (some value) machine
  | .error .failedCycle machine => .ok none machine
  | .error (.misaligned stop) machine => .error stop machine

def processor : Dispatch β Processor := fun machine => .ok machine.processor machine

def update (change : Processor → Processor) : Dispatch β Unit := modify (·.update change)

def clearBusErrors : Dispatch β Unit :=
  update fun processor => { processor with lines := processor.lines.clearBusErrors }

def syncShadow : Dispatch β Unit := update (·.syncShadow)

def elapsed (start : UInt64) : Dispatch β Nat := return (← processor).elapsed start

variable [Board β]

def restore (checkpoint : Checkpoint) : Dispatch β Unit := modify (·.restore checkpoint)

end Dispatch
end Pdp11
