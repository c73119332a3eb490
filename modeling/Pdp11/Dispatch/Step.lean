import Pdp11.Dispatch.BusFault
import Pdp11.Dispatch.Reset
import Pdp11.Microcode.Arbiter
import Pdp11.Microcode.InstructionCycle

/-! Steps and runs. A step begins and ends at an instruction boundary, whatever
happens in between: a failed cycle rolls back to the boundary at which the step
began and is answered from there. -/

namespace Pdp11.Dispatch

variable {β : Type} [Board β]

/-- A step of a processor that is neither held nor stopped. -/
def boundaryStep : Dispatch β Outcome := do
  let before ← processor
  let start := before.cycles
  if before.lines.hasBusError then serviceBusFault start
  else
    match ← attempt Microcode.arbitrate with
    | none => abandon before.checkpoint start
    | some true =>
      syncShadow
      return .interrupted (← elapsed start)
    | some false =>
      if (← processor).runState = .waiting then return .waiting
      else
        match ← attempt (Microcode.instructionCycle start) with
        | some outcome => return outcome
        | none => abandon before.checkpoint start

/-- Takes the pending interrupts, or else executes one instruction. -/
def step : Dispatch β Outcome := do
  let before ← processor
  match before.runState with
  | .suspended => return .suspended
  | .latched cause => return .stopped cause
  | .running | .waiting =>
    if before.resetOnResume then reset
    boundaryStep

/-- Runs the arbiter alone, and tells whether a trap was taken. -/
def checkInterrupts : Dispatch β Bool := do
  let before ← processor
  match before.runState with
  | .suspended | .latched _ => return false
  | .running | .waiting =>
    match ← attempt Microcode.arbitrate with
    | some taken =>
      if taken then syncShadow
      return taken
    | none =>
      restore before.checkpoint
      let start := (← processor).cycles
      let _ ← serviceBusFault start
      return true

/-- Steps until the budget is spent, from what has been consumed so far. Each
step that did something consumes at least one cycle, and an idle one takes all
that is left, so the budget bounds the number of steps. -/
def runFrom (budget : UInt32) (consumed : Nat) : Dispatch β Nat := do
  if _ : consumed < budget.toNat then
    match (← step).cycles? with
    | some cycles => runFrom budget (min (consumed + max cycles 1) 0xFFFFFFFF)
    | none => return budget.toNat
  else return consumed
termination_by budget.toNat - consumed
decreasing_by
  have bounded := budget.toNat_lt
  omega

/-- Runs for a number of cycles and answers how many were consumed. The last step
may go over the budget. -/
def run (budget : UInt32) : Dispatch β Nat := runFrom budget 0

/-- Holds the processor, whatever it was doing. -/
def suspend : Dispatch β Unit := update ({ · with runState := .suspended })

/-- Lets a held processor go. Its next step begins with a reset. -/
def resume : Dispatch β Unit :=
  update fun processor =>
    if processor.runState = .suspended then
      { processor with runState := .running, resetOnResume := true }
    else processor

/-- Drives an input line. -/
def drive (line : InputLine) (asserted : Bool) : Dispatch β Unit :=
  update fun processor => { processor with lines := processor.lines.drive line asserted }

end Pdp11.Dispatch
