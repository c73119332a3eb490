import Pdp11.Dispatch
import Pdp11.Microcode.HaltMode
import Pdp11.Outcome

/-! Answering a bus error. Its trap is entered from a boundary; if that entry
fails too there is one more boundary to go back to, and then HALT mode or
nothing. -/

namespace Pdp11.Dispatch

variable {β : Type} [Board β]

/-- Last resort after the bus-error trap has failed. HALT mode needs no stack,
so a processor that has one can still go there. -/
def recoverDoubleFault : Dispatch β Bool := do
  match (← processor).model with
  | .t11 => return false
  | .vm2 =>
    let boundary := (← processor).checkpoint
    match ← attempt Microcode.enterHaltMode with
    | some () => return true
    | none =>
      restore boundary
      clearBusErrors
      return false

/-- A second bus error while the first was being answered. -/
def doubleFault (start : UInt64) : Dispatch β Outcome := do
  let pc := (← processor).pc
  update fun processor => (processor.recordFault .doubleFault pc).emit (.doubleFault pc)
  if ← recoverDoubleFault then
    syncShadow
    return .faulted .doubleFault (← elapsed start)
  else
    update (·.latch .doubleFault)
    return .stopped .doubleFault

/-- Answers a bus error from a boundary that has been restored already. -/
def serviceBusFault (start : UInt64) : Dispatch β Outcome := do
  let pc := (← processor).pc
  update fun processor => (processor.recordFault .busError pc).emit (.busFault pc)
  clearBusErrors
  let boundary := (← processor).checkpoint
  match ← attempt (Microcode.enterTrap TrapVector.busError) with
  | some () =>
    update (·.charge CostKind.faultTrapEntry.cycles)
    syncShadow
    return .faulted .busError (← elapsed start)
  | none =>
    restore boundary
    clearBusErrors
    doubleFault start

/-- Undoes what was cut short, then answers the bus error that cut it short. -/
def abandon (boundary : Checkpoint) (start : UInt64) : Dispatch β Outcome := do
  restore boundary
  serviceBusFault start

end Pdp11.Dispatch
