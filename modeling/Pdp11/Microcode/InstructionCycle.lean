import Pdp11.Microcode.Execute
import Pdp11.Microcode.HaltMode
import Pdp11.Outcome

/-! One instruction from fetch to retirement. A failed cycle anywhere in it
aborts the whole; what it had changed by then is for the caller to undo. -/

namespace Pdp11.Microcode

variable {β : Type} [Board β]

/-- Executes an instruction and charges it, unless it trapped: then it is charged
its trap entry instead. -/
def executeCharged (instruction : Instruction) : Microcode β Retirement := do
  let retirement ← execute instruction
  match retirement with
  | .trapped _ => charge .faultTrapEntry
  | _ => update (·.charge instruction.cycles)
  return retirement

/-- Executes a fetched word up to its retirement. A reserved word traps. -/
def executeWord (word : Word) : Microcode β Retirement := do
  match Instruction.ofWord? word with
  | some instruction =>
    let retirement ← executeCharged instruction
    match retirement with
    | .waiting => update ({ · with runState := .waiting })
    | .halting => halt
    | .completed | .trapped _ => pure ()
    return retirement
  | none =>
    let retirement ← trapped .reservedInstruction
    charge .faultTrapEntry
    return retirement

/-- Fetches and executes the next instruction. The trace trap it may leave
pending is decided by the status word it leaves, not the one it found. -/
def instructionCycle (start : UInt64) : Microcode β Outcome := do
  let pc := (← processor).pc.even
  update fun processor => { processor.setPc pc with previousPc := pc }
  emit (.instructionStart pc)
  let word ← fetchWord
  let retirement ← executeWord word
  update fun processor =>
    { processor with
      tracePending := processor.status.trace && !processor.traceInhibited
      traceInhibited := false
      statistics := processor.statistics.countInstruction }
  let cycles := (← processor).elapsed start
  emit (.instructionRetired pc word cycles)
  update (·.syncShadow)
  match retirement with
  | .trapped cause => return .faulted cause cycles
  | _ => return .retired cycles

end Pdp11.Microcode
