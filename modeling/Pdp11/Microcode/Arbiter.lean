import Pdp11.Microcode.HaltMode

/-! Interrupt arbitration. A pass chooses at most one service from the state
alone, and serves it; only the interrupt chain can turn out, when asked, to have
nothing. Passes follow each other until one takes nothing. -/

namespace Pdp11

/-- What the arbiter may do at an instruction boundary. -/
inductive Service where
  /-- The trace trap after a traced instruction. -/
  | trace
  /-- A request of the T-11, by number. -/
  | request (number : BitVec 4)
  | haltPin
  | powerFail
  | event
  /-- The interrupt chain, if a device answers. -/
  | chain
deriving DecidableEq, Repr

namespace Processor

/-- The T-11 serves a request above its own priority. -/
def t11Service? (processor : Processor) : Option Service :=
  let number := processor.lines.request
  if (T11.request number).priority ≤ processor.status.priority then none
  else some (.request number)

/-- Descends the ladder of the other model. HALT mode hides the HALT pin and
power fail, and the highest priority hides everything below the pin. -/
def vm2Service? (processor : Processor) : Option Service :=
  let lines := processor.lines
  let status := processor.status
  if lines.isAsserted .halt && !status.haltMode then some .haltPin
  else if status.priority = StatusWord.maxPriority then none
  else if lines.isAsserted .aclo && !status.haltMode then some .powerFail
  else if lines.event then some .event
  else if lines.isAsserted .virq then some .chain
  else none

/-- The service that the next pass attempts; a due trace trap comes before all. -/
def service? (processor : Processor) : Option Service :=
  if processor.isTraceDue then some .trace
  else match processor.model with
    | .t11 => processor.t11Service?
    | .vm2 => processor.vm2Service?

end Processor

namespace Microcode

variable {β : Type}

def updateLines (change : InputLines → InputLines) : Microcode β Unit :=
  update fun processor => { processor with lines := change processor.lines }

variable [Board β]

/-- A trap entry that counts as an interrupt. -/
def takeInterrupt (vector : Word) : Microcode β Unit := do
  enterTrap vector
  charge .interruptEntry
  update fun processor => { processor with statistics := processor.statistics.countInterrupt }

/-- Serves one request, and tells whether anything was taken. A line is dropped
only after its trap entry is complete, except in the chain, whose device has
already been answered. -/
def serve : Service → Microcode β Bool
  | .trace => do
    takeInterrupt TrapVector.breakpoint
    return true
  | .request number => do
    let answer ← consult (Board.acknowledge (number.setWidth 8))
    takeInterrupt (answer.getD (T11.request number).vector)
    return true
  | .haltPin => do
    enterHaltMode
    return true
  | .powerFail => do
    takeInterrupt TrapVector.powerFail
    updateLines (·.setLevel .aclo false)
    return true
  | .event => do
    takeInterrupt TrapVector.event
    updateLines (·.clearEvent)
    return true
  | .chain => do
    match (← consult Board.acknowledgeChain).filter (· != 0) with
    | none =>
      updateLines (·.setLevel .virq false)
      return false
    | some vector =>
      leaveHaltMode
      updateLines (·.clearEvent)
      takeInterrupt vector
      return true

/-- One arbiter pass. -/
def arbiterPass : Microcode β Bool := do
  match (← processor).service? with
  | some service => serve service
  | none => return false

/-- At most this many passes; tells whether any of them took something. -/
def arbiterPasses : Nat → Microcode β Bool
  | 0 => return false
  | limit + 1 => do
    if ← arbiterPass then
      let _ ← arbiterPasses limit
      return true
    else return false

/-- Nested entries at one boundary are cut off here. -/
def maxNestedTraps : Nat := 8

def arbitrate : Microcode β Bool := arbiterPasses maxNestedTraps

end Microcode
end Pdp11
