import Pdp11.Microcode

/-! Halting. One model has a HALT mode, entered through the start block of its
own bank with the user's context kept in the shadow; the other has none, and a
HALT instruction restarts it with the old context on the stack. -/

namespace Pdp11.Microcode

variable {β : Type} [Board β]

/-- Enters HALT mode. The shadow is written before the start block is read, and
the bank is selected first, since the block lies in the HALT bank. -/
def enterHaltMode : Microcode β Unit := do
  let interrupted ← processor
  update (·.syncShadow)
  if interrupted.bank != .halt then modify (·.selectBank .halt)
  let block := Vm2.startBlock interrupted.mode
  let newPc ← readWord (block + 4)
  let newStatus ← readWord (block + 6)
  setPc newPc
  installStatus (newStatus ||| StatusWord.haltBit)
  update fun processor => { processor.wake with tracePending := false }
  charge .haltEntry
  emit (.haltEntered interrupted.pc)

/-- Clears the HALT mode bit, and with it the bank. -/
def leaveHaltMode : Microcode β Unit := do
  installStatus ((← processor).status.bits &&& ~~~StatusWord.haltBit)

/-- Restarts at the second word pair of the start address, stack permitting. -/
def restart : Microcode β Unit := do
  let interrupted ← processor
  push interrupted.status.bits
  push interrupted.pc
  setPc (T11.startAddress interrupted.mode + 4)
  update ({ · with status := T11.resetStatus })

/-- What a HALT instruction does once it has been charged. -/
def halt : Microcode β Unit := do
  match (← processor).model with
  | .t11 => restart
  | .vm2 => enterHaltMode

end Pdp11.Microcode
