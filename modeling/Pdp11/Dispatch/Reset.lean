import Pdp11.Dispatch

/-! Reset. One model starts at an address strapped on its mode register; the
other starts in HALT mode, from a block of memory that it has to read first. -/

namespace Pdp11

/-- Loads the reset context from the start block. -/
def Microcode.loadStartBlock {β : Type} [Board β] : Microcode β Unit := do
  let block := Vm2.startBlock (← processor).mode
  let pc ← readWord block
  let status ← readWord (block + 2)
  setPc pc
  installStatus status
  update fun processor => { processor with shadow := processor.context }

namespace Dispatch

variable {β : Type} [Board β]

/-- Resets into HALT mode. Both banks are selected in turn, so the board sees a
switch whatever bank was on. A start block that cannot be read is a double fault,
since no trap could be delivered either. -/
def resetVm2 : Dispatch β Unit := do
  modify (·.selectBank .user)
  modify (·.selectBank .halt)
  modify fun machine =>
    let switches := (Board.startSwitches machine.board).setWidth 16 &&& Vm2.switchMask
    machine.update fun processor =>
      { processor.setSp resetSp with
        status := ⟨StatusWord.haltBit⟩
        mode := processor.mode ||| switches }
  match ← attempt Microcode.loadStartBlock with
  | some () => return
  | none =>
    clearBusErrors
    update fun processor => (processor.recordFault .doubleFault processor.pc).latch .doubleFault

/-- Resets to the strapped start address at the highest priority. -/
def resetT11 : Dispatch β Unit :=
  update fun processor =>
    { (processor.setSp resetSp).setPc (T11.startAddress processor.mode) with
      status := T11.resetStatus }

/-- Hardware reset. Only statistics, observer and what the model leaves alone
remain of the past. -/
def reset : Dispatch β Unit := do
  update (·.cleared)
  match (← processor).model with
  | .t11 => resetT11
  | .vm2 => resetVm2
  syncShadow

end Dispatch
end Pdp11
