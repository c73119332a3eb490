import Pdp11.Microcode.HaltMode

/-! How the small operations of a machine look field by field. Installing a status
word is the only one with more to it: the bank follows the HALT mode bit. -/

namespace Pdp11

variable {β : Type}

namespace Bank

@[simp] theorem ofHaltMode_true : ofHaltMode true = halt := rfl

@[simp] theorem ofHaltMode_false : ofHaltMode false = user := rfl

end Bank

namespace RegisterFile

variable (file : RegisterFile) (value : Word)

@[simp] theorem pc_setPc : (file.setPc value).pc = value := by
  rw [pc, setPc, get_set, if_pos rfl]

@[simp] theorem sp_setSp : (file.setSp value).sp = value := by
  rw [sp, setSp, get_set, if_pos rfl]

@[simp] theorem sp_setPc : (file.setPc value).sp = file.sp := by
  rw [sp, setPc, get_set, if_neg (by decide), sp]

theorem get_setPc {name : Register} (other : name ≠ .pc) : (file.setPc value).get name = file.get name := by
  rw [setPc, get_set, if_neg other.symm]

theorem get_setSp {name : Register} (other : name ≠ .sp) : (file.setSp value).get name = file.get name := by
  rw [setSp, get_set, if_neg other.symm]

theorem set_set (name : Register) (first second : Word) :
    (file.set name first).set name second = file.set name second := by
  apply ext_get
  intro other
  simp only [get_set]
  split <;> rfl

theorem set_get (name : Register) : file.set name (file.get name) = file := by
  apply ext_get
  intro other
  rw [get_set]
  split
  · next same => rw [same]
  · rfl

theorem high_setByte (name : Register) (byte : Byte) :
    ((file.setByte name byte).get name).high = (file.get name).high := by
  rw [setByte, get_set, if_pos rfl, Word.high_ofBytes]

end RegisterFile

theorem InputLines.busErrors_setLevel (lines : InputLines) (line : InputLine) (asserted : Bool) :
    (lines.setLevel line asserted).busErrors = lines.busErrors := by
  unfold setLevel
  split
  · rfl
  · rfl

namespace Processor

variable (processor : Processor)

/-- Of two moves of a register the second one counts. -/
theorem setRegister_setRegister (name : Register) (first second : Word) :
    (processor.setRegister name first).setRegister name second = processor.setRegister name second := by
  simp only [setRegister, RegisterFile.set_set]

theorem setRegister_get (name : Register) : processor.setRegister name (processor.registers.get name) = processor := by
  rw [setRegister, RegisterFile.set_get]

@[simp] theorem sp_setSp (value : Word) : (processor.setSp value).sp = value := RegisterFile.sp_setSp _ _

theorem setSp_setSp (first second : Word) : (processor.setSp first).setSp second = processor.setSp second :=
  processor.setRegister_setRegister .sp first second

theorem wake_eq : processor.wake =
    { processor with
      runState := if processor.runState = .waiting then .running else processor.runState } := by
  unfold wake
  split <;> simp [*]

theorem emit_eq (event : TraceEvent) : processor.emit event =
    { processor with
      observed := if processor.configuration.traceEnabled then processor.observed.map (·.push event)
        else processor.observed } := by
  unfold emit
  split <;> simp [*]

theorem syncShadow_eq : processor.syncShadow =
    { processor with
      shadow := if processor.status.haltMode then processor.shadow else processor.context } := by
  unfold syncShadow
  split <;> simp [*]

end Processor

namespace Machine

@[simp] theorem update_processor (machine : Machine β) (change : Processor → Processor) :
    (machine.update change).processor = change machine.processor := rfl

variable [Board β] (machine : Machine β)

@[simp] theorem selectBank_processor (bank : Bank) :
    (machine.selectBank bank).processor = { machine.processor with bank } := rfl

def installed (bits : Word) : StatusWord := StatusWord.masked ⟨bits⟩ machine.processor.model.implemented

/-- The board hears of a bank only where HALT mode exists and changes. -/
def switches (bits : Word) : Bool :=
  machine.processor.model.hasHaltMode && Bank.ofHaltMode (machine.installed bits).haltMode != machine.processor.bank

theorem installStatus_eq (bits : Word) :
    machine.installStatus bits =
      let status := machine.installed bits
      let installed := machine.update ({ · with status })
      if machine.switches bits then installed.selectBank (Bank.ofHaltMode status.haltMode) else installed :=
  rfl

theorem installStatus_processor (bits : Word) :
    (machine.installStatus bits).processor =
      { machine.processor with
        status := machine.installed bits
        bank := if machine.processor.model.hasHaltMode then Bank.ofHaltMode (machine.installed bits).haltMode
          else machine.processor.bank } := by
  rw [installStatus_eq]
  cases has : machine.processor.model.hasHaltMode with
  | false => simp [switches, has]
  | true =>
    by_cases same : Bank.ofHaltMode (machine.installed bits).haltMode = machine.processor.bank
    · simp [switches, has, same]
    · simp [switches, has, same]

theorem installStatus_board (bits : Word) :
    (machine.installStatus bits).board =
      if machine.switches bits then
        Board.selectBank (Bank.ofHaltMode (machine.installed bits).haltMode) machine.board
      else machine.board := by
  rw [installStatus_eq]
  cases machine.switches bits <;> rfl

/-- Where an entry into HALT mode is about to read its start block. -/
def haltBanked : Machine β :=
  let synced := machine.update (·.syncShadow)
  if machine.processor.bank = .halt then synced else synced.selectBank .halt

theorem haltBanked_processor : machine.haltBanked.processor = { machine.processor.syncShadow with bank := .halt } := by
  by_cases on : machine.processor.bank = .halt
  · have same : machine.processor.syncShadow.bank = .halt := by
      rw [Processor.syncShadow_eq]
      exact on
    simp only [haltBanked, on, if_true, update_processor, ← same]
  · simp only [haltBanked, on, if_false, selectBank_processor, update_processor]

end Machine

namespace Microcode

variable [Board β]

/-- The part of an entry into HALT mode that reads the start block. -/
def takeBlock (interrupted : Processor) : Microcode β Unit := do
  let block := Vm2.startBlock interrupted.mode
  let newPc ← readWord (block + 4)
  let newStatus ← readWord (block + 6)
  setPc newPc
  installStatus (newStatus ||| StatusWord.haltBit)
  update fun processor => { processor.wake with tracePending := false }
  charge .haltEntry
  emit (.haltEntered interrupted.pc)

theorem enterHaltMode_eq (machine : Machine β) : enterHaltMode machine = takeBlock machine.processor machine.haltBanked := by
  by_cases on : machine.processor.bank = .halt
  · simp only [enterHaltMode, Machine.haltBanked, Bind.bind, EStateM.bind, processor, on, bne_self_eq_false,
      Bool.false_eq_true, if_false, if_true]
    rfl
  · simp only [enterHaltMode, Machine.haltBanked, Bind.bind, EStateM.bind, processor, bne_iff_ne, ne_eq, on,
      not_false_eq_true, if_false, if_true]
    rfl

theorem halt_eq (machine : Machine β) : halt machine =
    match machine.processor.model with
    | .t11 => restart machine
    | .vm2 => enterHaltMode machine := by
  simp only [halt, Bind.bind, EStateM.bind, processor]
  cases machine.processor.model <;> rfl

end Microcode
end Pdp11
