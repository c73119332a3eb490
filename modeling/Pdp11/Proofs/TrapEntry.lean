import Pdp11.Proofs.Contract
import Pdp11.Proofs.MachineState
import Pdp11.Proofs.StatusBits
import Pdp11.Microcode.HaltMode

/-! What a completed entry has done: the cycles that the board answered, in their
order, and the machine that they leave. -/

namespace Pdp11

variable {β : Type}

/-- A cycle is answered only where no bus error is pending. -/
theorem Microcode.cycle_eq_ok {α : Type} {request : β → Except BusError α × β} {before after : Machine β} {value : α}
    (done : cycle request before = .ok value after) :
    before.processor.lines.hasBusError = false ∧ request before.board = (.ok value, after.board) ∧
      after.processor = before.processor := by
  obtain ⟨processor, board⟩ := before
  simp only [cycle] at done
  cases answered : request board with
  | mk answer later =>
    rw [answered] at done
    cases answer with
    | error failure => cases done
    | ok answer =>
      by_cases pending : processor.lines.hasBusError
      · simp [pending] at done
      · simp only [pending, Bool.false_eq_true, if_false, EStateM.Result.ok.injEq] at done
        obtain ⟨rfl, rfl⟩ := done
        exact ⟨Bool.not_eq_true _ ▸ pending, rfl, rfl⟩

theorem Microcode.cycle_ok {α : Type} {request : β → Except BusError α × β} {before after : Machine β} {value : α}
    (done : cycle request before = .ok value after) :
    request before.board = (.ok value, after.board) ∧ after.processor = before.processor :=
  (cycle_eq_ok done).2

theorem Microcode.cycle_error {α : Type} {request : β → Except BusError α × β} {before after : Machine β}
    {abort : Abort} (failed : cycle request before = .error abort after) :
    abort = .failedCycle ∧ ∃ lines, lines.clearBusErrors = before.processor.lines.clearBusErrors ∧
      after.processor = { before.processor with lines } := by
  obtain ⟨processor, board⟩ := before
  simp only [cycle] at failed
  cases answered : request board with
  | mk answer later =>
    rw [answered] at failed
    cases answer with
    | error refusal =>
      cases failed
      exact ⟨rfl, processor.lines.raiseBusError, rfl, rfl⟩
    | ok answer =>
      by_cases pending : processor.lines.hasBusError
      · simp only [pending, if_true, EStateM.Result.error.injEq] at failed
        obtain ⟨rfl, rfl⟩ := failed
        exact ⟨rfl, processor.lines, rfl, rfl⟩
      · simp [pending] at failed

theorem Microcode.cycle_ended {α : Type} (request : β → Except BusError α × β) (machine : Machine β) :
    ∃ lines, ended (cycle request machine) = ⟨{ machine.processor with lines }, (request machine.board).2⟩ := by
  obtain ⟨processor, board⟩ := machine
  simp only [cycle]
  obtain ⟨answer | value, after⟩ := request board
  · exact ⟨_, rfl⟩
  · by_cases pending : processor.lines.hasBusError
    · simp only [pending, if_true]
      exact ⟨_, rfl⟩
    · simp only [pending, Bool.false_eq_true, if_false]
      exact ⟨_, rfl⟩

/-- Nothing but a failed cycle breaks this code off. -/
def Microcode.OnlyCyclesFail {α : Type} (code : Microcode β α) : Prop :=
  ∀ before after abort, code before = .error abort after → abort = .failedCycle

namespace Microcode.OnlyCyclesFail

variable {α γ : Type}

theorem cycle (request : β → Except BusError α × β) : OnlyCyclesFail (cycle request) :=
  fun _ _ _ failed => (cycle_error failed).1

theorem modify (change : Machine β → Machine β) : OnlyCyclesFail (modify change : Microcode β PUnit) := by
  intro before after abort failed
  cases failed

theorem processor : OnlyCyclesFail (processor : Microcode β Processor) := by
  intro before after abort failed
  cases failed

theorem register (name : Register) : OnlyCyclesFail (register name : Microcode β Word) := by
  intro before after abort failed
  cases failed

theorem bind {code : Microcode β α} {next : α → Microcode β γ} (first : OnlyCyclesFail code)
    (rest : ∀ value, OnlyCyclesFail (next value)) : OnlyCyclesFail (code >>= next) := by
  intro before after abort failed
  rcases bind_eq_error failed with begun | ⟨value, middle, _, later⟩
  · exact first _ _ _ begun
  · exact rest value _ _ _ later

end Microcode.OnlyCyclesFail

theorem Machine.installed_haltMode {machine : Machine β} (has : machine.processor.model = .vm2) (status : Word) :
    (machine.installed (status ||| StatusWord.haltBit)).haltMode = true := by
  simp only [installed, has, Model.implemented]
  exact StatusWord.isSet_masked_or (by decide) status

variable [Board β]

/-- The four cycles of a trap entry: the new context is read, the old one written
below the stack. -/
def TrapCycles (vector : Word) (interrupted : Processor) (pc status : Word) (before after : β) : Prop :=
  ∃ first second third,
    Board.readWord vector.even before = (.ok pc, first) ∧
    Board.readWord (vector + 2).even first = (.ok status, second) ∧
    Board.writeWord (interrupted.sp - 2).even interrupted.status.bits second = (.ok (), third) ∧
    Board.writeWord (interrupted.sp - 4).even interrupted.pc third = (.ok (), after)

def HaltCycles (block pc status : Word) (before after : β) : Prop :=
  ∃ first,
    Board.readWord (block + 4).even before = (.ok pc, first) ∧
    Board.readWord (block + 6).even first = (.ok status, after)

namespace Machine

/-- Where a trap entry ends, once the board has answered all of its cycles. -/
def trapped (machine : Machine β) (vector pc status : Word) (board : β) : Machine β :=
  let stacked := (machine.processor.setSp (machine.processor.sp - 4)).setPc pc
  ((⟨stacked, board⟩ : Machine β).installStatus status).update fun processor =>
    { processor.wake with tracePending := false }.emit (.trapTaken vector machine.processor.pc)

def halted (machine : Machine β) (pc status : Word) (board : β) : Machine β :=
  let banked := { machine.processor.syncShadow with bank := .halt }.setPc pc
  ((⟨banked, board⟩ : Machine β).installStatus (status ||| StatusWord.haltBit)).update fun processor =>
    ({ processor.wake with tracePending := false }.charge CostKind.haltEntry.cycles).emit
      (.haltEntered machine.processor.pc)

def haltBoard (machine : Machine β) : β :=
  if machine.processor.bank = .halt then machine.board else Board.selectBank .halt machine.board

variable (machine : Machine β) (vector pc status : Word) (board : β)

theorem trapped_registers : (machine.trapped vector pc status board).processor.registers =
    (machine.processor.registers.setSp (machine.processor.sp - 4)).setPc pc := by
  simp only [trapped, update_processor, Processor.emit_eq, Processor.wake_eq, installStatus_processor]
  rfl

theorem trapped_status : (machine.trapped vector pc status board).processor.status = machine.installed status := by
  simp only [trapped, update_processor, Processor.emit_eq, Processor.wake_eq, installStatus_processor]
  rfl

theorem trapped_lines : (machine.trapped vector pc status board).processor.lines = machine.processor.lines := by
  simp only [trapped, update_processor, Processor.emit_eq, Processor.wake_eq, installStatus_processor]
  rfl

theorem trapped_tracePending : (machine.trapped vector pc status board).processor.tracePending = false := by
  simp only [trapped, update_processor, Processor.emit_eq]

theorem halted_tracePending : (machine.halted pc status board).processor.tracePending = false := by
  simp only [halted, update_processor, Processor.emit_eq]
  rfl

theorem halted_registers : (machine.halted pc status board).processor.registers =
    machine.processor.registers.setPc pc := by
  simp only [halted, update_processor, Processor.emit_eq, Processor.wake_eq, installStatus_processor,
    Processor.syncShadow_eq]
  rfl

theorem halted_status : (machine.halted pc status board).processor.status =
    machine.installed (status ||| StatusWord.haltBit) := by
  simp only [halted, update_processor, Processor.emit_eq, Processor.wake_eq, installStatus_processor,
    Processor.syncShadow_eq]
  rfl

/-- Entering HALT mode keeps the context it left behind, unless it left none. -/
theorem halted_shadow : (machine.halted pc status board).processor.shadow =
    if machine.processor.status.haltMode then machine.processor.shadow else machine.processor.context := by
  simp only [halted, update_processor, Processor.emit_eq, Processor.wake_eq, installStatus_processor,
    Processor.syncShadow_eq]
  rfl

variable {machine}

theorem installStatus_halt (has : machine.processor.model = .vm2) (on : machine.processor.bank = .halt) :
    machine.installStatus (status ||| StatusWord.haltBit) =
      machine.update ({ · with status := machine.installed (status ||| StatusWord.haltBit) }) := by
  rw [installStatus_eq]
  simp [switches, installed_haltMode has status, on]

theorem halted_haltMode (has : machine.processor.model = .vm2) :
    (machine.halted pc status board).processor.status.haltMode = true := by
  rw [halted_status]
  exact installed_haltMode has status

theorem halted_bank (has : machine.processor.model = .vm2) :
    (machine.halted pc status board).processor.bank = .halt := by
  have model : machine.processor.syncShadow.model = .vm2 := by
    rw [Processor.syncShadow_eq]
    exact has
  simp only [halted]
  rw [installStatus_halt status model rfl]
  simp only [update_processor, Processor.emit_eq, Processor.wake_eq]
  rfl

theorem halted_board (has : machine.processor.model = .vm2) : (machine.halted pc status board).board = board := by
  have model : machine.processor.syncShadow.model = .vm2 := by
    rw [Processor.syncShadow_eq]
    exact has
  simp only [halted]
  rw [installStatus_halt status model rfl]
  rfl

end Machine

namespace Microcode

theorem push_ok {value : Word} {before after : Machine β} (done : push value before = .ok () after) :
    Board.writeWord (before.processor.sp - 2).even value before.board = (.ok (), after.board) ∧
      after.processor = before.processor.setSp (before.processor.sp - 2) := by
  obtain ⟨_, _, read, rest⟩ := bind_eq_ok done
  cases read
  obtain ⟨_, _, lowered, written⟩ := bind_eq_ok rest
  cases lowered
  exact cycle_ok written

theorem enterTrap_ok {vector : Word} {before after : Machine β}
    (done : enterTrap vector before = .ok () after) :
    before.processor.lines.hasBusError = false ∧
      ∃ pc status board, TrapCycles vector before.processor pc status before.board board ∧
        after = before.trapped vector pc status board := by
  unfold enterTrap at done
  split at done
  · cases done
  obtain ⟨newPc, first, readPc, done⟩ := bind_eq_ok done
  obtain ⟨newStatus, second, readStatus, done⟩ := bind_eq_ok done
  obtain ⟨_, _, noted, done⟩ := bind_eq_ok done
  cases noted
  obtain ⟨_, third, savedStatus, done⟩ := bind_eq_ok done
  obtain ⟨_, fourth, savedPc, done⟩ := bind_eq_ok done
  cases done
  obtain ⟨ready, answeredPc, keptFirst⟩ := cycle_eq_ok readPc
  obtain ⟨answeredStatus, keptSecond⟩ := cycle_ok readStatus
  obtain ⟨writtenStatus, keptThird⟩ := push_ok savedStatus
  obtain ⟨writtenPc, keptFourth⟩ := push_ok savedPc
  have same : second.processor = before.processor := keptSecond.trans keptFirst
  have lowered : third.processor.sp - 2 = before.processor.sp - 4 := by
    rw [keptThird, same, Processor.sp_setSp]
    bv_omega
  have stacked : fourth.processor = before.processor.setSp (before.processor.sp - 4) := by
    rw [keptFourth, lowered, keptThird, same, Processor.setSp_setSp]
  refine ⟨ready, newPc, newStatus, fourth.board,
    ⟨first.board, second.board, third.board, answeredPc, answeredStatus, ?_, ?_⟩, ?_⟩
  · rwa [same] at writtenStatus
  · rw [lowered, same] at writtenPc
    exact writtenPc
  · simp only [Machine.trapped, ← stacked]
    rw [show before.processor.pc = second.processor.context.pc by rw [same]; rfl]
    rfl

private theorem takeBlock_ok (interrupted : Processor) {first after : Machine β}
    (done : takeBlock interrupted first = .ok () after) :
    first.processor.lines.hasBusError = false ∧
      ∃ pc status board, HaltCycles (Vm2.startBlock interrupted.mode) pc status first.board board ∧
        after = ((⟨first.processor.setPc pc, board⟩ : Machine β).installStatus
          (status ||| StatusWord.haltBit)).update fun processor =>
            ({ processor.wake with tracePending := false }.charge CostKind.haltEntry.cycles).emit
              (.haltEntered interrupted.pc) := by
  obtain ⟨newPc, second, readPc, done⟩ := bind_eq_ok done
  obtain ⟨newStatus, third, readStatus, done⟩ := bind_eq_ok done
  cases done
  obtain ⟨ready, answeredPc, keptFirst⟩ := cycle_eq_ok readPc
  obtain ⟨answeredStatus, keptSecond⟩ := cycle_ok readStatus
  refine ⟨ready, newPc, newStatus, third.board, ⟨second.board, answeredPc, answeredStatus⟩, ?_⟩
  rw [← keptFirst, ← keptSecond]
  rfl

theorem enterHaltMode_ok {before after : Machine β} (done : enterHaltMode before = .ok () after) :
    before.processor.lines.hasBusError = false ∧
      ∃ pc status board,
        HaltCycles (Vm2.startBlock before.processor.mode) pc status before.haltBoard board ∧
        after = before.halted pc status board := by
  rw [enterHaltMode_eq] at done
  obtain ⟨ready, pc, status, board, cycles, rfl⟩ := takeBlock_ok before.processor done
  have kept : before.haltBanked.processor.lines = before.processor.lines := by
    rw [Machine.haltBanked_processor, Processor.syncShadow_eq]
  have banked : before.haltBanked.board = before.haltBoard := by
    unfold Machine.haltBanked Machine.haltBoard
    split <;> rfl
  refine ⟨kept ▸ ready, pc, status, board, banked ▸ cycles, ?_⟩
  rw [Machine.haltBanked_processor]
  rfl

namespace OnlyCyclesFail

theorem push (value : Word) : OnlyCyclesFail (push value : Microcode β Unit) :=
  (register _).bind fun _ => (modify _).bind fun _ => cycle _

theorem enterTrap {vector : Word} (aligned : vector &&& 3 = 0) : OnlyCyclesFail (enterTrap vector : Microcode β Unit) := by
  unfold Microcode.enterTrap
  rw [if_neg (by rw [aligned]; decide)]
  exact (cycle _).bind fun _ => (cycle _).bind fun _ => processor.bind fun _ => (push _).bind fun _ =>
    (push _).bind fun _ => (modify _).bind fun _ => (modify _).bind fun _ => (modify _).bind fun _ => modify _

theorem enterHaltMode : OnlyCyclesFail (enterHaltMode : Microcode β Unit) := by
  intro before after abort failed
  have block : OnlyCyclesFail (takeBlock before.processor : Microcode β Unit) :=
    (cycle _).bind fun _ => (cycle _).bind fun _ => (modify _).bind fun _ => (modify _).bind fun _ =>
      (modify _).bind fun _ => (modify _).bind fun _ => modify _
  rw [enterHaltMode_eq] at failed
  exact block _ _ _ failed

end OnlyCyclesFail

end Microcode
end Pdp11
