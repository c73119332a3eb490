import Pdp11.Proofs.BoardRecord
import Pdp11.Proofs.History
import Pdp11.Proofs.Retirement

/-! A bus error undoes everything since the instruction boundary: its trap, and
HALT mode after it, are entered from there. -/

namespace Pdp11

variable {β : Type}

/-- What a boundary is made of, and what its answer to a fault depends on. -/
structure SameBoundary (boundary processor : Processor) : Prop where
  registers : processor.registers = boundary.registers
  status : processor.status = boundary.status
  bank : processor.bank = boundary.bank
  configuration : processor.configuration = boundary.configuration
  mode : processor.mode = boundary.mode

namespace SameBoundary

variable {first second third : Processor}

theorem refl (processor : Processor) : SameBoundary processor processor := ⟨rfl, rfl, rfl, rfl, rfl⟩

theorem trans (left : SameBoundary first second) (right : SameBoundary second third) : SameBoundary first third :=
  ⟨right.registers.trans left.registers, right.status.trans left.status, right.bank.trans left.bank,
    right.configuration.trans left.configuration, right.mode.trans left.mode⟩

theorem noted (processor : Processor) (code : FaultCode) (event : TraceEvent) :
    SameBoundary processor ((processor.recordFault code processor.pc).emit event) := by
  rw [Processor.emit_eq]
  exact ⟨rfl, rfl, rfl, rfl, rfl⟩

theorem busFaultNoted (machine : Machine β) : SameBoundary machine.processor machine.busFaultNoted.processor := by
  have noted := noted machine.processor .busError (.busFault machine.processor.pc)
  exact ⟨noted.registers, noted.status, noted.bank, noted.configuration, noted.mode⟩

theorem hardware (same : SameBoundary first second) : SameHardware first second :=
  ⟨same.configuration, same.status, same.bank⟩

theorem pc (same : SameBoundary first second) : second.pc = first.pc := congrArg RegisterFile.pc same.registers

theorem sp (same : SameBoundary first second) : second.sp = first.sp := congrArg RegisterFile.sp same.registers

theorem context (same : SameBoundary first second) : second.context = first.context := by
  rw [Processor.context, Processor.context, same.pc, same.status]

theorem checkpoint (same : SameBoundary first second) : second.checkpoint = first.checkpoint := by
  rw [Processor.checkpoint, Processor.checkpoint, same.registers, same.status]

theorem model (same : SameBoundary first second) : second.model = first.model :=
  congrArg Configuration.model same.configuration

end SameBoundary

variable [Board β] {configuration : Configuration}

/-- Going back over microcode reaches the boundary that it started from. -/
theorem Actions.restore {allowed : Scope} {machine broken : Machine β} (actions : Actions allowed machine broken)
    (holds : Consistent configuration machine.processor) :
    SameBoundary machine.processor (broken.restore machine.processor.checkpoint).processor := by
  have recoverable := actions.recoverable holds.recoverable
  have restored := recoverable.restore machine.processor.checkpoint
  have status : (broken.restore machine.processor.checkpoint).processor.status = machine.processor.status := by
    simp only [Machine.restore, Machine.installStatus_processor, Machine.installed]
    change StatusWord.masked machine.processor.status broken.processor.model.implemented = _
    rw [recoverable.model]
    exact holds.fits.masked
  refine ⟨?_, status, ?_, ?_, ?_⟩
  · simp only [Machine.restore, Machine.installStatus_processor]
    rfl
  · rw [restored.bank, status, holds.bank]
  · rw [restored.configured, holds.configured]
  · simp only [Machine.restore, Machine.installStatus_processor]
    exact actions.sameSetting.mode

/-- How a bus error is answered from a boundary, on a board reached by then. -/
inductive FaultAnswered (boundary : Processor) (reached : β → Prop) : Outcome → Machine β → Prop where
  /-- By its trap. -/
  | trapped {cycles : Nat} {pc status : Word} {before board : β} {after : Machine β} (on : reached before)
      (entered : TrapCycles TrapVector.busError boundary pc status before board)
      (switched : after.board = board ∨ ∃ bank, after.board = Board.selectBank bank board)
      (registers : after.processor.registers = (boundary.registers.setSp (boundary.sp - 4)).setPc pc)
      (installed : after.processor.status = StatusWord.masked ⟨status⟩ boundary.model.implemented) :
      FaultAnswered boundary reached (.faulted .busError cycles) after
  /-- By HALT mode, as the trap failed. -/
  | halted {cycles : Nat} {pc status : Word} {before : β} {after : Machine β} (on : reached before)
      (has : boundary.model = .vm2)
      (entered : HaltCycles (Vm2.startBlock boundary.mode) pc status before after.board)
      (registers : after.processor.registers = boundary.registers.setPc pc)
      (installed : after.processor.status =
        StatusWord.masked ⟨status ||| StatusWord.haltBit⟩ boundary.model.implemented)
      (bank : after.processor.bank = .halt)
      (shadow : boundary.status.haltMode = false → after.processor.shadow = boundary.context) :
      FaultAnswered boundary reached (.faulted .doubleFault cycles) after
  /-- Not at all: the processor stops where it was. -/
  | latched {after : Machine β} (same : SameBoundary boundary after.processor)
      (latched : after.processor.runState = .latched .doubleFault) :
      FaultAnswered boundary reached (.stopped .doubleFault) after

theorem TrapCycles.atBoundary {boundary interrupted : Processor} {vector pc status : Word} {before after : β}
    (entered : TrapCycles vector interrupted pc status before after) (same : SameBoundary boundary interrupted) :
    TrapCycles vector boundary pc status before after := by
  obtain ⟨first, second, third, readPc, readStatus, savedStatus, savedPc⟩ := entered
  rw [same.sp, same.status] at savedStatus
  rw [same.sp, same.pc] at savedPc
  exact ⟨first, second, third, readPc, readStatus, savedStatus, savedPc⟩

theorem Machine.installStatus_board_cases (machine : Machine β) (bits : Word) :
    (machine.installStatus bits).board = machine.board ∨
      ∃ bank, (machine.installStatus bits).board = Board.selectBank bank machine.board := by
  rw [installStatus_board]
  split
  · exact .inr ⟨_, rfl⟩
  · exact .inl rfl

namespace Dispatch

variable {boundary : Processor} {machine after : Machine β} {outcome : Outcome} {start : UInt64}
  {lasting : β → Prop}

private theorem halted_answers (persistent : Persistent lasting) (on : lasting machine.board)
    (has : boundary.model = .vm2) (same : SameBoundary boundary machine.processor)
    (entered : Microcode.enterHaltMode machine = .ok () after) (cycles : Nat) :
    FaultAnswered boundary lasting (.faulted .doubleFault cycles) (after.update (·.syncShadow)) := by
  have model : machine.processor.model = .vm2 := same.model.trans has
  obtain ⟨_, pc, status, board, read, rfl⟩ := Microcode.enterHaltMode_ok entered
  have frozen : (machine.halted pc status board).update (·.syncShadow) = machine.halted pc status board := by
    simp only [Machine.update, Processor.syncShadow, Machine.halted_haltMode pc status board model, if_true]
  rw [frozen]
  rw [same.mode, ← Machine.halted_board pc status board model] at read
  have banked : lasting machine.haltBoard := by
    unfold Machine.haltBoard
    split
    · exact on
    · exact persistent.selected _ on
  refine .halted banked has read ?_ ?_ (Machine.halted_bank pc status board model) fun user => ?_
  · rw [Machine.halted_registers, same.registers]
  · rw [Machine.halted_status, Machine.installed, same.model]
  · rw [Machine.halted_shadow, same.status, user, same.context]
    rfl

theorem doubleFault_answers (persistent : Persistent lasting) (on : lasting machine.board)
    (holds : Consistent configuration machine.processor) (same : SameBoundary boundary machine.processor)
    (done : doubleFault start machine = .ok outcome after) : FaultAnswered boundary lasting outcome after := by
  have noted : SameBoundary boundary machine.doubleFaultNoted.processor := same.trans (.noted _ _ _)
  have left : lasting machine.doubleFaultNoted.board := on
  have consistent : Consistent configuration machine.doubleFaultNoted.processor :=
    holds.transfer (Bookkept.noted _ _ _).toSameHardware
  cases doubleFault_ended done with
  | stopped without => exact .latched ⟨noted.registers, noted.status, noted.bank, noted.configuration, noted.mode⟩ rfl
  | halted has entered => exact halted_answers persistent left (same.model.symm.trans has) noted entered _
  | failed has failed =>
    have model : machine.doubleFaultNoted.processor.model = .vm2 := consistent.model.trans (holds.model.symm.trans has)
    have path := ((Microcode.acts_enterHaltMode model (Scope.any_halts _)).error rfl failed).path
    have back := noted.trans (path.restore consistent)
    exact .latched ⟨back.registers, back.status, back.bank, back.configuration, back.mode⟩ rfl

theorem serviceBusFault_answers (persistent : Persistent lasting) (on : lasting machine.board)
    (holds : Consistent configuration machine.processor) (same : SameBoundary boundary machine.processor)
    (done : serviceBusFault start machine = .ok outcome after) : FaultAnswered boundary lasting outcome after := by
  have noted : SameBoundary boundary machine.busFaultNoted.processor := same.trans (.busFaultNoted machine)
  have consistent : Consistent configuration machine.busFaultNoted.processor :=
    holds.transfer (SameBoundary.busFaultNoted machine).hardware
  cases serviceBusFault_ended done with
  | trapped entered =>
    obtain ⟨_, pc, status, board, cycles, rfl⟩ := Microcode.enterTrap_ok entered
    refine .trapped on (cycles.atBoundary noted) (Machine.installStatus_board_cases _ _) ?_ ?_
    · rw [Machine.update_processor, Processor.syncShadow_eq]
      change (machine.busFaultNoted.trapped _ pc status board).processor.registers = _
      rw [Machine.trapped_registers, noted.registers, noted.sp]
    · rw [Machine.update_processor, Processor.syncShadow_eq]
      change (machine.busFaultNoted.trapped _ pc status board).processor.status = _
      rw [Machine.trapped_status, Machine.installed, noted.model]
  | @again broken _ _ failed done =>
    have cut : Broken .any machine.busFaultNoted _ broken := (Microcode.acts_enterTrap _).error failed
    have path := cut.path
    have back := noted.trans (path.restore consistent)
    have restored := (path.recoverable consistent.recoverable).restore machine.busFaultNoted.processor.checkpoint
    have cleared : Consistent configuration
        (broken.restore machine.busFaultNoted.processor.checkpoint).busErrorsCleared.processor :=
      restored.transfer ⟨rfl, rfl, rfl⟩
    have left : lasting (broken.restore machine.busFaultNoted.processor.checkpoint).busErrorsCleared.board :=
      persistent.restore _ (persistent.actions path on)
    refine doubleFault_answers persistent left cleared ?_ done
    exact ⟨back.registers, back.status, back.bank, back.configuration, back.mode⟩

/-- Whatever a step was doing when a cycle failed, it answers from its boundary. -/
theorem boundaryStep_answers (persistent : Persistent lasting) (on : lasting machine.board)
    (holds : Consistent configuration machine.processor) (done : boundaryStep machine = .ok outcome after)
    (cut : outcome.CutShort) : FaultAnswered machine.processor lasting outcome after := by
  have answered {broken : Machine β} (path : Actions .any machine broken)
      (served : serviceBusFault machine.processor.cycles (broken.restore machine.processor.checkpoint) =
        .ok outcome after) : FaultAnswered machine.processor lasting outcome after := by
    have restored := (path.recoverable holds.recoverable).restore machine.processor.checkpoint
    have left := persistent.restore machine.processor.checkpoint (persistent.actions path on)
    exact serviceBusFault_answers persistent left restored (path.restore holds) served
  cases boundaryStep_ended done with
  | pending _ served => exact serviceBusFault_answers persistent on holds (.refl _) served
  | arbiterFailed _ failed served => exact answered (Microcode.acts_arbitrate.error failed).path served
  | interrupted | waiting => exact cut.elim
  | instructionFailed _ arbitrated _ failed served =>
    have settled := Microcode.acts_arbitrate.ok arbitrated
    exact answered (settled.trans ((Microcode.acts_instructionCycle _).error failed).path) served
  | executed _ _ _ executed => exact absurd cut (Microcode.instructionCycle_whole _ _ _ _ executed)

end Dispatch

structure BusErrorTaken (boundary : Processor) (after : Machine (Recorded (Faulty FlatBoard))) : Prop where
  general : ∀ name, name ≠ .sp → name ≠ .pc → after.processor.registers.get name = boundary.registers.get name
  sp : after.processor.sp = boundary.sp - 4
  /-- The trap's cycles are the last on record, and what they read is what is installed. -/
  installed : ∃ pc status earlier later,
    after.board.calls = earlier ++ trapCalls TrapVector.busError boundary pc status ++ later ∧
    (∀ call ∈ later, ∃ bank, call = .selectBank bank) ∧
    after.processor.pc = pc ∧ after.processor.status = StatusWord.masked ⟨status⟩ boundary.model.implemented
  savedStatus : after.board.board.board.memory.word (boundary.sp - 2) = boundary.status.bits
  savedPc : after.board.board.board.memory.word (boundary.sp - 4) = boundary.pc

structure DoubleFaultTaken (boundary : Processor) (after : Machine (Recorded (Faulty FlatBoard))) : Prop where
  model : boundary.model = .vm2
  others : ∀ name, name ≠ .pc → after.processor.registers.get name = boundary.registers.get name
  installed : ∃ pc status earlier,
    after.board.calls = earlier ++ haltCalls (Vm2.startBlock boundary.mode) pc status ∧ after.processor.pc = pc ∧
    after.processor.status = StatusWord.masked ⟨status ||| StatusWord.haltBit⟩ boundary.model.implemented
  bank : after.processor.bank = .halt
  shadow : boundary.status.haltMode = false → after.processor.shadow = boundary.context

variable {boundary : Processor} {after : Machine (Recorded (Faulty FlatBoard))} {cycles : Nat}

theorem FaultAnswered.busErrorTaken
    (answered : FaultAnswered boundary (fun board => board.recording = true) (.faulted .busError cycles) after) :
    BusErrorTaken boundary after := by
  cases answered with
  | @trapped _ pc status before board _ noted entered switched registers installed =>
    obtain ⟨recording, calls, answered⟩ := entered.recorded noted
    obtain ⟨savedStatus, savedPc⟩ := answered.stacked
    have memory : after.board.board.board.memory = board.board.board.memory := by
      rcases switched with same | ⟨bank, same⟩
      · rw [same]
      · rw [same]
        rfl
    refine ⟨fun name notSp notPc => ?_, ?_, ⟨pc, status, before.calls, ?_⟩, ?_, ?_⟩
    · rw [registers, RegisterFile.get_setPc _ _ notPc, RegisterFile.get_setSp _ _ notSp]
    · rw [Processor.sp, registers, RegisterFile.sp_setPc, RegisterFile.sp_setSp]
    · have pcRead : after.processor.pc = pc := by
        rw [Processor.pc, registers, RegisterFile.pc_setPc]
      rcases switched with same | ⟨bank, same⟩
      · refine ⟨#[], ?_, ?_, pcRead, installed⟩
        · rw [same, calls, Array.append_empty]
        · intro call member
          simp at member
      · refine ⟨#[.selectBank bank], ?_, ?_, pcRead, installed⟩
        · rw [same, ← calls]
          obtain ⟨_, _, _⟩ := board
          cases recording
          rfl
        · intro call member
          exact ⟨bank, by simpa using member⟩
    · rw [memory]
      exact savedStatus
    · rw [memory]
      exact savedPc

theorem FaultAnswered.doubleFaultTaken
    (answered : FaultAnswered boundary (fun board => board.recording = true) (.faulted .doubleFault cycles) after) :
    DoubleFaultTaken boundary after := by
  cases answered with
  | @halted _ pc status before _ noted has entered registers installed bank shadow =>
    obtain ⟨recording, calls, _⟩ := entered.recorded noted
    refine ⟨has, fun name notPc => ?_, ⟨pc, status, before.calls, calls, ?_, installed⟩, bank, shadow⟩
    · rw [registers, RegisterFile.get_setPc _ _ notPc]
    · rw [Processor.pc, registers, RegisterFile.pc_setPc]

/-- A step that fails a bus cycle, wherever it does, leaves what the boundary and
the answer to the fault say, and nothing else of the work it had done. -/
theorem step_fault_atomic {processor : Processor} (reached : Reachable configuration processor)
    (live : processor.Live) (settled : processor.resetOnResume = false) (board : Recorded (Faulty FlatBoard))
    (noted : board.recording = true) {outcome : Outcome}
    (stepped : Dispatch.step ⟨processor, board⟩ = .ok outcome after) :
    match outcome with
    | .faulted .busError _ => BusErrorTaken processor after
    | .faulted .doubleFault _ => DoubleFaultTaken processor after
    | .stopped cause => cause = .doubleFault ∧ SameBoundary processor after.processor
    | _ => True := by
  rw [Dispatch.step_eq live] at stepped
  simp only [settled, Bool.false_eq_true, if_false] at stepped
  have answered := Dispatch.boundaryStep_answers Recorded.recording_persistent noted reached.consistent stepped
  match outcome with
  | .faulted .busError _ => exact (answered fun decode => by cases decode).busErrorTaken
  | .faulted .doubleFault _ => exact (answered fun decode => by cases decode).doubleFaultTaken
  | .stopped cause =>
    cases answered trivial with
    | latched same => exact ⟨rfl, same⟩
  | .faulted .illegalInstruction _ | .faulted .reservedInstruction _ | .retired _ | .interrupted _ | .waiting
  | .suspended => trivial

/-- MOV (R0)+, (R1)+ loses its write, after both registers have moved on. -/
def lostWrite : Recorded (Faulty FlatBoard) :=
  { board := { board := FlatBoard.load {} 0 [0o012021], refused := [2] } }

theorem step_fault_atomic_lostWrite :
    ∃ after, Dispatch.step ⟨.create { model := .vm2 }, lostWrite⟩ = .ok (.faulted .busError 48) after ∧
      BusErrorTaken (.create { model := .vm2 }) after := by
  have answered : answer? (Dispatch.step ⟨.create { model := .vm2 }, lostWrite⟩) =
      some (.faulted .busError 48) := by decide +kernel
  have stepped := eq_ok_of_answer answered
  exact ⟨_, stepped, step_fault_atomic .powerOn (.inl rfl) rfl lostWrite rfl stepped⟩

end Pdp11
