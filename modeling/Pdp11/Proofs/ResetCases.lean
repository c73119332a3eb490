import Pdp11.Proofs.BoundaryCases
import Pdp11.Proofs.MachineState
import Pdp11.Proofs.TrapEntry

/-! How a reset ends. It always ends, but the model that has to read its start
block may end it latched. -/

namespace Pdp11

variable {β : Type} [Board β]

namespace Machine

variable (machine : Machine β)

/-- Where the model without a HALT mode ends its reset. -/
def strapped : Machine β :=
  machine.update fun processor =>
    ({ (processor.cleared.setSp resetSp).setPc (T11.startAddress processor.cleared.mode) with
      status := T11.resetStatus }).syncShadow

/-- Where the other model is about to read its start block. -/
def atStartBlock : Machine β :=
  let banked := ((machine.update (·.cleared)).selectBank .user).selectBank .halt
  let switches := (Board.startSwitches banked.board).setWidth 16 &&& Vm2.switchMask
  banked.update fun processor =>
    { processor.setSp resetSp with
      status := ⟨StatusWord.haltBit⟩
      mode := processor.mode ||| switches }

def startBlockFailed : Machine β :=
  machine.busErrorsCleared.update fun processor =>
    ((processor.recordFault .doubleFault processor.pc).latch .doubleFault).syncShadow

def started (pc status : Word) (board : β) : Machine β :=
  ((⟨machine.processor.setPc pc, board⟩ : Machine β).installStatus status).update fun processor =>
    { processor with shadow := processor.context }

theorem started_runState (pc status : Word) (board : β) :
    (machine.started pc status board).processor.runState = machine.processor.runState := by
  simp only [started, update_processor, installStatus_processor]
  rfl

end Machine

def StartCycles (block pc status : Word) (before after : β) : Prop :=
  ∃ first,
    Board.readWord block.even before = (.ok pc, first) ∧
    Board.readWord (block + 2).even first = (.ok status, after)

namespace Microcode

theorem loadStartBlock_ok {before after : Machine β} (done : loadStartBlock before = .ok () after) :
    ∃ pc status board,
      StartCycles (Vm2.startBlock before.processor.mode) pc status before.board board ∧
      after = before.started pc status board := by
  obtain ⟨_, _, noted, done⟩ := bind_eq_ok done
  cases noted
  obtain ⟨newPc, second, readPc, done⟩ := bind_eq_ok done
  obtain ⟨newStatus, third, readStatus, done⟩ := bind_eq_ok done
  cases done
  obtain ⟨answeredPc, keptFirst⟩ := cycle_ok readPc
  obtain ⟨answeredStatus, keptSecond⟩ := cycle_ok readStatus
  refine ⟨newPc, newStatus, third.board, ⟨second.board, answeredPc, answeredStatus⟩, ?_⟩
  simp only [Machine.started, ← keptFirst, ← keptSecond]
  rfl

/-- Nothing has been taken from a start block that could not be read. -/
theorem loadStartBlock_error {before after : Machine β} {abort : Abort}
    (failed : loadStartBlock before = .error abort after) :
    abort = .failedCycle ∧ ∃ lines, lines.clearBusErrors = before.processor.lines.clearBusErrors ∧
      after.processor = { before.processor with lines } := by
  simp only [loadStartBlock, Bind.bind, EStateM.bind, processor] at failed
  cases readPc : readWord (Vm2.startBlock before.processor.mode) before with
  | error abort broken =>
    rw [readPc] at failed
    cases failed
    exact cycle_error readPc
  | ok newPc second =>
    rw [readPc] at failed
    obtain ⟨_, kept⟩ := cycle_ok readPc
    cases readStatus : readWord (Vm2.startBlock before.processor.mode + 2) second with
    | error abort broken =>
      simp only [readStatus] at failed
      cases failed
      rw [← kept]
      exact cycle_error readStatus
    | ok newStatus third =>
      simp only [readStatus] at failed
      cases failed

end Microcode

namespace Dispatch

theorem resetVm2_eq (machine : Machine β) : resetVm2 (machine.update (·.cleared)) =
    match Microcode.loadStartBlock machine.atStartBlock with
    | .ok () after => .ok () after
    | .error _ broken =>
      .ok () (broken.busErrorsCleared.update fun processor =>
        (processor.recordFault .doubleFault processor.pc).latch .doubleFault) := by
  cases ended : Microcode.loadStartBlock machine.atStartBlock with
  | ok _ after =>
    unfold Machine.atStartBlock at ended
    simp only [resetVm2, Bind.bind, EStateM.bind, modify_run, attempt, ended]
    rfl
  | error abort broken =>
    obtain ⟨rfl, _⟩ := Microcode.loadStartBlock_error ended
    unfold Machine.atStartBlock at ended
    simp only [resetVm2, Bind.bind, EStateM.bind, modify_run, attempt, ended]
    rfl

theorem resetVm2_haltMode {machine after : Machine β} (done : resetVm2 (machine.update (·.cleared)) = .ok () after)
    (latched : after.processor.runState = .latched .doubleFault) : after.processor.status.haltMode = true := by
  rw [resetVm2_eq] at done
  cases ended : Microcode.loadStartBlock machine.atStartBlock with
  | ok _ loaded =>
    obtain ⟨pc, status, board, _, rfl⟩ := Microcode.loadStartBlock_ok ended
    rw [ended] at done
    cases done
    rw [Machine.started_runState] at latched
    cases latched
  | error abort broken =>
    obtain ⟨_, lines, _, kept⟩ := Microcode.loadStartBlock_error ended
    rw [ended] at done
    cases done
    have on : StatusWord.haltMode ⟨StatusWord.haltBit⟩ = true := by decide
    change broken.processor.status.haltMode = true
    rw [kept]
    exact on

theorem reset_eq (machine : Machine β) : reset machine =
    match machine.processor.model with
    | .t11 => .ok () machine.strapped
    | .vm2 =>
      match Microcode.loadStartBlock machine.atStartBlock with
      | .ok () after => .ok () (after.update (·.syncShadow))
      | .error _ broken => .ok () broken.startBlockFailed := by
  have unfolded : reset machine = (do
      match machine.processor.model with
      | .t11 => resetT11
      | .vm2 => resetVm2
      syncShadow : Dispatch β Unit) (machine.update (·.cleared)) := rfl
  rw [unfolded]
  cases machine.processor.model with
  | t11 => rfl
  | vm2 =>
    simp only [Bind.bind, EStateM.bind, resetVm2_eq]
    cases Microcode.loadStartBlock machine.atStartBlock with
    | ok _ after => rfl
    | error abort broken => rfl

/-- How a reset has ended. -/
inductive ResetEnded (machine : Machine β) : Machine β → Prop where
  | strapped (without : machine.processor.model = .t11) : ResetEnded machine machine.strapped
  | loaded {after : Machine β} (has : machine.processor.model = .vm2)
      (loaded : Microcode.loadStartBlock machine.atStartBlock = .ok () after) :
      ResetEnded machine (after.update (·.syncShadow))
  | failed {broken : Machine β} (has : machine.processor.model = .vm2)
      (failed : Microcode.loadStartBlock machine.atStartBlock = .error .failedCycle broken) :
      ResetEnded machine broken.startBlockFailed

theorem reset_ended {machine after : Machine β} (done : reset machine = .ok () after) : ResetEnded machine after := by
  rw [reset_eq] at done
  cases has : machine.processor.model with
  | t11 =>
    rw [has] at done
    cases done
    exact .strapped has
  | vm2 =>
    rw [has] at done
    cases ended : Microcode.loadStartBlock machine.atStartBlock with
    | ok _ loaded =>
      rw [ended] at done
      cases done
      exact .loaded has ended
    | error abort broken =>
      obtain ⟨rfl, _⟩ := Microcode.loadStartBlock_error ended
      rw [ended] at done
      cases done
      exact .failed has ended

end Dispatch
end Pdp11
