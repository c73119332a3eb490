import Pdp11.Proofs.ArbiterCases
import Pdp11.Proofs.Enduring

/-! The reset that a processor owes once it is resumed. A reset leaves nothing for
the arbiter to find, whatever was pending before it. -/

namespace Pdp11

/-- Resumed, but not reset since. -/
structure Processor.Released (processor : Processor) : Prop where
  live : processor.Live
  due : processor.resetOnResume = true

structure Fresh (processor : Processor) : Prop where
  lines : processor.lines = {}
  tracePending : processor.tracePending = false
  resetOnResume : processor.resetOnResume = false
  stopped : processor.runState = .running ∨ processor.Latched
  masked : processor.model = .t11 → processor.status = T11.resetStatus

namespace Fresh

variable {processor : Processor}

theorem quiet (fresh : Fresh processor) : processor.service? = none := by
  have untraced : processor.isTraceDue = false := by
    simp only [Processor.isTraceDue, fresh.tracePending, Bool.false_and]
  cases has : processor.model with
  | t11 =>
    have low : (T11.request ({} : InputLines).request).priority ≤ T11.resetStatus.priority := by decide
    simp only [Processor.service?, untraced, has, Processor.t11Service?, fresh.lines, fresh.masked has, low,
      Bool.false_eq_true, if_false, if_true]
  | vm2 =>
    have released (line : InputLine) : ({} : InputLines).isAsserted line = false := by
      cases line <;> decide
    simp only [Processor.service?, untraced, has, Processor.vm2Service?, fresh.lines, released, Bool.false_and,
      Bool.false_eq_true, if_false]
    split
    · rfl
    · rfl

theorem syncShadow (fresh : Fresh processor) : Fresh processor.syncShadow := by
  rw [Processor.syncShadow_eq]
  exact ⟨fresh.lines, fresh.tracePending, fresh.resetOnResume, fresh.stopped, fresh.masked⟩

theorem not_waiting (fresh : Fresh processor) : processor.runState ≠ .waiting := by
  intro waiting
  rcases fresh.stopped with running | latched
  · rw [running] at waiting
    cases waiting
  · rw [latched] at waiting
    cases waiting

end Fresh

def Operation.Steps : Operation → Prop
  | step => True
  | run budget => 0 < budget.toNat
  | _ => False

/-- Operations that advance a processor which is neither held nor stopped. -/
def Operation.Advances : Operation → Prop
  | step | run _ | checkInterrupts => True
  | _ => False

variable {β : Type} [Board β]

theorem Operation.perform_stopped {operation : Operation} {machine : Machine β} (advances : operation.Advances)
    (stopped : ¬machine.processor.Live) : ∃ response, operation.perform machine = .ok response machine := by
  cases operation with
  | step =>
    obtain ⟨outcome, _, idle⟩ := Dispatch.step_held stopped
    exact ⟨_, bind_of_ok idle _⟩
  | run budget =>
    obtain ⟨consumed, idle⟩ := Dispatch.run_held stopped budget
    exact ⟨_, bind_of_ok idle _⟩
  | checkInterrupts => exact ⟨_, bind_of_ok (Dispatch.checkInterrupts_held stopped) _⟩
  | reset | drive line asserted | suspend | resume | observe on => exact advances.elim

theorem Operation.stopped_stays {operation : Operation} {machine after : Machine β} {response : Response}
    (performed : operation.perform machine = .ok response after) (advances : operation.Advances)
    (stopped : ¬machine.processor.Live) : after = machine := by
  obtain ⟨answer, idle⟩ := perform_stopped advances stopped
  rw [idle] at performed
  cases performed
  rfl

def Machine.ResetLatches (machine : Machine β) : Prop :=
  ∃ after, Dispatch.reset machine = .ok () after ∧ after.processor.Latched

theorem Machine.started_fresh {machine : Machine β} (has : machine.processor.model = .vm2) (pc status : Word)
    (board : β) : Fresh (machine.atStartBlock.started pc status board).processor := by
  simp only [Machine.started, Machine.update_processor, Machine.installStatus_processor]
  refine ⟨rfl, rfl, rfl, .inl rfl, fun without => ?_⟩
  rw [show machine.processor.model = .t11 from without] at has
  cases has

namespace Dispatch

open Microcode

theorem reset_fresh (machine : Machine β) : ∃ after, reset machine = .ok () after ∧ Fresh after.processor := by
  rw [reset_eq]
  cases has : machine.processor.model with
  | t11 =>
    refine ⟨_, rfl, ?_⟩
    have strapped : Fresh
        { (machine.processor.cleared.setSp resetSp).setPc (T11.startAddress machine.processor.cleared.mode) with
          status := T11.resetStatus } := ⟨rfl, rfl, rfl, .inl rfl, fun _ => rfl⟩
    exact strapped.syncShadow
  | vm2 =>
    cases ended : loadStartBlock machine.atStartBlock with
    | ok _ after =>
      obtain ⟨pc, status, board, _, rfl⟩ := loadStartBlock_ok ended
      exact ⟨_, rfl, (Machine.started_fresh has pc status board).syncShadow⟩
    | error abort broken =>
      obtain ⟨_, lines, cleared, kept⟩ := loadStartBlock_error ended
      refine ⟨_, rfl, ?_⟩
      have failed : Fresh
          ((broken.busErrorsCleared.processor.recordFault .doubleFault broken.busErrorsCleared.processor.pc).latch
            .doubleFault) := by
        simp only [Machine.busErrorsCleared, Machine.update_processor, kept]
        refine ⟨cleared, rfl, rfl, .inr rfl, fun without => ?_⟩
        rw [show machine.processor.model = .t11 from without] at has
        cases has
      exact failed.syncShadow

/-- Only the model that has to read its start block can fail a reset. -/
theorem resetLatches_iff {machine : Machine β} : machine.ResetLatches ↔
    machine.processor.model = .vm2 ∧ ∃ broken, loadStartBlock machine.atStartBlock = .error .failedCycle broken := by
  constructor
  · rintro ⟨after, done, latched⟩
    cases reset_ended done with
    | strapped =>
      rw [Processor.Latched, Machine.strapped, Machine.update_processor, Processor.syncShadow_eq] at latched
      cases latched
    | loaded has ended =>
      obtain ⟨pc, status, board, _, rfl⟩ := loadStartBlock_ok ended
      rw [Processor.Latched, Machine.update_processor, Processor.syncShadow_eq] at latched
      rw [Machine.started_runState] at latched
      cases latched
    | failed has ended => exact ⟨has, _, ended⟩
  · rintro ⟨has, broken, failed⟩
    refine ⟨broken.startBlockFailed, ?_, ?_⟩
    · rw [reset_eq, has, failed]
    rw [Processor.Latched, Machine.startBlockFailed, Machine.update_processor, Processor.syncShadow_eq]
    rfl

/-- Right after a reset a step is an instruction, even of a processor that the reset
has left latched. -/
theorem boundaryStep_fresh {machine : Machine β} (fresh : Fresh machine.processor) : boundaryStep machine =
    match instructionCycle machine.processor.cycles machine with
    | .ok outcome done => .ok outcome done
    | .error .failedCycle broken =>
      serviceBusFault machine.processor.cycles (broken.restore machine.processor.checkpoint)
    | .error (.misaligned stop) broken => .error stop broken := by
  have ready : machine.processor.lines.hasBusError = false := by
    rw [fresh.lines]
    rfl
  rw [boundaryStep_eq, arbitrate_quiet fresh.quiet]
  cases ended : instructionCycle machine.processor.cycles machine with
  | ok outcome done => simp only [ready, Bool.false_eq_true, if_false, fresh.not_waiting, ended]
  | error abort broken =>
    cases abort <;> simp only [ready, Bool.false_eq_true, if_false, fresh.not_waiting, ended]

theorem resetOnResume_steady (due : Bool) :
    Steady (fun machine : Machine β => machine.processor.resetOnResume = due)
      (fun machine => machine.processor.resetOnResume = due) := by
  refine .of_actions (fun same holds => ?_) (fun boundary holds => ?_) fun action holds => ?_
  · exact (same _).resetOnResume.trans holds
  · simp only [Machine.restore, Machine.installStatus_processor]
    exact holds
  · exact action.sameSetting.resetOnResume.trans holds

/-- No reset is owed after a step that did something. -/
theorem step_settled {machine after : Machine β} {outcome : Outcome} {cycles : Nat}
    (done : step machine = .ok outcome after) (active : outcome.cycles? = some cycles) :
    after.processor.resetOnResume = false := by
  cases step_ended done with
  | released _ _ ended stepped =>
    obtain ⟨reached, reset, settled⟩ := reset_fresh machine
    rw [reset] at ended
    cases ended
    exact (resetOnResume_steady false).boundaryStep.ok settled.resetOnResume stepped
  | settled _ settled stepped => exact (resetOnResume_steady false).boundaryStep.ok settled stepped
  | held _ idle =>
    rw [idle] at active
    cases active

end Dispatch

/-- The operation is a reset, or begins with the one that is owed. -/
def Operation.Resets (operation : Operation) (processor : Processor) : Prop :=
  operation = .reset ∨ operation.Steps ∧ processor.Released

namespace Steady

open Dispatch

variable {whole broken : Machine β → Prop} {operation : Operation} {machine : Machine β}

/-- No reset is owed at any step, and so none is made. -/
theorem settledStep (steady : Steady whole broken) :
    Ensures (fun machine => machine.processor.resetOnResume = false ∧ whole machine) Dispatch.step
      (fun _ machine => machine.processor.resetOnResume = false ∧ whole machine)
      (fun _ machine => machine.processor.resetOnResume = false ∧ broken machine) := by
  intro machine ⟨settled, holds⟩
  by_cases live : machine.processor.Live
  · rw [step_eq live, settled]
    exact ((resetOnResume_steady false).and steady).boundaryStep machine ⟨settled, holds⟩
  · obtain ⟨outcome, _, held⟩ := step_held live
    rw [held]
    exact ⟨settled, holds⟩

theorem settledRun (steady : Steady whole broken) (budget : UInt32) (consumed : Nat) :
    Ensures (fun machine => machine.processor.resetOnResume = false ∧ whole machine) (runFrom budget consumed)
      (fun _ => whole) (fun _ => broken) :=
  (runFrom_keeps steady.settledStep budget consumed).weaken (fun _ both => both) (fun _ _ both => both.2)
    fun _ _ both => both.2

/-- Short of a reset, every operation keeps what is steady. -/
theorem perform (steady : Steady whole broken) (resumed : ∀ {machine}, whole machine →
      whole (machine.update ({ · with runState := .running, resetOnResume := true })))
    (unreset : ¬operation.Resets machine.processor) (holds : whole machine) :
    Ensures (· = machine) operation.perform (fun _ => whole) (fun _ => broken) := by
  have settled (steps : operation.Steps) (live : machine.processor.Live) : machine.processor.resetOnResume = false :=
    Bool.eq_false_iff.mpr fun due => unreset (.inr ⟨steps, live, due⟩)
  have stopped (advances : operation.Advances) (held : ¬machine.processor.Live) :
      Ensures (· = machine) operation.perform (fun _ => whole) (fun _ => broken) := by
    obtain ⟨response, done⟩ := Operation.perform_stopped advances held
    rintro _ rfl
    rw [done]
    exact holds
  cases operation with
  | reset => exact absurd (.inl rfl) unreset
  | step =>
    by_cases live : machine.processor.Live
    · have stepped := steady.settledStep.startingAt ⟨settled trivial live, holds⟩
      have kept : Ensures (· = machine) Dispatch.step (fun _ => whole) (fun _ => broken) :=
        stepped.weaken (fun _ same => same) (fun _ _ both => both.2) fun _ _ both => both.2
      exact kept.bind fun _ => .pure fun _ holds => holds
    · exact stopped trivial live
  | run budget =>
    by_cases live : machine.processor.Live
    · have ran : Ensures (· = machine) (run budget) (fun _ => whole) (fun _ => broken) := by
        rintro machine rfl
        by_cases within : 0 < budget.toNat
        · exact steady.settledRun budget 0 machine ⟨settled within live, holds⟩
        · rw [run_spent within]
          exact holds
      exact ran.bind fun _ => .pure fun _ holds => holds
    · exact stopped trivial live
  | checkInterrupts | drive line asserted | suspend | resume | observe on =>
    refine Ensures.startingAt (steady.aside resumed ?_ ?_ ?_) holds
    · nofun
    · nofun
    · exact fun _ => nofun

/-- What is steady may begin with the reset, and holds from there. -/
theorem perform_reset (steady : Steady whole broken) {fresh : Machine β} (resets : operation.Resets machine.processor)
    (reset : Dispatch.reset machine = .ok () fresh) (holds : whole fresh) :
    Ensures (· = machine) operation.perform (fun _ => whole) (fun _ => broken) := by
  have settled : fresh.processor.resetOnResume = false := by
    obtain ⟨_, done, started⟩ := reset_fresh machine
    rw [reset] at done
    cases done
    exact started.resetOnResume
  have first (released : machine.processor.Released) : Ensures (· = machine) Dispatch.step
      (fun _ machine => machine.processor.resetOnResume = false ∧ whole machine) (fun _ => broken) := by
    rintro _ rfl
    rw [step_eq released.live, if_pos released.due, bind_of_ok reset]
    have stepped := ((resetOnResume_steady false).and steady).boundaryStep.startingAt ⟨settled, holds⟩
    exact stepped.weaken (fun _ same => same) (fun _ _ both => both) (fun _ _ both => both.2) fresh rfl
  rcases resets with rfl | ⟨steps, released⟩
  · rintro _ rfl
    simp only [Operation.perform, bind_of_ok reset]
    exact holds
  · cases operation with
    | step => exact (first released).bind fun _ => .pure fun _ both => both.2
    | run budget =>
      have within : 0 < budget.toNat := steps
      have ran : Ensures (· = machine) (run budget) (fun _ => whole) (fun _ => broken) := by
        rw [run, runFrom, dif_pos within]
        refine (first released).bind fun outcome => ?_
        cases outcome.cycles? with
        | some cycles => exact steady.settledRun budget _
        | none => exact .pure fun _ both => both.2
      exact ran.bind fun _ => .pure fun _ holds => holds
    | reset | checkInterrupts | drive line asserted | suspend | resume | observe on => exact steps.elim

end Steady
end Pdp11
