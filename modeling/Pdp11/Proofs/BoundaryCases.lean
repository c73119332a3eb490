import Pdp11.Dispatch.Step
import Pdp11.Proofs.Contract

/-! Operations of the driver spelled out by how their microcode ends. What
microcode does is told elsewhere; here is what becomes of it. -/

namespace Pdp11

/-- Neither held by the driver nor stopped by a fault. -/
def Processor.Live (processor : Processor) : Prop :=
  processor.runState = .running ∨ processor.runState = .waiting

theorem Processor.not_live_of_suspended {processor : Processor} (suspended : processor.runState = .suspended) :
    ¬processor.Live := by
  rintro (running | waiting)
  · rw [running] at suspended
    cases suspended
  · rw [waiting] at suspended
    cases suspended

abbrev Processor.Latched (processor : Processor) : Prop := processor.runState = .latched .doubleFault

theorem Processor.Live.not_latched {processor : Processor} (live : processor.Live) : ¬processor.Latched := by
  intro latched
  rcases live with running | waiting
  · rw [Latched, running] at latched
    cases latched
  · rw [Latched, waiting] at latched
    cases latched

variable {β : Type}

namespace Machine

/-- A bus error on record and no longer pending, ready for its trap. -/
def busFaultNoted (machine : Machine β) : Machine β :=
  machine.update fun processor =>
    let noted := (processor.recordFault .busError processor.pc).emit (.busFault processor.pc)
    { noted with lines := noted.lines.clearBusErrors }

/-- The bus-error trap has failed too, and this is on record. -/
def doubleFaultNoted (machine : Machine β) : Machine β :=
  machine.update fun processor =>
    (processor.recordFault .doubleFault processor.pc).emit (.doubleFault processor.pc)

def busErrorsCleared (machine : Machine β) : Machine β :=
  machine.update fun processor => { processor with lines := processor.lines.clearBusErrors }

end Machine

namespace Dispatch

section

variable (machine : Machine β)

theorem modify_run (change : Machine β → Machine β) :
    (modify change : Dispatch β Unit) machine = .ok () (change machine) := rfl

theorem update_run (change : Processor → Processor) : update change machine = .ok () (machine.update change) := rfl

theorem clearBusErrors_run : clearBusErrors machine = .ok () machine.busErrorsCleared := rfl

end

variable [Board β] (start : UInt64) (machine : Machine β)

theorem restore_run (checkpoint : Checkpoint) : restore checkpoint machine = .ok () (machine.restore checkpoint) := rfl

theorem recoverDoubleFault_eq : recoverDoubleFault machine =
    match machine.processor.model with
    | .t11 => .ok false machine
    | .vm2 =>
      match Microcode.enterHaltMode machine with
      | .ok () after => .ok true after
      | .error .failedCycle broken => .ok false (broken.restore machine.processor.checkpoint).busErrorsCleared
      | .error (.misaligned stop) broken => .error stop broken := by
  simp only [recoverDoubleFault, Bind.bind, EStateM.bind, processor]
  cases machine.processor.model with
  | t11 => rfl
  | vm2 =>
    simp only [EStateM.bind, processor, attempt]
    cases Microcode.enterHaltMode machine with
    | ok _ after => rfl
    | error abort broken => cases abort <;> rfl

theorem doubleFault_eq : doubleFault start machine =
    match machine.processor.model with
    | .t11 => .ok (.stopped .doubleFault) (machine.doubleFaultNoted.update (·.latch .doubleFault))
    | .vm2 =>
      match Microcode.enterHaltMode machine.doubleFaultNoted with
      | .ok () after =>
        .ok (.faulted .doubleFault (after.processor.syncShadow.elapsed start)) (after.update (·.syncShadow))
      | .error .failedCycle broken =>
        .ok (.stopped .doubleFault)
          ((broken.restore machine.doubleFaultNoted.processor.checkpoint).busErrorsCleared.update
            (·.latch .doubleFault))
      | .error (.misaligned stop) broken => .error stop broken := by
  have noted : (machine.update fun processor =>
      (processor.recordFault .doubleFault machine.processor.pc).emit (.doubleFault machine.processor.pc)) =
        machine.doubleFaultNoted := rfl
  have kept : machine.doubleFaultNoted.processor.model = machine.processor.model := by
    simp only [Machine.doubleFaultNoted, Machine.update, Processor.emit, Processor.model]
    split <;> rfl
  simp only [doubleFault, Bind.bind, EStateM.bind, processor, update_run, noted, recoverDoubleFault_eq, kept]
  cases machine.processor.model with
  | t11 => rfl
  | vm2 =>
    cases Microcode.enterHaltMode machine.doubleFaultNoted with
    | ok _ after => rfl
    | error abort broken => cases abort <;> rfl

theorem serviceBusFault_eq : serviceBusFault start machine =
    match Microcode.enterTrap TrapVector.busError machine.busFaultNoted with
    | .ok () after =>
      let charged := after.update (·.charge CostKind.faultTrapEntry.cycles)
      .ok (.faulted .busError (charged.processor.syncShadow.elapsed start)) (charged.update (·.syncShadow))
    | .error .failedCycle broken =>
      doubleFault start (broken.restore machine.busFaultNoted.processor.checkpoint).busErrorsCleared
    | .error (.misaligned stop) broken => .error stop broken := by
  have noted : (machine.update fun processor =>
      (processor.recordFault .busError machine.processor.pc).emit (.busFault machine.processor.pc)).busErrorsCleared =
        machine.busFaultNoted := rfl
  simp only [serviceBusFault, Bind.bind, EStateM.bind, processor, update_run, clearBusErrors_run, noted, attempt]
  cases Microcode.enterTrap TrapVector.busError machine.busFaultNoted with
  | ok _ after => rfl
  | error abort broken => cases abort <;> rfl

theorem boundaryStep_eq : boundaryStep machine =
    let boundary := machine.processor.checkpoint
    let start := machine.processor.cycles
    if machine.processor.lines.hasBusError then serviceBusFault start machine
    else
      match Microcode.arbitrate machine with
      | .error .failedCycle broken => serviceBusFault start (broken.restore boundary)
      | .error (.misaligned stop) broken => .error stop broken
      | .ok true after =>
        .ok (.interrupted (after.processor.syncShadow.elapsed start)) (after.update (·.syncShadow))
      | .ok false after =>
        if after.processor.runState = .waiting then .ok .waiting after
        else
          match Microcode.instructionCycle start after with
          | .ok outcome done => .ok outcome done
          | .error .failedCycle broken => serviceBusFault start (broken.restore boundary)
          | .error (.misaligned stop) broken => .error stop broken := by
  simp only [boundaryStep, Bind.bind, EStateM.bind, processor]
  split
  · rfl
  simp only [EStateM.bind, attempt]
  cases Microcode.arbitrate machine with
  | error abort broken => cases abort <;> rfl
  | ok taken after =>
    cases taken with
    | true => rfl
    | false =>
      simp only [EStateM.bind, processor]
      split
      · rfl
      simp only [EStateM.bind, attempt]
      cases Microcode.instructionCycle machine.processor.cycles after with
      | ok outcome done => rfl
      | error abort broken => cases abort <;> rfl

variable {start machine}

/-- How the answer to a double fault has ended. -/
inductive DoubleFaultEnded (start : UInt64) (machine : Machine β) : Outcome → Machine β → Prop where
  | stopped (without : machine.processor.model = .t11) :
      DoubleFaultEnded start machine (.stopped .doubleFault) (machine.doubleFaultNoted.update (·.latch .doubleFault))
  | halted {after : Machine β} (has : machine.processor.model = .vm2)
      (entered : Microcode.enterHaltMode machine.doubleFaultNoted = .ok () after) :
      DoubleFaultEnded start machine (.faulted .doubleFault (after.processor.syncShadow.elapsed start))
        (after.update (·.syncShadow))
  | failed {broken : Machine β} (has : machine.processor.model = .vm2)
      (failed : Microcode.enterHaltMode machine.doubleFaultNoted = .error .failedCycle broken) :
      DoubleFaultEnded start machine (.stopped .doubleFault)
        ((broken.restore machine.doubleFaultNoted.processor.checkpoint).busErrorsCleared.update (·.latch .doubleFault))

theorem doubleFault_ended {outcome : Outcome} {after : Machine β} (done : doubleFault start machine = .ok outcome after) :
    DoubleFaultEnded start machine outcome after := by
  rw [doubleFault_eq] at done
  cases has : machine.processor.model with
  | t11 =>
    rw [has] at done
    cases done
    exact .stopped has
  | vm2 =>
    rw [has] at done
    cases entered : Microcode.enterHaltMode machine.doubleFaultNoted with
    | ok _ halted =>
      simp only [entered] at done
      cases done
      exact .halted has entered
    | error abort broken =>
      cases abort with
      | misaligned stop =>
        simp only [entered] at done
        cases done
      | failedCycle =>
        simp only [entered] at done
        cases done
        exact .failed has entered

/-- How the answer to a bus error has ended. -/
inductive BusFaultEnded (start : UInt64) (machine : Machine β) : Outcome → Machine β → Prop where
  | trapped {after : Machine β} (entered : Microcode.enterTrap TrapVector.busError machine.busFaultNoted = .ok () after) :
      BusFaultEnded start machine
        (.faulted .busError ((after.update (·.charge CostKind.faultTrapEntry.cycles)).processor.syncShadow.elapsed start))
        ((after.update (·.charge CostKind.faultTrapEntry.cycles)).update (·.syncShadow))
  | again {broken after : Machine β} {outcome : Outcome}
      (failed : Microcode.enterTrap TrapVector.busError machine.busFaultNoted = .error .failedCycle broken)
      (done : doubleFault start (broken.restore machine.busFaultNoted.processor.checkpoint).busErrorsCleared = .ok outcome after) :
      BusFaultEnded start machine outcome after

theorem serviceBusFault_ended {outcome : Outcome} {after : Machine β}
    (done : serviceBusFault start machine = .ok outcome after) : BusFaultEnded start machine outcome after := by
  rw [serviceBusFault_eq] at done
  cases entered : Microcode.enterTrap TrapVector.busError machine.busFaultNoted with
  | ok _ taken =>
    simp only [entered] at done
    cases done
    exact .trapped entered
  | error abort broken =>
    cases abort with
    | misaligned stop =>
      simp only [entered] at done
      cases done
    | failedCycle =>
      simp only [entered] at done
      exact .again entered done

/-- How a step that was not held has ended. In three of the cases it has come to a bus
error, and answers it from the boundary. -/
inductive BoundaryStepEnded (machine : Machine β) : Outcome → Machine β → Prop where
  | pending {outcome : Outcome} {after : Machine β} (pending : machine.processor.lines.hasBusError = true)
      (served : serviceBusFault machine.processor.cycles machine = .ok outcome after) : BoundaryStepEnded machine outcome after
  | arbiterFailed {broken after : Machine β} {outcome : Outcome} (ready : machine.processor.lines.hasBusError = false)
      (failed : Microcode.arbitrate machine = .error .failedCycle broken)
      (served : serviceBusFault machine.processor.cycles (broken.restore machine.processor.checkpoint) = .ok outcome after) :
      BoundaryStepEnded machine outcome after
  | interrupted {settled : Machine β} (ready : machine.processor.lines.hasBusError = false)
      (arbitrated : Microcode.arbitrate machine = .ok true settled) :
      BoundaryStepEnded machine (.interrupted (settled.processor.syncShadow.elapsed machine.processor.cycles))
        (settled.update (·.syncShadow))
  | waiting {settled : Machine β} (ready : machine.processor.lines.hasBusError = false)
      (arbitrated : Microcode.arbitrate machine = .ok false settled) (idle : settled.processor.runState = .waiting) :
      BoundaryStepEnded machine .waiting settled
  | instructionFailed {settled broken after : Machine β} {outcome : Outcome}
      (ready : machine.processor.lines.hasBusError = false)
      (arbitrated : Microcode.arbitrate machine = .ok false settled) (active : settled.processor.runState ≠ .waiting)
      (failed : Microcode.instructionCycle machine.processor.cycles settled = .error .failedCycle broken)
      (served : serviceBusFault machine.processor.cycles (broken.restore machine.processor.checkpoint) = .ok outcome after) :
      BoundaryStepEnded machine outcome after
  | executed {settled after : Machine β} {outcome : Outcome} (ready : machine.processor.lines.hasBusError = false)
      (arbitrated : Microcode.arbitrate machine = .ok false settled) (active : settled.processor.runState ≠ .waiting)
      (executed : Microcode.instructionCycle machine.processor.cycles settled = .ok outcome after) :
      BoundaryStepEnded machine outcome after

theorem boundaryStep_ended {outcome : Outcome} {after : Machine β} (done : boundaryStep machine = .ok outcome after) :
    BoundaryStepEnded machine outcome after := by
  rw [boundaryStep_eq] at done
  cases pending : machine.processor.lines.hasBusError with
  | true =>
    simp only [pending, if_true] at done
    exact .pending pending done
  | false =>
    simp only [pending, Bool.false_eq_true, if_false] at done
    cases arbitrated : Microcode.arbitrate machine with
    | error abort broken =>
      cases abort with
      | misaligned stop =>
        simp only [arbitrated] at done
        cases done
      | failedCycle =>
        simp only [arbitrated] at done
        exact .arbiterFailed pending arbitrated done
    | ok taken settled =>
      cases taken with
      | true =>
        simp only [arbitrated] at done
        cases done
        exact .interrupted pending arbitrated
      | false =>
        simp only [arbitrated] at done
        by_cases idle : settled.processor.runState = .waiting
        · simp only [idle, if_true] at done
          cases done
          exact .waiting pending arbitrated idle
        simp only [idle, if_false] at done
        cases executed : Microcode.instructionCycle machine.processor.cycles settled with
        | ok retired finished =>
          simp only [executed] at done
          cases done
          exact .executed pending arbitrated idle executed
        | error abort broken =>
          cases abort with
          | misaligned stop =>
            simp only [executed] at done
            cases done
          | failedCycle =>
            simp only [executed] at done
            exact .instructionFailed pending arbitrated idle executed done

theorem checkInterrupts_eq (live : machine.processor.Live) : checkInterrupts machine =
    match Microcode.arbitrate machine with
    | .ok true after => .ok true (after.update (·.syncShadow))
    | .ok false after => .ok false after
    | .error .failedCycle broken =>
      let boundary := broken.restore machine.processor.checkpoint
      match serviceBusFault boundary.processor.cycles boundary with
      | .ok _ after => .ok true after
      | .error stop after => .error stop after
    | .error (.misaligned stop) broken => .error stop broken := by
  rcases live with active | active <;>
  · simp only [checkInterrupts, Bind.bind, EStateM.bind, processor, active, attempt]
    cases Microcode.arbitrate machine with
    | ok taken after => cases taken <;> rfl
    | error abort broken =>
      cases abort with
      | misaligned stop => rfl
      | failedCycle =>
        simp only [EStateM.bind, restore_run, processor]
        cases serviceBusFault (broken.restore machine.processor.checkpoint).processor.cycles
          (broken.restore machine.processor.checkpoint) <;> rfl

theorem checkInterrupts_held (held : ¬machine.processor.Live) : checkInterrupts machine = .ok false machine := by
  simp only [checkInterrupts, Bind.bind, EStateM.bind, processor]
  cases state : machine.processor.runState with
  | running => exact absurd (.inl state) held
  | waiting => exact absurd (.inr state) held
  | suspended | latched _ => rfl

/-- How a check of interrupts has ended. -/
inductive CheckEnded (machine : Machine β) : Bool → Machine β → Prop where
  | held (held : ¬machine.processor.Live) : CheckEnded machine false machine
  | taken {settled : Machine β} (live : machine.processor.Live) (arbitrated : Microcode.arbitrate machine = .ok true settled) :
      CheckEnded machine true (settled.update (·.syncShadow))
  | quiet {settled : Machine β} (live : machine.processor.Live)
      (arbitrated : Microcode.arbitrate machine = .ok false settled) : CheckEnded machine false settled
  | failed {broken after : Machine β} {start : UInt64} {outcome : Outcome} (live : machine.processor.Live)
      (failed : Microcode.arbitrate machine = .error .failedCycle broken)
      (served : serviceBusFault start (broken.restore machine.processor.checkpoint) = .ok outcome after) :
      CheckEnded machine true after

theorem checkInterrupts_ended {taken : Bool} {after : Machine β} (done : checkInterrupts machine = .ok taken after) :
    CheckEnded machine taken after := by
  by_cases live : machine.processor.Live
  · rw [checkInterrupts_eq live] at done
    cases arbitrated : Microcode.arbitrate machine with
    | ok any settled =>
      cases any with
      | true =>
        simp only [arbitrated] at done
        cases done
        exact .taken live arbitrated
      | false =>
        simp only [arbitrated] at done
        cases done
        exact .quiet live arbitrated
    | error abort broken =>
      cases abort with
      | misaligned stop =>
        simp only [arbitrated] at done
        cases done
      | failedCycle =>
        simp only [arbitrated] at done
        cases served : serviceBusFault (broken.restore machine.processor.checkpoint).processor.cycles
          (broken.restore machine.processor.checkpoint) with
        | ok outcome reached =>
          rw [served] at done
          cases done
          exact .failed live arbitrated served
        | error stop reached =>
          rw [served] at done
          cases done
  · rw [checkInterrupts_held live] at done
    cases done
    exact .held live

theorem step_eq (live : machine.processor.Live) : step machine =
    if machine.processor.resetOnResume then (do reset; boundaryStep : Dispatch β Outcome) machine
    else boundaryStep machine := by
  simp only [step, Bind.bind]
  rw [EStateM.bind]
  simp only [processor]
  rcases live with running | waiting
  · rw [running]
    split <;> rfl
  · rw [waiting]
    split <;> rfl

theorem step_suspended (suspended : machine.processor.runState = .suspended) : step machine = .ok .suspended machine := by
  simp only [step, Bind.bind, EStateM.bind, processor, suspended]
  rfl

theorem step_latched {cause : FaultCode} (latched : machine.processor.runState = .latched cause) :
    step machine = .ok (.stopped cause) machine := by
  simp only [step, Bind.bind, EStateM.bind, processor, latched]
  rfl

/-- A held processor does nothing in a step, and tells why. -/
theorem step_held (held : ¬machine.processor.Live) :
    ∃ outcome, outcome.cycles? = none ∧ step machine = .ok outcome machine := by
  simp only [step, Bind.bind, EStateM.bind, processor]
  cases state : machine.processor.runState with
  | running => exact absurd (.inl state) held
  | waiting => exact absurd (.inr state) held
  | suspended => exact ⟨_, rfl, rfl⟩
  | latched cause => exact ⟨.stopped cause, rfl, rfl⟩

/-- How a step has ended: from the reset that was owed, from where it was, or without
having begun. -/
inductive StepEnded (machine : Machine β) : Outcome → Machine β → Prop where
  | released {fresh after : Machine β} {outcome : Outcome} (live : machine.processor.Live)
      (due : machine.processor.resetOnResume = true) (reset : reset machine = .ok () fresh)
      (stepped : boundaryStep fresh = .ok outcome after) : StepEnded machine outcome after
  | settled {after : Machine β} {outcome : Outcome} (live : machine.processor.Live)
      (settled : machine.processor.resetOnResume = false) (stepped : boundaryStep machine = .ok outcome after) :
      StepEnded machine outcome after
  | held {outcome : Outcome} (held : ¬machine.processor.Live) (idle : outcome.cycles? = none) :
      StepEnded machine outcome machine

theorem step_ended {outcome : Outcome} {after : Machine β} (done : step machine = .ok outcome after) :
    StepEnded machine outcome after := by
  by_cases live : machine.processor.Live
  · rw [step_eq live] at done
    cases due : machine.processor.resetOnResume with
    | true =>
      rw [due, if_pos rfl] at done
      obtain ⟨_, _, reset, stepped⟩ := bind_eq_ok done
      exact .released live due reset stepped
    | false =>
      rw [due, if_neg Bool.false_ne_true] at done
      exact .settled live due done
  · obtain ⟨_, idle, told⟩ := step_held live
    rw [told] at done
    cases done
    exact .held live idle

theorem run_held (held : ¬machine.processor.Live) (budget : UInt32) :
    ∃ consumed, run budget machine = .ok consumed machine := by
  obtain ⟨outcome, idle, stepped⟩ := step_held held
  unfold run
  rw [runFrom]
  split
  · refine ⟨budget.toNat, ?_⟩
    simp only [Bind.bind, EStateM.bind, stepped, idle]
    rfl
  · exact ⟨0, rfl⟩

theorem run_spent {budget : UInt32} (spent : ¬0 < budget.toNat) : run budget machine = .ok 0 machine := by
  rw [run, runFrom, dif_neg spent]
  rfl

theorem runFrom_keeps {invariant : Machine β → Prop} {broken : MisalignedVector → Machine β → Prop}
    (kept : Ensures invariant step (fun _ => invariant) broken) (budget : UInt32) (consumed : Nat) :
    Ensures invariant (runFrom budget consumed) (fun _ => invariant) broken := by
  induction consumed using runFrom.induct budget with
  | case1 consumed within ih =>
    rw [runFrom, dif_pos within]
    refine kept.bind fun outcome => ?_
    cases outcome.cycles? with
    | some cycles => exact ih cycles
    | none => exact .pure fun _ holds => holds
  | case2 consumed spent =>
    rw [runFrom, dif_neg spent]
    exact .pure fun _ holds => holds

end Dispatch
end Pdp11
