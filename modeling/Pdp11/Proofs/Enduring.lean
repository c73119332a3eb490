import Pdp11.Operation
import Pdp11.Proofs.ResetCases
import Pdp11.Proofs.RoutineActions

/-! Properties that outlast every operation of the driver. A property may be lost
while microcode is under way, if the return to a boundary brings it back. -/

namespace Pdp11

variable {β : Type}

structure SameHardware (before after : Processor) : Prop where
  configuration : after.configuration = before.configuration
  status : after.status = before.status
  bank : after.bank = before.bank

/-- The processor as bookkeeping leaves it: lines, counts and observer may differ, the
shadow may have followed the context, and a double fault may be latched. -/
structure Bookkept (before after : Processor) : Prop extends SameHardware before after where
  registers : after.registers = before.registers
  previousPc : after.previousPc = before.previousPc
  traceInhibited : after.traceInhibited = before.traceInhibited
  resetOnResume : after.resetOnResume = before.resetOnResume
  shadow : after.shadow = before.shadow ∨ before.status.haltMode = false ∧ after.shadow = before.context
  latched : ∀ cause, after.runState = .latched cause → cause = .doubleFault ∨ before.runState = .latched cause

variable [Board β]

/-- `whole` holds at boundaries, `broken` where microcode has broken off. -/
structure Steady (whole broken : Machine β → Prop) : Prop where
  update : ∀ {machine change}, (∀ processor, Bookkept processor (change processor)) →
    whole machine → whole (machine.update change)
  restore : ∀ {machine} boundary, broken machine → whole (machine.restore boundary)
  trap : Ensures whole (Microcode.enterTrap TrapVector.busError) (fun _ => whole) (fun _ => broken)
  halt : Ensures (fun machine => machine.processor.model = .vm2 ∧ whole machine) Microcode.enterHaltMode
    (fun _ => whole) (fun _ => broken)
  arbitrate : Ensures whole Microcode.arbitrate (fun _ => whole) (fun _ => broken)
  instruction : ∀ start, Ensures whole (Microcode.instructionCycle start) (fun _ => whole) (fun _ => broken)

/-- A reset keeps it as well, and so does the driver. -/
structure Enduring (whole broken : Machine β → Prop) : Prop extends Steady whole broken where
  resumed : ∀ {machine}, whole machine →
    whole (machine.update ({ · with runState := .running, resetOnResume := true }))
  strapped : ∀ {machine}, machine.processor.model = .t11 → whole machine → whole machine.strapped
  atStartBlock : ∀ {machine}, machine.processor.model = .vm2 → whole machine → whole machine.atStartBlock
  startBlock : Keeps whole Microcode.loadStartBlock

/-- An operation keeps a property. It breaks off only at a vector that no trap can use. -/
abbrev Outlasts (whole broken : Machine β → Prop) {α : Type} (operation : Dispatch β α) : Prop :=
  Ensures whole operation (fun _ => whole) (fun _ => broken)

namespace Bookkept

theorem aside (processor : Processor) (lines : InputLines) (cycles : UInt64) (statistics : Statistics)
    (observed : Option (Array TraceEvent)) :
    Bookkept processor { processor with lines, cycles, statistics, observed } :=
  ⟨⟨rfl, rfl, rfl⟩, rfl, rfl, rfl, rfl, .inl rfl, fun _ held => .inr held⟩

theorem syncShadow (processor : Processor) : Bookkept processor processor.syncShadow := by
  rw [Processor.syncShadow_eq]
  refine ⟨⟨rfl, rfl, rfl⟩, rfl, rfl, rfl, rfl, ?_, fun _ held => .inr held⟩
  cases on : processor.status.haltMode with
  | true => exact .inl rfl
  | false => exact .inr ⟨rfl, rfl⟩

theorem latch (processor : Processor) : Bookkept processor (processor.latch .doubleFault) :=
  ⟨⟨rfl, rfl, rfl⟩, rfl, rfl, rfl, rfl, .inl rfl, fun _ held => .inl (RunState.latched.inj held).symm⟩

theorem noted (processor : Processor) (code : FaultCode) (event : TraceEvent) :
    Bookkept processor ((processor.recordFault code processor.pc).emit event) := by
  rw [Processor.emit_eq]
  exact .aside processor ..

theorem context {before after : Processor} (same : Bookkept before after) : after.context = before.context := by
  simp only [Processor.context, Processor.pc, same.registers, same.status]

theorem trans {first second third : Processor} (left : Bookkept first second)
    (right : Bookkept second third) : Bookkept first third := by
  refine ⟨⟨right.configuration.trans left.configuration, right.status.trans left.status, right.bank.trans left.bank⟩,
    right.registers.trans left.registers, right.previousPc.trans left.previousPc,
    right.traceInhibited.trans left.traceInhibited, right.resetOnResume.trans left.resetOnResume, ?_, fun cause held => ?_⟩
  · rcases right.shadow with kept | ⟨user, followed⟩
    · rw [kept]
      exact left.shadow
    · rw [followed, left.context]
      exact .inr ⟨left.status ▸ user, rfl⟩
  · rcases right.latched cause held with double | before
    · exact .inl double
    · exact left.latched cause before

end Bookkept

namespace Steady

open Dispatch

variable {whole broken : Machine β → Prop}

theorem of_actions
    (update : ∀ {machine change}, (∀ processor, Bookkept processor (change processor)) →
      whole machine → whole (machine.update change))
    (restore : ∀ {machine} boundary, whole machine → whole (machine.restore boundary))
    (action : ∀ {before after}, Action .any before after → whole before → whole after) : Steady whole whole := by
  have keeps {α : Type} {code : Microcode β α} (acts : Acts .any code) : Keeps whole code :=
    acts.keeps action
  refine ⟨update, restore, keeps (Microcode.acts_enterTrap _), ?_, keeps Microcode.acts_arbitrate,
    fun start => keeps (Microcode.acts_instructionCycle start)⟩
  rintro machine ⟨has, holds⟩
  exact (Microcode.acts_enterHaltMode has (Scope.any_halts _)).weaken (fun _ same => same) (fun _ _ path => path.keeps action holds)
    (fun _ _ left => left.path.keeps action holds) machine rfl

theorem and {also left : Machine β → Prop} (first : Steady whole broken) (second : Steady also left) :
    Steady (fun machine => whole machine ∧ also machine) (fun machine => broken machine ∧ left machine) where
  update same := fun ⟨holds, meets⟩ => ⟨first.update same holds, second.update same meets⟩
  restore boundary := fun ⟨holds, meets⟩ => ⟨first.restore boundary holds, second.restore boundary meets⟩
  trap := first.trap.and second.trap
  halt := by
    refine (first.halt.and second.halt).weaken ?_ (fun _ _ both => both) (fun _ _ both => both)
    exact fun _ ⟨has, holds, meets⟩ => ⟨⟨has, holds⟩, has, meets⟩
  arbitrate := first.arbitrate.and second.arbitrate
  instruction start := (first.instruction start).and (second.instruction start)

variable (steady : Steady whole broken)

include steady

theorem startBlockFailed {machine : Machine β} (holds : whole machine) : whole machine.startBlockFailed := by
  have cleared : whole machine.busErrorsCleared := steady.update (fun processor => .aside processor ..) holds
  refine steady.update (fun processor => ?_) cleared
  have recorded : Bookkept processor (processor.recordFault .doubleFault processor.pc) := .aside processor ..
  exact (recorded.trans (.latch _)).trans (.syncShadow _)

theorem doubleFault (start : UInt64) : Outlasts whole broken (Dispatch.doubleFault start) := by
  intro machine holds
  have noted : whole machine.doubleFaultNoted := steady.update (fun _ => .noted _ _ _) holds
  rw [doubleFault_eq]
  cases has : machine.processor.model with
  | t11 => exact steady.update (fun _ => .latch _) noted
  | vm2 =>
    have model : machine.doubleFaultNoted.processor.model = .vm2 :=
      (congrArg Configuration.model (Bookkept.noted _ _ _).configuration).trans has
    have settled := steady.halt machine.doubleFaultNoted ⟨model, noted⟩
    cases entered : Microcode.enterHaltMode machine.doubleFaultNoted with
    | ok _ after =>
      rw [entered] at settled
      exact steady.update (fun _ => .syncShadow _) settled
    | error abort after =>
      rw [entered] at settled
      cases abort with
      | misaligned stop => exact settled
      | failedCycle =>
        have restored := steady.restore machine.doubleFaultNoted.processor.checkpoint settled
        have cleared : whole (after.restore machine.doubleFaultNoted.processor.checkpoint).busErrorsCleared :=
          steady.update (fun processor => .aside processor ..) restored
        exact steady.update (fun _ => .latch _) cleared

theorem serviceBusFault (start : UInt64) : Outlasts whole broken (Dispatch.serviceBusFault start) := by
  intro machine holds
  have noted : whole machine.busFaultNoted := by
    refine steady.update (fun processor => ?_) holds
    exact (Bookkept.noted processor .busError (.busFault processor.pc)).trans (.aside _ ..)
  have settled := steady.trap machine.busFaultNoted noted
  rw [serviceBusFault_eq]
  cases entered : Microcode.enterTrap TrapVector.busError machine.busFaultNoted with
  | ok _ after =>
    rw [entered] at settled
    have charged : whole (after.update (·.charge CostKind.faultTrapEntry.cycles)) :=
      steady.update (fun processor => .aside processor ..) settled
    exact steady.update (fun _ => .syncShadow _) charged
  | error abort after =>
    rw [entered] at settled
    cases abort with
    | misaligned stop => exact settled
    | failedCycle =>
      have restored := steady.restore machine.busFaultNoted.processor.checkpoint settled
      have cleared : whole (after.restore machine.busFaultNoted.processor.checkpoint).busErrorsCleared :=
        steady.update (fun processor => .aside processor ..) restored
      exact steady.doubleFault start _ cleared

/-- A step whose arbitration keeps a property keeps it as a whole. -/
theorem boundaryStep_after {machine : Machine β} (ready : machine.processor.lines.hasBusError = false)
    (arbitrated : Ensures (· = machine) Microcode.arbitrate (fun _ => whole) (fun _ => broken)) :
    Ensures (· = machine) Dispatch.boundaryStep (fun _ => whole) (fun _ => broken) := by
  intro state same
  have reached := arbitrated machine rfl
  rw [same, boundaryStep_eq]
  simp only [ready, Bool.false_eq_true, if_false]
  cases ended : Microcode.arbitrate machine with
  | error abort after =>
    rw [ended] at reached
    cases abort with
    | misaligned stop => exact reached
    | failedCycle => exact steady.serviceBusFault _ _ (steady.restore _ reached)
  | ok taken after =>
    rw [ended] at reached
    cases taken with
    | true => exact steady.update (fun _ => .syncShadow _) reached
    | false =>
      by_cases idle : after.processor.runState = .waiting
      · simp only [idle, if_true]
        exact reached
      simp only [idle, if_false]
      have executed := steady.instruction machine.processor.cycles after reached
      cases finished : Microcode.instructionCycle machine.processor.cycles after with
      | ok outcome done => rwa [finished] at executed
      | error abort after =>
        rw [finished] at executed
        cases abort with
        | misaligned stop => exact executed
        | failedCycle => exact steady.serviceBusFault _ _ (steady.restore _ executed)

theorem boundaryStep : Outlasts whole broken Dispatch.boundaryStep := by
  intro machine holds
  cases pending : machine.processor.lines.hasBusError with
  | true =>
    rw [boundaryStep_eq]
    simp only [pending, if_true]
    exact steady.serviceBusFault _ machine holds
  | false => exact steady.boundaryStep_after pending (steady.arbitrate.startingAt holds) machine rfl

theorem checkInterrupts_after {machine : Machine β} (live : machine.processor.Live)
    (arbitrated : Ensures (· = machine) Microcode.arbitrate (fun _ => whole) (fun _ => broken)) :
    Ensures (· = machine) Dispatch.checkInterrupts (fun _ => whole) (fun _ => broken) := by
  intro state same
  have reached := arbitrated machine rfl
  rw [same, checkInterrupts_eq live]
  cases ended : Microcode.arbitrate machine with
  | ok taken after =>
    rw [ended] at reached
    cases taken with
    | true => exact steady.update (fun _ => .syncShadow _) reached
    | false => exact reached
  | error abort after =>
    rw [ended] at reached
    cases abort with
    | misaligned stop => exact reached
    | failedCycle =>
      let boundary := after.restore machine.processor.checkpoint
      have answered := steady.serviceBusFault boundary.processor.cycles boundary (steady.restore _ reached)
      simp only
      cases served : Dispatch.serviceBusFault boundary.processor.cycles boundary with
      | ok outcome after => rwa [served] at answered
      | error stop after => rwa [served] at answered

theorem checkInterrupts : Outlasts whole broken Dispatch.checkInterrupts := by
  intro machine holds
  by_cases live : machine.processor.Live
  · exact steady.checkInterrupts_after live (steady.arbitrate.startingAt holds) machine rfl
  · rw [checkInterrupts_held live]
    exact holds

/-- Operations that run no instruction. -/
theorem aside {operation : Operation} (resumed : ∀ {machine}, whole machine →
      whole (machine.update ({ · with runState := .running, resetOnResume := true })))
    (unreset : operation ≠ .reset) (unstepped : operation ≠ .step) (unrun : ∀ budget, operation ≠ .run budget) :
    Outlasts whole broken (operation.perform : Dispatch β Response) := by
  have updated {change : Processor → Processor} (same : ∀ processor, Bookkept processor (change processor)) :
      Outlasts whole broken (do Dispatch.update change; return .done : Dispatch β Response) :=
    Ensures.bind (.modify fun _ holds => steady.update same holds) fun _ => .pure fun _ holds => holds
  cases operation with
  | reset => exact absurd rfl unreset
  | step => exact absurd rfl unstepped
  | run budget => exact absurd rfl (unrun budget)
  | checkInterrupts => exact steady.checkInterrupts.bind fun _ => .pure fun _ holds => holds
  | drive line asserted => exact updated fun processor => .aside processor ..
  | suspend =>
    exact updated fun _ => ⟨⟨rfl, rfl, rfl⟩, rfl, rfl, rfl, rfl, .inl rfl, fun _ held => by cases held⟩
  | resume =>
    refine Ensures.bind (.modify fun machine holds => ?_) fun _ => .pure fun _ holds => holds
    by_cases suspended : machine.processor.runState = .suspended
    · simp only [Machine.update, suspended, if_true]
      exact resumed holds
    · simp only [Machine.update, suspended, if_false]
      exact holds
  | observe on => exact updated fun processor => .aside processor ..

end Steady

namespace Enduring

open Dispatch

variable {whole broken : Machine β → Prop} (enduring : Enduring whole broken)

include enduring

theorem reset : Outlasts whole broken Dispatch.reset := by
  intro machine holds
  rw [reset_eq]
  cases has : machine.processor.model with
  | t11 => exact enduring.strapped has holds
  | vm2 =>
    have loaded := enduring.startBlock machine.atStartBlock (enduring.atStartBlock has holds)
    cases ended : Microcode.loadStartBlock machine.atStartBlock with
    | ok _ after =>
      rw [ended] at loaded
      exact enduring.update (fun _ => .syncShadow _) loaded
    | error abort after =>
      rw [ended] at loaded
      exact enduring.startBlockFailed loaded

theorem step : Outlasts whole broken Dispatch.step := by
  intro machine holds
  by_cases live : machine.processor.Live
  · rw [step_eq live]
    by_cases due : machine.processor.resetOnResume
    · simp only [due, if_true]
      exact enduring.reset.bind (fun _ => enduring.boundaryStep) machine holds
    · simp only [due, Bool.false_eq_true, if_false]
      exact enduring.boundaryStep machine holds
  · obtain ⟨outcome, _, held⟩ := step_held live
    rw [held]
    exact holds

theorem perform (operation : Operation) :
    Outlasts whole broken (operation.perform : Dispatch β Response) := by
  have answered {α : Type} (response : α → Response) {code : Dispatch β α}
      (stays : Outlasts whole broken code) :
      Outlasts whole broken (do return response (← code) : Dispatch β Response) :=
    stays.bind fun _ => .pure fun _ holds => holds
  cases operation with
  | reset => exact enduring.reset.bind fun _ => .pure fun _ holds => holds
  | step => exact answered .outcome enduring.step
  | run budget => exact answered .consumed (runFrom_keeps enduring.step budget 0)
  | checkInterrupts | drive line asserted | suspend | resume | observe on =>
    exact enduring.toSteady.aside enduring.resumed nofun nofun nofun

end Enduring

namespace Microcode

variable {invariant : Machine β → Prop}

/-- Loading the start block is more than a succession of actions: the context that it
loads goes into the shadow, also in HALT mode. -/
theorem loadStartBlock_keeps_from {machine : Machine β}
    (action : ∀ {before after}, Action .any before after → invariant before → invariant after)
    (shadow : ∀ {machine}, invariant machine →
      invariant (machine.update fun processor => { processor with shadow := processor.context }))
    (read : invariant (ended (readWord (Vm2.startBlock machine.processor.mode) machine))) :
    Ensures (· = machine) loadStartBlock (fun _ => invariant) (fun _ => invariant) := by
  have keeps {α : Type} {code : Microcode β α} (acts : Acts .any code) : Keeps invariant code := acts.keeps action
  have first : Ensures (· = machine) (readWord (Vm2.startBlock machine.processor.mode)) (fun _ => invariant)
      (fun _ => invariant) := by
    intro state same
    rw [same]
    cases result : readWord (Vm2.startBlock machine.processor.mode) machine with
    | ok pc after => rwa [result] at read
    | error abort broken => rwa [result] at read
  intro state same
  rw [same]
  refine first.bind (fun pc => ?_) machine rfl
  refine (keeps (acts_readWord _)).bind fun status => (keeps (acts_setPc pc)).bind fun _ => ?_
  exact (keeps (acts_installStatus status)).bind fun _ => .modify fun _ holds => shadow holds

theorem loadStartBlock_keeps
    (action : ∀ {before after}, Action .any before after → invariant before → invariant after)
    (shadow : ∀ {machine}, invariant machine →
      invariant (machine.update fun processor => { processor with shadow := processor.context })) :
    Keeps invariant loadStartBlock := by
  intro machine holds
  have acts : Acts .any (readWord (Vm2.startBlock machine.processor.mode) : Microcode β Word) := acts_readWord _
  have read := acts.keeps action
  exact loadStartBlock_keeps_from action shadow (read.startingAt holds).ended machine rfl

theorem loadStartBlock_keepsBoard {allowed : Scope} {lasting : β → Prop} (persistent : PersistentIn allowed lasting) :
    Keeps (fun machine : Machine β => lasting machine.board) loadStartBlock :=
  (acts_processor.keepsBoard persistent).bind fun _ => ((acts_readWord _).keepsBoard persistent).bind fun _ =>
    ((acts_readWord _).keepsBoard persistent).bind fun _ => ((acts_setPc _).keepsBoard persistent).bind fun _ =>
    ((acts_installStatus _).keepsBoard persistent).bind fun _ => .modify fun _ holds => holds

end Microcode

/-- What no call of a processor ends outlasts every operation. -/
theorem Persistent.enduring {lasting : β → Prop} (persistent : Persistent lasting) :
    Enduring (fun machine : Machine β => lasting machine.board) (fun machine => lasting machine.board) where
  toSteady := .of_actions (fun _ holds => holds) persistent.restore persistent.action
  resumed holds := holds
  strapped _ holds := holds
  atStartBlock _ holds := persistent.selected .halt (persistent.selected .user holds)
  startBlock := Microcode.loadStartBlock_keeps persistent.action fun holds => holds

end Pdp11
