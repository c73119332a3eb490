import Pdp11.Proofs.ActionScope
import Pdp11.Proofs.FaultAtomicity
import Pdp11.Proofs.ScheduledReset

/-! What holds of a processor at every boundary. Part of it no action of microcode ever
breaks. The shadow is another matter: it falls behind while microcode is under way, and
every end of an operation has to bring it back. -/

namespace Pdp11

variable {β : Type} {configuration : Configuration}

/-- What every single action keeps. -/
structure Sound (configuration : Configuration) (processor : Processor) : Prop where
  configured : processor.configuration = configuration
  status : processor.status.Fits configuration.model.implemented
  shadow : processor.shadow.status.Fits configuration.model.implemented
  previousPc : processor.previousPc.even = processor.previousPc
  latched : ∀ cause, processor.runState = .latched cause → cause = .doubleFault

namespace Sound

theorem model {processor : Processor} (sound : Sound configuration processor) :
    processor.model = configuration.model := congrArg Configuration.model sound.configured

theorem create (configuration : Configuration) : Sound configuration (.create configuration) := by
  refine ⟨rfl, ?_, ?_, Word.even_even 0, fun _ held => by cases held⟩
  · simp [Processor.create, StatusWord.Fits]
  · simp [Processor.create, StatusWord.Fits]

theorem bookkept {before after : Processor} (sound : Sound configuration before) (same : Bookkept before after) :
    Sound configuration after := by
  refine ⟨same.configuration.trans sound.configured, same.status ▸ sound.status, ?_, ?_, fun cause held => ?_⟩
  · rcases same.shadow with kept | ⟨_, followed⟩
    · exact kept ▸ sound.shadow
    · rw [followed]
      exact sound.status
  · rw [same.previousPc]
    exact sound.previousPc
  · exact (same.latched cause held).elim id (sound.latched cause)

theorem strapped {machine : Machine β} (sound : Sound configuration machine.processor) (without : machine.processor.model = .t11) :
    Sound configuration machine.strapped.processor := by
  have strapped : Sound configuration
      { (machine.processor.cleared.setSp resetSp).setPc (T11.startAddress machine.processor.cleared.mode) with
        status := T11.resetStatus } := by
    refine ⟨sound.configured, ?_, sound.shadow, Word.even_even 0, fun _ held => by cases held⟩
    rw [← sound.model, without]
    change T11.resetStatus.Fits Model.t11.implemented
    decide
  exact strapped.bookkept (.syncShadow _)

variable [Board β] {machine before after : Machine β}

theorem installStatus (sound : Sound configuration machine.processor) (bits : Word) :
    Sound configuration (machine.installStatus bits).processor := by
  rw [Machine.installStatus_processor]
  refine ⟨sound.configured, ?_, sound.shadow, sound.previousPc, sound.latched⟩
  rw [← sound.model]
  exact StatusWord.masked_fits _ _

theorem restore (sound : Sound configuration machine.processor) (boundary : Checkpoint) :
    Sound configuration (machine.restore boundary).processor := by
  have moved : Sound configuration (machine.update ({ · with registers := boundary.registers })).processor :=
    ⟨sound.configured, sound.status, sound.shadow, sound.previousPc, sound.latched⟩
  exact moved.installStatus boundary.status.bits

theorem action {allowed : Scope} (action : Action allowed before after) (sound : Sound configuration before.processor) :
    Sound configuration after.processor := by
  cases action with
  | registers | haltBank | lines | trace | charge | count | call | refused =>
    exact ⟨sound.configured, sound.status, sound.shadow, sound.previousPc, sound.latched⟩
  | codes _ status kept =>
    exact ⟨sound.configured, kept.fits (Model.codeBits_implemented _) sound.status, sound.shadow, sound.previousPc,
      sound.latched⟩
  | priority _ value =>
    refine ⟨sound.configured, ?_, sound.shadow, sound.previousPc, sound.latched⟩
    rw [← sound.model]
    exact StatusWord.masked_fits _ _
  | restart _ without =>
    refine ⟨sound.configured, ?_, sound.shadow, sound.previousPc, sound.latched⟩
    rw [← sound.model, without]
    change T11.resetStatus.Fits Model.t11.implemented
    decide
  | install _ bits => exact sound.installStatus bits
  | wait => exact ⟨sound.configured, sound.status, sound.shadow, sound.previousPc, fun _ held => by cases held⟩
  | wake =>
    rw [Machine.update_processor, Processor.wake_eq]
    refine ⟨sound.configured, sound.status, sound.shadow, sound.previousPc, fun cause held => ?_⟩
    simp only at held
    split at held
    · cases held
    · exact sound.latched cause held
  | shadow => exact sound.bookkept (.syncShadow _)
  | previousPc _ address => exact ⟨sound.configured, sound.status, sound.shadow, Word.even_even address, sound.latched⟩
  | emit event =>
    rw [Machine.update_processor, Processor.emit_eq]
    exact ⟨sound.configured, sound.status, sound.shadow, sound.previousPc, sound.latched⟩

theorem atStartBlock (sound : Sound configuration machine.processor) (has : machine.processor.model = .vm2) :
    Sound configuration machine.atStartBlock.processor := by
  refine ⟨sound.configured, ?_, sound.shadow, Word.even_even 0, fun _ held => by cases held⟩
  rw [← sound.model, has]
  change StatusWord.Fits Model.vm2.implemented ⟨StatusWord.haltBit⟩
  decide

theorem enduring : Enduring (fun machine : Machine β => Sound configuration machine.processor)
    (fun machine => Sound configuration machine.processor) where
  toSteady := .of_actions (fun same sound => sound.bookkept (same _)) (fun boundary sound => sound.restore boundary) action
  resumed sound := ⟨sound.configured, sound.status, sound.shadow, sound.previousPc, fun _ held => by cases held⟩
  strapped without sound := sound.strapped without
  atStartBlock has sound := sound.atStartBlock has
  startBlock := Microcode.loadStartBlock_keeps action fun sound =>
    ⟨sound.configured, sound.status, sound.status, sound.previousPc, sound.latched⟩

end Sound

theorem uninhibited_enduring [Board β] : Enduring (fun machine : Machine β => machine.processor.traceInhibited = false)
    (fun machine => machine.processor.traceInhibited = false) where
  toSteady := uninhibited_steady
  resumed free := free
  strapped _ _ := by
    rw [Machine.strapped, Machine.update_processor, Processor.syncShadow_eq]
    rfl
  atStartBlock _ _ := rfl
  startBlock := by
    intro machine free
    cases ended : Microcode.loadStartBlock machine with
    | ok _ after =>
      obtain ⟨pc, status, board, _, rfl⟩ := Microcode.loadStartBlock_ok ended
      simp only [Machine.started, Machine.update_processor, Machine.installStatus_processor]
      exact free
    | error abort after =>
      obtain ⟨_, lines, _, kept⟩ := Microcode.loadStartBlock_error ended
      simp only [kept]
      exact free

/-- The shadow is the context, unless HALT mode keeps it frozen. -/
def Processor.Tracked (processor : Processor) : Prop :=
  processor.status.haltMode = false → processor.shadow = processor.context

theorem Processor.syncShadow_tracked (processor : Processor) : processor.syncShadow.Tracked := by
  rw [syncShadow_eq]
  intro user
  simp only at user
  simp only [user, Bool.false_eq_true, if_false]
  rfl

theorem Bookkept.tracked {before after : Processor} (same : Bookkept before after) (tracked : before.Tracked) :
    after.Tracked := by
  intro user
  rw [same.status] at user
  rw [same.context]
  rcases same.shadow with kept | ⟨_, followed⟩
  · rw [kept]
    exact tracked user
  · exact followed

variable [Board β] {machine broken after : Machine β} {start : UInt64} {outcome : Outcome}

theorem Machine.restore_shadow (machine : Machine β) (boundary : Checkpoint) :
    (machine.restore boundary).processor.shadow = machine.processor.shadow := by
  rw [Machine.restore, Machine.installStatus_processor]
  rfl

/-- A return to the boundary brings the context back, and the shadow with it if that was
left alone or taken at the boundary. -/
theorem Actions.restore_tracked (path : Actions .any machine broken) (holds : Consistent configuration machine.processor)
    (kept : machine.processor.status.haltMode = false → broken.processor.shadow = machine.processor.context) :
    (broken.restore machine.processor.checkpoint).processor.Tracked := by
  intro user
  have same := path.restore holds
  rw [same.status] at user
  rw [Machine.restore_shadow, same.context, kept user]

theorem Broken.restore_tracked {abort : Abort} (left : Broken (.without .shadow) machine abort broken)
    (holds : Consistent configuration machine.processor) (tracked : machine.processor.Tracked) :
    (broken.restore machine.processor.checkpoint).processor.Tracked := by
  have frozen : broken.processor.shadow = machine.processor.shadow := left.shadow_eq fun apart => apart rfl
  exact left.path.restore_tracked holds fun user => frozen.trans (tracked user)

namespace Dispatch

open Microcode

/-- An entry into HALT mode brings the shadow up to date first, so it has done that also
where it fails. -/
theorem enterHaltMode_leavesShadow (machine : Machine β) :
    LeavesShadow machine.processor.syncShadow.shadow machine enterHaltMode := by
  have block : ActsFrom (.without .shadow) machine.haltBanked (takeBlock machine.processor) := acts_takeBlock _ _
  rintro _ rfl
  have ended := block.leavesShadow (fun apart => apart rfl) _ rfl
  rwa [Machine.haltBanked_processor, ← enterHaltMode_eq] at ended

/-- The model without a HALT mode ends this where it is, so its shadow must have been
right before. The other one brings it up to date in any case. -/
theorem doubleFault_tracked (holds : Consistent configuration machine.processor)
    (tracked : configuration.model = .t11 → machine.processor.Tracked)
    (done : doubleFault start machine = .ok outcome after) : after.processor.Tracked := by
  have noted : Bookkept machine.processor machine.doubleFaultNoted.processor := .noted _ _ _
  have consistent := holds.transfer noted.toSameHardware
  cases doubleFault_ended done with
  | stopped without => exact (noted.trans (.latch _)).tracked (tracked (holds.model.symm.trans without))
  | halted => exact Processor.syncShadow_tracked _
  | @failed broken has failed =>
    have model := consistent.model.trans (holds.model.symm.trans has)
    have path := ((acts_enterHaltMode model (Scope.any_halts _)).error rfl failed).path
    have back := path.restore_tracked consistent fun user => by
      rw [(enterHaltMode_leavesShadow _).error rfl failed, Processor.syncShadow_eq, user]
      rfl
    have cleared : (broken.restore machine.doubleFaultNoted.processor.checkpoint).busErrorsCleared.processor.Tracked :=
      Bookkept.tracked (.aside _ ..) back
    exact Bookkept.tracked (.latch _) cleared

theorem serviceBusFault_tracked (holds : Consistent configuration machine.processor)
    (tracked : configuration.model = .t11 → machine.processor.Tracked)
    (done : serviceBusFault start machine = .ok outcome after) : after.processor.Tracked := by
  have noted : Bookkept machine.processor machine.busFaultNoted.processor :=
    (Bookkept.noted machine.processor .busError (.busFault machine.processor.pc)).trans (.aside _ ..)
  have consistent := holds.transfer noted.toSameHardware
  cases serviceBusFault_ended done with
  | trapped => exact Processor.syncShadow_tracked _
  | @again broken _ _ failed done =>
    have left : Broken (.without .shadow) machine.busFaultNoted .failedCycle broken := (acts_enterTrap _).error failed
    have restored := (left.path.recoverable consistent.recoverable).restore machine.busFaultNoted.processor.checkpoint
    have cleared : Bookkept (broken.restore machine.busFaultNoted.processor.checkpoint).processor
        (broken.restore machine.busFaultNoted.processor.checkpoint).busErrorsCleared.processor := .aside _ ..
    refine doubleFault_tracked (restored.transfer cleared.toSameHardware) (fun without => ?_) done
    exact cleared.tracked (left.restore_tracked consistent (noted.tracked (tracked without)))

/-- So it is with whatever comes to a bus error: in the model without a HALT mode nothing
but a retirement touches the shadow. -/
theorem abandoned_tracked (holds : Consistent configuration machine.processor) (tracked : machine.processor.Tracked)
    (left : (allowed : Scope) → allowed.Arbitrates machine.processor.model → Broken allowed machine .failedCycle broken)
    (served : serviceBusFault start (broken.restore machine.processor.checkpoint) = .ok outcome after) :
    after.processor.Tracked := by
  have path := (left .any (Scope.any_arbitrates _)).path
  refine serviceBusFault_tracked ((path.recoverable holds.recoverable).restore _) (fun without => ?_) served
  have frozen : (Scope.without .shadow).Arbitrates machine.processor.model := by
    rw [holds.model, without]
    exact ⟨nofun, nofun, nofun⟩
  exact (left _ frozen).restore_tracked holds tracked

theorem idle_tracked (idle : arbitrate machine = .ok false after) (tracked : machine.processor.Tracked) :
    after.processor.Tracked := by
  obtain ⟨lines, kept, _⟩ := arbiterPass_idle (arbitrate_idle idle)
  rw [kept]
  exact Bookkept.tracked (.aside _ ..) tracked

theorem boundaryStep_tracked (holds : Consistent configuration machine.processor) (tracked : machine.processor.Tracked)
    (done : boundaryStep machine = .ok outcome after) : after.processor.Tracked := by
  cases boundaryStep_ended done with
  | pending _ served => exact serviceBusFault_tracked holds (fun _ => tracked) served
  | arbiterFailed _ failed served =>
    exact abandoned_tracked holds tracked (fun _ arbitrates => (acts_arbiterPasses arbitrates _).error rfl failed) served
  | interrupted => exact Processor.syncShadow_tracked _
  | waiting _ arbitrated => exact idle_tracked arbitrated tracked
  | instructionFailed _ arbitrated _ failed served =>
    refine abandoned_tracked holds tracked (fun allowed arbitrates => ?_) served
    have path := (acts_arbiterPasses arbitrates _).ok rfl arbitrated
    exact path.broken (instructionCycle_broken (path.sameSetting.model ▸ arbitrates.halts) failed)
  | executed _ _ _ executed =>
    obtain ⟨_, _, _, _, _, _, rfl⟩ := instructionCycle_ok executed
    exact Processor.syncShadow_tracked _

theorem checkInterrupts_tracked {taken : Bool} (holds : Consistent configuration machine.processor)
    (tracked : machine.processor.Tracked) (done : checkInterrupts machine = .ok taken after) : after.processor.Tracked := by
  cases checkInterrupts_ended done with
  | held => exact tracked
  | taken => exact Processor.syncShadow_tracked _
  | quiet _ arbitrated => exact idle_tracked arbitrated tracked
  | failed _ failed served =>
    exact abandoned_tracked holds tracked (fun _ arbitrates => (acts_arbiterPasses arbitrates _).error rfl failed) served

theorem reset_tracked (done : reset machine = .ok () after) : after.processor.Tracked := by
  cases reset_ended done with
  | strapped | loaded | failed => exact Processor.syncShadow_tracked _

theorem step_tracked : Ensures
    (fun machine : Machine β => Consistent configuration machine.processor ∧ machine.processor.Tracked) step
    (fun _ machine => Consistent configuration machine.processor ∧ machine.processor.Tracked) (fun _ _ => True) := by
  refine .of_ok fun {machine after outcome} ⟨holds, tracked⟩ done => ⟨consistent_enduring.step.ok holds done, ?_⟩
  cases step_ended done with
  | released _ _ reset stepped =>
    exact boundaryStep_tracked (consistent_enduring.reset.ok holds reset) (reset_tracked reset) stepped
  | settled _ _ stepped => exact boundaryStep_tracked holds tracked stepped
  | held => exact tracked

/-- No bus error is pending behind the answer to one. -/
theorem doubleFault_ready (ready : machine.processor.lines.hasBusError = false)
    (done : doubleFault start machine = .ok outcome after) : after.processor.lines.hasBusError = false := by
  have noted : machine.doubleFaultNoted.processor.lines.hasBusError = false := by
    rwa [Machine.doubleFaultNoted, Machine.update_processor, Processor.emit_eq]
  cases doubleFault_ended done with
  | stopped => exact noted
  | @halted halted has entered =>
    have model : machine.doubleFaultNoted.processor.model = .vm2 :=
      (congrArg Configuration.model (Bookkept.noted _ _ _).configuration).trans has
    have path : Actions (.without .refusal) machine.doubleFaultNoted halted :=
      (acts_enterHaltMode model (Scope.without_halts (by decide) (by decide) _)).ok rfl entered
    rw [Machine.update_processor, Processor.syncShadow_eq]
    exact path.hasBusError_eq.trans noted
  | failed => rfl

theorem serviceBusFault_ready (done : serviceBusFault start machine = .ok outcome after) :
    after.processor.lines.hasBusError = false := by
  cases serviceBusFault_ended done with
  | @trapped taken entered =>
    have path : Actions (.without .refusal) machine.busFaultNoted taken := (acts_enterTrap _).ok entered
    rw [Machine.update_processor, Processor.syncShadow_eq]
    exact path.hasBusError_eq
  | again _ done => exact doubleFault_ready rfl done

/-- A step counts no bus error that it does not answer. -/
theorem boundaryStep_ready (done : boundaryStep machine = .ok outcome after) :
    after.processor.lines.hasBusError = false := by
  have arbitrates (model : Model) : (Scope.without .refusal).Arbitrates model := Scope.without_arbitrates (.inr rfl) model
  have arbitration {taken : Bool} {settled : Machine β} (arbitrated : arbitrate machine = .ok taken settled) :
      Actions (.without .refusal) machine settled := (acts_arbiterPasses (arbitrates _) _).ok rfl arbitrated
  cases boundaryStep_ended done with
  | pending _ served | arbiterFailed _ _ served | instructionFailed _ _ _ _ served => exact serviceBusFault_ready served
  | interrupted ready arbitrated =>
    rw [Machine.update_processor, Processor.syncShadow_eq]
    exact (arbitration arbitrated).hasBusError_eq.trans ready
  | waiting ready arbitrated => exact (arbitration arbitrated).hasBusError_eq.trans ready
  | @executed settled _ _ ready arbitrated _ finished =>
    obtain ⟨word, fetched, retirement, executed, fetch, execution, rfl⟩ := instructionCycle_ok finished
    have fetching : Actions (.without .refusal) settled fetched := acts_fetchInstruction.ok fetch
    have executing := (acts_executeWord word (arbitrates _).halts fun _ _ => ⟨fun _ => nofun, fun _ => ⟨nofun, nofun⟩⟩).ok rfl execution
    have path : Actions (.without .refusal) machine executed := ((arbitration arbitrated).trans fetching).trans executing
    obtain ⟨_, _, _, retired⟩ := executed.retired_processor machine.processor.cycles settled.processor.pc.even word
    rw [retired]
    exact path.hasBusError_eq.trans ready

theorem step_ready (done : step machine = .ok outcome after) (unsuspended : outcome ≠ .suspended)
    (free : ∀ cause, machine.processor.runState ≠ .latched cause) : after.processor.lines.hasBusError = false := by
  cases step_ended done with
  | released _ _ _ stepped | settled _ _ stepped => exact boundaryStep_ready stepped
  | held held =>
    cases state : machine.processor.runState with
    | running => exact absurd (.inl state) held
    | waiting => exact absurd (.inr state) held
    | latched cause => exact absurd state (free cause)
    | suspended =>
      rw [step_suspended state] at done
      cases done
      exact absurd rfl unsuspended

end Dispatch

namespace Reachable

variable {processor : Processor}

theorem sound (reached : Reachable configuration processor) : Sound configuration processor := by
  induction reached with
  | powerOn => exact .create configuration
  | perform _ performed ih => exact (Sound.enduring.perform _).ok ih performed

theorem uninhibited (reached : Reachable configuration processor) : processor.traceInhibited = false := by
  induction reached with
  | powerOn => rfl
  | perform _ performed ih => exact (uninhibited_enduring.perform _).ok ih performed

theorem tracked (reached : Reachable configuration processor) : processor.Tracked := by
  induction reached with
  | powerOn => exact fun _ => rfl
  | @perform β _ processor board operation response after reached performed ih =>
    have holds := reached.consistent
    cases operation with
    | reset =>
      obtain ⟨_, _, done, answered⟩ := bind_eq_ok performed
      cases answered
      exact Dispatch.reset_tracked done
    | step =>
      obtain ⟨_, _, done, answered⟩ := bind_eq_ok performed
      cases answered
      exact (Dispatch.step_tracked.ok ⟨holds, ih⟩ done).2
    | run budget =>
      obtain ⟨_, _, done, answered⟩ := bind_eq_ok performed
      cases answered
      exact ((Dispatch.runFrom_keeps Dispatch.step_tracked budget 0).ok ⟨holds, ih⟩ done).2
    | checkInterrupts =>
      obtain ⟨_, _, done, answered⟩ := bind_eq_ok performed
      cases answered
      exact Dispatch.checkInterrupts_tracked holds ih done
    | drive line asserted | suspend | observe on =>
      cases performed
      exact ih
    | resume =>
      cases performed
      simp only [Machine.update]
      split
      · exact ih
      · exact ih

end Reachable

/-- What holds of a processor whenever its driver has it. -/
structure AtBoundary (configuration : Configuration) (processor : Processor) : Prop where
  status : processor.status.Fits configuration.model.implemented
  shadowStatus : processor.shadow.status.Fits configuration.model.implemented
  shadow : processor.status.haltMode = false → processor.shadow = processor.context
  /-- Without a HALT mode there is nothing to keep in the shadow but the context. -/
  shadowWithout : configuration.model = .t11 → processor.shadow = processor.context
  traceInhibited : processor.traceInhibited = false
  latched : ∀ cause, processor.runState = .latched cause → cause = .doubleFault
  previousPc : processor.previousPc.even = processor.previousPc

/-- Every operation leaves the processor like this, and every step that finds it running
or waiting leaves no bus error pending. -/
theorem operations_end_atBoundary {processor : Processor} (reached : Reachable configuration processor) :
    AtBoundary configuration processor ∧
      ∀ (board : β) {outcome : Outcome} {after : Machine β}, Dispatch.step ⟨processor, board⟩ = .ok outcome after →
        outcome ≠ .suspended → (∀ cause, processor.runState ≠ .latched cause) →
        after.processor.lines.busErrors.value = 0 := by
  have sound := reached.sound
  refine ⟨⟨sound.status, sound.shadow, reached.tracked, fun without => ?_, reached.uninhibited, sound.latched,
    sound.previousPc⟩, fun board outcome after done unsuspended free => ?_⟩
  · exact reached.tracked (sound.status.user without)
  · have ready := Dispatch.step_ready done unsuspended free
    simpa [InputLines.hasBusError] using ready

/-- A bus error that the driver has reported. -/
def reportedBusError : Machine FlatBoard := ended (Dispatch.drive .busError true ⟨.create { model := .vm2 }, {}⟩)

theorem operations_end_atBoundary_busError :
    reportedBusError.processor.lines.busErrors.value = 1 ∧ AtBoundary { model := .vm2 } reportedBusError.processor ∧
      ∃ after, Dispatch.step reportedBusError = .ok (.faulted .busError 48) after ∧
        after.processor.lines.busErrors.value = 0 := by
  have driven : (Operation.drive .busError true).perform (⟨.create { model := .vm2 }, {}⟩ : Machine FlatBoard) =
      .ok .done reportedBusError := rfl
  have stepped : Dispatch.step reportedBusError = .ok (.faulted .busError 48) _ := eq_ok_of_answer (by decide +kernel)
  have reached : Reachable { model := .vm2 } reportedBusError.processor := .perform .powerOn driven
  obtain ⟨atBoundary, answered⟩ := @operations_end_atBoundary FlatBoard _ _ _ reached
  exact ⟨by decide +kernel, atBoundary, _, stepped, answered reportedBusError.board stepped nofun nofun⟩

end Pdp11
