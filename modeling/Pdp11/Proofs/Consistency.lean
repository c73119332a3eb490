import Pdp11.Proofs.BoundaryCases
import Pdp11.Proofs.RoutineActions
import Pdp11.Proofs.TrapEntry

/-! Status word and bank agree at every boundary. Code that breaks off may leave
them apart, but never further than a return to a boundary mends. -/

namespace Pdp11

variable {β : Type} [Board β]

/-- Only implemented bits are set, and the bank is the one of the HALT mode bit. -/
structure Consistent (configuration : Configuration) (processor : Processor) : Prop where
  configured : processor.configuration = configuration
  fits : processor.status.Fits configuration.model.implemented
  bank : processor.bank = Bank.ofHaltMode processor.status.haltMode

/-- What is left of consistency when an entry into HALT mode breaks off: one model
never leaves the user bank. -/
structure Recoverable (configuration : Configuration) (processor : Processor) : Prop where
  configured : processor.configuration = configuration
  bank : configuration.model = .t11 → processor.bank = .user

theorem StatusWord.Fits.user {status : StatusWord} {model : Model} (fits : status.Fits model.implemented)
    (without : model = .t11) : status.haltMode = false := by
  subst without
  exact fits.haltMode (by decide)

namespace Consistent

variable {configuration : Configuration} {processor : Processor}

theorem recoverable (holds : Consistent configuration processor) : Recoverable configuration processor := by
  refine ⟨holds.configured, fun without => ?_⟩
  rw [holds.bank, holds.fits.user without]
  rfl

theorem model (holds : Consistent configuration processor) : processor.model = configuration.model :=
  congrArg Configuration.model holds.configured

theorem create (configuration : Configuration) : Consistent configuration (.create configuration) := by
  refine ⟨rfl, ?_, ?_⟩
  · simp [Processor.create, StatusWord.Fits]
  · change Bank.user = Bank.ofHaltMode (StatusWord.haltMode {})
    decide

end Consistent

namespace Recoverable

variable {configuration : Configuration} {processor : Processor}

theorem model (holds : Recoverable configuration processor) : processor.model = configuration.model :=
  congrArg Configuration.model holds.configured

theorem installStatus {machine : Machine β} (holds : Recoverable configuration machine.processor) (bits : Word) :
    Consistent configuration (machine.installStatus bits).processor := by
  have installed : (machine.installed bits).Fits configuration.model.implemented := by
    rw [← holds.model]
    exact StatusWord.masked_fits _ _
  rw [Machine.installStatus_processor]
  refine ⟨holds.configured, installed, ?_⟩
  rw [holds.model]
  cases has : configuration.model with
  | vm2 => rfl
  | t11 =>
    simp only [Model.hasHaltMode, Bool.false_eq_true, if_false]
    rw [holds.bank has, installed.user has]
    rfl

end Recoverable

variable {configuration : Configuration} {before after : Machine β}

theorem Action.consistent (action : Action .outsideHalt before after)
    (holds : Consistent configuration before.processor) : Consistent configuration after.processor := by
  cases action with
  | registers | lines | trace | wait | previousPc | charge | count | call | refused =>
    exact ⟨holds.configured, holds.fits, holds.bank⟩
  | codes _ status kept =>
    exact ⟨holds.configured, kept.fits (Model.codeBits_implemented _) holds.fits,
      holds.bank.trans (congrArg Bank.ofHaltMode kept.haltMode.symm)⟩
  | priority _ value =>
    have kept := StatusWord.mtps_sameOutside holds.fits value
    rw [← holds.model] at kept
    refine ⟨holds.configured, ?_, ?_⟩
    · rw [← holds.model]
      exact StatusWord.masked_fits _ _
    · exact holds.bank.trans (congrArg Bank.ofHaltMode (kept.isSet (by decide)).symm)
  | restart _ without =>
    have model : configuration.model = .t11 := holds.model.symm.trans without
    refine ⟨holds.configured, ?_, ?_⟩
    · rw [model]
      change T11.resetStatus.Fits Model.t11.implemented
      decide
    · change before.processor.bank = Bank.ofHaltMode T11.resetStatus.haltMode
      rw [holds.recoverable.bank model]
      decide
  | install _ bits => exact holds.recoverable.installStatus bits
  | haltBank _ may => exact absurd rfl may
  | wake =>
    rw [Machine.update_processor, Processor.wake_eq]
    exact ⟨holds.configured, holds.fits, holds.bank⟩
  | shadow =>
    rw [Machine.update_processor, Processor.syncShadow_eq]
    exact ⟨holds.configured, holds.fits, holds.bank⟩
  | emit event =>
    rw [Machine.update_processor, Processor.emit_eq]
    exact ⟨holds.configured, holds.fits, holds.bank⟩

theorem Action.recoverable {allowed : Scope} (action : Action allowed before after)
    (holds : Recoverable configuration before.processor) : Recoverable configuration after.processor := by
  refine ⟨action.sameSetting.configuration.trans holds.configured, fun without => ?_⟩
  have kept := holds.bank without
  cases action with
  | registers | codes | priority | restart | lines | trace | wait | previousPc | charge | count | call | refused =>
    exact kept
  | install _ bits => exact (holds.installStatus bits).recoverable.bank without
  | haltBank _ _ has =>
    rw [holds.model, without] at has
    cases has
  | wake =>
    rw [Machine.update_processor, Processor.wake_eq]
    exact kept
  | shadow =>
    rw [Machine.update_processor, Processor.syncShadow_eq]
    exact kept
  | emit event =>
    rw [Machine.update_processor, Processor.emit_eq]
    exact kept

theorem Actions.recoverable {allowed : Scope} (actions : Actions allowed before after)
    (holds : Recoverable configuration before.processor) : Recoverable configuration after.processor := by
  induction actions with
  | refl => exact holds
  | tail _ last ih => exact last.recoverable ih

theorem Actions.consistent (actions : Actions .outsideHalt before after)
    (holds : Consistent configuration before.processor) : Consistent configuration after.processor := by
  induction actions with
  | refl => exact holds
  | tail _ last ih => exact last.consistent ih

/-- Microcode that starts from a consistent processor leaves one that is, or breaks
off where a return to the boundary makes it so. -/
abbrev Settles (configuration : Configuration) {α : Type} (code : Microcode β α) : Prop :=
  Ensures (fun machine => Consistent configuration machine.processor) code
    (fun _ machine => Consistent configuration machine.processor)
    (fun _ machine => Recoverable configuration machine.processor)

/-- Short of HALT mode every action keeps consistency. -/
theorem ActsFrom.settles {α : Type} {machine : Machine β} {code : Microcode β α} (acts : ActsFrom .outsideHalt machine code)
    (holds : Consistent configuration machine.processor) :
    Ensures (· = machine) code (fun _ after => Consistent configuration after.processor)
      (fun _ after => Recoverable configuration after.processor) :=
  acts.weaken (fun _ same => same) (fun _ _ path => path.consistent holds)
    (fun _ _ left => left.path.recoverable holds.recoverable)

theorem Acts.settles {α : Type} {code : Microcode β α} (acts : Acts .outsideHalt code) : Settles configuration code :=
  fun machine holds => (acts machine).settles holds machine rfl

namespace Microcode

/-- The entry into HALT mode is out of step only while it reads the start block. -/
theorem enterHaltMode_settles (has : configuration.model = .vm2) :
    Settles configuration (enterHaltMode : Microcode β Unit) := by
  intro machine holds
  cases entered : enterHaltMode machine with
  | ok _ after =>
    obtain ⟨_, pc, status, board, _, rfl⟩ := enterHaltMode_ok entered
    let banked := { machine.processor.syncShadow with bank := .halt }.setPc pc
    have recoverable : Recoverable configuration banked := by
      refine ⟨?_, fun without => by rw [has] at without; cases without⟩
      change machine.processor.syncShadow.configuration = configuration
      rw [Processor.syncShadow_eq]
      exact holds.configured
    have installed : Consistent configuration
        ((⟨banked, board⟩ : Machine β).installStatus (status ||| StatusWord.haltBit)).processor :=
      recoverable.installStatus _
    simp only [Machine.halted, Machine.update_processor, Processor.emit_eq, Processor.wake_eq]
    exact ⟨installed.configured, installed.fits, installed.bank⟩
  | error abort after =>
    have left := (acts_enterHaltMode (holds.model.trans has) (Scope.any_halts _)).error rfl entered
    exact left.path.recoverable holds.recoverable

theorem halt_settles : Settles configuration (halt : Microcode β Unit) := by
  intro machine holds
  cases has : machine.processor.model with
  | t11 =>
    have restarted : ActsFrom .outsideHalt machine restart := acts_restart has
    rw [halt_eq, has]
    exact restarted.settles holds machine rfl
  | vm2 =>
    rw [halt_eq, has]
    exact enterHaltMode_settles (holds.model.symm.trans has) machine holds

theorem executeWord_settles (word : Word) :
    Settles configuration (executeWord word : Microcode β Retirement) := by
  unfold executeWord
  cases Instruction.ofWord? word with
  | none => exact acts_reserved.settles
  | some instruction =>
    refine (acts_executeCharged ⟨fun _ => nofun, fun _ => ⟨nofun, nofun⟩⟩).settles.bind fun retirement => ?_
    cases retirement with
    | waiting => exact acts_wait.settles.bind fun _ => (Acts.pure _).settles
    | halting => exact halt_settles.bind fun _ => (Acts.pure _).settles
    | completed | trapped _ => exact (Acts.pure _).settles

theorem instructionCycle_settles (start : UInt64) :
    Settles configuration (instructionCycle start : Microcode β Outcome) :=
  acts_processor.settles.bind fun _ => (acts_begin _).settles.bind fun _ => (acts_emit _).settles.bind fun _ =>
    acts_fetchWord.settles.bind fun word => (executeWord_settles word).bind fun retirement =>
    (acts_retire nofun _ word start retirement).settles

theorem arbiterPass_settles : Settles configuration (arbiterPass : Microcode β Bool) := by
  intro machine holds
  simp only [arbiterPass, Bind.bind, EStateM.bind, processor]
  cases chosen : machine.processor.service? with
  | none => exact holds
  | some service =>
    by_cases pin : service = .haltPin
    · subst pin
      have model := holds.model.symm.trans (model_of_haltPin chosen)
      exact (enterHaltMode_settles model).bind (fun _ => (Acts.pure true).settles) machine holds
    · have acknowledges : Special.acknowledge ≠ .haltBank := by decide
      have lowers : Special.lines ≠ .haltBank := by decide
      exact (acts_serve acknowledges lowers pin).settles machine holds

theorem arbiterPasses_settles (limit : Nat) :
    Settles configuration (arbiterPasses limit : Microcode β Bool) := by
  induction limit with
  | zero => exact (Acts.pure false).settles
  | succ limit ih =>
    refine arbiterPass_settles.bind fun taken => ?_
    cases taken with
    | false => exact (Acts.pure false).settles
    | true => exact ih.bind fun _ => (Acts.pure true).settles

end Microcode
end Pdp11
