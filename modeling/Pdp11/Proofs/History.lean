import Pdp11.Proofs.Consistency
import Pdp11.Proofs.Enduring

/-! Consistency from power-on through every operation. The board may be another one
each time: nothing here depends on it. -/

namespace Pdp11

variable {β : Type} {configuration : Configuration}

theorem Consistent.transfer {before after : Processor} (holds : Consistent configuration before)
    (same : SameHardware before after) : Consistent configuration after := by
  refine ⟨same.configuration.trans holds.configured, ?_, ?_⟩
  · rw [same.status]
    exact holds.fits
  · rw [same.status, same.bank]
    exact holds.bank

theorem Consistent.strapped {machine : Machine β} (holds : Consistent configuration machine.processor)
    (without : configuration.model = .t11) : Consistent configuration machine.strapped.processor := by
  have strapped : Consistent configuration
      { (machine.processor.cleared.setSp resetSp).setPc (T11.startAddress machine.processor.cleared.mode) with
        status := T11.resetStatus } := by
    refine ⟨holds.configured, ?_, ?_⟩
    · rw [without]
      change T11.resetStatus.Fits Model.t11.implemented
      decide
    · change machine.processor.bank = Bank.ofHaltMode T11.resetStatus.haltMode
      rw [holds.recoverable.bank without]
      decide
  exact strapped.transfer (Bookkept.syncShadow _).toSameHardware

variable [Board β]

theorem Recoverable.restore {machine : Machine β} (holds : Recoverable configuration machine.processor)
    (boundary : Checkpoint) : Consistent configuration (machine.restore boundary).processor := by
  have moved : Recoverable configuration (machine.update ({ · with registers := boundary.registers })).processor :=
    ⟨holds.configured, holds.bank⟩
  exact moved.installStatus boundary.status.bits

theorem Consistent.atStartBlock {machine : Machine β} (holds : Consistent configuration machine.processor)
    (has : configuration.model = .vm2) : Consistent configuration machine.atStartBlock.processor := by
  refine ⟨holds.configured, ?_, ?_⟩
  · rw [has]
    change StatusWord.Fits Model.vm2.implemented ⟨StatusWord.haltBit⟩
    decide
  · change Bank.halt = Bank.ofHaltMode (StatusWord.haltMode ⟨StatusWord.haltBit⟩)
    decide

theorem Consistent.started {machine : Machine β} (holds : Consistent configuration machine.processor)
    (pc status : Word) (board : β) : Consistent configuration (machine.started pc status board).processor := by
  have moved : Recoverable configuration (⟨machine.processor.setPc pc, board⟩ : Machine β).processor :=
    ⟨holds.configured, holds.recoverable.bank⟩
  exact (moved.installStatus status).transfer ⟨rfl, rfl, rfl⟩

theorem consistent_enduring : Enduring (fun machine : Machine β => Consistent configuration machine.processor)
    (fun machine => Recoverable configuration machine.processor) where
  update same holds := holds.transfer (same _).toSameHardware
  restore boundary holds := holds.restore boundary
  trap := (Microcode.acts_enterTrap _).settles
  halt := fun machine ⟨has, holds⟩ =>
    Microcode.enterHaltMode_settles (holds.model.symm.trans has) machine holds
  arbitrate := Microcode.arbiterPasses_settles _
  instruction := Microcode.instructionCycle_settles
  resumed holds := ⟨holds.configured, holds.fits, holds.bank⟩
  strapped without holds := holds.strapped (holds.model.symm.trans without)
  atStartBlock has holds := holds.atStartBlock (holds.model.symm.trans has)
  startBlock := by
    intro machine holds
    cases ended : Microcode.loadStartBlock machine with
    | ok _ after =>
      obtain ⟨pc, status, board, _, rfl⟩ := Microcode.loadStartBlock_ok ended
      exact holds.started pc status board
    | error abort after =>
      obtain ⟨_, lines, _, kept⟩ := Microcode.loadStartBlock_error ended
      have same : SameHardware machine.processor after.processor := by
        rw [kept]
        exact ⟨rfl, rfl, rfl⟩
      exact holds.transfer same

/-- Processors that operations lead to from power-on, on whatever boards. -/
inductive Reachable (configuration : Configuration) : Processor → Prop where
  | powerOn : Reachable configuration (.create configuration)
  | perform {β : Type} [Board β] {processor : Processor} {board : β} {operation : Operation}
      {response : Response} {after : Machine β} (reached : Reachable configuration processor)
      (performed : operation.perform ⟨processor, board⟩ = .ok response after) :
      Reachable configuration after.processor

theorem Reachable.consistent {processor : Processor} (reached : Reachable configuration processor) :
    Consistent configuration processor := by
  induction reached with
  | powerOn => exact .create configuration
  | perform _ performed ih => exact (consistent_enduring.perform _).ok ih performed

/-- One operation on a board, and how it ended. -/
structure Episode (β : Type) [Board β] where
  operation : Operation
  before : Machine β
  response : Response
  after : Machine β
  performed : operation.perform before = .ok response after

/-- Operations in a row on one processor, each on whatever board it has then. -/
inductive Episodes {β : Type} [Board β] : Processor → List (Episode β) → Processor → Prop where
  | none (processor : Processor) : Episodes processor [] processor
  | next (episode : Episode β) {later : List (Episode β)} {last : Processor}
      (rest : Episodes episode.after.processor later last) :
      Episodes episode.before.processor (episode :: later) last

end Pdp11
