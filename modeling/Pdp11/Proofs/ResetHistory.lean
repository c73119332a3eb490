import Pdp11.Board.Flat
import Pdp11.Proofs.Coupling
import Pdp11.Proofs.History
import Pdp11.Proofs.ScheduledReset

/-! What a reset leaves of the past. Whatever has happened to two processors, a reset on
equal boards makes them alike, statistics and observer apart. Only where the start block
cannot be read does the shadow of each survive: HALT mode freezes it, and nobody else
writes it then. -/

namespace Pdp11

open Microcode

variable {β : Type} {configuration : Configuration} {one other : Processor}

/-- Two machines that differ at most in shadow and records. -/
def AlikeButRecords (left right : Machine β) : Prop :=
  ∃ shadow statistics observed, right = left.update ({ · with shadow, statistics, observed })

/-- Two machines that differ at most in records. -/
structure AlikeNow (left right : Machine β) : Prop where
  apart : AlikeButRecords left right
  shadow : right.processor.shadow = left.processor.shadow

namespace AlikeButRecords

variable {left right : Machine β}

theorem cycle {α : Type} (request : β → Except BusError α × β) :
    InStep AlikeButRecords AlikeButRecords AlikeButRecords (cycle request) := by
  rintro ⟨processor, board⟩ _ ⟨shadow, statistics, observed, rfl⟩
  simp only [Microcode.cycle, Machine.update]
  cases request board with
  | mk answer later =>
    cases answer with
    | error => exact .error ⟨⟨rfl, rfl⟩, _, _, _, rfl⟩
    | ok value =>
      by_cases pending : processor.lines.hasBusError
      · simp only [pending, if_true]
        exact .error ⟨⟨rfl, rfl⟩, _, _, _, rfl⟩
      · simp only [pending, Bool.false_eq_true, if_false]
        exact .ok ⟨rfl, _, _, _, rfl⟩

theorem setPc (pc : Word) (alike : AlikeButRecords left right) :
    AlikeButRecords (left.update (·.setPc pc)) (right.update (·.setPc pc)) := by
  obtain ⟨_, _, _, rfl⟩ := alike
  exact ⟨_, _, _, rfl⟩

theorem startBlockFailed (alike : AlikeButRecords left right) :
    AlikeButRecords left.startBlockFailed right.startBlockFailed := by
  obtain ⟨_, _, _, rfl⟩ := alike
  simp only [Machine.startBlockFailed, Machine.update, Processor.syncShadow_eq]
  exact ⟨_, _, _, rfl⟩

variable [Board β]

theorem installStatus (bits : Word) (alike : AlikeButRecords left right) :
    AlikeButRecords (left.installStatus bits) (right.installStatus bits) := by
  obtain ⟨shadow, statistics, observed, rfl⟩ := alike
  have same : (left.update ({ · with shadow, statistics, observed })).switches bits = left.switches bits := rfl
  refine ⟨shadow, statistics, observed, ?_⟩
  simp only [Machine.installStatus_eq, same]
  cases left.switches bits <;> rfl

/-- A reset replaces everything else before it reads the start block. -/
theorem atStartBlock (same : other.configuration = one.configuration) (board : β) :
    AlikeButRecords (⟨one, board⟩ : Machine β).atStartBlock (⟨other, board⟩ : Machine β).atStartBlock := by
  obtain ⟨_⟩ := one
  obtain ⟨_⟩ := other
  cases same
  exact ⟨_, _, _, rfl⟩

/-- A start block that is read replaces the shadow too. -/
theorem loadStartBlock : InStep AlikeButRecords AlikeNow AlikeButRecords (loadStartBlock : Microcode β Unit) := by
  -- Where the block lies depends on the mode, which neither shadow nor records show.
  have mode : Couples AlikeButRecords (processor : Microcode β Processor) processor
      (fun one other left right => one.mode = other.mode ∧ AlikeButRecords left right)
      fun one other left right => (one = .failedCycle ∧ other = .failedCycle) ∧ AlikeButRecords left right := by
    rintro left _ ⟨_, _, _, rfl⟩
    exact .ok ⟨rfl, _, _, _, rfl⟩
  refine mode.bind fun one other => ?_
  rintro left right ⟨same, alike⟩
  rw [← same]
  have reading : InStep AlikeButRecords AlikeNow AlikeButRecords (do
      let pc ← readWord (Vm2.startBlock one.mode)
      let status ← readWord (Vm2.startBlock one.mode + 2)
      Microcode.setPc pc
      Microcode.installStatus status
      update fun processor => { processor with shadow := processor.context } : Microcode β Unit) := by
    refine (cycle _).bind fun pc => (cycle _).bind fun status => ?_
    have moved : InStep AlikeButRecords AlikeButRecords AlikeButRecords (Microcode.setPc pc : Microcode β Unit) :=
      .modify (setPc pc)
    have switched : InStep AlikeButRecords AlikeButRecords AlikeButRecords (Microcode.installStatus status : Microcode β Unit) :=
      .modify (installStatus status)
    refine moved.bind fun _ => switched.bind fun _ => .modify ?_
    rintro left _ ⟨_, _, _, rfl⟩
    exact ⟨⟨_, _, _, rfl⟩, rfl⟩
  exact reading left right alike

end AlikeButRecords

namespace AlikeNow

theorem syncShadow {left right : Machine β} (alike : AlikeNow left right) :
    AlikeNow (left.update (·.syncShadow)) (right.update (·.syncShadow)) := by
  obtain ⟨⟨shadow, statistics, observed, rfl⟩, same⟩ := alike
  change shadow = left.processor.shadow at same
  subst same
  simp only [Machine.update, Processor.syncShadow_eq]
  exact ⟨⟨_, _, _, rfl⟩, rfl⟩

theorem strapped (same : other.configuration = one.configuration) (bank : other.bank = one.bank) (board : β) :
    AlikeNow (⟨one, board⟩ : Machine β).strapped (⟨other, board⟩ : Machine β).strapped := by
  have user : T11.resetStatus.haltMode = false := by decide
  obtain ⟨_⟩ := one
  obtain ⟨_⟩ := other
  cases same
  cases bank
  simp only [Machine.strapped, Machine.update, Processor.syncShadow_eq, user, Bool.false_eq_true, if_false]
  exact ⟨⟨_, _, _, rfl⟩, rfl⟩

end AlikeNow

variable [Board β]

/-- HALT mode is on already when the start block is read, so a reset that fails there leaves
the shadow as it was. -/
theorem Machine.startBlockFailed_shadow {machine broken : Machine β} {abort : Abort}
    (failed : loadStartBlock machine.atStartBlock = .error abort broken) :
    broken.startBlockFailed.processor.shadow = machine.processor.shadow := by
  obtain ⟨_, lines, _, kept⟩ := loadStartBlock_error failed
  have halted : StatusWord.haltMode ⟨StatusWord.haltBit⟩ = true := by decide
  have inside : broken.processor.status.haltMode = true := by
    rw [kept]
    exact halted
  have same : broken.processor.shadow = machine.processor.shadow := by
    rw [kept]
    rfl
  rw [← same]
  simp only [startBlockFailed, busErrorsCleared, Machine.update, Processor.syncShadow_eq]
  exact if_pos inside

/-- A reset always ends, and what it leaves depends on configuration and board alone, but for
the records. The shadows agree unless the start block cannot be read, and then if they did
so before. -/
theorem reset_erases_history (first : Reachable configuration one) (second : Reachable configuration other) (board : β) :
    ∃ left right, Dispatch.reset ⟨one, board⟩ = .ok () left ∧ Dispatch.reset ⟨other, board⟩ = .ok () right ∧
      AlikeButRecords left right ∧
      (right.processor.shadow = left.processor.shadow ↔
        ¬(⟨one, board⟩ : Machine β).ResetLatches ∨ other.shadow = one.shadow) := by
  have same : other.configuration = one.configuration := second.consistent.configured.trans first.consistent.configured.symm
  rw [Dispatch.reset_eq, Dispatch.reset_eq, Dispatch.resetLatches_iff]
  cases has : configuration.model with
  | t11 =>
    have model : one.model = .t11 := first.consistent.model.trans has
    have bank : other.bank = one.bank :=
      (second.consistent.recoverable.bank has).trans (first.consistent.recoverable.bank has).symm
    have alike := AlikeNow.strapped same bank board
    simp only [model, second.consistent.model.trans has]
    exact ⟨_, _, rfl, rfl, alike.apart, iff_of_true alike.shadow (.inl fun latches => nomatch latches.1)⟩
  | vm2 =>
    have model : one.model = .vm2 := first.consistent.model.trans has
    simp only [model, second.consistent.model.trans has]
    have together := AlikeButRecords.loadStartBlock _ _ (AlikeButRecords.atStartBlock same board)
    rcases together.ended with ⟨_, _, left, right, loaded, again, _, alike⟩ | ⟨_, _, left, right, failed, again, ⟨rfl, rfl⟩, alike⟩
    · rw [loaded, again]
      refine ⟨_, _, rfl, rfl, alike.syncShadow.apart, iff_of_true alike.syncShadow.shadow (.inl ?_)⟩
      rintro ⟨_, broken, latches⟩
      cases latches
    · have kept := Machine.startBlockFailed_shadow failed
      have keptToo := Machine.startBlockFailed_shadow again
      rw [failed, again]
      refine ⟨_, _, rfl, rfl, alike.startBlockFailed, ?_⟩
      rw [kept, keptToo]
      exact ⟨.inr, fun either => either.resolve_left fun free => free ⟨trivial, left, rfl⟩⟩

/-- A processor that has been started, so its shadow has the context of the start block. -/
def startedOnce : Machine FlatBoard := ended (Dispatch.reset ⟨.create { model := .vm2 }, FlatBoard.load {} 0 [0o1000, 0]⟩)

theorem startedOnce_reachable : Reachable { model := .vm2 } startedOnce.processor := by
  have started : Operation.reset.perform ⟨.create { model := .vm2 }, FlatBoard.load {} 0 [0o1000, 0]⟩ = .ok .done startedOnce :=
    eq_ok_of_answer (by decide +kernel)
  exact .perform .powerOn started

/-- Nobody answers where the start block should be. -/
def withoutStartBlock : FlatBoard := ({} : FlatBoard).unmap ⟨0, 2⟩

theorem reset_erases_history_started :
    ∃ left right, Dispatch.reset ⟨.create { model := .vm2 }, withoutStartBlock⟩ = .ok () left ∧
      Dispatch.reset ⟨startedOnce.processor, withoutStartBlock⟩ = .ok () right ∧ AlikeButRecords left right := by
  obtain ⟨left, right, first, second, alike, _⟩ := reset_erases_history .powerOn startedOnce_reachable withoutStartBlock
  exact ⟨left, right, first, second, alike⟩

/-- Two processors of one configuration on one board, and their shadows tell them apart. -/
theorem reset_remembers_shadow :
    ∃ left right, Dispatch.reset ⟨.create { model := .vm2 }, withoutStartBlock⟩ = .ok () left ∧
      Dispatch.reset ⟨startedOnce.processor, withoutStartBlock⟩ = .ok () right ∧
      left.processor.shadow = ⟨0, ⟨0⟩⟩ ∧ right.processor.shadow = ⟨0o1000, ⟨0⟩⟩ := by
  refine ⟨_, _, eq_ok_of_answer (by decide +kernel), eq_ok_of_answer (by decide +kernel), ?_⟩
  decide +kernel

end Pdp11
