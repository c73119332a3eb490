import Pdp11.Proofs.Enduring
import Pdp11.Proofs.InstructionCases

/-! What microcode leaves alone. Each of these fields is changed by one action only, so
code that is not allowed that action keeps the field, also where it breaks off. -/

namespace Pdp11

variable {β : Type} [Board β] {allowed : Scope} {before after : Machine β}

namespace Scope

def without (special : Special) : Scope := (· ≠ special)

theorem without_halts {special : Special} (bank : special ≠ .haltBank) (shadow : special ≠ .shadow) (model : Model) :
    (without special).Halts model := fun _ => ⟨bank.symm, shadow.symm⟩

theorem without_arbitrates {special : Special} (apart : special = .inhibit ∨ special = .refusal) (model : Model) :
    (without special).Arbitrates model := by
  rcases apart with rfl | rfl
  · exact ⟨without_halts (by decide) (by decide) model, nofun, nofun⟩
  · exact ⟨without_halts (by decide) (by decide) model, nofun, nofun⟩

end Scope

theorem Action.shadow_eq (action : Action allowed before after) (frozen : ¬allowed .shadow) :
    after.processor.shadow = before.processor.shadow := by
  cases action with
  | registers | codes | priority | restart | haltBank | lines | trace | wait | previousPc | charge | count | call
  | refused => rfl
  | install => rw [Machine.installStatus_processor]
  | wake => rw [Machine.update_processor, Processor.wake_eq]
  | shadow _ may => exact absurd may frozen
  | emit => rw [Machine.update_processor, Processor.emit_eq]

/-- Only a refused cycle counts a bus error. -/
theorem Action.busErrors_eq (action : Action allowed before after) (answered : ¬allowed .refusal) :
    after.processor.lines.busErrors = before.processor.lines.busErrors := by
  cases action with
  | registers | codes | priority | restart | haltBank | trace | wait | previousPc | charge | count | call => rfl
  | lines _ _ _ counted => exact counted
  | install => rw [Machine.installStatus_processor]
  | wake => rw [Machine.update_processor, Processor.wake_eq]
  | shadow => rw [Machine.update_processor, Processor.syncShadow_eq]
  | emit => rw [Machine.update_processor, Processor.emit_eq]
  | refused _ may => exact absurd may answered

/-- Bus errors apart, of which any refused cycle is one. -/
theorem Action.lines_eq (action : Action allowed before after) (kept : ¬allowed .lines) :
    after.processor.lines.clearBusErrors = before.processor.lines.clearBusErrors := by
  cases action with
  | registers | codes | priority | restart | haltBank | trace | wait | previousPc | charge | count | call | refused => rfl
  | lines _ may => exact absurd may kept
  | install => rw [Machine.installStatus_processor]
  | wake => rw [Machine.update_processor, Processor.wake_eq]
  | shadow => rw [Machine.update_processor, Processor.syncShadow_eq]
  | emit => rw [Machine.update_processor, Processor.emit_eq]

theorem Action.uninhibited (action : Action allowed before after) (plain : ¬allowed .inhibit)
    (free : before.processor.traceInhibited = false) : after.processor.traceInhibited = false := by
  cases action with
  | registers | codes | priority | restart | haltBank | lines | wait | previousPc | charge | count | call | refused =>
    exact free
  | trace _ tracePending traceInhibited kept =>
    refine Bool.eq_false_iff.mpr fun on => ?_
    rcases kept on with already | may
    · rw [free] at already
      cases already
    · exact plain may
  | install => rwa [Machine.installStatus_processor]
  | wake => rwa [Machine.update_processor, Processor.wake_eq]
  | shadow => rwa [Machine.update_processor, Processor.syncShadow_eq]
  | emit => rwa [Machine.update_processor, Processor.emit_eq]

theorem Actions.hasBusError_eq (actions : Actions (.without .refusal) before after) :
    after.processor.lines.hasBusError = before.processor.lines.hasBusError := by
  induction actions with
  | refl => rfl
  | tail _ last ih =>
    rw [← ih]
    simp only [InputLines.hasBusError, last.busErrors_eq fun apart => apart rfl]

theorem FailedCycle.lines_eq (failed : FailedCycle before after) :
    after.processor.lines.clearBusErrors = before.processor.lines.clearBusErrors := by
  rcases failed.processor with same | raised
  · rw [same]
  · rw [raised]
    rfl

theorem FailedCycle.shadow_eq (failed : FailedCycle before after) :
    after.processor.shadow = before.processor.shadow := by
  rcases failed.processor with same | raised
  · rw [same]
  · rw [raised]

theorem FailedCycle.uninhibited (failed : FailedCycle before after) (free : before.processor.traceInhibited = false) :
    after.processor.traceInhibited = false := by
  rcases failed.processor with same | raised
  · rwa [same]
  · rwa [raised]

theorem Broken.shadow_eq {abort : Abort} (broken : Broken allowed before abort after) (frozen : ¬allowed .shadow) :
    after.processor.shadow = before.processor.shadow := by
  have step {middle later : Machine β} (action : Action allowed middle later)
      (same : middle.processor.shadow = before.processor.shadow) : later.processor.shadow = before.processor.shadow :=
    (action.shadow_eq frozen).trans same
  exact broken.keeps step (fun failed same => failed.shadow_eq.trans same) rfl

/-- However this code ends, it leaves this shadow. -/
abbrev LeavesShadow (shadow : Context) {α : Type} (machine : Machine β) (code : Microcode β α) : Prop :=
  Ensures (· = machine) code (fun _ after => after.processor.shadow = shadow) (fun _ broken => broken.processor.shadow = shadow)

theorem ActsFrom.leavesShadow {α : Type} {machine : Machine β} {code : Microcode β α} (acts : ActsFrom allowed machine code)
    (frozen : ¬allowed .shadow) : LeavesShadow machine.processor.shadow machine code :=
  acts.weaken (fun _ same => same)
    (fun _ _ path => path.keeps (fun action same => (action.shadow_eq frozen).trans same) rfl)
    fun _ _ left => left.shadow_eq frozen

/-- No trace is inhibited at a boundary: the only instruction that inhibits one is
followed by its retirement. -/
theorem uninhibited_steady : Steady (fun machine : Machine β => machine.processor.traceInhibited = false)
    (fun machine => machine.processor.traceInhibited = false) := by
  have halts (model : Model) : (Scope.without .inhibit).Halts model := Scope.without_halts (by decide) (by decide) model
  have inhibits : ¬Scope.without .inhibit .inhibit := fun apart => apart rfl
  have broken {machine left : Machine β} {abort : Abort} (broken : Broken (.without .inhibit) machine abort left)
      (free : machine.processor.traceInhibited = false) : left.processor.traceInhibited = false :=
    broken.keeps (fun action => action.uninhibited inhibits) FailedCycle.uninhibited free
  have keeps {α : Type} {code : Microcode β α} {machine : Machine β} (acts : ActsFrom (.without .inhibit) machine code)
      (free : machine.processor.traceInhibited = false) :
      Ensures (· = machine) code (fun _ after => after.processor.traceInhibited = false)
        (fun _ after => after.processor.traceInhibited = false) :=
    acts.weaken (fun _ same => same) (fun _ _ path => path.keeps (fun action => action.uninhibited inhibits) free)
      fun _ _ left => broken left free
  refine ⟨fun same free => (same _).traceInhibited.trans free, fun boundary free => ?_,
    fun machine free => keeps (Microcode.acts_enterTrap _ machine) free machine rfl,
    fun machine ⟨has, free⟩ => keeps (Microcode.acts_enterHaltMode has (halts _)) free machine rfl,
    fun machine free => keeps (Microcode.acts_arbiterPasses (Scope.without_arbitrates (.inl rfl) _) _) free machine rfl, fun start machine free => ?_⟩
  · rwa [Machine.restore, Machine.installStatus_processor]
  · cases ended : Microcode.instructionCycle start machine with
    | ok outcome after =>
      obtain ⟨word, fetched, retirement, executed, _, _, rfl⟩ := Microcode.instructionCycle_ok ended
      obtain ⟨_, _, _, retired⟩ := executed.retired_processor start machine.processor.pc.even word
      simp only [retired]
    | error abort after => exact broken (Microcode.instructionCycle_broken (halts _) ended) free

end Pdp11
