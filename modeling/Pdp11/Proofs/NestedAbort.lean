import Pdp11.Proofs.ArbiterCases
import Pdp11.Proofs.FaultAtomicity

/-! Trap entries that follow each other at one boundary. The boundary is the one
before all of them: a cycle that fails in a later entry undoes the earlier ones,
though their requests have been served and are gone. -/

namespace Pdp11

open Microcode

variable {β : Type} [Board β] {machine middle after : Machine β}

inductive Entries : Nat → Machine β → Machine β → Prop where
  | none (machine : Machine β) : Entries 0 machine machine
  | taken {count : Nat} {machine next middle : Machine β} (entry : arbiterPass machine = .ok true next)
      (entries : Entries count next middle) : Entries (count + 1) machine middle

theorem Entries.arbiterPasses {count limit : Nat} {broken : Machine β} {abort : Abort}
    (entries : Entries count machine middle) (within : count < limit)
    (failed : arbiterPass middle = .error abort broken) : arbiterPasses limit machine = .error abort broken := by
  induction entries generalizing limit with
  | none machine =>
    obtain ⟨limit, rfl⟩ : ∃ rest, limit = rest + 1 := ⟨limit - 1, by omega⟩
    simp only [Microcode.arbiterPasses, Bind.bind, EStateM.bind, failed]
  | taken entry _ ih =>
    obtain ⟨limit, rfl⟩ : ∃ rest, limit = rest + 1 := ⟨limit - 1, by omega⟩
    have rest := ih (Nat.lt_of_succ_lt_succ within) failed
    simp only [Microcode.arbiterPasses, Bind.bind, EStateM.bind, entry, if_true, rest]

/-- How nested entries come to their end: by themselves, at the limit, or at an entry that
is cut short. -/
inductive Nested (limit : Nat) (boundary : Machine β) : EStateM.Result Abort (Machine β) Bool → Prop where
  | rested {count : Nat} {last settled : Machine β} (few : count < limit) (entries : Entries count boundary last)
      (idle : arbiterPass last = .ok false settled) : Nested limit boundary (.ok (decide (0 < count)) settled)
  | limited {last : Machine β} (entries : Entries limit boundary last) : Nested limit boundary (.ok (decide (0 < limit)) last)
  | aborted {count : Nat} {last broken : Machine β} {abort : Abort} (few : count < limit)
      (entries : Entries count boundary last) (failed : arbiterPass last = .error abort broken) :
      Nested limit boundary (.error abort broken)

theorem Microcode.arbiterPasses_nested (limit : Nat) (machine : Machine β) :
    Nested limit machine (arbiterPasses limit machine) := by
  induction limit generalizing machine with
  | zero => exact .limited (.none machine)
  | succ limit ih =>
    cases pass : arbiterPass machine with
    | error abort broken =>
      rw [arbiterPasses, bind_of_error pass]
      exact .aborted (Nat.succ_pos limit) (.none machine) pass
    | ok taken next =>
      cases taken with
      | false =>
        rw [arbiterPasses, bind_of_ok pass]
        exact .rested (Nat.succ_pos limit) (.none machine) pass
      | true =>
        have rest := ih next
        rw [arbiterPasses, bind_of_ok pass, if_pos rfl]
        generalize result : arbiterPasses limit next = ended at rest
        cases rest with
        | @rested count last settled few entries idle =>
          rw [bind_of_ok result]
          exact .rested (Nat.succ_lt_succ few) (.taken pass entries) idle
        | @limited last entries =>
          rw [bind_of_ok result]
          exact .limited (.taken pass entries)
        | aborted few entries failed =>
          rw [bind_of_error result]
          exact .aborted (Nat.succ_lt_succ few) (.taken pass entries) failed

theorem Microcode.arbitrate_aborted {broken : Machine β} {abort : Abort} (failed : arbitrate machine = .error abort broken) :
    ∃ count asker, count < maxNestedTraps ∧ Entries count machine asker ∧ arbiterPass asker = .error abort broken := by
  have nested := arbiterPasses_nested maxNestedTraps machine
  rw [← arbitrate, failed] at nested
  cases nested with
  | aborted few entries failed => exact ⟨_, _, few, entries, failed⟩

/-- What an entry does to the stack and to HALT mode: it lowers the one, or sets the
other where it was not. -/
inductive Moves (before after : Processor) : Prop where
  | stacked (lowered : after.sp = before.sp - 4)
  | halted (outside : before.status.haltMode = false) (inside : after.status.haltMode = true)
      (kept : after.sp = before.sp)

theorem outside_of_haltPin {processor : Processor} (chosen : processor.service? = some .haltPin) :
    processor.status.haltMode = false := by
  have has := model_of_haltPin chosen
  simp only [Processor.service?, has, Processor.vm2Service?] at chosen
  cases inside : processor.status.haltMode with
  | false => rfl
  | true =>
    simp only [inside] at chosen
    grind

theorem arbiterPass_moves (entry : arbiterPass machine = .ok true after) :
    machine.processor.lines.hasBusError = false ∧ Moves machine.processor after.processor := by
  cases arbiterPass_taken entry with
  | trap before taken later =>
    obtain ⟨ready, pc, status, board, _, rfl⟩ := enterTrap_ok taken
    refine ⟨before.hasBusError.symm.trans ready, .stacked ?_⟩
    rw [later.sp, Processor.sp, Machine.trapped_registers, RegisterFile.sp_setPc, RegisterFile.sp_setSp, before.sp]
  | halt chosen taken =>
    obtain ⟨ready, pc, status, board, _, rfl⟩ := enterHaltMode_ok taken
    have inside := Machine.halted_haltMode pc status board (model_of_haltPin chosen)
    refine ⟨ready, .halted (outside_of_haltPin chosen) inside ?_⟩
    rw [Processor.sp, Machine.halted_registers, RegisterFile.sp_setPc, Processor.sp]

/-- Entries lower the stack, all but one that is alone and goes into HALT mode. -/
theorem Entries.pushes {count : Nat} (entries : Entries count machine middle) :
    ∃ pushes ≤ count, middle.processor.sp = machine.processor.sp - BitVec.ofNat 16 (4 * pushes) ∧
      (pushes = 0 → count = 0 ∨ machine.processor.status.haltMode = false ∧ middle.processor.status.haltMode = true) := by
  induction entries with
  | none machine => exact ⟨0, Nat.le_refl 0, by simp, fun _ => .inl rfl⟩
  | taken entry rest ih =>
    obtain ⟨pushes, few, lowered, none⟩ := ih
    obtain ⟨_, moves⟩ := arbiterPass_moves entry
    cases moves with
    | stacked stacked =>
      refine ⟨pushes + 1, Nat.succ_le_succ few, ?_, fun zero => absurd zero (Nat.succ_ne_zero pushes)⟩
      rw [lowered, stacked]
      bv_omega
    | halted outside inside kept =>
      refine ⟨pushes, Nat.le_succ_of_le few, by rw [lowered, kept], fun zero => .inr ⟨outside, ?_⟩⟩
      rcases none zero with alone | ⟨again, _⟩
      · subst alone
        cases rest
        exact inside
      · rw [inside] at again
        cases again

/-- No entry leaves stack pointer and status word both as they were. -/
theorem Entries.checkpoint_ne {count : Nat} (entries : Entries count machine middle) (some : 0 < count)
    (few : count < maxNestedTraps) : middle.processor.checkpoint ≠ machine.processor.checkpoint := by
  intro same
  obtain ⟨pushes, within, lowered, none⟩ := entries.pushes
  have sp : middle.processor.sp = machine.processor.sp := congrArg (·.registers.sp) same
  have status : middle.processor.status = machine.processor.status := congrArg (·.status) same
  have unmoved : pushes = 0 := by
    rw [sp] at lowered
    have bounded : pushes < 8 := Nat.lt_of_le_of_lt within few
    bv_omega
  rcases none unmoved with zero | ⟨outside, inside⟩
  · omega
  · rw [status, outside] at inside
    cases inside

/-- A step and a check of interrupts both answer a failing later entry from before
the first one. The requests that were served stay served. -/
theorem nested_abort_undoes_entries {configuration : Configuration} {broken : Machine β} {count : Nat}
    (reached : Reachable configuration machine.processor) (live : machine.processor.Live)
    (entries : Entries count machine middle) (some : 0 < count) (few : count < maxNestedTraps)
    (failed : arbiterPass middle = .error .failedCycle broken) :
    let boundary := broken.restore machine.processor.checkpoint
    (machine.processor.resetOnResume = false →
      Dispatch.step machine = Dispatch.serviceBusFault machine.processor.cycles boundary) ∧
    Dispatch.checkInterrupts machine = (do
      let _ ← Dispatch.serviceBusFault boundary.processor.cycles
      return true : Dispatch β Bool) boundary ∧
    (∀ start outcome after, Dispatch.serviceBusFault start boundary = .ok outcome after →
      FaultAnswered machine.processor (fun _ => True) outcome after) ∧
    boundary.processor.checkpoint = machine.processor.checkpoint ∧
    boundary.processor.checkpoint ≠ middle.processor.checkpoint ∧
    boundary.processor.lines = broken.processor.lines ∧
    boundary.processor.tracePending = broken.processor.tracePending := by
  intro boundary
  have arbitrated : arbitrate machine = .error .failedCycle broken := entries.arbiterPasses few failed
  have ready : machine.processor.lines.hasBusError = false := by
    cases entries with
    | none => exact absurd some (Nat.lt_irrefl 0)
    | taken entry _ => exact (arbiterPass_moves entry).1
  have path := (acts_arbitrate.error arbitrated).path
  have same := path.restore reached.consistent
  have kept : boundary.processor.checkpoint = machine.processor.checkpoint := same.checkpoint
  refine ⟨fun settled => ?_, ?_, fun start outcome after served => ?_, kept, ?_, ?_, ?_⟩
  · rw [Dispatch.step_eq live, settled, Dispatch.boundaryStep_eq, arbitrated]
    simp only [ready, Bool.false_eq_true, if_false, boundary]
  · rw [Dispatch.checkInterrupts_eq live, arbitrated]
    simp only [Bind.bind, EStateM.bind, boundary]
    cases Dispatch.serviceBusFault (broken.restore machine.processor.checkpoint).processor.cycles
      (broken.restore machine.processor.checkpoint) <;> rfl
  · have everywhere : Persistent fun _ : β => True := ⟨fun _ _ => trivial, fun _ _ _ => trivial⟩
    have restored := (path.recoverable reached.consistent.recoverable).restore machine.processor.checkpoint
    exact Dispatch.serviceBusFault_answers everywhere trivial restored same served
  · rw [kept]
    exact (entries.checkpoint_ne some few).symm
  · simp only [boundary, Machine.restore, Machine.installStatus_processor]
    rfl
  · simp only [boundary, Machine.restore, Machine.installStatus_processor]
    rfl

/-- Power fail and the timer at once, and the timer's entry cannot read its vector. -/
def twoRequests : Machine (Recorded (Faulty FlatBoard)) where
  processor :=
    let idle := Processor.create { model := .vm2 }
    { idle with lines := (idle.lines.drive .aclo true).drive .event true }
  board := { board := { board := FlatBoard.load {} 0o24 [0o1000, 0], refused := [4] } }

theorem twoRequests_reachable : Reachable { model := .vm2 } twoRequests.processor := by
  let idle : Machine (Recorded (Faulty FlatBoard)) := ⟨.create { model := .vm2 }, twoRequests.board⟩
  let failing := idle.update fun processor => { processor with lines := processor.lines.drive .aclo true }
  have powerFail : (Operation.drive .aclo true).perform idle = .ok .done failing := rfl
  have timer : (Operation.drive .event true).perform failing = .ok .done twoRequests := rfl
  have first : Reachable { model := .vm2 } failing.processor := .perform .powerOn powerFail
  exact .perform first timer

def firstEntry : Machine (Recorded (Faulty FlatBoard)) := ended (arbiterPass twoRequests)

theorem nested_abort_undoes_powerFail :
    Entries 1 twoRequests firstEntry ∧
      ∃ outcome after, Dispatch.step twoRequests = .ok outcome after ∧
        FaultAnswered twoRequests.processor (fun _ => True) outcome after := by
  have entry : arbiterPass twoRequests = .ok true firstEntry := eq_ok_of_answer (by decide +kernel)
  have failed : arbiterPass firstEntry = .error .failedCycle _ := eq_error_of_failure (by decide +kernel)
  have stepped : Dispatch.step twoRequests = .ok (.faulted .busError 162) _ := eq_ok_of_answer (by decide +kernel)
  have entries : Entries 1 twoRequests firstEntry := .taken entry (.none firstEntry)
  obtain ⟨answer, _, answered, _⟩ :=
    nested_abort_undoes_entries twoRequests_reachable (.inl rfl) entries (by decide) (by decide) failed
  have settled := answer rfl
  rw [stepped] at settled
  exact ⟨entries, _, _, stepped, answered _ _ _ settled.symm⟩

/-- The trap is not entered from where the first entry led to, and its request is gone. -/
theorem nested_abort_forgets_powerFail :
    arbiterPass twoRequests = .ok true firstEntry ∧
      failure? (arbiterPass firstEntry) = some .failedCycle ∧
      ∃ after, Dispatch.step twoRequests = .ok (.faulted .busError 162) after ∧
        firstEntry.processor.pc = 0o1000 ∧ after.processor.sp ≠ firstEntry.processor.sp - 4 ∧
        after.processor.lines.isAsserted .aclo = false := by
  refine ⟨eq_ok_of_answer (by decide +kernel), by decide +kernel, _, eq_ok_of_answer (by decide +kernel), ?_⟩
  decide +kernel

end Pdp11
