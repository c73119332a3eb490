import Pdp11.Proofs.BusErrorPrecedence

/-! A check of interrupts and the opening of a step. They are two programs that share
the arbiter and what becomes of its failures, so a check leaves what a step would have
left. Behind a check that came to an end by itself there is nothing more to take. -/

namespace Pdp11

open Microcode

/-- What a step answers when it has not come as far as an instruction. -/
inductive Outcome.Arbitrated : Outcome → Prop where
  | interrupted (cycles : Nat) : Arbitrated (.interrupted cycles)
  | busError (cycles : Nat) : Arbitrated (.faulted .busError cycles)
  | doubleFault (cycles : Nat) : Arbitrated (.faulted .doubleFault cycles)
  | stopped : Arbitrated (.stopped .doubleFault)

/-- Which service comes next is not a matter of the shadow. -/
@[simp] theorem Processor.service?_syncShadow (processor : Processor) : processor.syncShadow.service? = processor.service? := by
  rw [syncShadow_eq]
  rfl

variable {β : Type} [Board β] {machine after : Machine β}

namespace Dispatch

/-- The only place where a step takes an instruction: no bus error was pending, no request
has been taken, and the processor does not wait. -/
def ReachesInstruction (machine : Machine β) : Prop :=
  machine.processor.lines.hasBusError = false ∧
    ∃ settled, arbitrate machine = .ok false settled ∧ settled.processor.runState ≠ .waiting

/-- The start of an operation counts only for the cycles that it answers. -/
theorem doubleFault_from {first : UInt64} {outcome : Outcome} (second : UInt64)
    (done : doubleFault first machine = .ok outcome after) :
    ∃ answered, answered.Arbitrated ∧ doubleFault second machine = .ok answered after := by
  rw [doubleFault_eq]
  cases doubleFault_ended done with
  | stopped without =>
    rw [without]
    exact ⟨_, .stopped, rfl⟩
  | halted has entered =>
    simp only [has, entered]
    exact ⟨_, .doubleFault _, rfl⟩
  | failed has failed =>
    simp only [has, failed]
    exact ⟨_, .stopped, rfl⟩

theorem serviceBusFault_from {first : UInt64} {outcome : Outcome} (second : UInt64)
    (done : serviceBusFault first machine = .ok outcome after) :
    ∃ answered, answered.Arbitrated ∧ serviceBusFault second machine = .ok answered after := by
  rw [serviceBusFault_eq]
  cases serviceBusFault_ended done with
  | trapped entered =>
    simp only [entered]
    exact ⟨_, .busError _, rfl⟩
  | again failed done =>
    simp only [failed]
    exact doubleFault_from second done

theorem step_unowed (live : machine.processor.Live) (settled : machine.processor.resetOnResume = false) :
    step machine = boundaryStep machine := by
  rw [step_eq live, if_neg (Bool.eq_false_iff.mp settled)]

theorem step_taken (settled : machine.processor.resetOnResume = false)
    (ready : machine.processor.lines.hasBusError = false) (taken : checkInterrupts machine = .ok true after) :
    ∃ outcome, outcome.Arbitrated ∧ step machine = .ok outcome after := by
  cases checkInterrupts_ended taken with
  | taken live arbitrated =>
    rw [step_unowed live settled, boundaryStep_eq]
    simp only [ready, arbitrated, Bool.false_eq_true, if_false]
    exact ⟨_, .interrupted _, rfl⟩
  | failed live failed served =>
    rw [step_unowed live settled, boundaryStep_eq]
    simp only [ready, failed, Bool.false_eq_true, if_false]
    exact serviceBusFault_from _ served

theorem not_reachesInstruction (taken : checkInterrupts machine = .ok true after) : ¬ReachesInstruction machine := by
  rintro ⟨_, settled, idle, _⟩
  cases checkInterrupts_ended taken with
  | taken _ arbitrated =>
    rw [idle] at arbitrated
    cases arbitrated
  | failed _ failed _ =>
    rw [idle] at failed
    cases failed

/-- A pass in vain is not repeated by the step that follows: it has dropped the request of
the chain, and a second arbitration finds nothing. -/
theorem step_untaken (settled : machine.processor.resetOnResume = false)
    (ready : machine.processor.lines.hasBusError = false) (untaken : checkInterrupts machine = .ok false after) :
    step machine = step after := by
  cases checkInterrupts_ended untaken with
  | held => rfl
  | quiet live arbitrated =>
    have idle := arbitrate_idle arbitrated
    have again : arbitrate after = .ok false after := arbitrate_quiet (arbiterPass_idle_quiet idle)
    obtain ⟨state, reset, errors, boundary, start⟩ : after.processor.runState = machine.processor.runState ∧
        after.processor.resetOnResume = machine.processor.resetOnResume ∧
        after.processor.lines.hasBusError = machine.processor.lines.hasBusError ∧
        after.processor.checkpoint = machine.processor.checkpoint ∧ after.processor.cycles = machine.processor.cycles := by
      rcases arbiterPass_idle_cases idle with ⟨_, rfl⟩ | ⟨_, rfl⟩ <;> exact ⟨rfl, rfl, rfl, rfl, rfl⟩
    have alive : after.processor.Live := by
      rw [Processor.Live, state]
      exact live
    rw [step_unowed live settled, step_unowed alive (reset.trans settled), boundaryStep_eq, boundaryStep_eq]
    simp only [ready, errors, arbitrated, again, boundary, start, Bool.false_eq_true, if_false]

theorem step_misaligned {stop : MisalignedVector} (settled : machine.processor.resetOnResume = false)
    (ready : machine.processor.lines.hasBusError = false) (failed : checkInterrupts machine = .error stop after) :
    step machine = .error stop after := by
  by_cases live : machine.processor.Live
  · rw [checkInterrupts_eq live] at failed
    cases arbitrated : arbitrate machine with
    | ok taken settled =>
      rw [arbitrated] at failed
      cases taken <;> cases failed
    | error abort broken =>
      rw [arbitrated] at failed
      cases abort with
      | misaligned vector =>
        cases failed
        rw [step_unowed live settled, boundaryStep_eq]
        simp only [ready, arbitrated, Bool.false_eq_true, if_false]
      | failedCycle =>
        -- the trap through a fixed vector is always aligned
        obtain ⟨_, _, served⟩ := serviceBusFault_finishes
          (broken.restore machine.processor.checkpoint).processor.cycles (broken.restore machine.processor.checkpoint)
        simp only [served] at failed
        cases failed
  · rw [checkInterrupts_held live] at failed
    cases failed

/-- A check of interrupts is the opening of a step. Where it takes something, the step
ends there with the same machine; where it takes nothing, the step goes on from what the
check has left; and a vector that no trap can use stops both. -/
theorem checkInterrupts_opens_step (machine : Machine β) (settled : machine.processor.resetOnResume = false)
    (ready : machine.processor.lines.hasBusError = false) :
    (∀ after, checkInterrupts machine = .ok true after →
      ¬ReachesInstruction machine ∧ ∃ outcome, outcome.Arbitrated ∧ step machine = .ok outcome after) ∧
    (∀ after, checkInterrupts machine = .ok false after → step machine = step after) ∧
    ∀ stop broken, checkInterrupts machine = .error stop broken → step machine = .error stop broken :=
  ⟨fun _ taken => ⟨not_reachesInstruction taken, step_taken settled ready taken⟩,
    fun _ untaken => step_untaken settled ready untaken, fun _ _ failed => step_misaligned settled ready failed⟩

/-- The timer's entry fails behind the one for power fail. -/
theorem checkInterrupts_opens_step_nested :
    ∃ after, checkInterrupts twoRequests = .ok true after ∧
      ¬ReachesInstruction twoRequests ∧ ∃ outcome, outcome.Arbitrated ∧ step twoRequests = .ok outcome after := by
  have taken : checkInterrupts twoRequests = .ok true _ := eq_ok_of_answer (by decide +kernel)
  obtain ⟨ends, _, _⟩ := checkInterrupts_opens_step twoRequests rfl (by decide)
  exact ⟨_, taken, ends _ taken⟩

end Dispatch

/-- There are no more entries than those behind which a pass takes nothing. -/
theorem Entries.ends {count more : Nat} {middle further : Machine β} (entries : Entries count machine middle)
    (idle : answer? (arbiterPass middle) ≠ some true) (beyond : count < more) : ¬Entries more machine further := by
  induction entries generalizing more with
  | none machine =>
    intro longer
    cases longer with
    | none => exact absurd beyond (Nat.lt_irrefl 0)
    | taken entry _ =>
      rw [entry] at idle
      exact idle rfl
  | taken entry _ ih =>
    intro longer
    cases longer with
    | none => exact absurd beyond (Nat.not_lt_zero _)
    | taken again rest =>
      rw [entry] at again
      cases again
      exact ih idle (Nat.lt_of_succ_lt_succ beyond) rest

/-- Arbitration has ended by itself: no cycle of it failed, and the limit on entries was
not reached. -/
structure RanOut (machine : Machine β) : Prop where
  unbroken : failure? (arbitrate machine) = none
  few : ∀ middle, ¬Entries maxNestedTraps machine middle

theorem Microcode.arbiterPasses_settled {limit : Nat} {taken : Bool} (few : ∀ middle, ¬Entries limit machine middle)
    (done : arbiterPasses limit machine = .ok taken after) : after.processor.service? = none := by
  induction limit generalizing machine taken with
  | zero => exact absurd (.none machine) (few machine)
  | succ limit ih =>
    obtain ⟨entered, next, pass, done⟩ := bind_eq_ok done
    cases entered with
    | true =>
      obtain ⟨_, _, passes, done⟩ := bind_eq_ok done
      cases done
      exact ih (fun middle entries => few middle (.taken pass entries)) passes
    | false =>
      cases done
      exact arbiterPass_idle_quiet pass

namespace Dispatch

theorem checkInterrupts_quiet (quiet : machine.processor.service? = none) :
    checkInterrupts machine = .ok false machine := by
  by_cases live : machine.processor.Live
  · rw [checkInterrupts_eq live, arbitrate_quiet quiet]
  · exact checkInterrupts_held live

/-- Whatever a check has done, nothing is left for arbitration behind it, unless a cycle
failed or the limit on entries cut it short. -/
theorem checkInterrupts_settled {taken : Bool} (done : checkInterrupts machine = .ok taken after)
    (ranOut : taken = true → RanOut machine) : ¬after.processor.Live ∨ after.processor.service? = none := by
  cases checkInterrupts_ended done with
  | held held => exact .inl held
  | quiet _ arbitrated => exact .inr (arbiterPass_idle_quiet (arbitrate_idle arbitrated))
  | taken _ arbitrated =>
    refine .inr ?_
    rw [Machine.update_processor, Processor.service?_syncShadow]
    exact arbiterPasses_settled (ranOut rfl).few arbitrated
  | failed _ failed _ =>
    have unbroken := (ranOut rfl).unbroken
    rw [failed] at unbroken
    cases unbroken

/-- Arbitration comes to rest. A second check takes nothing and changes nothing, and asks
nothing of the board: a record put in front of it stays as it is. -/
theorem checkInterrupts_rests {taken : Bool} (done : checkInterrupts machine = .ok taken after)
    (ranOut : taken = true → RanOut machine) :
    checkInterrupts after = .ok false after ∧
      ∀ recorder : Recorded β, checkInterrupts ⟨after.processor, recorder⟩ = .ok false ⟨after.processor, recorder⟩ := by
  rcases checkInterrupts_settled done ranOut with held | quiet
  · exact ⟨checkInterrupts_held held, fun recorder => checkInterrupts_held held⟩
  · exact ⟨checkInterrupts_quiet quiet, fun recorder => checkInterrupts_quiet quiet⟩

end Dispatch

/-- The timer, and behind it a device that has given up its request. -/
def timerAndWithdrawn : Machine FlatBoard where
  processor :=
    let idle := Processor.create { model := .vm2 }
    { idle with lines := (idle.lines.drive .event true).drive .virq true }
  board := { FlatBoard.load {} 0o100 [0o1000, 0] with sources := [⟨none, true, .zero⟩] }

theorem checkInterrupts_rests_withdrawn :
    ∃ after, Dispatch.checkInterrupts timerAndWithdrawn = .ok true after ∧ RanOut timerAndWithdrawn ∧
      Dispatch.checkInterrupts after = .ok false after := by
  have done : Dispatch.checkInterrupts timerAndWithdrawn = .ok true _ := eq_ok_of_answer (by decide +kernel)
  have entry : arbiterPass timerAndWithdrawn = .ok true _ := eq_ok_of_answer (by decide +kernel)
  have entries : Entries 1 timerAndWithdrawn _ := .taken entry (.none _)
  have ranOut : RanOut timerAndWithdrawn :=
    ⟨by decide +kernel, fun _ => entries.ends (by decide +kernel) (by decide)⟩
  exact ⟨_, done, ranOut, (Dispatch.checkInterrupts_rests done fun _ => ranOut).1⟩

end Pdp11
