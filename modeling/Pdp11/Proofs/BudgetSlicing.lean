import Pdp11.Board.Flat
import Pdp11.Proofs.BoundaryInvariant
import Pdp11.Proofs.CycleCost

/-! Budgets can be cut up. A step does not know what is left of the budget, and where a step
does nothing, all later steps do nothing too, so it makes no difference whether a run is
broken off there and another one goes on. -/

namespace Pdp11

variable {β : Type} [Board β] {machine after : Machine β} {outcome : Outcome}

namespace Dispatch

/-- A fault that ends with nothing done has stopped the processor for good. -/
theorem serviceBusFault_idle {start : UInt64} (done : serviceBusFault start machine = .ok outcome after)
    (idle : outcome.cycles? = none) : outcome = .stopped .doubleFault ∧ after.processor.Latched := by
  cases serviceBusFault_ended done with
  | trapped => cases idle
  | again _ answered =>
    cases doubleFault_ended answered with
    | halted => cases idle
    | stopped | failed => exact ⟨rfl, rfl⟩

/-- A step that did nothing, made again, does the same nothing. -/
theorem step_again (done : step machine = .ok outcome after) (idle : outcome.cycles? = none) :
    step after = .ok outcome after := by
  have again {boundary : Machine β} (settled : boundary.processor.resetOnResume = false)
      (stepped : boundaryStep boundary = .ok outcome after) : step after = .ok outcome after := by
    have settled : after.processor.resetOnResume = false := (resetOnResume_steady false).boundaryStep.ok settled stepped
    cases boundaryStep_ended stepped with
    | pending _ served | arbiterFailed _ _ served | instructionFailed _ _ _ _ served =>
      obtain ⟨rfl, latched⟩ := serviceBusFault_idle served idle
      exact step_latched latched
    | interrupted => cases idle
    | waiting ready arbitrated waiting =>
      have quiet := Microcode.arbiterPass_idle_quiet (Microcode.arbitrate_idle arbitrated)
      have ready : after.processor.lines.hasBusError = false := boundaryStep_ready stepped
      rw [step_eq (.inr waiting), settled, boundaryStep_eq, Microcode.arbitrate_quiet quiet]
      simp only [ready, waiting, Bool.false_eq_true, if_false, if_true]
    | executed _ _ _ executed =>
      have retires := Microcode.instructionCycle_retires _ _ _ _ executed
      cases outcome with
      | retired | interrupted | faulted => cases idle
      | waiting | stopped | suspended => exact retires.elim
  cases step_ended done with
  -- The reset that was due is done by now, so `after` is reached from its boundary again.
  | @released fresh _ _ _ _ reset stepped =>
    obtain ⟨_, ended, fresh⟩ := reset_fresh machine
    rw [reset] at ended
    cases ended
    exact again fresh.resetOnResume stepped
  | settled _ settled stepped => exact again settled stepped
  | held => exact done

section

variable {budget : UInt32} {consumed : Nat}

theorem runFrom_spent (spent : ¬consumed < budget.toNat) : runFrom budget consumed machine = .ok consumed machine := by
  rw [runFrom, dif_neg spent]
  rfl

theorem runFrom_active {cycles : Nat} (within : consumed < budget.toNat) (done : step machine = .ok outcome after)
    (told : outcome.cycles? = some cycles) :
    runFrom budget consumed machine = runFrom budget (min (consumed + max cycles 1) 0xFFFFFFFF) after := by
  rw [runFrom, dif_pos within, bind_of_ok done, told]

/-- A step that does nothing takes all that is left. -/
theorem runFrom_idle (within : consumed < budget.toNat) (done : step machine = .ok outcome after)
    (idle : outcome.cycles? = none) : runFrom budget consumed machine = .ok budget.toNat after := by
  rw [runFrom, dif_pos within, bind_of_ok done, idle]
  rfl

theorem runFrom_error {stop : MisalignedVector} (within : consumed < budget.toNat)
    (failed : step machine = .error stop after) : runFrom budget consumed machine = .error stop after := by
  rw [runFrom, dif_pos within, bind_of_error failed]

/-- Where a step has done nothing, whatever budget there is goes unused. -/
theorem run_idle (done : step machine = .ok outcome after) (idle : outcome.cycles? = none) (rest : UInt32) :
    run rest after = .ok rest.toNat after := by
  by_cases any : 0 < rest.toNat
  · exact runFrom_idle any (step_again done idle) idle
  · rw [run_spent any, Nat.eq_zero_of_not_pos any]

end

theorem toNat_left (whole : UInt32) (consumed : Nat) :
    (UInt32.ofNat (whole.toNat - consumed)).toNat = whole.toNat - consumed :=
  UInt32.toNat_ofNat_of_lt' (Nat.lt_of_le_of_lt (Nat.sub_le _ _) whole.toNat_lt)

/-- What has been consumed already can be left out, on both sides of the comparison with
the budget, as long as the count stays short of its limit. -/
theorem runFrom_shift {whole rest : UInt32} {earlier : Nat} (sum : whole.toNat = earlier + rest.toNat)
    (small : whole.toNat + 912 ≤ UInt32.size) (consumed : Nat) (machine : Machine β) :
    (do return earlier + (← runFrom rest consumed) : Dispatch β Nat) machine =
      runFrom whole (earlier + consumed) machine := by
  induction consumed using runFrom.induct rest generalizing machine with
  | case1 consumed within ih =>
    have inside : earlier + consumed < whole.toNat := by omega
    cases stepped : step machine with
    | error stop after => rw [bind_of_error (runFrom_error within stepped), runFrom_error inside stepped]
    | ok outcome after =>
      cases told : outcome.cycles? with
      | none =>
        rw [bind_of_ok (runFrom_idle within stepped told), runFrom_idle inside stepped told, sum]
        rfl
      | some cycles =>
        have bound := step_cycles_le stepped told
        have short : min (earlier + consumed + max cycles 1) 0xFFFFFFFF =
            earlier + min (consumed + max cycles 1) 0xFFFFFFFF := by
          rw [UInt32.size] at small
          omega
        rw [bind_of_eq (runFrom_active within stepped told), runFrom_active inside stepped told, short]
        exact ih cycles after
  | case2 consumed spent =>
    have outside : ¬earlier + consumed < whole.toNat := by omega
    rw [bind_of_ok (runFrom_spent spent), runFrom_spent outside]
    rfl

/-- The first run ends where it has used up its budget, or has met a step that does nothing. -/
theorem runFrom_sliced {first second whole : UInt32} (sum : whole.toNat = first.toNat + second.toNat)
    (small : whole.toNat + 912 ≤ UInt32.size) (consumed : Nat) (machine : Machine β) :
    (do
      let begun ← runFrom first consumed
      return begun + (← run (UInt32.ofNat (whole.toNat - begun))) : Dispatch β Nat) machine =
        runFrom whole consumed machine := by
  induction consumed using runFrom.induct first generalizing machine with
  | case1 consumed within ih =>
    have inside : consumed < whole.toNat := by omega
    cases stepped : step machine with
    | error stop after => rw [bind_of_error (runFrom_error within stepped), runFrom_error inside stepped]
    | ok outcome after =>
      cases told : outcome.cycles? with
      | some cycles =>
        rw [bind_of_eq (runFrom_active within stepped told), runFrom_active inside stepped told]
        exact ih cycles after
      | none =>
        have left : UInt32.ofNat (whole.toNat - first.toNat) = second := by
          rw [sum, Nat.add_sub_cancel_left, UInt32.ofNat_toNat]
        rw [bind_of_ok (runFrom_idle within stepped told), left, bind_of_ok (run_idle stepped told second),
          runFrom_idle inside stepped told, sum]
        rfl
  | case2 consumed spent =>
    rw [bind_of_ok (runFrom_spent spent)]
    -- The last step of the first run may have cost more than both budgets together.
    by_cases inside : consumed ≤ whole.toNat
    · have rest : whole.toNat = consumed + (UInt32.ofNat (whole.toNat - consumed)).toNat := by
        rw [toNat_left]
        omega
      exact runFrom_shift rest small 0 machine
    · have outside : ¬consumed < whole.toNat := by omega
      have nothing : ¬0 < (UInt32.ofNat (whole.toNat - consumed)).toNat := by
        rw [toNat_left]
        omega
      rw [bind_of_ok (run_spent nothing), runFrom_spent outside]
      rfl

/-- A run may be broken off anywhere: what a first budget consumes and what the rest of both
budgets consumes is what one budget consumes, and the machine is the same behind it. -/
theorem run_sliced (first second : UInt32) (small : first.toNat + second.toNat + 912 ≤ UInt32.size)
    (machine : Machine β) :
    (do
      let begun ← run first
      return begun + (← run (UInt32.ofNat (first.toNat + second.toNat - begun))) : Dispatch β Nat) machine =
        run (first + second) machine := by
  have sum : (first + second).toNat = first.toNat + second.toNat := by
    rw [UInt32.size] at small
    rw [UInt32.toNat_add]
    omega
  have sliced := runFrom_sliced sum (by omega) 0 machine
  rw [sum] at sliced
  exact sliced

/-- A NOP and a WAIT after so many steps, with a request that no device of the chain has made. -/
def unanswered : Nat → Machine FlatBoard
  | 0 => ⟨{ Processor.create { model := .vm2 } with lines := ({} : InputLines).drive .virq true }, FlatBoard.load {} 0 [0o240, 1]⟩
  | count + 1 => ended (step (unanswered count))

theorem run_sliced_waiting : run 20 (unanswered 0) = .ok 20 (unanswered 3) ∧
    run 120 (unanswered 0) = .ok 120 (unanswered 3) ∧
    (do
      let begun ← run 20
      return begun + (← run (UInt32.ofNat (20 + 100 - begun))) : Dispatch FlatBoard Nat) (unanswered 0) =
        .ok 120 (unanswered 3) := by
  have retires : step (unanswered 0) = .ok (.retired 12) (unanswered 1) := eq_ok_of_answer (by decide +kernel)
  have waits : step (unanswered 1) = .ok (.retired 6) (unanswered 2) := eq_ok_of_answer (by decide +kernel)
  have idles : step (unanswered 2) = .ok .waiting (unanswered 3) := eq_ok_of_answer (by decide +kernel)
  have slept (budget : UInt32) (enough : 18 < budget.toNat) :
      run budget (unanswered 0) = .ok budget.toNat (unanswered 3) := by
    rw [run, runFrom_active (by omega) retires rfl, runFrom_active (Nat.lt_trans (by decide) enough) waits rfl]
    exact runFrom_idle enough idles rfl
  refine ⟨slept 20 (by decide), slept 120 (by decide), ?_⟩
  exact (run_sliced 20 100 (by decide) (unanswered 0)).trans (slept 120 (by decide))

end Dispatch

end Pdp11
