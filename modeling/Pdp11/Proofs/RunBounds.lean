import Pdp11.Proofs.BudgetSlicing
import Pdp11.Proofs.BusErrorPrecedence

/-! Runs come to an end. Each step uses up some of the budget, so there are at most as many
steps as the budget has cycles, and only the last of them can go over it, by less than it costs.
Nothing ends a run before that but a vector that no trap can use. -/

namespace Pdp11

/-- An abort whose cause is at hand: a cycle failed, or the vector really is misaligned. -/
def Abort.Justified : Abort → Prop
  | .failedCycle => True
  | .misaligned stop => stop.vector &&& 3 ≠ 0

variable {β : Type}

/-- Whatever breaks this code off has a cause. -/
abbrev Justified {α : Type} (code : Microcode β α) : Prop :=
  Ensures (fun _ => True) code (fun _ _ => True) fun abort _ => abort.Justified

theorem Microcode.OnlyCyclesFail.justified {α : Type} {code : Microcode β α} (cycles : OnlyCyclesFail code) :
    Justified code := by
  intro machine _
  cases result : code machine with
  | ok value after => trivial
  | error abort after =>
    cases cycles machine after abort result
    trivial

/-- Code that is in step with itself has no way to fail but a cycle. -/
theorem InStep.onlyCyclesFail {α : Type} {post broken : Machine β → Machine β → Prop} {code : Microcode β α}
    (inStep : InStep (Beside fun _ => True) post broken code) : Microcode.OnlyCyclesFail code := by
  intro machine after abort failed
  have together := inStep machine machine ⟨rfl, trivial⟩
  rw [failed] at together
  cases together with
  | error ended => exact ended.1.1

theorem Microcode.OnlyCyclesFail.pure {α : Type} (value : α) : OnlyCyclesFail (pure value : Microcode β α) := by
  intro before after abort failed
  cases failed

variable [Board β]

namespace Microcode

theorem OnlyCyclesFail.trapped {cause : FaultCode} (decode : cause.faultClass = .decode) :
    OnlyCyclesFail (trapped cause : Microcode β Retirement) :=
  ((beside_coupling fun _ => True).trapped (beside_faultsAlike fun _ => True) decode).onlyCyclesFail

/-- The vectors of an instruction are fixed, and good. -/
theorem OnlyCyclesFail.execute (instruction : Instruction) :
    OnlyCyclesFail (execute instruction : Microcode β Retirement) := by
  by_cases type : instruction = .control .mfpt
  · subst type
    refine processor.bind fun processor => ?_
    cases processor.model.processorType? with
    | some kind => exact (modify _).bind fun _ => .pure _
    | none => exact trapped rfl
  by_cases start : instruction = .control .start
  · subst start
    refine processor.bind fun processor => ?_
    split
    · exact (modify _).bind fun _ => (modify _).bind fun _ => .pure _
    · exact trapped rfl
  · exact ((beside_coupling fun _ => True).execute (beside_faultsAlike fun _ => True) type start).onlyCyclesFail

theorem OnlyCyclesFail.halt : OnlyCyclesFail (halt : Microcode β Unit) := by
  refine processor.bind fun processor => ?_
  cases processor.model with
  | t11 =>
    exact OnlyCyclesFail.processor.bind fun _ => (push _).bind fun _ => (push _).bind fun _ =>
      (modify _).bind fun _ => modify _
  | vm2 => exact enterHaltMode

theorem OnlyCyclesFail.executeWord (word : Word) : OnlyCyclesFail (executeWord word : Microcode β Retirement) := by
  unfold Microcode.executeWord
  cases Instruction.ofWord? word with
  | none => exact (trapped rfl).bind fun _ => (modify _).bind fun _ => .pure _
  | some instruction =>
    have charged : OnlyCyclesFail (executeCharged instruction : Microcode β Retirement) := by
      refine (execute instruction).bind fun retirement => ?_
      cases retirement with
      | trapped | completed | waiting | halting => exact (modify _).bind fun _ => .pure _
    refine charged.bind fun retirement => ?_
    cases retirement with
    | waiting => exact (modify _).bind fun _ => .pure _
    | halting => exact halt.bind fun _ => .pure _
    | completed | trapped => exact .pure _

theorem OnlyCyclesFail.instructionCycle (start : UInt64) :
    OnlyCyclesFail (instructionCycle start : Microcode β Outcome) := by
  intro machine after abort failed
  rcases instructionCycle_error failed with unread | ⟨word, fetched, _, broken⟩
  · have fetching : OnlyCyclesFail (fetchInstruction : Microcode β Word) :=
      processor.bind fun _ => (modify _).bind fun _ => (modify _).bind fun _ =>
        ((beside_coupling fun _ => True).fetchWord).onlyCyclesFail
    exact fetching _ _ _ unread
  · exact executeWord word _ _ _ broken

/-- A misaligned vector stops the entry before its first cycle. -/
theorem enterTrap_misaligned {vector : Word} (misaligned : vector &&& 3 ≠ 0) (machine : Machine β) :
    enterTrap vector machine = .error (.misaligned ⟨vector⟩) machine := by
  unfold enterTrap
  rw [if_pos (by simpa using misaligned)]
  rfl

theorem enterTrap_justified (vector : Word) : Justified (enterTrap vector : Microcode β Unit) := by
  by_cases aligned : vector &&& 3 = 0
  · exact (OnlyCyclesFail.enterTrap aligned).justified
  · intro machine _
    rw [enterTrap_misaligned aligned]
    exact aligned

theorem takeInterrupt_justified (vector : Word) : Justified (takeInterrupt vector : Microcode β Unit) :=
  (enterTrap_justified vector).bind fun _ => ((OnlyCyclesFail.modify _).bind fun _ => .modify _).justified

theorem serve_justified (service : Service) : Justified (serve service : Microcode β Bool) := by
  have taken (value : Bool) : Justified (pure value : Microcode β Bool) := .pure fun _ _ => trivial
  have dropped (change : InputLines → InputLines) (value : Bool) :
      Justified (do updateLines change; return value : Microcode β Bool) :=
    ((OnlyCyclesFail.modify _).bind fun _ => .pure value).justified
  cases service with
  | trace => exact (takeInterrupt_justified _).bind fun _ => taken true
  | request number =>
    have asked : Justified (consult (Board.acknowledge (number.setWidth 8)) : Microcode β (Option Word)) :=
      fun _ _ => trivial
    exact asked.bind fun _ => (takeInterrupt_justified _).bind fun _ => taken true
  | haltPin => exact OnlyCyclesFail.enterHaltMode.justified.bind fun _ => taken true
  | powerFail | event => exact (takeInterrupt_justified _).bind fun _ => dropped _ true
  | chain =>
    have asked : Justified (consult Board.acknowledgeChain : Microcode β (Option Word)) := fun _ _ => trivial
    refine asked.bind fun answer => ?_
    cases answer.filter (· != 0) with
    | none => exact dropped _ false
    | some vector =>
      have left : Justified (leaveHaltMode : Microcode β Unit) :=
        (OnlyCyclesFail.processor.bind fun _ => .modify _).justified
      have cleared : Justified (updateLines (·.clearEvent) : Microcode β Unit) := (OnlyCyclesFail.modify _).justified
      exact left.bind fun _ => cleared.bind fun _ => (takeInterrupt_justified _).bind fun _ => taken true

theorem arbiterPass_justified : Justified (arbiterPass : Microcode β Bool) := by
  refine OnlyCyclesFail.processor.justified.bind fun processor => ?_
  cases processor.service? with
  | some service => exact serve_justified service
  | none => exact .pure fun _ _ => trivial

theorem arbiterPasses_justified (limit : Nat) : Justified (arbiterPasses limit : Microcode β Bool) := by
  induction limit with
  | zero => exact .pure fun _ _ => trivial
  | succ limit ih =>
    refine arbiterPass_justified.bind fun taken => ?_
    cases taken with
    | false => exact .pure fun _ _ => trivial
    | true => exact ih.bind fun _ => .pure fun _ _ => trivial

end Microcode

namespace Dispatch

variable {machine after : Machine β} {outcome : Outcome} {stop : MisalignedVector}

/-- Only the arbiter can stop a step. It stops at a vector that is none. -/
theorem boundaryStep_stops (stopped : boundaryStep machine = .error stop after) : stop.vector &&& 3 ≠ 0 := by
  have finishes (boundary : Machine β) : serviceBusFault machine.processor.cycles boundary ≠ .error stop after := by
    obtain ⟨_, _, served⟩ := serviceBusFault_finishes machine.processor.cycles boundary
    rw [served]
    exact nofun
  rw [boundaryStep_eq] at stopped
  simp only at stopped
  split at stopped
  · exact absurd stopped (finishes machine)
  cases arbitrated : Microcode.arbitrate machine with
  | error abort broken =>
    have justified : abort.Justified := (Microcode.arbiterPasses_justified _).error trivial arbitrated
    rw [arbitrated] at stopped
    cases abort with
    | failedCycle => exact absurd stopped (finishes _)
    | misaligned vector =>
      cases stopped
      exact justified
  | ok taken settled =>
    rw [arbitrated] at stopped
    cases taken with
    | true => cases stopped
    | false =>
      simp only at stopped
      split at stopped
      · cases stopped
      cases executed : Microcode.instructionCycle machine.processor.cycles settled with
      | ok outcome done =>
        rw [executed] at stopped
        cases stopped
      | error abort broken =>
        cases Microcode.OnlyCyclesFail.instructionCycle _ _ _ _ executed
        rw [executed] at stopped
        exact absurd stopped (finishes _)

theorem step_stops (stopped : step machine = .error stop after) : stop.vector &&& 3 ≠ 0 := by
  by_cases live : machine.processor.Live
  · rw [step_eq live] at stopped
    split at stopped
    · obtain ⟨fresh, reset, _⟩ := reset_fresh machine
      rw [bind_of_ok reset] at stopped
      exact boundaryStep_stops stopped
    · exact boundaryStep_stops stopped
  · obtain ⟨_, _, held⟩ := step_held live
    rw [held] at stopped
    cases stopped

theorem reset_cycles (done : reset machine = .ok () after) : after.processor.cycles = 0 := by
  cases reset_ended done with
  | strapped =>
    rw [Machine.strapped, Machine.update_processor, Processor.syncShadow_eq]
    rfl
  | loaded _ loaded =>
    obtain ⟨pc, status, board, _, rfl⟩ := Microcode.loadStartBlock_ok loaded
    rw [Machine.syncShadow_cycles, Machine.started, Machine.update_processor, Machine.installStatus_processor]
    rfl
  | @failed broken _ failed =>
    obtain ⟨_, lines, _, kept⟩ := Microcode.loadStartBlock_error failed
    have unread : broken.processor.cycles = 0 := by
      rw [kept]
      rfl
    rw [Machine.startBlockFailed, Machine.update_processor, Processor.syncShadow_eq]
    exact unread

/-- The cycles of a step are counted from the reset that it begins with, if it does. -/
theorem step_spent (done : step machine = .ok outcome after) :
    SpentOutcome (if machine.processor.resetOnResume then 0 else machine.processor.cycles) outcome
      after.processor.cycles := by
  cases step_ended done with
  | released _ due reset stepped =>
    rw [due, if_pos rfl, ← reset_cycles reset]
    exact boundaryStep_spent stepped
  | settled _ settled stepped =>
    rw [settled, if_neg Bool.false_ne_true]
    exact boundaryStep_spent stepped
  | held _ idle =>
    cases outcome with
    | retired | interrupted | faulted => cases idle
    | waiting | stopped | suspended => trivial

/-- How a run has gone on from what it had consumed: in how many steps, and to what end. -/
inductive Ran (budget : UInt32) : Nat → Machine β → Nat → EStateM.Result MisalignedVector (Machine β) Nat → Prop where
  | spent {consumed : Nat} {machine : Machine β} (spent : budget.toNat ≤ consumed) :
      Ran budget consumed machine 0 (.ok consumed machine)
  | idle {consumed : Nat} {machine after : Machine β} {outcome : Outcome} (within : consumed < budget.toNat)
      (stepped : step machine = .ok outcome after) (idle : outcome.cycles? = none) :
      Ran budget consumed machine 1 (.ok budget.toNat after)
  | stopped {consumed : Nat} {machine after : Machine β} {stop : MisalignedVector} (within : consumed < budget.toNat)
      (stopped : step machine = .error stop after) : Ran budget consumed machine 1 (.error stop after)
  | active {consumed cycles later : Nat} {machine after : Machine β} {outcome : Outcome}
      {result : EStateM.Result MisalignedVector (Machine β) Nat} (within : consumed < budget.toNat)
      (stepped : step machine = .ok outcome after) (told : outcome.cycles? = some cycles)
      (rest : Ran budget (min (consumed + max cycles 1) 0xFFFFFFFF) after later result) :
      Ran budget consumed machine (later + 1) result

/-- Each step that is not the last uses up at least one cycle. -/
theorem runFrom_ran (budget : UInt32) (consumed : Nat) (machine : Machine β) :
    ∃ steps, steps ≤ budget.toNat - consumed ∧ Ran budget consumed machine steps (runFrom budget consumed machine) := by
  induction consumed using runFrom.induct budget generalizing machine with
  | case1 consumed within ih =>
    cases stepped : step machine with
    | error stop after =>
      rw [runFrom_error within stepped]
      exact ⟨1, by omega, .stopped within stepped⟩
    | ok outcome after =>
      cases told : outcome.cycles? with
      | none =>
        rw [runFrom_idle within stepped told]
        exact ⟨1, by omega, .idle within stepped told⟩
      | some cycles =>
        obtain ⟨later, few, rest⟩ := ih cycles after
        have limited := budget.toNat_lt
        rw [runFrom_active within stepped told]
        exact ⟨later + 1, by omega, .active within stepped told rest⟩
  | case2 consumed spent =>
    rw [runFrom_spent spent]
    exact ⟨0, Nat.zero_le _, .spent (Nat.not_lt.mp spent)⟩

namespace Ran

variable {budget : UInt32} {consumed steps : Nat} {result : EStateM.Result MisalignedVector (Machine β) Nat}

/-- What a run consumes lies between its budget and what the last step may cost beyond it. -/
theorem consumes (ran : Ran budget consumed machine steps result)
    (within : consumed ≤ min (budget.toNat + 911) 0xFFFFFFFF) {total : Nat} (returned : result = .ok total after) :
    budget.toNat ≤ total ∧ total ≤ min (budget.toNat + 911) 0xFFFFFFFF := by
  have limited := budget.toNat_lt
  induction ran with
  | spent spent =>
    cases returned
    exact ⟨spent, within⟩
  | idle =>
    cases returned
    omega
  | stopped => cases returned
  | active inside stepped told _ ih =>
    have dear := step_cycles_le stepped told
    exact ih (by omega) returned

theorem stops (ran : Ran budget consumed machine steps result) (stopped : result = .error stop after) :
    stop.vector &&& 3 ≠ 0 := by
  induction ran with
  | spent | idle => cases stopped
  | stopped _ step =>
    cases stopped
    exact step_stops step
  | active _ _ _ _ ih => exact ih stopped

end Ran

/-- A run makes at most as many steps as its budget has cycles, and consumes what it was given
and less than one step more, if no board breaks it off with a bad vector. What a step says it
has cost is by how much it has moved the cycle counter. -/
theorem run_bounded (budget : UInt32) (machine : Machine β) :
    (∃ steps, steps ≤ budget.toNat ∧ Ran budget 0 machine steps (run budget machine)) ∧
    (match run budget machine with
      | .ok consumed _ =>
        if budget = 0 then consumed = 0
        else budget.toNat ≤ consumed ∧ consumed ≤ min (budget.toNat + 911) 0xFFFFFFFF
      | .error stop _ => stop.vector &&& 3 ≠ 0) ∧
    ∀ outcome after, step machine = .ok outcome after →
      SpentOutcome (if machine.processor.resetOnResume then 0 else machine.processor.cycles) outcome
        after.processor.cycles := by
  obtain ⟨steps, few, ran⟩ := runFrom_ran budget 0 machine
  refine ⟨⟨steps, few, ran⟩, ?_, fun outcome after done => step_spent done⟩
  by_cases none : budget = 0
  · subst none
    rw [run_spent (by decide)]
    rfl
  · cases ended : run budget machine with
    | ok consumed after => exact (if_neg none).mpr (ran.consumes (Nat.zero_le _) ended)
    | error stop after => exact ran.stops ended

end Dispatch

end Pdp11
