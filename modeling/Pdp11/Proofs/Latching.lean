import Pdp11.Proofs.ScheduledReset
import Pdp11.Proofs.Script

/-! Where in an operation the processor latches a double fault, and what is left of
the operation then. -/

namespace Pdp11

namespace Script

variable {α β : Type}

/-- The script, from the first machine, comes to latch with the second one. -/
inductive Latches : Script β α → Machine β → Machine β → Prop where
  | now {γ : Type} {code : Dispatch β γ} {next : γ → Script β α} {machine after : Machine β} {answer : γ}
      (done : code machine = .ok answer after) (free : ¬machine.processor.Latched)
      (latched : after.processor.Latched) : Latches (act code next) machine after
  | later {γ : Type} {code : Dispatch β γ} {next : γ → Script β α} {machine after moment : Machine β} {answer : γ}
      (done : code machine = .ok answer after) (rest : Latches (next answer) after moment) :
      Latches (act code next) machine moment

variable {γ : Type}

theorem Latches.latched {script : Script β α} {machine moment : Machine β}
    (latches : script.Latches machine moment) : moment.processor.Latched := by
  induction latches with
  | now _ _ latched => exact latched
  | later _ _ ih => exact ih

theorem latches_part {code : Dispatch β γ} {next : γ → Script β α} {machine moment : Machine β}
    (latches : (part code >>= next).Latches machine moment) :
    ∃ answer after, code machine = .ok answer after ∧
      (¬machine.processor.Latched ∧ after.processor.Latched ∧ moment = after ∨ (next answer).Latches after moment) := by
  change (act code next).Latches machine moment at latches
  cases latches with
  | now done free latched => exact ⟨_, _, done, .inl ⟨free, latched, rfl⟩⟩
  | later done rest => exact ⟨_, _, done, .inr rest⟩

theorem latches_bind {script : Script β α} {rest : α → Script β γ} {machine moment : Machine β}
    (latches : (script >>= rest).Latches machine moment) :
    script.Latches machine moment ∨
      ∃ value after, script.perform machine = .ok value after ∧ (rest value).Latches after moment := by
  induction script generalizing machine with
  | done value => exact .inr ⟨value, machine, rfl, latches⟩
  | act code next ih =>
    cases latches with
    | now done free latched => exact .inl (.now done free latched)
    | later done remaining =>
      rcases ih _ remaining with first | ⟨value, after, finished, later⟩
      · exact .inl (.later done first)
      · refine .inr ⟨value, after, ?_, later⟩
        simp only [perform, Bind.bind, EStateM.bind, done]
        exact finished

theorem Latches.bind {script : Script β α} {machine moment : Machine β} (latches : script.Latches machine moment)
    (rest : α → Script β γ) : (script >>= rest).Latches machine moment := by
  induction latches with
  | now done free latched => exact .now done free latched
  | later done _ ih => exact .later done ih

theorem Latches.after {code : Dispatch β γ} {next : γ → Script β α} {machine middle moment : Machine β} {answer : γ}
    (done : code machine = .ok answer middle) (latches : (next answer).Latches middle moment) :
    (part code >>= next).Latches machine moment := .later done latches

/-- A script that ends latched has latched on its way, unless it began so. -/
theorem exists_latches {script : Script β α} {machine after : Machine β} {value : α}
    (free : ¬machine.processor.Latched) (finished : script.perform machine = .ok value after)
    (latched : after.processor.Latched) : ∃ moment, script.Latches machine moment := by
  induction script generalizing machine with
  | done answer =>
    cases finished
    exact absurd latched free
  | act code next ih =>
    obtain ⟨answer, middle, done, finished⟩ := bind_eq_ok finished
    by_cases already : middle.processor.Latched
    · exact ⟨middle, .now done free already⟩
    · obtain ⟨moment, rest⟩ := ih answer already finished
      exact ⟨moment, .later done rest⟩

def CannotLatch (code : Dispatch β α) (machine : Machine β) : Prop :=
  ∀ answer after, code machine = .ok answer after → after.processor.Latched → machine.processor.Latched

namespace CannotLatch

variable {machine : Machine β}

theorem processor : CannotLatch Dispatch.processor machine := by
  intro answer after done latched
  cases done
  exact latched

theorem modify {change : Machine β → Machine β}
    (kept : (change machine).processor.Latched → machine.processor.Latched) : CannotLatch (modify change) machine := by
  intro answer after done latched
  cases done
  exact kept latched

theorem update {change : Processor → Processor}
    (kept : (change machine.processor).Latched → machine.processor.Latched) :
    CannotLatch (Dispatch.update change) machine := modify kept

theorem syncShadow : CannotLatch Dispatch.syncShadow machine :=
  update fun latched => by rwa [Processor.Latched, Processor.syncShadow_eq] at latched

theorem note (code : FaultCode) (pc : Word) (event : TraceEvent) :
    CannotLatch (Dispatch.update fun processor => (processor.recordFault code pc).emit event) machine :=
  update fun latched => by rwa [Processor.Latched, Processor.emit_eq] at latched

theorem elapsed (start : UInt64) : CannotLatch (Dispatch.elapsed start) machine := by
  intro answer after done latched
  cases done
  exact latched

variable [Board β]

theorem restore (boundary : Checkpoint) : CannotLatch (Dispatch.restore boundary) machine :=
  modify fun latched => by rwa [Processor.Latched, Machine.restore, Machine.installStatus_processor] at latched

theorem attempt {code : Microcode β α} (acts : ActsFrom .any machine code) :
    CannotLatch (Dispatch.attempt code) machine := by
  intro answer after done latched
  have ended := acts machine rfl
  unfold Dispatch.attempt at done
  cases result : code machine with
  | ok value reached =>
    rw [result] at ended done
    cases done
    exact (Actions.sameSetting ended).latched _ latched
  | error abort broken =>
    rw [result] at ended done
    cases abort with
    | misaligned stop => cases done
    | failedCycle =>
      cases done
      exact ended.path.sameSetting.latched _ latched

theorem loadStartBlock : CannotLatch (Dispatch.attempt Microcode.loadStartBlock) machine := by
  intro answer after done latched
  unfold Dispatch.attempt at done
  cases result : Microcode.loadStartBlock machine with
  | ok value reached =>
    obtain ⟨pc, status, board, _, rfl⟩ := Microcode.loadStartBlock_ok result
    rw [result] at done
    cases done
    rwa [Processor.Latched, Machine.started_runState] at latched
  | error abort broken =>
    obtain ⟨rfl, lines, _, kept⟩ := Microcode.loadStartBlock_error result
    rw [result] at done
    cases done
    rwa [Processor.Latched, kept] at latched

end CannotLatch

/-- Where the script latches it is over, with an answer like this. -/
def EndsLatched (good : α → Prop) (script : Script β α) (machine : Machine β) : Prop :=
  ∀ moment, script.Latches machine moment → ∃ value, good value ∧ script.perform machine = .ok value moment

namespace EndsLatched

variable {good : α → Prop} {machine : Machine β}

theorem finished (value : α) : EndsLatched good (pure value : Script β α) machine := by
  intro moment latches
  cases latches

theorem after {code : Dispatch β γ} {next : γ → Script β α} (free : CannotLatch code machine)
    (rest : ∀ answer after, code machine = .ok answer after → EndsLatched good (next answer) after) :
    EndsLatched good (part code >>= next) machine := by
  intro moment latches
  obtain ⟨answer, after, done, ⟨unlatched, latched, _⟩ | remaining⟩ := latches_part latches
  · exact absurd (free answer after done latched) unlatched
  · obtain ⟨value, holds, finished⟩ := rest answer after done moment remaining
    refine ⟨value, holds, ?_⟩
    rw [perform_bind, perform_part, bind_of_ok done]
    exact finished

theorem last {code : Dispatch β γ} {value : γ → α} (holds : ∀ answer, good (value answer)) :
    EndsLatched good (part code >>= fun answer => pure (value answer)) machine := by
  intro moment latches
  obtain ⟨answer, after, done, ⟨_, _, rfl⟩ | remaining⟩ := latches_part latches
  · refine ⟨value answer, holds answer, ?_⟩
    rw [perform_bind, perform_part, bind_of_ok done]
    rfl
  · cases remaining

/-- If the first script ends latched, what follows must be over as well. -/
theorem bind {known : γ → Prop} {script : Script β γ} {next : γ → Script β α}
    (first : EndsLatched known script machine)
    (settled : ∀ answer moment, known answer → script.perform machine = .ok answer moment → moment.processor.Latched →
      ∃ value, good value ∧ (next answer).perform moment = .ok value moment)
    (rest : ∀ answer after, script.perform machine = .ok answer after → EndsLatched good (next answer) after) :
    EndsLatched good (script >>= next) machine := by
  intro moment latches
  have combined {answer : γ} {middle : Machine β} (done : script.perform machine = .ok answer middle) :
      (script >>= next).perform machine = (next answer).perform middle := by
    rw [perform_bind, bind_of_ok done]
  rcases latches_bind latches with begun | ⟨answer, after, done, remaining⟩
  · obtain ⟨answer, holds, done⟩ := first moment begun
    rw [combined done]
    exact settled answer moment holds done begun.latched
  · rw [combined done]
    exact rest answer after done moment remaining

theorem map {known : γ → Prop} {script : Script β γ} {value : γ → α} (first : EndsLatched known script machine)
    (holds : ∀ answer, known answer → good (value answer)) :
    EndsLatched good (script >>= fun answer => pure (value answer)) machine :=
  first.bind (fun answer _ kind _ _ => ⟨value answer, holds answer kind, rfl⟩) fun _ _ _ => finished _

theorem alone {code : Dispatch β α} (holds : ∀ answer, good answer) : EndsLatched good (part code) machine :=
  last holds

end EndsLatched

abbrev NeverLatches (script : Script β α) (machine : Machine β) : Prop := EndsLatched (fun _ => False) script machine

theorem NeverLatches.bind {good : α → Prop} {script : Script β γ} {next : γ → Script β α} {machine : Machine β}
    (never : NeverLatches script machine)
    (rest : ∀ answer after, script.perform machine = .ok answer after → EndsLatched good (next answer) after) :
    EndsLatched good (script >>= next) machine :=
  EndsLatched.bind never (fun _ _ none _ _ => none.elim) rest

variable [Board β] (machine : Machine β)

open EndsLatched Microcode

theorem resetVm2_endsLatched : EndsLatched (fun _ => True) (resetVm2 : Script β Unit) machine := by
  refine .after (.modify id) fun _ _ _ => .after (.modify id) fun _ _ _ => .after (.modify id) fun _ _ _ => ?_
  refine .after .loadStartBlock fun loaded _ _ => ?_
  cases loaded with
  | some done => exact .finished _
  | none => exact .after (.update id) fun _ _ _ => .alone fun _ => trivial

theorem reset_endsLatched : EndsLatched (fun _ => True) (reset : Script β Unit) machine := by
  refine .after (.update fun latched => by cases latched) fun _ _ cleared => .after .processor fun _ _ read => ?_
  cases cleared
  cases read
  cases (machine.update (·.cleared)).processor.model with
  | t11 => exact .after (.update fun latched => by cases latched) fun _ _ _ => .alone fun _ => trivial
  | vm2 =>
    refine .bind (resetVm2_endsLatched _) (fun _ moment _ done latched => ?_) fun _ _ _ => .alone fun _ => trivial
    rw [perform_resetVm2] at done
    have halted := Dispatch.resetVm2_haltMode done latched
    refine ⟨(), trivial, ?_⟩
    have held : moment.processor.syncShadow = moment.processor := by
      unfold Processor.syncShadow
      rw [if_pos halted]
    rw [perform_part]
    change EStateM.Result.ok () (moment.update (·.syncShadow)) = .ok () moment
    rw [Machine.update, held]

theorem recoverDoubleFault_neverLatches : NeverLatches (recoverDoubleFault : Script β Bool) machine := by
  refine .after .processor fun _ _ read => ?_
  cases read
  cases has : machine.processor.model with
  | t11 => exact .finished _
  | vm2 =>
    refine .after .processor fun _ _ read => ?_
    cases read
    refine .after (.attempt (acts_enterHaltMode has (Scope.any_halts _))) fun entered _ _ => ?_
    cases entered with
    | some done => exact .finished _
    | none => exact .after (.restore _) fun _ _ _ => .after (.update id) fun _ _ _ => .finished _

theorem doubleFault_endsLatched (start : UInt64) :
    EndsLatched (·.cycles? = none) (doubleFault start : Script β Outcome) machine := by
  refine .after .processor fun _ _ _ => .after (.note _ _ _) fun _ noted _ => ?_
  refine (recoverDoubleFault_neverLatches noted).bind fun recovered _ _ => ?_
  cases recovered with
  | true => exact .after .syncShadow fun _ _ _ => .after (.elapsed start) fun _ _ _ => .finished _
  | false => exact .last fun _ => rfl

theorem serviceBusFault_endsLatched (start : UInt64) :
    EndsLatched (·.cycles? = none) (serviceBusFault start : Script β Outcome) machine := by
  refine .after .processor fun _ _ _ => .after (.note _ _ _) fun _ _ _ => .after (.update id) fun _ _ _ => ?_
  refine .after .processor fun _ _ _ => .after (.attempt (acts_enterTrap _ _)) fun entered _ _ => ?_
  cases entered with
  | some done =>
    exact .after (.update id) fun _ _ _ => .after .syncShadow fun _ _ _ =>
      .after (.elapsed start) fun _ _ _ => .finished _
  | none => exact .after (.restore _) fun _ _ _ => .after (.update id) fun _ _ _ => doubleFault_endsLatched _ start

theorem boundaryStep_endsLatched : EndsLatched (·.cycles? = none) (boundaryStep : Script β Outcome) machine := by
  refine .after .processor fun before _ _ => ?_
  by_cases pending : before.lines.hasBusError
  · simp only [pending, if_true]
    exact serviceBusFault_endsLatched _ _
  simp only [pending, Bool.false_eq_true, if_false]
  refine .after (.attempt (acts_arbitrate _)) fun arbitrated _ _ => ?_
  match arbitrated with
  | none => exact .after (.restore _) fun _ _ _ => serviceBusFault_endsLatched _ _
  | some true => exact .after .syncShadow fun _ _ _ => .after (.elapsed _) fun _ _ _ => .finished _
  | some false =>
    refine .after .processor fun settled _ _ => ?_
    by_cases idle : settled.runState = .waiting
    · simp only [idle, if_true]
      exact .finished _
    simp only [idle, if_false]
    refine .after (.attempt (acts_instructionCycle _ _)) fun executed _ _ => ?_
    cases executed with
    | some outcome => exact .finished _
    | none => exact .after (.restore _) fun _ _ _ => serviceBusFault_endsLatched _ _

theorem checkInterrupts_endsLatched : EndsLatched (fun _ => True) (checkInterrupts : Script β Bool) machine := by
  refine .after .processor fun before _ _ => ?_
  cases before.runState with
  | suspended | latched cause => exact .finished _
  | running | waiting =>
    refine .after (.attempt (acts_arbitrate _)) fun arbitrated _ _ => ?_
    match arbitrated with
    | some true => exact .after .syncShadow fun _ _ _ => .finished _
    | some false => exact .finished _
    | none =>
      exact .after (.restore _) fun _ _ _ => .after .processor fun _ _ _ =>
        (serviceBusFault_endsLatched _ _).map fun _ _ => trivial

variable {machine}

/-- A step latches last, unless it began with a reset that did. -/
theorem step_endsLatched (sound : machine.processor.Released → ¬machine.ResetLatches) :
    EndsLatched (·.cycles? = none) (step : Script β Outcome) machine := by
  refine .after .processor fun before _ read => ?_
  cases read
  have answered (live : machine.processor.Live) : EndsLatched (·.cycles? = none)
      (if machine.processor.resetOnResume then (do reset; boundaryStep : Script β Outcome) else boundaryStep) machine := by
    by_cases due : machine.processor.resetOnResume
    · simp only [due, if_true]
      refine .bind (reset_endsLatched machine) (fun _ moment _ done latched => ?_) fun _ _ _ =>
        boundaryStep_endsLatched _
      rw [perform_reset] at done
      exact absurd ⟨moment, done, latched⟩ (sound ⟨live, due⟩)
    · simp only [due, Bool.false_eq_true, if_false]
      exact boundaryStep_endsLatched machine
  cases state : machine.processor.runState with
  | suspended | latched cause => exact .finished _
  | running => exact answered (.inl state)
  | waiting => exact answered (.inr state)

theorem runFrom_endsLatched {budget : UInt32} {consumed : Nat}
    (sound : consumed < budget.toNat → machine.processor.Released → ¬machine.ResetLatches) :
    EndsLatched (fun _ => True) (runFrom budget consumed : Script β Nat) machine := by
  induction consumed using Dispatch.runFrom.induct budget generalizing machine with
  | case1 consumed within ih =>
    rw [runFrom, dif_pos within]
    refine .bind (step_endsLatched (sound within)) (fun outcome _ idle _ _ => ?_) fun outcome after done => ?_
    · rw [idle]
      exact ⟨_, trivial, rfl⟩
    rw [perform_step] at done
    cases active : outcome.cycles? with
    | none => exact .finished _
    | some cycles =>
      -- only the first step can owe a reset
      refine ih cycles fun _ released => ?_
      have settled := Dispatch.step_settled done active
      rw [released.due] at settled
      cases settled
  | case2 consumed spent =>
    rw [runFrom, dif_neg spent]
    exact .finished _

theorem reset_latches {after : Machine β} (free : ¬machine.processor.Latched) (done : Dispatch.reset machine = .ok () after)
    (latched : after.processor.Latched) : (reset : Script β Unit).Latches machine after := by
  have finished := done
  rw [← perform_reset] at finished
  obtain ⟨moment, latches⟩ := exists_latches free finished latched
  obtain ⟨_, _, ended⟩ := reset_endsLatched machine moment latches
  rw [finished] at ended
  cases ended
  exact latches

theorem step_latches {moment : Machine β} (released : machine.processor.Released)
    (latches : (reset : Script β Unit).Latches machine moment) : (step : Script β Outcome).Latches machine moment := by
  have first : (do reset; boundaryStep : Script β Outcome).Latches machine moment := latches.bind _
  have read : Dispatch.processor machine = .ok machine.processor machine := rfl
  have owed : (if machine.processor.resetOnResume then (do reset; boundaryStep : Script β Outcome)
      else boundaryStep).Latches machine moment := by
    rw [if_pos released.due]
    exact first
  refine .after read ?_
  rcases released.live with running | waiting
  · rw [running]
    exact owed
  · rw [waiting]
    exact owed

end Script

variable {β : Type} [Board β]

/-- The first step owes a reset, and that reset latches. -/
def Operation.CarriesOn (operation : Operation) (machine : Machine β) : Prop :=
  operation.Steps ∧ machine.processor.Released ∧ machine.ResetLatches

theorem Operation.CarriesOn.latches {operation : Operation} {machine : Machine β}
    (carries : operation.CarriesOn machine) :
    ∃ moment, Dispatch.reset machine = .ok () moment ∧ Fresh moment.processor ∧
      operation.script.Latches machine moment := by
  obtain ⟨steps, released, moment, done, latched⟩ := carries
  obtain ⟨_, ended, fresh⟩ := Dispatch.reset_fresh machine
  rw [done] at ended
  cases ended
  have stepping := Script.step_latches released (Script.reset_latches released.live.not_latched done latched)
  refine ⟨moment, done, fresh, ?_⟩
  cases operation with
  | step => exact stepping.bind _
  | run budget =>
    have within : 0 < budget.toNat := steps
    have running : (Script.runFrom budget 0 : Script β Nat).Latches machine moment := by
      rw [Script.runFrom, dif_pos within]
      exact stepping.bind _
    exact running.bind _
  | reset | checkInterrupts | drive line asserted | suspend | resume | observe on => exact steps.elim

/-- Every other operation is over as soon as the processor latches. -/
theorem Operation.endsLatched {operation : Operation} {machine : Machine β} (sound : ¬operation.CarriesOn machine) :
    Script.EndsLatched (fun _ => True) operation.script machine := by
  cases operation with
  | reset => exact (Script.reset_endsLatched machine).map fun _ _ => trivial
  | step =>
    refine (Script.step_endsLatched fun released latches => ?_).map fun _ _ => trivial
    exact sound ⟨trivial, released, latches⟩
  | run budget =>
    refine (Script.runFrom_endsLatched fun within released latches => ?_).map fun _ _ => trivial
    exact sound ⟨within, released, latches⟩
  | checkInterrupts => exact (Script.checkInterrupts_endsLatched machine).map fun _ _ => trivial
  | drive line asserted | suspend | resume | observe on => exact .alone fun _ => trivial

end Pdp11
