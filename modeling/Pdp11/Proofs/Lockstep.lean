import Pdp11.Proofs.HaltTransparency
import Pdp11.Proofs.Twins

/-! The two models do the same, as long as nothing asks which of them it is. Every step takes
both processors through the same instruction, fault or trap, until one of the three
instructions in which they differ, a status word that only one of them implements, or a
double fault. -/

namespace Pdp11

open Microcode

variable {β : Type} [Board β] {begun : Prop} {left right : Machine β}

/-- Not the word of an instruction that does something else on each model. -/
def Word.Shared (word : Word) : Prop :=
  ∀ op ∈ [ControlOp.halt, .mfpt, .start], Instruction.ofWord? word ≠ some (.control op)

instance (word : Word) : Decidable word.Shared := inferInstanceAs (Decidable (∀ op ∈ _, _))

omit [Board β] in
/-- What stays when one of them enters HALT mode. -/
theorem Parted.quiet (parted : Parted begun left right) : left.processor.Quiet ∧ right.processor.Quiet :=
  parted.elim (fun twins => ⟨twins.quiet, twins.plain.quiet⟩) fun ⟨_, quiet⟩ => quiet

/-- With no line asserted nothing but a trace trap is served, whatever the model. -/
theorem Processor.Quiet.service? {processor : Processor} (quiet : processor.Quiet) :
    processor.service? = if processor.isTraceDue then some .trace else none := by
  have levels : processor.lines.levels = 0 := congrArg InputLines.levels quiet
  have event : processor.lines.event = false := congrArg InputLines.event quiet
  rw [Processor.service?]
  split
  · rfl
  cases processor.model with
  | t11 =>
    have lowest : (T11.request 0).priority ≤ processor.status.priority := Nat.zero_le _
    simp only [Processor.t11Service?, InputLines.request, levels]
    exact if_pos lowest
  | vm2 =>
    have low (line : InputLine) (other : line ≠ .busError) : processor.lines.isAsserted line = false := by
      cases line with
      | busError => exact absurd rfl other
      | event => exact event
      | irq0 | irq1 | irq2 | irq3 | virq | aclo | halt => simp [InputLines.isAsserted, InputLine.levelBit?, levels]
    simp [Processor.vm2Service?, low .halt, low .aclo, low .virq, event]

namespace Microcode

theorem executeWord_twins {word : Word} (shared : word.Shared) :
    InStep (Twins True) (Parted True) (Twins True) (executeWord word : Microcode β Retirement) := by
  have coupling : Coupling (Twins True : Machine β → Machine β → Prop) (Parted True) := twins_coupling True
  have charged (cycles : Nat) : Impartial (·.charge cycles) := .fields
  have waiting : Impartial ({ · with runState := .waiting }) := .fields
  unfold executeWord
  cases found : Instruction.ofWord? word with
  | none =>
    exact (coupling.trapped twins_faultsAlike rfl).bind fun _ => InStep.bind (.modify (charged _).parted) fun _ => .pure id
  | some instruction =>
    have other (op : ControlOp) (member : op ∈ [ControlOp.halt, .mfpt, .start]) : instruction ≠ .control op := by
      rintro rfl
      exact shared op member found
    have type := other .mfpt (by decide)
    have start := other .start (by decide)
    have executed : InStep (Twins True) (Parted True) (Twins True) (executeCharged instruction : Microcode β _) := by
      refine (coupling.execute twins_faultsAlike type start).bind fun retirement => ?_
      cases retirement with
      | completed | waiting | halting | trapped => exact InStep.bind (.modify (charged _).parted) fun _ => .pure id
    refine executed.bind_of (executeCharged_retires instruction) fun retirement own => ?_
    cases retirement with
    | halting => exact absurd own (other .halt (by decide))
    | waiting => exact InStep.bind (.modify waiting.parted) fun _ => .pure id
    | completed | trapped => exact InStep.bind (.pure id) fun _ => .pure id

/-- From its beginning they agree on where the instruction is. -/
theorem fetchInstruction_twins : InStep (Twins begun) (Twins True) (Twins True) (fetchInstruction : Microcode β Word) := by
  have coupling : Coupling (Twins True : Machine β → Machine β → Prop) (Parted True) := twins_coupling True
  refine .read (fun twins => ⟨twins.alike (·.registers), twins.alike (·.status)⟩) fun one other registers _ => ?_
  rw [show one.pc = other.pc from congrArg RegisterFile.pc registers]
  refine InStep.bind (.modify fun {left right} twins => ?_) fun _ =>
    InStep.bind (.modify (Impartial.emit _).twins) fun _ => coupling.fetchWord
  obtain ⟨setting, _, without, observed, plain, _⟩ := twins
  let address := other.pc.even
  exact .intro { setting with previousPc := address }
    (right.update fun processor => { processor.setPc address with previousPc := address }) without observed
    ⟨plain.model, plain.fits, plain.bank, plain.settled, plain.quiet⟩ fun _ => rfl

theorem serve_trace_twins : InStep (Twins begun) (Parted begun) (Twins begun) (serve .trace : Microcode β Bool) := by
  have coupling : Coupling (Twins begun : Machine β → Machine β → Prop) (Parted begun) := twins_coupling begun
  have charged : Impartial (·.charge CostKind.interruptEntry.cycles) := .fields
  have counted : Impartial fun processor => { processor with statistics := processor.statistics.countInterrupt } := .fields
  have taken : InStep (Twins begun) (Parted begun) (Twins begun) (takeInterrupt TrapVector.breakpoint : Microcode β Unit) :=
    (coupling.enterTrap (by decide)).bind fun _ => InStep.bind (.modify charged.parted) fun _ => .modify counted.parted
  exact taken.bind fun _ => .pure id

/-- The one trap that can be due without a line is taken by both, and by itself. -/
theorem arbitrate_traced (twins : Twins begun left right) (due : right.processor.isTraceDue = true) :
    Together (fun one other left right => (one = true ∧ other = true) ∧ Parted begun left right)
      (fun one other left right => (one = .failedCycle ∧ other = .failedCycle) ∧ Twins begun left right)
      (arbitrate left) (arbitrate right) := by
  have pass {machine : Machine β} (quiet : machine.processor.Quiet) (due : machine.processor.isTraceDue = true) :
      arbiterPass machine = serve .trace machine := by
    simp only [arbiterPass, Bind.bind, EStateM.bind, processor, quiet.service?, due, if_true]
  have first := pass twins.quiet ((twins.alike (·.isTraceDue)).trans due)
  have second := pass twins.plain.quiet due
  have served := serve_trace_twins left right twins
  have last {machine after : Machine β} {taken : Bool} (pass : arbiterPass machine = serve .trace machine)
      (done : serve .trace machine = .ok taken after) (quiet : after.processor.Quiet) :
      arbitrate machine = .ok true after := by
    rw [serve_answers (by decide) _ _ _ done, ← pass] at done
    refine arbitrate_once done ?_
    rw [quiet.service?, Processor.isTraceDue, arbiterPass_untraced done]
    rfl
  obtain ⟨_, _, _, _, one, other, _, parted⟩ | ⟨_, _, _, _, one, other, holds⟩ := served.ended
  · rw [last first one parted.quiet.1, last second other parted.quiet.2]
    exact .ok ⟨⟨rfl, rfl⟩, parted⟩
  · rw [arbitrate_error (first.trans one), arbitrate_error (second.trans other)]
    exact .error holds

end Microcode

/-- Both have ended a step alike, unless the second one has come to HALT mode or to a stop. -/
inductive Abreast : Outcome → Outcome → Machine β → Machine β → Prop where
  | alike {outcome : Outcome} {left right : Machine β} : Twins False left right → Abreast outcome outcome left right
  | halted {one other : Outcome} {left right : Machine β} :
      right.processor.status.haltMode = true → Abreast one other left right
  | stopped {one : Outcome} {left right : Machine β} : Abreast one (.stopped .doubleFault) left right

/-- These runs finish, and abreast. -/
abbrev EndAbreast (one other : EStateM.Result MisalignedVector (Machine β) Outcome) : Prop :=
  Together Abreast (fun _ _ _ _ => False) one other

omit [Board β] in
theorem Parted.abreast (parted : Parted begun left right) (outcome : Nat → Outcome) (start : UInt64) :
    Abreast (outcome (left.processor.elapsed start)) (outcome (right.processor.elapsed start)) left right := by
  rcases parted with twins | ⟨halted, _⟩
  · rw [show left.processor.elapsed start = right.processor.elapsed start from twins.alike (·.elapsed start)]
    exact .alike twins.forget
  · exact .halted halted

omit [Board β] in
/-- What retires an instruction in both retires it alike. -/
theorem Parted.retired (parted : Parted begun left right) (start : UInt64) (pc word : Word) :
    Parted begun (left.retired start pc word) (right.retired start pc word) := by
  rcases parted with twins | ⟨halted, quiet, other⟩
  · have counted : Impartial fun processor =>
        { processor with
          tracePending := processor.status.trace && !processor.traceInhibited
          traceInhibited := false
          statistics := processor.statistics.countInstruction } := .fields
    have retired := counted.twins twins
    have same := retired.alike (·.elapsed start)
    refine .inl ?_
    rw [Machine.retired, Machine.retired, same]
    exact Impartial.syncShadow.twins ((Impartial.emit _).twins retired)
  · obtain ⟨_, _, _, one⟩ := left.retired_processor start pc word
    obtain ⟨_, _, _, two⟩ := right.retired_processor start pc word
    rw [Parted, one, two]
    exact .inr ⟨halted, quiet, other⟩

namespace Dispatch

theorem doubleFault_abreast (twins : Twins False left right) (start : UInt64) :
    EndAbreast (doubleFault start left) (doubleFault start right) := by
  rw [doubleFault_eq, doubleFault_eq, twins.without, twins.plain.model]
  have noted : Bookkept right.processor right.doubleFaultNoted.processor := .noted _ _ _
  have model : right.doubleFaultNoted.processor.model = .vm2 :=
    (congrArg Configuration.model noted.configuration).trans twins.plain.model
  have user : right.doubleFaultNoted.processor.status.haltMode = false := noted.status ▸ twins.plain.user
  cases entered : enterHaltMode right.doubleFaultNoted with
  | ok _ after =>
    have halted := (enterHaltMode_halted model user entered).bookkept (.syncShadow _)
    exact .ok (.halted halted.haltMode)
  | error abort broken =>
    cases OnlyCyclesFail.enterHaltMode _ _ _ entered
    exact .ok .stopped

omit [Board β] in
theorem busErrorsCleared_twins (twins : Twins begun left right) :
    Twins begun left.busErrorsCleared right.busErrorsCleared := by
  have cleared : Impartial fun processor => { processor with lines := processor.lines.clearBusErrors } := .fields
  exact cleared.twins twins

omit [Board β] in
theorem busFaultNoted_twins (twins : Twins begun left right) : Twins begun left.busFaultNoted right.busFaultNoted := by
  let pc := right.processor.pc
  have spelled {machine : Machine β} (same : machine.processor.pc = pc) : machine.busFaultNoted =
      ((machine.update (·.recordFault .busError pc)).update (·.emit (.busFault pc))).busErrorsCleared := by
    rw [← same]
    rfl
  have recorded : Impartial (·.recordFault .busError pc) := .fields
  rw [spelled rfl, spelled (twins.alike (·.pc))]
  exact busErrorsCleared_twins ((Impartial.emit _).twins (recorded.twins twins))

theorem restore_twins (twins : Twins begun left right) {one other : Processor} (boundary : one.checkpoint = other.checkpoint)
    (fits : other.status.Fits Model.t11.implemented) :
    Twins begun (left.restore one.checkpoint) (right.restore other.checkpoint) := by
  rw [boundary]
  exact twins.restore fits

theorem serviceBusFault_abreast (twins : Twins False left right) (start : UInt64) :
    EndAbreast (serviceBusFault start left) (serviceBusFault start right) := by
  have noted := busFaultNoted_twins twins
  have aligned : TrapVector.busError &&& 3 = 0 := by decide
  have entered := (twins_coupling False).enterTrap aligned _ _ noted
  rw [serviceBusFault_eq, serviceBusFault_eq]
  obtain ⟨_, _, _, _, one, other, _, parted⟩ | ⟨_, _, _, _, one, other, ⟨rfl, rfl⟩, broken⟩ := entered.ended
  · have charged : Impartial (·.charge CostKind.faultTrapEntry.cycles) := .fields
    simp only [one, other]
    exact .ok ((Impartial.syncShadow.parted (charged.parted parted)).abreast (.faulted .busError ·) start)
  · simp only [one, other]
    have restored := restore_twins broken (noted.alike (·.checkpoint)) noted.plain.fits
    exact doubleFault_abreast (busErrorsCleared_twins restored) start

/-- A bus error is answered alike, whatever it has cut short since the boundary. -/
theorem abandon_abreast {one other : Machine β} (boundary : Twins False one other) (twins : Twins begun left right) :
    EndAbreast (serviceBusFault one.processor.cycles (left.restore one.processor.checkpoint))
      (serviceBusFault other.processor.cycles (right.restore other.processor.checkpoint)) := by
  rw [boundary.alike (·.cycles)]
  exact serviceBusFault_abreast (restore_twins twins.forget (boundary.alike (·.checkpoint)) boundary.plain.fits) _

theorem instructionCycle_abreast (twins : Twins begun left right)
    (shared : ∀ word fetched, fetchInstruction right = .ok word fetched → word.Shared) (start : UInt64) :
    Together Abreast (fun one other left right => (one = .failedCycle ∧ other = .failedCycle) ∧ Twins True left right)
      (instructionCycle start left) (instructionCycle start right) := by
  rw [instructionCycle_eq, instructionCycle_eq, show left.processor.pc = right.processor.pc from twins.alike (·.pc)]
  obtain ⟨word, _, _, fetched, one, other, rfl, begun⟩ | ⟨_, _, _, _, one, other, ⟨rfl, rfl⟩, broken⟩ :=
    (fetchInstruction_twins _ _ twins).ended
  · simp only [one, other]
    obtain ⟨retirement, _, _, _, first, second, rfl, parted⟩ | ⟨_, _, _, _, first, second, ⟨rfl, rfl⟩, broken⟩ :=
      (executeWord_twins (shared word fetched other) _ _ begun).ended
    · simp only [first, second]
      have ended := (parted.retired start right.processor.pc.even word).abreast (retirement.outcome ·) start
      rw [Machine.retired_elapsed, Machine.retired_elapsed] at ended
      exact .ok ended
    · simp only [first, second]
      exact .error ⟨⟨rfl, rfl⟩, broken⟩
  · simp only [one, other]
    exact .error ⟨⟨rfl, rfl⟩, broken⟩

theorem boundaryStep_abreast (twins : Twins False left right)
    (shared : ∀ word fetched, Fetches word right fetched → word.Shared) :
    EndAbreast (boundaryStep left) (boundaryStep right) := by
  rw [boundaryStep_eq, boundaryStep_eq, show left.processor.lines.hasBusError = right.processor.lines.hasBusError from
    twins.alike (·.lines.hasBusError)]
  cases ready : right.processor.lines.hasBusError with
  | true =>
    simp only [if_true, twins.alike (·.cycles)]
    exact serviceBusFault_abreast twins _
  | false =>
    simp only [Bool.false_eq_true, if_false]
    -- With every line quiet the trace trap is all that arbitration can find.
    cases due : right.processor.isTraceDue with
    | true =>
      obtain ⟨_, _, _, _, one, other, ⟨rfl, rfl⟩, parted⟩ | ⟨_, _, _, _, one, other, ⟨rfl, rfl⟩, broken⟩ :=
        (arbitrate_traced twins due).ended
      · simp only [one, other, twins.alike (·.cycles)]
        exact .ok ((Impartial.syncShadow.parted parted).abreast .interrupted _)
      · simp only [one, other]
        exact abandon_abreast twins broken
    | false =>
      have idle {machine : Machine β} (quiet : machine.processor.Quiet) (due : machine.processor.isTraceDue = false) :
          arbitrate machine = .ok false machine := by
        refine arbitrate_quiet ?_
        rw [quiet.service?, due]
        rfl
      have second := idle twins.plain.quiet due
      rw [idle twins.quiet ((twins.alike (·.isTraceDue)).trans due), second]
      simp only [show left.processor.runState = right.processor.runState from twins.alike (·.runState)]
      by_cases waiting : right.processor.runState = .waiting
      · simp only [waiting, if_true]
        exact .ok (.alike twins)
      · simp only [waiting, if_false]
        have executed := instructionCycle_abreast twins (fun word fetched fetch =>
          shared word fetched ⟨ready, right, second, waiting, fetch⟩) right.processor.cycles
        rw [twins.alike (·.cycles)]
        obtain ⟨_, _, _, _, one, other, abreast⟩ | ⟨_, _, _, _, one, other, ⟨rfl, rfl⟩, broken⟩ := executed.ended
        · simp only [one, other]
          exact .ok abreast
        · simp only [one, other]
          have abandoned := abandon_abreast twins broken
          rw [twins.alike (·.cycles)] at abandoned
          exact abandoned

theorem step_abreast (twins : Twins False left right) (live : right.processor.Live)
    (shared : ∀ word fetched, Fetches word right fetched → word.Shared) : EndAbreast (step left) (step right) := by
  have settled : left.processor.resetOnResume = false := (twins.alike (·.resetOnResume)).trans twins.plain.settled
  have also : left.processor.Live := by
    rw [Processor.Live, show left.processor.runState = right.processor.runState from twins.alike (·.runState)]
    exact live
  rw [step_eq live, step_eq also, settled, twins.plain.settled]
  exact boundaryStep_abreast twins shared

theorem step_held_alike (twins : Twins False left right) (held : ¬right.processor.Live) :
    ∃ outcome, step left = .ok outcome left ∧ step right = .ok outcome right := by
  have same : left.processor.runState = right.processor.runState := twins.alike (·.runState)
  cases state : right.processor.runState with
  | running => exact absurd (.inl state) held
  | waiting => exact absurd (.inr state) held
  | suspended => exact ⟨.suspended, step_suspended (same.trans state), step_suspended state⟩
  | latched cause => exact ⟨.stopped cause, step_latched (same.trans state), step_latched state⟩

/-- So many steps one after the other, with what each of them did. -/
def steps : Nat → Dispatch β (List Outcome)
  | 0 => return []
  | count + 1 => do
    let outcome ← step
    return outcome :: (← steps count)

end Dispatch

/-- A processor of each model, and nothing between them but that. The address of the last
instruction may differ: it is only looked at within an instruction. -/
structure Lockstep (t11 vm2 : Machine β) : Prop where
  without : t11.processor.model = .t11
  has : vm2.processor.model = .vm2
  registers : t11.processor.registers = vm2.processor.registers
  status : t11.processor.status = vm2.processor.status
  user : vm2.processor.status.haltMode = false
  shadow : t11.processor.shadow = vm2.processor.shadow
  tracePending : t11.processor.tracePending = vm2.processor.tracePending
  traceInhibited : t11.processor.traceInhibited = vm2.processor.traceInhibited
  runState : t11.processor.runState = vm2.processor.runState
  cycles : t11.processor.cycles = vm2.processor.cycles
  statistics : t11.processor.statistics = vm2.processor.statistics
  traceEnabled : t11.processor.configuration.traceEnabled = vm2.processor.configuration.traceEnabled
  observed : t11.processor.observed = vm2.processor.observed
  silent : t11.processor.lines = {} ∧ vm2.processor.lines = {}
  settled : t11.processor.resetOnResume = false ∧ vm2.processor.resetOnResume = false
  board : t11.board = vm2.board

def Outcome.DoubleFaults : Outcome → Prop
  | .stopped cause | .faulted cause _ => cause = .doubleFault
  | _ => False

/-- The next step does nothing that tells the models apart. -/
structure Ordinary (machine : Machine β) : Prop where
  shared : ∀ word fetched, Fetches word machine fetched → word.Shared
  /-- A step installs at most one status word from memory, and nothing behind it, so the
  HALT mode bit of that word would show in the status that the step leaves. -/
  user : ∀ outcome after, Dispatch.step machine = .ok outcome after → after.processor.status.haltMode = false
  answered : ∀ outcome after, Dispatch.step machine = .ok outcome after → ¬outcome.DoubleFaults

namespace Lockstep

omit [Board β] in
theorem eq_under (lockstep : Lockstep left right) : left = right.under
    ⟨left.processor.configuration, left.processor.mode, left.processor.bank, left.processor.previousPc⟩ := by
  obtain ⟨without, has, registers, status, user, shadow, tracePending, traceInhibited, runState, cycles, statistics,
    traceEnabled, observed, silent, settled, board⟩ := lockstep
  obtain ⟨⟨⟩, _⟩ := left
  obtain ⟨⟨⟩, _⟩ := right
  simp only [Machine.under, Machine.update, Processor.under, Machine.mk.injEq, Processor.mk.injEq] at *
  exact ⟨⟨trivial, registers, status, shadow, trivial, silent.1.trans silent.2.symm, runState, trivial, tracePending,
    traceInhibited, settled.1.trans settled.2.symm, cycles, trivial, statistics, observed⟩, board⟩

omit [Board β] in
theorem twins {first second : Configuration} (lockstep : Lockstep left right) (one : Reachable first left.processor)
    (other : Reachable second right.processor) : Twins False left right := by
  have fits := one.consistent.fits
  rw [show first.model = .t11 from one.consistent.model.symm.trans lockstep.without, lockstep.status] at fits
  have bank : right.processor.bank = .user := by
    rw [other.consistent.bank, lockstep.user]
    rfl
  have quiet : right.processor.Quiet := by
    rw [Processor.Quiet, lockstep.silent.2]
    rfl
  rw [lockstep.eq_under]
  exact .intro _ right lockstep.without lockstep.traceEnabled ⟨lockstep.has, fits, bank, lockstep.settled.2, quiet⟩
    False.elim

omit [Board β] in
theorem of_twins (twins : Twins begun left right) (silent : right.processor.lines = {}) : Lockstep left right where
  without := twins.without
  has := twins.plain.model
  registers := twins.alike (·.registers)
  status := twins.alike (·.status)
  user := twins.plain.user
  shadow := twins.alike (·.shadow)
  tracePending := twins.alike (·.tracePending)
  traceInhibited := twins.alike (·.traceInhibited)
  runState := twins.alike (·.runState)
  cycles := twins.alike (·.cycles)
  statistics := twins.alike (·.statistics)
  traceEnabled := by
    obtain ⟨_, _, _, observed, _, _⟩ := twins
    exact observed
  observed := twins.alike (·.observed)
  silent := ⟨(twins.alike (·.lines)).trans silent, silent⟩
  settled := ⟨(twins.alike (·.resetOnResume)).trans twins.plain.settled, twins.plain.settled⟩
  board := by
    cases twins
    rfl

end Lockstep

omit [Board β] in
theorem Processor.Quiet.silent {processor : Processor} (quiet : processor.Quiet)
    (ready : processor.lines.hasBusError = false) : processor.lines = {} := by
  have counted : processor.lines.busErrors.value = 0 := by simpa [InputLines.hasBusError] using ready
  have none : processor.lines.busErrors = .zero := Counter.ext counted
  rw [← show processor.lines.clearBusErrors = {} from quiet, InputLines.clearBusErrors, ← none]

/-- An ordinary step keeps the lockstep. -/
theorem Dispatch.step_lockstep (twins : Twins False left right) (silent : right.processor.lines = {})
    (ordinary : right.processor.Live → Ordinary right) :
    ∃ outcome one other, step left = .ok outcome one ∧ step right = .ok outcome other ∧
      Twins False one other ∧ other.processor.lines = {} := by
  by_cases live : right.processor.Live
  · obtain ⟨_, outcome, one, other, first, second, abreast⟩ | ⟨_, _, _, _, _, _, never⟩ :=
      (step_abreast twins live (ordinary live).shared).ended
    · have ready : other.processor.lines.hasBusError = false := by
        rw [step_eq live, twins.plain.settled] at second
        exact boundaryStep_ready second
      cases abreast with
      | alike kept => exact ⟨_, one, other, first, second, kept, kept.plain.quiet.silent ready⟩
      | halted halted =>
        rw [(ordinary live).user _ other second] at halted
        cases halted
      | stopped => exact absurd rfl ((ordinary live).answered _ other second)
    · exact never.elim
  · obtain ⟨outcome, first, second⟩ := step_held_alike twins live
    exact ⟨outcome, left, right, first, second, twins, silent⟩

/-- Machines in lockstep stay in lockstep, step by step: both do the same in each. -/
theorem steps_keep_lockstep {first second : Configuration} {t11 vm2 : Machine β} (one : Reachable first t11.processor)
    (other : Reachable second vm2.processor) (lockstep : Lockstep t11 vm2) (count : Nat)
    (ordinary : ∀ earlier < count, ∀ outcomes reached, Dispatch.steps earlier vm2 = .ok outcomes reached →
      reached.processor.Live → Ordinary reached) :
    ∃ outcomes left right, Dispatch.steps count t11 = .ok outcomes left ∧ Dispatch.steps count vm2 = .ok outcomes right ∧
      Lockstep left right := by
  have alike := lockstep.twins one other
  have silent := lockstep.silent.2
  clear one other lockstep
  induction count generalizing t11 vm2 with
  | zero => exact ⟨[], t11, vm2, rfl, rfl, .of_twins alike silent⟩
  | succ count ih =>
    obtain ⟨outcome, left, right, leftStep, rightStep, alike, silent⟩ :=
      Dispatch.step_lockstep alike silent (ordinary 0 (Nat.zero_lt_succ count) [] vm2 rfl)
    have later : ∀ earlier < count, ∀ outcomes reached, Dispatch.steps earlier right = .ok outcomes reached →
        reached.processor.Live → Ordinary reached := by
      intro earlier within outcomes reached done
      refine ordinary (earlier + 1) (Nat.succ_lt_succ within) (outcome :: outcomes) reached ?_
      rw [Dispatch.steps, bind_of_ok rightStep, bind_of_ok done]
      rfl
    obtain ⟨outcomes, lastLeft, lastRight, leftSteps, rightSteps, kept⟩ := ih later alike silent
    refine ⟨outcome :: outcomes, lastLeft, lastRight, ?_, ?_, kept⟩
    · rw [Dispatch.steps, bind_of_ok leftStep, bind_of_ok leftSteps]
      rfl
    · rw [Dispatch.steps, bind_of_ok rightStep, bind_of_ok rightSteps]
      rfl

theorem Ordinary.of_run {machine : Machine β} (word : Word) (outcome : Outcome)
    (next : answer? (fetchInstruction (ended (arbitrate machine))) = some word) (shared : word.Shared)
    (told : answer? (Dispatch.step machine) = some outcome) (whole : ¬outcome.DoubleFaults)
    (user : (ended (Dispatch.step machine)).processor.status.haltMode = false) : Ordinary machine where
  shared := by
    rintro other fetched ⟨_, settled, idle, _, fetch⟩
    rw [idle, show ended (.ok false settled) = settled from rfl, fetch] at next
    cases next
    exact shared
  user outcome after done := by
    rwa [done] at user
  answered outcome after done := by
    rw [done] at told
    cases told
    exact whole

/-- A return into a traced context, whose handler asks memory that is not there. The stack
begins at zero, so the return finds its own word there, and the trace bit behind it. -/
def returnsIntoTrace (model : Model) : Machine FlatBoard :=
  let vectors := FlatBoard.load {} 0 [0o2, 0o20, 0o200, 0, 0, 0, 0o100, 0]
  ⟨.create { model }, (vectors.load 0o100 [0o5737, 0o4000]).unmap ⟨0o4000, 0o4001⟩⟩

theorem steps_keep_lockstep_faults : ∃ t11 vm2,
    Dispatch.steps 3 (returnsIntoTrace .t11) = .ok [.retired 24, .interrupted 114, .faulted .busError 48] t11 ∧
      Dispatch.steps 3 (returnsIntoTrace .vm2) = .ok [.retired 24, .interrupted 114, .faulted .busError 48] vm2 ∧
      Lockstep t11 vm2 := by
  have lockstep : Lockstep (returnsIntoTrace .t11) (returnsIntoTrace .vm2) :=
    ⟨rfl, rfl, rfl, rfl, by decide, rfl, rfl, rfl, rfl, rfl, rfl, rfl, rfl, ⟨rfl, rfl⟩, ⟨rfl, rfl⟩, rfl⟩
  have returns : Ordinary (ended (Dispatch.steps 0 (returnsIntoTrace .vm2))) :=
    .of_run 0o2 (.retired 24) (by decide +kernel) (by decide) (by decide +kernel) id (by decide +kernel)
  have traps : Ordinary (ended (Dispatch.steps 1 (returnsIntoTrace .vm2))) :=
    .of_run 0o5737 (.interrupted 114) (by decide +kernel) (by decide) (by decide +kernel) id (by decide +kernel)
  have faults : Ordinary (ended (Dispatch.steps 2 (returnsIntoTrace .vm2))) :=
    .of_run 0o5737 (.faulted .busError 48) (by decide +kernel) (by decide) (by decide +kernel) nofun (by decide +kernel)
  have ordinary (earlier : Nat) (within : earlier < 3) : Ordinary (ended (Dispatch.steps earlier (returnsIntoTrace .vm2))) := by
    obtain rfl | rfl | rfl : earlier = 0 ∨ earlier = 1 ∨ earlier = 2 := by omega
    · exact returns
    · exact traps
    · exact faults
  obtain ⟨outcomes, left, right, one, other, kept⟩ := steps_keep_lockstep .powerOn .powerOn lockstep 3 (by
    intro earlier within outcomes reached done _
    have next := ordinary earlier within
    rwa [done] at next)
  have told : Dispatch.steps 3 (returnsIntoTrace .vm2) = .ok [.retired 24, .interrupted 114, .faulted .busError 48] _ :=
    eq_ok_of_answer (by decide +kernel)
  rw [told] at other
  cases other
  exact ⟨left, _, one, told, kept⟩

end Pdp11
