import Pdp11.Proofs.BoundaryInvariant
import Pdp11.Proofs.TrapReturn

/-! When the trace trap is due. The processor keeps two flags for it, which are set and
cleared in many places. What they come to is a matter of the last thing that happened: the
trap is due behind an instruction that left the trace bit set, and behind nothing else. -/

namespace Pdp11

open Microcode

/-- What a processor has gone through, as far as the trace trap is concerned. -/
inductive Passage where
  /-- An instruction has retired, perhaps through its own fault trap, and has left this
  status word. -/
  | retired (word : Word) (status : StatusWord)
  /-- A trap or HALT mode was entered without an instruction. -/
  | entered
  | reset
deriving DecidableEq, Repr

/-- RTT alone is not traced. -/
def Traced (word : Word) : Prop := Instruction.ofWord? word ≠ some (.control .rtt)

instance (word : Word) : Decidable (Traced word) := inferInstanceAs (Decidable (_ ≠ _))

/-- Whether the trace trap is due after these passages, the last of which comes first. -/
def traceDue : List Passage → Bool
  | .retired word status :: _ => status.trace && decide (Traced word)
  | _ => false

/-- A trap or HALT mode was entered, and no instruction has retired. -/
def Outcome.Enters : Outcome → Prop
  | .interrupted _ => True
  | .faulted cause _ => cause.faultClass ≠ .decode
  | _ => False

theorem Outcome.Enters.not_retires {outcome : Outcome} (enters : outcome.Enters) : ¬outcome.Retires := by
  intro retires
  cases outcome with
  | faulted cause cycles => exact enters retires
  | interrupted => exact retires
  | retired | waiting | stopped | suspended => exact enters

variable {β : Type} [Board β]

/-- What a step goes through from the boundary that it begins at. -/
inductive BoundaryPassage (boundary : Machine β) : Outcome → Machine β → List Passage → Prop where
  | retired {word : Word} {fetched after : Machine β} {outcome : Outcome} (fetches : Fetches word boundary fetched)
      (retires : outcome.Retires) :
      BoundaryPassage boundary outcome after [.retired word after.processor.status]
  | entered {outcome : Outcome} {after : Machine β} (enters : outcome.Enters) :
      BoundaryPassage boundary outcome after [.entered]
  | waiting {after : Machine β} : BoundaryPassage boundary .waiting after []
  | stopped {cause : FaultCode} {after : Machine β} : BoundaryPassage boundary (.stopped cause) after []

/-- What a step goes through, with the reset that it may begin with. -/
inductive StepPassage (machine : Machine β) : Outcome → Machine β → List Passage → Prop where
  | released {fresh after : Machine β} {outcome : Outcome} {recent : List Passage} (live : machine.processor.Live)
      (due : machine.processor.resetOnResume = true) (reset : Dispatch.reset machine = .ok () fresh)
      (gone : BoundaryPassage fresh outcome after recent) : StepPassage machine outcome after (recent ++ [.reset])
  | settled {after : Machine β} {outcome : Outcome} {recent : List Passage} (live : machine.processor.Live)
      (settled : machine.processor.resetOnResume = false) (gone : BoundaryPassage machine outcome after recent) :
      StepPassage machine outcome after recent
  | held {outcome : Outcome} (held : ¬machine.processor.Live) : StepPassage machine outcome machine []

/-- Operations of the driver that leave the program alone. -/
def Operation.Drives : Operation → Prop
  | drive _ _ | suspend | resume | observe _ => True
  | reset | step | run _ | checkInterrupts => False

/-- Processors with the passages that have led to them, the last one first. A run is the
steps it is made of. -/
inductive Lived (configuration : Configuration) : List Passage → Processor → Prop where
  | powerOn : Lived configuration [] (.create configuration)
  | reset {β : Type} [Board β] {passages : List Passage} {processor : Processor} {board : β} {after : Machine β}
      (lived : Lived configuration passages processor) (done : Dispatch.reset ⟨processor, board⟩ = .ok () after) :
      Lived configuration (.reset :: passages) after.processor
  | step {β : Type} [Board β] {passages recent : List Passage} {processor : Processor} {board : β} {outcome : Outcome}
      {after : Machine β} (lived : Lived configuration passages processor)
      (done : Dispatch.step ⟨processor, board⟩ = .ok outcome after)
      (gone : StepPassage ⟨processor, board⟩ outcome after recent) :
      Lived configuration (recent ++ passages) after.processor
  | check {β : Type} [Board β] {passages : List Passage} {processor : Processor} {board : β} {taken : Bool}
      {after : Machine β} (lived : Lived configuration passages processor)
      (done : Dispatch.checkInterrupts ⟨processor, board⟩ = .ok taken after) :
      Lived configuration (if taken then .entered :: passages else passages) after.processor
  | driven {β : Type} [Board β] {passages : List Passage} {processor : Processor} {board : β} {operation : Operation}
      {response : Response} {after : Machine β} (lived : Lived configuration passages processor)
      (drives : operation.Drives) (performed : operation.perform ⟨processor, board⟩ = .ok response after) :
      Lived configuration passages after.processor

theorem Lived.reachable {configuration : Configuration} {passages : List Passage} {processor : Processor}
    (lived : Lived configuration passages processor) : Reachable configuration processor := by
  induction lived with
  | powerOn => exact .powerOn
  | reset _ done ih =>
    have performed : Operation.reset.perform _ = .ok .done _ := bind_of_ok done _
    exact ih.perform performed
  | step _ done _ ih =>
    have performed : Operation.step.perform _ = .ok (.outcome _) _ := bind_of_ok done _
    exact ih.perform performed
  | check _ done ih =>
    have performed : Operation.checkInterrupts.perform _ = .ok (.taken _) _ := bind_of_ok done _
    exact ih.perform performed
  | driven _ _ performed ih => exact ih.perform performed

namespace Dispatch

variable {machine after fresh : Machine β} {outcome : Outcome} {start : UInt64}

theorem doubleFault_untraced (done : doubleFault start machine = .ok outcome after) :
    after.processor.tracePending = false ∧ outcome.Enters ∧ outcome.CutShort ∨
      outcome = .stopped .doubleFault ∧ after.processor.Latched := by
  cases doubleFault_ended done with
  | stopped => exact .inr ⟨rfl, rfl⟩
  | failed => exact .inr ⟨rfl, rfl⟩
  | halted _ entered =>
    obtain ⟨_, pc, status, board, _, rfl⟩ := enterHaltMode_ok entered
    refine .inl ⟨?_, nofun, nofun⟩
    rw [Machine.update_processor, Processor.syncShadow_eq]
    exact machine.doubleFaultNoted.halted_tracePending pc status board

/-- No trace trap is pending behind the answer to a bus error, if the processor goes on. -/
theorem serviceBusFault_untraced (done : serviceBusFault start machine = .ok outcome after) :
    after.processor.tracePending = false ∧ outcome.Enters ∧ outcome.CutShort ∨
      outcome = .stopped .doubleFault ∧ after.processor.Latched := by
  cases serviceBusFault_ended done with
  | again _ done => exact doubleFault_untraced done
  | trapped entered =>
    obtain ⟨_, pc, status, board, _, rfl⟩ := enterTrap_ok entered
    refine .inl ⟨?_, nofun, nofun⟩
    rw [Machine.update_processor, Processor.syncShadow_eq]
    exact machine.busFaultNoted.trapped_tracePending TrapVector.busError pc status board

end Dispatch

namespace Microcode

variable {machine after : Machine β}

/-- RTT keeps the next instruction from being traced, and nothing else does. -/
theorem executeWord_inhibited {word : Word} {retirement : Retirement} (free : machine.processor.traceInhibited = false)
    (done : executeWord word machine = .ok retirement after) :
    after.processor.traceInhibited = !decide (Traced word) := by
  by_cases traced : Traced word
  · have inhibits : ¬Scope.without .inhibit .inhibit := fun apart => apart rfl
    have path : Actions (.without .inhibit) machine after := by
      refine (acts_executeWord word (Scope.without_halts (by decide) (by decide) _) fun instruction found => ?_).ok rfl done
      exact ⟨fun rtt => absurd (rtt ▸ found) traced, fun _ => ⟨nofun, nofun⟩⟩
    rw [path.keeps (fun action => action.uninhibited inhibits) free, decide_eq_true traced]
    rfl
  · have found : Instruction.ofWord? word = some (.control .rtt) := not_not.mp traced
    simp only [executeWord, found] at done
    obtain ⟨_, _, charged, done⟩ := bind_eq_ok done
    obtain ⟨_, _, executed, charging⟩ := bind_eq_ok charged
    obtain ⟨_, _, returned, finished⟩ := bind_eq_ok executed
    cases finished
    cases charging
    cases done
    rw [decide_eq_false traced]
    rfl

theorem instructionCycle_traces {start : UInt64} {word : Word} {outcome : Outcome} {fetched : Machine β}
    (free : machine.processor.traceInhibited = false) (fetch : fetchInstruction machine = .ok word fetched)
    (done : instructionCycle start machine = .ok outcome after) :
    after.processor.tracePending = traceDue [.retired word after.processor.status] := by
  obtain ⟨same, _, retirement, executed, fetchAgain, execution, rfl⟩ := instructionCycle_ok done
  rw [fetch] at fetchAgain
  cases fetchAgain
  have untouched : fetched.processor.traceInhibited = false := by
    obtain ⟨_, kept⟩ := fetchInstruction_ok fetch
    rw [kept]
    exact free
  have inhibited := executeWord_inhibited untouched execution
  have pending : (executed.retired start machine.processor.pc.even word).processor.tracePending =
      (executed.processor.status.trace && !executed.processor.traceInhibited) := by
    simp only [Machine.retired, Machine.update_processor, Processor.emit_eq, Processor.syncShadow_eq]
  have status : (executed.retired start machine.processor.pc.even word).processor.status = executed.processor.status := by
    simp only [Machine.retired, Machine.update_processor, Processor.emit_eq, Processor.syncShadow_eq]
  rw [pending, status, inhibited, Bool.not_not]
  rfl

end Microcode

namespace Dispatch

variable {boundary after : Machine β} {outcome : Outcome} {passages recent : List Passage}

/-- The answer to a bus error is an entry, or the end. -/
theorem answered_due {start : UInt64} {machine : Machine β} (gone : BoundaryPassage boundary outcome after recent)
    (served : serviceBusFault start machine = .ok outcome after) (live : after.processor.Live) :
    after.processor.tracePending = traceDue (recent ++ passages) := by
  rcases serviceBusFault_untraced served with ⟨untraced, enters, cut⟩ | ⟨_, latched⟩
  · cases gone with
    | entered => exact untraced
    | retired _ retires => exact absurd cut retires.whole
    | waiting | stopped => exact enters.elim
  · exact absurd latched live.not_latched

theorem boundaryStep_due (free : boundary.processor.traceInhibited = false)
    (pending : boundary.processor.tracePending = traceDue passages) (done : boundaryStep boundary = .ok outcome after)
    (gone : BoundaryPassage boundary outcome after recent) (live : after.processor.Live) :
    after.processor.tracePending = traceDue (recent ++ passages) := by
  cases boundaryStep_ended done with
  | pending _ served | arbiterFailed _ _ served | instructionFailed _ _ _ _ served => exact answered_due gone served live
  | interrupted ready arbitrated =>
    cases gone with
    | retired _ retires => exact retires.elim
    | entered =>
      rw [Machine.update_processor, Processor.syncShadow_eq]
      exact arbitrate_untraced arbitrated
  | waiting ready arbitrated idle =>
    cases gone with
    | retired _ retires => exact retires.elim
    | entered enters => exact enters.elim
    | waiting =>
      obtain ⟨lines, kept, _⟩ := arbiterPass_idle (arbitrate_idle arbitrated)
      rw [kept]
      exact pending
  | executed ready arbitrated active executed =>
    have retires := instructionCycle_retires _ _ _ _ executed
    obtain ⟨lines, kept, _⟩ := arbiterPass_idle (arbitrate_idle arbitrated)
    cases gone with
    | waiting | stopped => exact retires.elim
    | entered enters => exact absurd retires enters.not_retires
    | retired fetches =>
      obtain ⟨_, _, again, _, fetch⟩ := fetches
      rw [arbitrated] at again
      cases again
      refine instructionCycle_traces ?_ fetch executed
      rw [kept]
      exact free

/-- Every step goes through something, if only through nothing. -/
theorem boundaryStep_passage (done : boundaryStep boundary = .ok outcome after) :
    ∃ recent, BoundaryPassage boundary outcome after recent := by
  have answered {start : UInt64} {machine : Machine β} (served : serviceBusFault start machine = .ok outcome after) :
      ∃ recent, BoundaryPassage boundary outcome after recent := by
    rcases serviceBusFault_untraced served with ⟨_, enters, _⟩ | ⟨rfl, _⟩
    · exact ⟨_, .entered enters⟩
    · exact ⟨_, .stopped⟩
  cases boundaryStep_ended done with
  | pending _ served | arbiterFailed _ _ served | instructionFailed _ _ _ _ served => exact answered served
  | interrupted => exact ⟨_, .entered trivial⟩
  | waiting => exact ⟨_, .waiting⟩
  | executed ready arbitrated active executed =>
    obtain ⟨word, fetched, _, _, fetch, _, _⟩ := instructionCycle_ok executed
    exact ⟨_, .retired ⟨ready, _, arbitrated, active, fetch⟩ (instructionCycle_retires _ _ _ _ executed)⟩

theorem step_passage {machine : Machine β} (done : step machine = .ok outcome after) :
    ∃ recent, StepPassage machine outcome after recent := by
  cases step_ended done with
  | released live due reset stepped =>
    obtain ⟨_, gone⟩ := boundaryStep_passage stepped
    exact ⟨_, .released live due reset gone⟩
  | settled live settled stepped =>
    obtain ⟨_, gone⟩ := boundaryStep_passage stepped
    exact ⟨_, .settled live settled gone⟩
  | held held => exact ⟨_, .held held⟩

end Dispatch

variable {configuration : Configuration} {processor : Processor} {passages : List Passage}

/-- Whatever a driver has done with a processor, it has lived through something. -/
theorem Reachable.lived (reached : Reachable configuration processor) :
    ∃ passages, Lived configuration passages processor := by
  induction reached with
  | powerOn => exact ⟨_, .powerOn⟩
  | @perform β _ processor board operation response after reached performed ih =>
    obtain ⟨passages, lived⟩ := ih
    cases operation with
    | reset =>
      obtain ⟨_, _, done, answered⟩ := bind_eq_ok performed
      cases answered
      exact ⟨_, lived.reset done⟩
    | step =>
      obtain ⟨_, _, done, answered⟩ := bind_eq_ok performed
      cases answered
      obtain ⟨_, gone⟩ := Dispatch.step_passage done
      exact ⟨_, lived.step done gone⟩
    | run budget =>
      obtain ⟨_, _, done, answered⟩ := bind_eq_ok performed
      cases answered
      have step : Ensures (fun machine : Machine β => ∃ passages, Lived configuration passages machine.processor)
          Dispatch.step (fun _ machine => ∃ passages, Lived configuration passages machine.processor) (fun _ _ => True) := by
        refine .of_ok fun ⟨earlier, lived⟩ done => ?_
        obtain ⟨_, gone⟩ := Dispatch.step_passage done
        exact ⟨_, lived.step done gone⟩
      exact (Dispatch.runFrom_keeps step budget 0).ok ⟨passages, lived⟩ done
    | checkInterrupts =>
      obtain ⟨_, _, done, answered⟩ := bind_eq_ok performed
      cases answered
      exact ⟨_, lived.check done⟩
    | drive line asserted | suspend | resume | observe on =>
      refine ⟨_, lived.driven ?_ performed⟩
      trivial

/-- The flag that the arbiter looks at says what the past says. -/
theorem Lived.due (lived : Lived configuration passages processor) (live : processor.Live)
    (settled : processor.resetOnResume = false) : processor.tracePending = traceDue passages := by
  induction lived with
  | powerOn => rfl
  | @reset β _ passages processor board after _ done _ =>
    obtain ⟨fresh, reset, settled⟩ := Dispatch.reset_fresh ⟨processor, board⟩
    rw [reset] at done
    cases done
    exact settled.tracePending
  | @step β _ passages recent processor board outcome after lived done gone ih =>
    have free := lived.reachable.uninhibited
    cases gone with
    -- The reset has dropped the flag, so what came before it no longer matters.
    | released liveBefore due reset gone =>
      obtain ⟨fresh, again, settled⟩ := Dispatch.reset_fresh (⟨processor, board⟩ : Machine β)
      rw [reset] at again
      cases again
      rw [Dispatch.step_eq liveBefore, due, if_pos rfl, bind_of_ok reset] at done
      have freeAfter := uninhibited_enduring.reset.ok free reset
      rw [List.append_assoc]
      exact Dispatch.boundaryStep_due freeAfter settled.tracePending done gone live
    | settled liveBefore settledBefore gone =>
      rw [Dispatch.step_eq liveBefore, settledBefore, if_neg Bool.false_ne_true] at done
      exact Dispatch.boundaryStep_due free (ih liveBefore settledBefore) done gone live
    | held held => exact absurd live held
  | @check β _ passages processor board taken after lived done ih =>
    cases Dispatch.checkInterrupts_ended done with
    | held => exact ih live settled
    | taken _ arbitrated =>
      rw [Machine.update_processor, Processor.syncShadow_eq]
      exact arbitrate_untraced arbitrated
    | quiet liveBefore arbitrated =>
      obtain ⟨lines, kept, _⟩ := arbiterPass_idle (arbitrate_idle arbitrated)
      rw [kept] at settled ⊢
      exact ih liveBefore settled
    | failed _ _ served =>
      rcases Dispatch.serviceBusFault_untraced served with ⟨untraced, _⟩ | ⟨_, latched⟩
      · exact untraced
      · exact absurd latched live.not_latched
  | @driven β _ passages processor board operation response after lived drives performed ih =>
    cases operation with
    | reset | step | run | checkInterrupts => exact drives.elim
    | drive line asserted | observe on =>
      cases performed
      exact ih live settled
    | suspend =>
      cases performed
      exact absurd live (Processor.not_live_of_suspended rfl)
    | resume =>
      cases performed
      simp only [Machine.update] at live settled ⊢
      split at settled
      · cases settled
      · rw [if_neg ‹_›] at live ⊢
        exact ih live settled

theorem Processor.service?_eq_trace : processor.service? = some .trace ↔ processor.isTraceDue = true := by
  constructor
  · intro chosen
    by_contra untraced
    simp only [Processor.service?, untraced, if_false] at chosen
    cases has : processor.model with
    | t11 =>
      simp only [has, Processor.t11Service?] at chosen
      split at chosen <;> cases chosen
    | vm2 =>
      simp only [has, Processor.vm2Service?] at chosen
      repeat' split at chosen
      all_goals cases chosen
  · intro due
    rw [Processor.service?, if_pos due]

section

variable {machine after : Machine β} {word : Word}

/-- A step from here begins with the arbiter, and its first pass goes for the trace trap. -/
structure AttemptsTrace (machine : Machine β) : Prop where
  live : machine.processor.Live
  settled : machine.processor.resetOnResume = false
  ready : machine.processor.lines.hasBusError = false
  chosen : machine.processor.service? = some .trace

/-- A step executes this word and retires it. -/
structure Executes (word : Word) (machine after : Machine β) : Prop where
  live : machine.processor.Live
  settled : machine.processor.resetOnResume = false
  fetches : ∃ fetched, Fetches word machine fetched
  retires : ∃ outcome, Dispatch.step machine = .ok outcome after ∧ outcome.Retires

/-- A step or a check of interrupts enters a trap or HALT mode, in place of an instruction. -/
inductive Enters (machine after : Machine β) : Prop where
  | step {outcome : Outcome} (live : machine.processor.Live) (settled : machine.processor.resetOnResume = false)
      (done : Dispatch.step machine = .ok outcome after) (enters : outcome.Enters)
  | check (done : Dispatch.checkInterrupts machine = .ok true after)

theorem AttemptsTrace.takes (attempts : AttemptsTrace machine) :
    arbiterPass machine = (do takeInterrupt TrapVector.breakpoint; return true) machine := by
  simp only [arbiterPass, Bind.bind, EStateM.bind, Microcode.processor, attempts.chosen]
  rfl

/-- Nothing is fetched ahead of the trap: a pass that goes for it takes it or breaks off. -/
theorem AttemptsTrace.not_executes (attempts : AttemptsTrace machine) : ¬Executes word machine after := by
  rintro ⟨_, _, ⟨fetched, _, settled, idle, _, _⟩, _⟩
  have pass := arbitrate_idle idle
  rw [attempts.takes] at pass
  obtain ⟨_, _, _, done⟩ := bind_eq_ok pass
  cases done

theorem Executes.lived (executes : Executes word machine after) (lived : Lived configuration passages machine.processor) :
    Lived configuration (.retired word after.processor.status :: passages) after.processor := by
  obtain ⟨live, settled, ⟨fetched, fetches⟩, outcome, done, retires⟩ := executes
  exact lived.step done (.settled live settled (.retired fetches retires))

theorem Enters.lived (enters : Enters machine after) (lived : Lived configuration passages machine.processor) :
    Lived configuration (.entered :: passages) after.processor := by
  cases enters with
  | step live settled done enters => exact lived.step done (.settled live settled (.entered enters))
  | check done => exact lived.check done

omit [Board β] in
/-- The trace trap is attempted exactly when it is due and the processor runs. -/
theorem Lived.attemptsTrace_iff (lived : Lived configuration passages machine.processor)
    (ready : machine.processor.lines.hasBusError = false) (settled : machine.processor.resetOnResume = false) :
    AttemptsTrace machine ↔ machine.processor.runState = .running ∧ traceDue passages = true := by
  constructor
  · rintro ⟨live, _, _, chosen⟩
    have due := Processor.service?_eq_trace.mp chosen
    rw [Processor.isTraceDue, lived.due live settled, Bool.and_eq_true] at due
    obtain ⟨traced, awake⟩ := due
    refine ⟨live.resolve_right fun waiting => ?_, traced⟩
    rw [waiting] at awake
    cases awake
  · rintro ⟨running, traced⟩
    have live : machine.processor.Live := .inl running
    refine ⟨live, settled, ready, Processor.service?_eq_trace.mpr ?_⟩
    rw [Processor.isTraceDue, lived.due live settled, traced, running]
    rfl

theorem Executes.boundaryStep (executes : Executes word machine after) :
    ∃ outcome, Dispatch.boundaryStep machine = .ok outcome after ∧ outcome.Retires := by
  obtain ⟨live, settled, _, outcome, done, retires⟩ := executes
  rw [Dispatch.step_eq live, settled, if_neg Bool.false_ne_true] at done
  exact ⟨outcome, done, retires⟩

/-- A step that retires its instruction leaves neither a reset nor a bus error to answer. -/
theorem Executes.settles (executes : Executes word machine after) :
    after.processor.resetOnResume = false ∧ after.processor.lines.hasBusError = false := by
  obtain ⟨outcome, stepped, _⟩ := executes.boundaryStep
  have settled := (Dispatch.resetOnResume_steady false).boundaryStep.ok executes.settled stepped
  exact ⟨settled, Dispatch.boundaryStep_ready stepped⟩

theorem Executes.executed (executes : Executes word machine after) :
    ∃ fetched retirement executed start pc, Fetches word machine fetched ∧
      executeWord word fetched = .ok retirement executed ∧ after = executed.retired start pc word := by
  obtain ⟨outcome, stepped, retires⟩ := executes.boundaryStep
  obtain ⟨fetched, ready, settled, idle, active, fetch⟩ := executes.fetches
  cases Dispatch.boundaryStep_ended stepped with
  | pending _ served | arbiterFailed _ _ served | instructionFailed _ _ _ _ served =>
    rcases Dispatch.serviceBusFault_untraced served with ⟨_, _, cut⟩ | ⟨rfl, _⟩
    · exact absurd cut retires.whole
    · exact retires.elim
  | interrupted | waiting => exact retires.elim
  | executed _ arbitrated _ finished =>
    rw [idle] at arbitrated
    cases arbitrated
    obtain ⟨same, _, retirement, executed, again, execution, rfl⟩ := instructionCycle_ok finished
    rw [fetch] at again
    cases again
    exact ⟨fetched, retirement, executed, _, _, ⟨ready, settled, idle, active, fetch⟩, execution, rfl⟩

/-- A return does not put the processor to sleep. -/
theorem Executes.running (executes : Executes 0o2 machine after) : after.processor.runState = .running := by
  obtain ⟨fetched, retirement, executed, start, pc, fetches, execution, rfl⟩ := executes.executed
  obtain ⟨ready, settled, idle, active, fetch⟩ := fetches
  obtain ⟨lines, kept, _⟩ := arbiterPass_idle (arbitrate_idle idle)
  obtain ⟨_, unmoved⟩ := fetchInstruction_ok fetch
  have awake : fetched.processor.runState = .running := by
    rw [kept] at active
    rw [unmoved, kept]
    exact executes.live.resolve_right active
  have found : Instruction.ofWord? 0o2 = some (.control .rti) := by decide
  simp only [executeWord, found] at execution
  obtain ⟨_, _, charged, done⟩ := bind_eq_ok execution
  obtain ⟨_, _, returning, charging⟩ := bind_eq_ok charged
  obtain ⟨_, _, returned, finished⟩ := bind_eq_ok returning
  cases finished
  cases charging
  cases done
  obtain ⟨newPc, status, board, _, rfl⟩ := returnFromTrap_ok returned
  obtain ⟨_, _, _, retired⟩ := Machine.retired_processor
    ((fetched.returned newPc status board).update (·.charge (Instruction.control .rti).cycles)) start pc 0o2
  rw [retired]
  exact (fetched.returned_runState newPc status board).trans awake

theorem Executes.next (executes : Executes word machine after) (lived : Lived configuration passages machine.processor)
    (board : β) : AttemptsTrace ⟨after.processor, board⟩ ↔
      after.processor.runState = .running ∧ after.processor.status.trace = true ∧ Traced word := by
  obtain ⟨settled, ready⟩ := executes.settles
  have livedOn : Lived configuration _ (⟨after.processor, board⟩ : Machine β).processor := executes.lived lived
  rw [livedOn.attemptsTrace_iff ready settled, traceDue, Bool.and_eq_true, decide_eq_true_eq]

theorem Enters.next (enters : Enters machine after) (lived : Lived configuration passages machine.processor) (board : β) :
    ¬AttemptsTrace ⟨after.processor, board⟩ := by
  intro attempts
  have livedOn : Lived configuration _ (⟨after.processor, board⟩ : Machine β).processor := enters.lived lived
  obtain ⟨_, due⟩ := (livedOn.attemptsTrace_iff attempts.ready attempts.settled).mp attempts
  cases due

/-- The trace trap comes exactly when it is due: the processor runs, and the last thing that
happened to it is an instruction other than RTT that left the trace bit set. So a return that
sets the bit traps before any instruction, while RTT and every entry into a handler let one
instruction pass. -/
theorem trace_trap_when_due (lived : Lived configuration passages machine.processor)
    (ready : machine.processor.lines.hasBusError = false) (settled : machine.processor.resetOnResume = false) :
    (AttemptsTrace machine ↔ machine.processor.runState = .running ∧ traceDue passages = true) ∧
    (∀ (returned : Machine β) (board : β), Executes 0o2 machine returned → returned.processor.status.trace = true →
      AttemptsTrace ⟨returned.processor, board⟩ ∧ ∀ word later, ¬Executes word ⟨returned.processor, board⟩ later) ∧
    ∀ (handling : Machine β) (board : β), Executes 0o6 machine handling ∨ Enters machine handling →
      ¬AttemptsTrace ⟨handling.processor, board⟩ ∧
      ∀ (word : Word) (last : Machine β) (board' : β), Executes word ⟨handling.processor, board⟩ last → Traced word →
        last.processor.status.trace = true → last.processor.runState = .running →
        AttemptsTrace ⟨last.processor, board'⟩ ∧ ∀ word later, ¬Executes word ⟨last.processor, board'⟩ later := by
  refine ⟨lived.attemptsTrace_iff ready settled, fun returned board executes trace => ?_, fun handling board entry => ?_⟩
  · have attempts := (executes.next lived board).mpr ⟨executes.running, trace, by decide⟩
    exact ⟨attempts, fun word later => attempts.not_executes⟩
  · have silent : ¬AttemptsTrace (⟨handling.processor, board⟩ : Machine β) := by
      rcases entry with rtt | enters
      · intro attempts
        obtain ⟨_, _, traced⟩ := (rtt.next lived board).mp attempts
        exact absurd traced (by decide)
      · exact enters.next lived board
    have reached : ∃ earlier, Lived configuration earlier handling.processor := by
      rcases entry with rtt | enters
      · exact ⟨_, rtt.lived lived⟩
      · exact ⟨_, enters.lived lived⟩
    obtain ⟨earlier, livedOn⟩ := reached
    refine ⟨silent, fun word last board' executes traced trace running => ?_⟩
    have attempts := (Executes.next executes livedOn board').mpr ⟨running, trace, traced⟩
    exact ⟨attempts, fun word later => attempts.not_executes⟩

end

/-- A return that sets the trace bit. Program counter and status word lie at its own
address and behind it, since the stack is at zero too. -/
def returnsTraced : Machine FlatBoard := ⟨.create { model := .vm2 }, FlatBoard.load {} 0 [0o2, 0o20]⟩

def tracedReturn : Machine FlatBoard := ended (Dispatch.step returnsTraced)

theorem trace_trap_when_due_return :
    tracedReturn.processor.status.trace = true ∧ AttemptsTrace tracedReturn ∧
      ∀ word later, ¬Executes word tracedReturn later := by
  have lived : Lived { model := .vm2 } [] returnsTraced.processor := .powerOn
  have idle : arbitrate returnsTraced = .ok false _ := eq_ok_of_answer (by decide +kernel)
  have fetched : fetchInstruction (ended (arbitrate returnsTraced)) = .ok 0o2 _ := eq_ok_of_answer (by decide +kernel)
  have stepped : Dispatch.step returnsTraced = .ok (.retired 24) tracedReturn := eq_ok_of_answer (by decide +kernel)
  have executes : Executes 0o2 returnsTraced tracedReturn :=
    ⟨.inl rfl, rfl, ⟨_, rfl, _, idle, by decide +kernel, fetched⟩, _, stepped, trivial⟩
  have trace : tracedReturn.processor.status.trace = true := by decide +kernel
  obtain ⟨_, returns, _⟩ := trace_trap_when_due lived rfl rfl
  have next (returned : Machine FlatBoard) (executes : Executes 0o2 returnsTraced returned)
      (trace : returned.processor.status.trace = true) :
      AttemptsTrace returned ∧ ∀ word later, ¬Executes word returned later :=
    returns returned returned.board executes trace
  exact ⟨trace, next tracedReturn executes trace⟩

end Pdp11
