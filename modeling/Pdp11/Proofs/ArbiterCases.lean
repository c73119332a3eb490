import Pdp11.Proofs.RoutineActions
import Pdp11.Proofs.TrapEntry

/-! What a pass of the arbiter has done. Where it took something, that is one entry with
bookkeeping around it; where it took nothing, at most the interrupt chain was asked. -/

namespace Pdp11

variable {β : Type} [Board β] {machine after : Machine β}

/-- Bookkeeping around an entry. -/
structure Aside (before after : Machine β) : Prop where
  path : Actions .any before after
  registers : after.processor.registers = before.processor.registers
  busErrors : after.processor.lines.busErrors = before.processor.lines.busErrors

namespace Aside

theorem refl (machine : Machine β) : Aside machine machine := ⟨.refl, rfl, rfl⟩

theorem tail {before middle after : Machine β} (aside : Aside before middle) (action : Action .any middle after)
    (registers : after.processor.registers = middle.processor.registers)
    (busErrors : after.processor.lines.busErrors = middle.processor.lines.busErrors) : Aside before after :=
  ⟨aside.path.tail action, registers.trans aside.registers, busErrors.trans aside.busErrors⟩

theorem lines {before middle : Machine β} (aside : Aside before middle) {change : InputLines → InputLines}
    (counted : ∀ lines, (change lines).busErrors = lines.busErrors) :
    Aside before (middle.update fun processor => { processor with lines := change processor.lines }) :=
  aside.tail (.lines middle trivial _ (counted _)) rfl (counted _)

theorem sp {before after : Machine β} (aside : Aside before after) : after.processor.sp = before.processor.sp :=
  congrArg RegisterFile.sp aside.registers

theorem hasBusError {before after : Machine β} (aside : Aside before after) :
    after.processor.lines.hasBusError = before.processor.lines.hasBusError := by
  simp only [InputLines.hasBusError, aside.busErrors]

end Aside

/-- Services that begin by asking a device for its vector. -/
def Service.asks : Service → Bool
  | request _ | chain => true
  | trace | haltPin | powerFail | event => false

inductive Entered (machine after : Machine β) : Prop where
  | trap {vector : Word} {start entered : Machine β} (before : Aside machine start)
      (taken : Microcode.enterTrap vector start = .ok () entered) (later : Aside entered after)
  | halt (chosen : machine.processor.service? = some .haltPin) (taken : Microcode.enterHaltMode machine = .ok () after)

/-- Releasing the request of the chain releases nothing else. -/
theorem InputLines.isAsserted_virqReleased (lines : InputLines) (line : InputLine) :
    (lines.setLevel .virq false).isAsserted line = (line != .virq && lines.isAsserted line) := by
  cases line with
  | event | busError => rfl
  | irq0 | irq1 | irq2 | irq3 | virq | aclo | halt =>
    simp [isAsserted, setLevel, InputLine.levelBit?, BitVec.and_assoc]

/-- Once the chain has nothing left, nothing else is served either: it comes last. -/
theorem Processor.service?_virqReleased {processor : Processor} (chosen : processor.service? = some .chain) :
    { processor with lines := processor.lines.setLevel .virq false }.service? = none := by
  have event : (processor.lines.setLevel .virq false).event = processor.lines.event := rfl
  have due : { processor with lines := processor.lines.setLevel .virq false }.isTraceDue = processor.isTraceDue := rfl
  unfold service? at chosen ⊢
  rw [due]
  split at chosen
  · cases chosen
  rename_i untraced
  rw [if_neg untraced]
  cases has : processor.model with
  | t11 =>
    simp only [has, t11Service?] at chosen
    split at chosen <;> cases chosen
  | vm2 =>
    have kept : { processor with lines := processor.lines.setLevel .virq false }.model = .vm2 := has
    simp only [has] at chosen
    simp only [kept]
    unfold vm2Service? at chosen ⊢
    simp only [InputLines.isAsserted_virqReleased, event]
    grind
namespace Microcode

theorem takeInterrupt_taken {vector : Word} (done : takeInterrupt vector machine = .ok () after) :
    ∃ entered, enterTrap vector machine = .ok () entered ∧ Aside entered after := by
  obtain ⟨_, entered, taken, done⟩ := bind_eq_ok done
  cases done
  have charged := (Aside.refl entered).tail (.charge entered CostKind.interruptEntry.cycles) rfl rfl
  exact ⟨entered, taken, charged.tail (.count _ _) rfl rfl⟩

theorem consult_taken {α : Type} {hook : β → α × β} {answer : α} (called : ∀ board, Called .any board (hook board).2)
    (done : consult hook machine = .ok answer after) : Aside machine after := by
  cases done
  exact (Aside.refl machine).tail (.call machine.processor (called machine.board)) rfl rfl

theorem serve_taken {service : Service} (chosen : machine.processor.service? = some service)
    (served : serve service machine = .ok true after) : Entered machine after := by
  cases service with
  | trace =>
    obtain ⟨_, _, taken, done⟩ := bind_eq_ok served
    cases done
    obtain ⟨entered, taken, later⟩ := takeInterrupt_taken taken
    exact .trap (.refl machine) taken later
  | request number =>
    obtain ⟨_, asked, answered, served⟩ := bind_eq_ok served
    obtain ⟨_, _, taken, done⟩ := bind_eq_ok served
    cases done
    obtain ⟨entered, taken, later⟩ := takeInterrupt_taken taken
    exact .trap (consult_taken (fun board => .acknowledge trivial _ board) answered) taken later
  | haltPin =>
    obtain ⟨_, _, entered, done⟩ := bind_eq_ok served
    cases done
    exact .halt chosen entered
  | powerFail =>
    obtain ⟨_, _, taken, served⟩ := bind_eq_ok served
    obtain ⟨_, _, dropped, done⟩ := bind_eq_ok served
    cases done
    cases dropped
    obtain ⟨entered, taken, later⟩ := takeInterrupt_taken taken
    exact .trap (.refl machine) taken (later.lines fun lines => InputLines.busErrors_setLevel lines .aclo false)
  | event =>
    obtain ⟨_, _, taken, served⟩ := bind_eq_ok served
    obtain ⟨_, _, dropped, done⟩ := bind_eq_ok served
    cases done
    cases dropped
    obtain ⟨entered, taken, later⟩ := takeInterrupt_taken taken
    exact .trap (.refl machine) taken (later.lines fun _ => rfl)
  | chain =>
    obtain ⟨answer, asked, answered, served⟩ := bind_eq_ok served
    have asking := consult_taken (fun board => .acknowledgeChain trivial board) answered
    cases found : answer.filter (· != 0) with
    | none =>
      simp only [found] at served
      obtain ⟨_, _, dropped, done⟩ := bind_eq_ok served
      cases done
    | some vector =>
      simp only [found] at served
      obtain ⟨_, left, leaving, served⟩ := bind_eq_ok served
      obtain ⟨_, _, dropped, served⟩ := bind_eq_ok served
      cases dropped
      obtain ⟨_, _, taken, done⟩ := bind_eq_ok served
      cases done
      cases leaving
      obtain ⟨entered, taken, later⟩ := takeInterrupt_taken taken
      have outside := asking.tail (.install asked (asked.processor.status.bits &&& ~~~StatusWord.haltBit))
        (by rw [Machine.installStatus_processor]) (by rw [Machine.installStatus_processor])
      have served : ∀ lines : InputLines, lines.clearEvent.busErrors = lines.busErrors := fun _ => rfl
      exact .trap (outside.lines served) taken later

/-- Every service but the HALT pin is a trap entry, begun with the registers of the
program. Only the chain leaves HALT mode before it. -/
theorem serve_interrupts {service : Service} (vectored : service ≠ .haltPin)
    (served : serve service machine = .ok true after) :
    ∃ vector start entered lines, takeInterrupt vector start = .ok () entered ∧
      start.processor.registers = machine.processor.registers ∧
      start.processor.status = (if service = .chain then
        machine.installed (machine.processor.status.bits &&& ~~~StatusWord.haltBit) else machine.processor.status) ∧
      after.processor = { entered.processor with lines } ∧ after.board = entered.board := by
  cases service with
  | haltPin => exact absurd rfl vectored
  | trace =>
    obtain ⟨_, entered, taken, done⟩ := bind_eq_ok served
    cases done
    exact ⟨_, machine, _, _, taken, rfl, rfl, rfl, rfl⟩
  | request number =>
    obtain ⟨_, asked, answered, served⟩ := bind_eq_ok served
    obtain ⟨_, entered, taken, done⟩ := bind_eq_ok served
    cases done
    cases answered
    exact ⟨_, _, _, _, taken, rfl, rfl, rfl, rfl⟩
  | powerFail | event =>
    obtain ⟨_, entered, taken, served⟩ := bind_eq_ok served
    obtain ⟨_, _, dropped, done⟩ := bind_eq_ok served
    cases done
    cases dropped
    exact ⟨_, machine, entered, _, taken, rfl, rfl, rfl, rfl⟩
  | chain =>
    obtain ⟨answer, asked, answered, served⟩ := bind_eq_ok served
    cases found : answer.filter (· != 0) with
    | none =>
      simp only [found] at served
      obtain ⟨_, _, dropped, done⟩ := bind_eq_ok served
      cases done
    | some vector =>
      simp only [found] at served
      obtain ⟨_, left, leaving, served⟩ := bind_eq_ok served
      obtain ⟨_, start, dropped, served⟩ := bind_eq_ok served
      obtain ⟨_, entered, taken, done⟩ := bind_eq_ok served
      cases done
      cases dropped
      cases leaving
      cases answered
      refine ⟨vector, _, _, _, taken, ?_, ?_, rfl, rfl⟩
      · simp only [Machine.update_processor, Machine.installStatus_processor]
      · simp only [Machine.update_processor, Machine.installStatus_processor]
        rfl

theorem arbiterPass_taken (taken : arbiterPass machine = .ok true after) : Entered machine after := by
  obtain ⟨_, _, read, taken⟩ := bind_eq_ok taken
  cases read
  cases chosen : machine.processor.service? with
  | none =>
    rw [chosen] at taken
    cases taken
  | some service =>
    rw [chosen] at taken
    exact serve_taken chosen taken

theorem arbitrate_taken (taken : arbitrate machine = .ok true after) :
    ∃ first, Entered machine first ∧ Actions .any first after := by
  obtain ⟨any, first, pass, rest⟩ := bind_eq_ok taken
  cases any with
  | false => cases rest
  | true =>
    obtain ⟨_, _, passes, done⟩ := bind_eq_ok rest
    cases done
    exact ⟨first, arbiterPass_taken pass, (acts_arbiterPasses (Scope.any_arbitrates _) _).ok rfl passes⟩

/-- An interrupt differs from its trap entry in what it counts and charges. -/
theorem takeInterrupt_ok {vector : Word} (done : takeInterrupt vector machine = .ok () after) :
    ∃ entered cycles statistics, enterTrap vector machine = .ok () entered ∧
      after = ⟨{ entered.processor with cycles, statistics }, entered.board⟩ := by
  obtain ⟨_, entered, taken, done⟩ := bind_eq_ok done
  cases done
  exact ⟨entered, _, _, taken, rfl⟩

theorem takeInterrupt_untraced {vector : Word} (done : takeInterrupt vector machine = .ok () after) :
    after.processor.tracePending = false := by
  obtain ⟨entered, _, _, taken, rfl⟩ := takeInterrupt_ok done
  obtain ⟨_, pc, status, board, _, same⟩ := enterTrap_ok taken
  have untraced := machine.trapped_tracePending vector pc status board
  rwa [← same] at untraced

/-- No trace trap is pending behind an entry. -/
theorem arbiterPass_untraced (taken : arbiterPass machine = .ok true after) : after.processor.tracePending = false := by
  obtain ⟨_, _, read, served⟩ := bind_eq_ok taken
  cases read
  cases chosen : machine.processor.service? with
  | none =>
    rw [chosen] at served
    cases served
  | some service =>
    rw [chosen] at served
    by_cases vectored : service = .haltPin
    · subst vectored
      obtain ⟨_, _, halted, done⟩ := bind_eq_ok served
      cases done
      obtain ⟨_, pc, status, board, _, rfl⟩ := enterHaltMode_ok halted
      exact machine.halted_tracePending pc status board
    · obtain ⟨_, _, _, _, entry, _, _, kept, _⟩ := serve_interrupts vectored served
      rw [kept]
      exact takeInterrupt_untraced entry

/-- Only the chain can be asked in vain. -/
theorem serve_answers {service : Service} (apart : service ≠ .chain) :
    Answers (· = true) (serve service : Microcode β Bool) := by
  cases service with
  | trace | haltPin => exact .last fun _ => .pure rfl
  | request number | powerFail | event => exact .last fun _ => .last fun _ => .pure rfl
  | chain => exact absurd rfl apart

/-- A request is dropped from its line behind the last cycle that can fail, so a failed
entry leaves it there. Only a device that was asked has given its request away by then. -/
theorem serve_broken {allowed : Scope} {service : Service} {broken : Machine β} {abort : Abort}
    (halts : allowed.Halts machine.processor.model) (chosen : machine.processor.service? = some service)
    (silent : service.asks = false) (failed : serve service machine = .error abort broken) :
    abort = .failedCycle ∧ Broken allowed machine abort broken := by
  have taken {vector : Word} (aligned : vector &&& 3 = 0) (failed : takeInterrupt vector machine = .error abort broken) :
      abort = .failedCycle ∧ Broken allowed machine abort broken := by
    have only : OnlyCyclesFail (takeInterrupt vector : Microcode β Unit) :=
      (OnlyCyclesFail.enterTrap aligned).bind fun _ => (OnlyCyclesFail.modify _).bind fun _ => .modify _
    exact ⟨only _ _ _ failed, (acts_takeInterrupt vector).error failed⟩
  cases service with
  | request | chain => cases silent
  | haltPin =>
    have has := model_of_haltPin chosen
    rcases bind_eq_error failed with entry | ⟨_, _, _, done⟩
    · exact ⟨OnlyCyclesFail.enterHaltMode _ _ _ entry, (acts_enterHaltMode has (has ▸ halts)).error rfl entry⟩
    · cases done
  | trace | powerFail | event =>
    rcases bind_eq_error failed with entry | ⟨_, _, _, done⟩
    · exact taken (by decide) entry
    · cases done

/-- A pass that takes nothing has found nothing, or has asked the chain in vain. -/
theorem arbiterPass_idle_cases (idle : arbiterPass machine = .ok false after) :
    machine.processor.service? = none ∧ after = machine ∨
      machine.processor.service? = some .chain ∧
        after = ⟨{ machine.processor with lines := machine.processor.lines.setLevel .virq false },
          (Board.acknowledgeChain machine.board).2⟩ := by
  obtain ⟨_, _, read, idle⟩ := bind_eq_ok idle
  cases read
  cases chosen : machine.processor.service? with
  | none =>
    rw [chosen] at idle
    cases idle
    exact .inl ⟨rfl, rfl⟩
  | some service =>
    rw [chosen] at idle
    by_cases apart : service = .chain
    · subst apart
      obtain ⟨answer, asked, answered, idle⟩ := bind_eq_ok idle
      cases found : answer.filter (· != 0) with
      | none =>
        simp only [found] at idle
        cases idle
        cases answered
        exact .inr ⟨rfl, rfl⟩
      | some vector =>
        simp only [found] at idle
        have taken : Answers (· = true) (do
            leaveHaltMode
            updateLines (·.clearEvent)
            takeInterrupt vector
            return true : Microcode β Bool) := .last fun _ => .last fun _ => .last fun _ => .pure rfl
        cases taken _ _ _ idle
    · cases serve_answers apart _ _ _ idle

theorem arbiterPass_idle (idle : arbiterPass machine = .ok false after) :
    ∃ lines, after.processor = { machine.processor with lines } ∧
      (after.board = machine.board ∨ after.board = (Board.acknowledgeChain machine.board).2) := by
  rcases arbiterPass_idle_cases idle with ⟨_, rfl⟩ | ⟨_, rfl⟩
  · exact ⟨_, rfl, .inl rfl⟩
  · exact ⟨_, rfl, .inr rfl⟩

/-- Behind such a pass nothing is left to be served. -/
theorem arbiterPass_idle_quiet (idle : arbiterPass machine = .ok false after) : after.processor.service? = none := by
  rcases arbiterPass_idle_cases idle with ⟨quiet, rfl⟩ | ⟨chosen, rfl⟩
  · exact quiet
  · exact Processor.service?_virqReleased chosen

theorem arbiterPasses_untraced (limit : Nat) : Ensures (fun machine : Machine β => machine.processor.tracePending = false)
    (arbiterPasses limit) (fun _ machine => machine.processor.tracePending = false) (fun _ _ => True) := by
  induction limit with
  | zero => exact .pure fun _ untraced => untraced
  | succ limit ih =>
    have pass : Ensures (fun machine : Machine β => machine.processor.tracePending = false) arbiterPass
        (fun _ machine => machine.processor.tracePending = false) (fun _ _ => True) := by
      refine .of_ok fun {machine after taken} untraced done => ?_
      cases taken with
      | true => exact arbiterPass_untraced done
      | false =>
        obtain ⟨lines, kept, _⟩ := arbiterPass_idle done
        rw [kept]
        exact untraced
    refine pass.bind fun taken => ?_
    cases taken with
    | true => exact ih.bind fun _ => .pure fun _ untraced => untraced
    | false => exact .pure fun _ untraced => untraced

theorem arbitrate_untraced (taken : arbitrate machine = .ok true after) : after.processor.tracePending = false := by
  obtain ⟨any, first, pass, rest⟩ := bind_eq_ok taken
  cases any with
  | false => cases rest
  | true =>
    obtain ⟨_, _, passes, done⟩ := bind_eq_ok rest
    cases done
    exact (arbiterPasses_untraced _).ok (arbiterPass_untraced pass) passes

theorem arbitrate_idle (idle : arbitrate machine = .ok false after) : arbiterPass machine = .ok false after := by
  obtain ⟨any, passed, pass, rest⟩ := bind_eq_ok idle
  cases any with
  | true =>
    obtain ⟨_, _, _, done⟩ := bind_eq_ok rest
    cases done
  | false =>
    cases rest
    exact pass

theorem arbiterPass_eq_serve {service : Service} (chosen : machine.processor.service? = some service) :
    arbiterPass machine = serve service machine := by
  simp only [arbiterPass, Bind.bind, EStateM.bind, processor, chosen]

theorem arbiterPass_quiet (quiet : machine.processor.service? = none) : arbiterPass machine = .ok false machine := by
  simp only [arbiterPass, Bind.bind, EStateM.bind, processor, quiet]
  rfl

theorem arbiterPasses_quiet (quiet : machine.processor.service? = none) (limit : Nat) :
    arbiterPasses limit machine = .ok false machine := by
  cases limit with
  | zero => rfl
  | succ limit =>
    rw [arbiterPasses, bind_of_ok (arbiterPass_quiet quiet)]
    rfl

theorem arbitrate_quiet (quiet : machine.processor.service? = none) : arbitrate machine = .ok false machine :=
  arbiterPasses_quiet quiet _

/-- An entry behind which nothing else wants service ends arbitration. -/
theorem arbitrate_once (taken : arbiterPass machine = .ok true after) (quiet : after.processor.service? = none) :
    arbitrate machine = .ok true after := by
  rw [arbitrate, maxNestedTraps, arbiterPasses, bind_of_ok taken, if_pos rfl, bind_of_ok (arbiterPasses_quiet quiet _)]
  rfl

theorem arbitrate_error {abort : Abort} (failed : arbiterPass machine = .error abort after) :
    arbitrate machine = .error abort after := by
  simp only [arbitrate, maxNestedTraps, arbiterPasses, Bind.bind, EStateM.bind, failed]

end Microcode
end Pdp11
