import Pdp11.Microcode.Arbiter
import Pdp11.Proofs.Coupling
import Pdp11.Proofs.TrapEntry

/-! Views of a processor that show nothing of what instructions work on, such as its cycle
counter or what an observer has been told. Few parts of the microcode write there, and all
others leave such a view alone. -/

namespace Pdp11

variable {β ν α γ : Type} {view : Processor → ν}

/-- The view shows nothing of what instructions work on. -/
def Blind (view : Processor → ν) : Prop :=
  ∀ (processor : Processor) registers status shadow previousPc lines runState bank tracePending traceInhibited,
    view { processor with
      registers, status, shadow, previousPc, lines, runState, bank, tracePending, traceInhibited } = view processor

/-- A machine of which the view shows this. -/
abbrev Shows (view : Processor → ν) (holds : ν → Prop) (machine : Machine β) : Prop := holds (view machine.processor)

/-- Code that leaves a view alone, also where it breaks off. -/
def Leaves (view : Processor → ν) (code : Microcode β α) : Prop :=
  ∀ holds : ν → Prop, Keeps (fun machine => holds (view machine.processor)) code

namespace Leaves

theorem modify {change : Machine β → Machine β} (kept : ∀ machine, view (change machine).processor = view machine.processor) :
    Leaves view (modify change : Microcode β PUnit) :=
  fun holds => .modify fun machine shown => by rwa [kept machine]

theorem bind {code : Microcode β α} {next : α → Microcode β γ} (first : Leaves view code)
    (rest : ∀ value, Leaves view (next value)) : Leaves view (code >>= next) :=
  fun holds => (first holds).bind fun value => rest value holds

theorem processor : Leaves view (Microcode.processor : Microcode β Processor) := fun _ _ kept => kept

theorem consult (hook : β → α × β) : Leaves view (Microcode.consult hook) := fun _ _ kept => kept

end Leaves

namespace Blind

variable (blind : Blind view)

include blind

theorem syncShadow (processor : Processor) : view processor.syncShadow = view processor := by
  rw [Processor.syncShadow_eq]
  exact blind ..

theorem woken (processor : Processor) : view { processor.wake with tracePending := false } = view processor := by
  rw [Processor.wake_eq]
  exact blind processor ..

theorem cycle (request : β → Except BusError α × β) : Leaves view (Microcode.cycle request) := by
  intro holds machine shown
  cases result : Microcode.cycle request machine with
  | ok value after =>
    obtain ⟨_, kept⟩ := Microcode.cycle_ok result
    simp only [kept]
    exact shown
  | error abort after =>
    obtain ⟨_, lines, _, kept⟩ := Microcode.cycle_error result
    have same : view after.processor = view machine.processor := by
      rw [kept]
      exact blind ..
    simp only [same]
    exact shown

omit blind in
theorem beside {holds : ν → Prop} {change : Processor → Processor} {left right : Machine β}
    (beside : Beside (fun machine => holds (view machine.processor)) left right)
    (kept : ∀ processor, view (change processor) = view processor) :
    Beside (fun machine => holds (view machine.processor)) (left.update change) (right.update change) := by
  obtain ⟨rfl, shown⟩ := beside
  refine ⟨rfl, ?_⟩
  change holds (view (change left.processor))
  rwa [kept]

variable [Board β]

theorem installStatus (machine : Machine β) (bits : Word) :
    view (machine.installStatus bits).processor = view machine.processor := by
  rw [Machine.installStatus_processor]
  exact blind ..

theorem restore (machine : Machine β) (boundary : Checkpoint) :
    view (machine.restore boundary).processor = view machine.processor := by
  rw [Machine.restore, blind.installStatus]
  exact blind ..

theorem leaveHaltMode : Leaves view (Microcode.leaveHaltMode : Microcode β Unit) :=
  Leaves.processor.bind fun _ => .modify fun machine => blind.installStatus machine _

/-- No instruction looks at the view while it is executed. All it can do to it is to end in
a trap entry, which is told. -/
theorem coupling (inside outside : ν → Prop) (leave : ∀ shown, inside shown → outside shown)
    (trap : ∀ (processor : Processor) (vector interrupted : Word), inside (view processor) →
      outside (view (processor.emit (.trapTaken vector interrupted)))) :
    Coupling (Beside fun machine : Machine β => inside (view machine.processor))
      (Beside fun machine => outside (view machine.processor)) where
  registers beside := congrArg (·.processor.registers) beside.1
  status beside := congrArg (·.processor.status) beside.1
  move _ beside := Blind.beside beside fun _ => blind ..
  codes _ beside := Blind.beside beside fun _ => blind ..
  priority _ beside := Blind.beside beside fun _ => blind ..
  cycle request := by
    rintro machine _ ⟨rfl, shown⟩
    have kept := blind.cycle request inside machine shown
    cases result : Microcode.cycle request machine with
    | ok value after =>
      rw [result] at kept
      exact .ok ⟨rfl, rfl, kept⟩
    | error abort after =>
      rw [result] at kept
      have failed := (Microcode.cycle_error result).1
      exact .error ⟨⟨failed, failed⟩, rfl, kept⟩
  pulse {left right} beside := by
    obtain ⟨rfl, shown⟩ := beside
    refine ⟨rfl, ?_⟩
    change inside (view { left.processor with lines := left.processor.lines.clearEvent })
    rwa [show view { left.processor with lines := left.processor.lines.clearEvent } = view left.processor from blind ..]
  leave beside := ⟨beside.1, leave _ beside.2⟩
  install {left right} bits beside := by
    obtain ⟨rfl, shown⟩ := beside
    refine ⟨rfl, leave _ ?_⟩
    rwa [blind.installStatus]
  trap {left right} bits vector interrupted beside := by
    obtain ⟨rfl, shown⟩ := beside
    refine ⟨rfl, trap _ vector interrupted ?_⟩
    rwa [Machine.update_processor, blind.woken, blind.installStatus]
  inhibit beside := Blind.beside beside fun _ => blind ..

/-- While an instruction is under way nothing is said about its end. -/
theorem underway (holds : ν → Prop) : Coupling (Beside fun machine : Machine β => holds (view machine.processor))
    (Beside fun _ => True) :=
  blind.coupling holds (fun _ => True) (fun _ _ => trivial) fun _ _ _ _ => trivial

theorem fetchWord : Leaves view (Microcode.fetchWord : Microcode β Word) :=
  fun holds => (blind.underway holds).fetchWord.ensures

theorem push (value : Word) : Leaves view (Microcode.push value : Microcode β Unit) :=
  fun holds => ((blind.underway holds).push value).ensures

theorem restart : Leaves view (Microcode.restart : Microcode β Unit) :=
  Leaves.processor.bind fun _ => (blind.push _).bind fun _ => (blind.push _).bind fun _ =>
    Leaves.bind (.modify fun _ => blind ..) fun _ => .modify fun _ => blind ..

/-- An entry that breaks off has shown nothing yet. -/
theorem enterTrap (inside outside : ν → Prop) (leave : ∀ shown, inside shown → outside shown)
    (trap : ∀ (processor : Processor) (vector interrupted : Word), inside (view processor) →
      outside (view (processor.emit (.trapTaken vector interrupted)))) (vector : Word) :
    Ensures (fun machine : Machine β => inside (view machine.processor)) (Microcode.enterTrap vector)
      (fun _ machine => outside (view machine.processor)) (fun _ machine => inside (view machine.processor)) := by
  by_cases aligned : vector &&& 3 = 0
  · exact ((blind.coupling inside outside leave trap).enterTrap aligned).ensures
  · intro machine shown
    have misaligned : Microcode.enterTrap vector machine = .error (.misaligned ⟨vector⟩) machine := by
      unfold Microcode.enterTrap
      rw [if_pos (by simpa using aligned)]
      rfl
    rw [misaligned]
    exact shown

omit [Board β] in
theorem updateLines (change : InputLines → InputLines) : Leaves view (Microcode.updateLines change : Microcode β Unit) :=
  .modify fun _ => blind ..

section

variable (idle entered : ν → Prop)
  (interrupt : ∀ vector, Ensures (Shows view idle : Machine β → Prop) (Microcode.takeInterrupt vector)
    (fun _ => Shows view entered) fun _ => Shows view idle)
  (halt : Ensures (Shows view idle : Machine β → Prop) Microcode.enterHaltMode (fun _ => Shows view entered)
    fun _ => Shows view idle)

include interrupt halt

/-- All that arbitration does to the view it does by an interrupt, or by entering HALT mode. -/
theorem serve (service : Service) :
    Ensures (Shows view idle : Machine β → Prop) (Microcode.serve service)
      (fun taken machine => if taken then Shows view entered machine else Shows view idle machine)
      fun _ => Shows view idle := by
  -- a line is dropped behind its entry, where no cycle can fail any more
  have dropping (change : InputLines → InputLines) : Ensures (Shows view entered : Machine β → Prop)
      (Microcode.updateLines change) (fun _ => Shows view entered) fun _ => Shows view idle :=
    blind.updateLines change entered
  cases service with
  | trace => exact (interrupt _).bind fun _ => .pure fun _ shown => shown
  | request number =>
    exact (Leaves.consult _ idle).bind fun _ => (interrupt _).bind fun _ => .pure fun _ shown => shown
  | haltPin => exact halt.bind fun _ => .pure fun _ shown => shown
  | powerFail | event => exact (interrupt _).bind fun _ => (dropping _).bind fun _ => .pure fun _ shown => shown
  | chain =>
    refine (Leaves.consult _ idle).bind fun answer => ?_
    cases answer.filter (· != 0) with
    | none => exact (blind.updateLines _ idle).bind fun _ => .pure fun _ shown => shown
    | some vector =>
      exact (blind.leaveHaltMode idle).bind fun _ => (blind.updateLines _ idle).bind fun _ => (interrupt vector).bind fun _ =>
        .pure fun _ shown => shown

theorem arbiterPass :
    Ensures (Shows view idle : Machine β → Prop) Microcode.arbiterPass
      (fun taken machine => if taken then Shows view entered machine else Shows view idle machine)
      fun _ => Shows view idle := by
  refine (Leaves.processor idle).bind fun processor => ?_
  cases processor.service? with
  | some service => exact blind.serve idle entered interrupt halt service
  | none => exact .pure fun _ shown => shown

end

variable {machine broken : Machine β} {abort : Abort}

theorem enterTrap_broken {vector : Word} (failed : Microcode.enterTrap vector machine = .error abort broken) :
    view broken.processor = view machine.processor := by
  refine Ensures.error (blind.enterTrap (· = view machine.processor) (fun _ => True) ?_ ?_ vector) rfl failed
  · exact fun _ _ => trivial
  · exact fun _ _ _ _ => trivial

theorem enterHaltMode_broken (failed : Microcode.enterHaltMode machine = .error abort broken) :
    view broken.processor = view machine.processor := by
  have banked : view machine.haltBanked.processor = view machine.processor := by
    rw [Machine.haltBanked_processor, ← blind.syncShadow machine.processor]
    exact blind ..
  -- only the two cycles can fail, and they come first
  have reading (address : Word) : Ensures (fun state : Machine β => view state.processor = view machine.processor)
      (Microcode.readWord address) (fun _ state => view state.processor = view machine.processor)
      (fun _ state => view state.processor = view machine.processor) := blind.cycle _ (· = view machine.processor)
  have finishes {code : Microcode β Unit} (finishing : ∀ state, ∃ after, code state = .ok () after) :
      Ensures (fun state : Machine β => view state.processor = view machine.processor) code (fun _ _ => True)
        (fun _ state => view state.processor = view machine.processor) := by
    intro state _
    obtain ⟨after, done⟩ := finishing state
    rw [done]
    trivial
  have taken : Ensures (fun state : Machine β => view state.processor = view machine.processor)
      (Microcode.takeBlock machine.processor) (fun _ _ => True)
      (fun _ state => view state.processor = view machine.processor) :=
    (reading _).bind fun _ => (reading _).bind fun _ => finishes fun _ => ⟨_, rfl⟩
  rw [Microcode.enterHaltMode_eq] at failed
  exact taken.error banked failed

end Blind
end Pdp11
