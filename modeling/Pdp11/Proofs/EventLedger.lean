import Pdp11.Proofs.ArbiterCases
import Pdp11.Proofs.BlindViews
import Pdp11.Proofs.BoundaryCases
import Pdp11.Proofs.InstructionCases
import Pdp11.Proofs.ResetCases
import Pdp11.Proofs.Retirement

/-! What a processor keeps for those who watch it: the events that an observer is told and
the counts that go with them. Little code writes to it, and an entry does so behind its last
cycle, so what breaks off has told nothing about itself. -/

namespace Pdp11

/-- One count more for each of so many happenings. -/
def Counter.advance {limit : Nat} (counter : Counter limit) (happenings : Nat) : Counter limit :=
  ofNat (counter.value + happenings)

namespace Counter

variable {limit : Nat} (counter : Counter limit)

@[simp] theorem advance_zero : counter.advance 0 = counter := by
  apply ext
  exact Nat.min_eq_left counter.value_le

theorem bump_advance (happenings : Nat) : counter.bump.advance happenings = counter.advance (happenings + 1) := by
  apply ext
  have bound := counter.value_le
  simp only [advance, bump, ofNat]
  omega

theorem advance_advance (first second : Nat) :
    (counter.advance first).advance second = counter.advance (first + second) := by
  apply ext
  have bound := counter.value_le
  simp only [advance, ofNat]
  omega

end Counter

namespace TraceEvent

/-- A trap or HALT mode has been entered. -/
def isEntry : TraceEvent → Bool
  | trapTaken .. | haltEntered .. => true
  | instructionStart .. | instructionRetired .. | busFault .. | doubleFault .. => false

def isTrap : TraceEvent → Bool
  | trapTaken .. => true
  | instructionStart .. | instructionRetired .. | busFault .. | haltEntered .. | doubleFault .. => false

def isRetirement : TraceEvent → Bool
  | instructionRetired .. => true
  | instructionStart .. | trapTaken .. | busFault .. | haltEntered .. | doubleFault .. => false

def isBusFault : TraceEvent → Bool
  | busFault .. => true
  | instructionStart .. | instructionRetired .. | trapTaken .. | haltEntered .. | doubleFault .. => false

/-- From here on a trap is not the arbiter's. -/
def leavesArbiter : TraceEvent → Bool
  | instructionStart .. | busFault .. => true
  | instructionRetired .. | trapTaken .. | haltEntered .. | doubleFault .. => false

/-- Anyone may make an entry, so it leaves it open who is at work. -/
theorem stays_of_isEntry {event : TraceEvent} (entry : event.isEntry = true) : event.leavesArbiter = false := by
  cases event with
  | trapTaken | haltEntered => rfl
  | instructionStart | instructionRetired | busFault | doubleFault => cases entry

end TraceEvent

/-- What is kept for those who watch. -/
structure Ledger where
  enabled : Bool
  observed : Option (Array TraceEvent)
  instructions : LongCounter
  interrupts : LongCounter
  busFaults : ShortCounter

def Processor.ledger (processor : Processor) : Ledger where
  enabled := processor.configuration.traceEnabled
  observed := processor.observed
  instructions := processor.statistics.instructions
  interrupts := processor.statistics.interrupts
  busFaults := processor.statistics.busFaults

namespace Ledger

def tell (ledger : Ledger) (event : TraceEvent) : Ledger :=
  { ledger with observed := if ledger.enabled then ledger.observed.map (·.push event) else ledger.observed }

/-- Tells an event and counts what it stands for. A trap counts as an interrupt as long as
the arbiter is at work. -/
def note (ledger : Ledger) (arbitrating : Bool) (event : TraceEvent) : Ledger :=
  let told := ledger.tell event
  match event with
  | .instructionRetired .. => { told with instructions := ledger.instructions.bump }
  | .trapTaken .. => if arbitrating then { told with interrupts := ledger.interrupts.bump } else told
  | .busFault .. => { told with busFaults := ledger.busFaults.bump }
  | .instructionStart .. | .haltEntered .. | .doubleFault .. => told

/-- Notes the events of a step from somewhere on. -/
def noteAll (ledger : Ledger) (arbitrating : Bool) : List TraceEvent → Ledger
  | [] => ledger
  | event :: rest => (ledger.note arbitrating event).noteAll (arbitrating && !event.leavesArbiter) rest

variable (ledger : Ledger) (arbitrating : Bool) (events : List TraceEvent)

@[simp] theorem noteAll_nil : ledger.noteAll arbitrating [] = ledger := rfl

@[simp] theorem noteAll_cons (event : TraceEvent) (rest : List TraceEvent) : ledger.noteAll arbitrating (event :: rest) =
    (ledger.note arbitrating event).noteAll (arbitrating && !event.leavesArbiter) rest := rfl

theorem noteAll_append (entries : ∀ event ∈ events, event.isEntry = true) (rest : List TraceEvent) :
    ledger.noteAll arbitrating (events ++ rest) = (ledger.noteAll arbitrating events).noteAll arbitrating rest := by
  induction events generalizing ledger with
  | nil => rfl
  | cons event events ih =>
    obtain ⟨entry, others⟩ := List.forall_mem_cons.mp entries
    simp only [List.cons_append, noteAll_cons, TraceEvent.stays_of_isEntry entry, Bool.not_false, Bool.and_true]
    exact ih _ others

/-- The traps that the arbiter has taken in a step. -/
def arbiterTraps (events : List TraceEvent) : Nat :=
  (events.takeWhile (!·.leavesArbiter)).countP TraceEvent.isTrap

theorem noteAll_enabled : (ledger.noteAll arbitrating events).enabled = ledger.enabled := by
  induction events generalizing ledger arbitrating with
  | nil => rfl
  | cons event rest ih =>
    rw [noteAll_cons, ih]
    cases event <;> cases arbitrating <;> rfl

theorem noteAll_observed {seen : Array TraceEvent} (enabled : ledger.enabled = true) (observed : ledger.observed = some seen) :
    (ledger.noteAll arbitrating events).observed = some (seen ++ events.toArray) := by
  induction events generalizing ledger arbitrating seen with
  | nil => simpa using observed
  | cons event rest ih =>
    have told : (ledger.note arbitrating event).observed = some (seen.push event) := by
      cases event <;> cases arbitrating <;> simp [note, tell, enabled, observed]
    have still : (ledger.note arbitrating event).enabled = true := by
      rw [← enabled]
      exact ledger.noteAll_enabled arbitrating [event]
    rw [noteAll_cons, ih _ _ still told]
    simp

theorem noteAll_instructions : (ledger.noteAll arbitrating events).instructions =
    ledger.instructions.advance (events.countP TraceEvent.isRetirement) := by
  induction events generalizing ledger arbitrating with
  | nil => exact (Counter.advance_zero _).symm
  | cons event rest ih =>
    rw [noteAll_cons, ih]
    cases event <;> cases arbitrating <;> simp [note, tell, List.countP_cons, TraceEvent.isRetirement, Counter.bump_advance]

theorem noteAll_busFaults : (ledger.noteAll arbitrating events).busFaults =
    ledger.busFaults.advance (events.countP TraceEvent.isBusFault) := by
  induction events generalizing ledger arbitrating with
  | nil => exact (Counter.advance_zero _).symm
  | cons event rest ih =>
    rw [noteAll_cons, ih]
    cases event <;> cases arbitrating <;> simp [note, tell, List.countP_cons, TraceEvent.isBusFault, Counter.bump_advance]

theorem noteAll_interrupts : (ledger.noteAll arbitrating events).interrupts =
    ledger.interrupts.advance (if arbitrating then arbiterTraps events else 0) := by
  induction events generalizing ledger arbitrating with
  | nil => cases arbitrating <;> exact (Counter.advance_zero _).symm
  | cons event rest ih =>
    rw [noteAll_cons, ih]
    cases event <;> cases arbitrating <;>
      simp [note, tell, arbiterTraps, List.countP_cons, TraceEvent.leavesArbiter, TraceEvent.isTrap, Counter.bump_advance]

/-- Nothing more than one entry has been told, and nothing counted. -/
def AtMostEntry (ledger told : Ledger) : Prop :=
  told = ledger ∨ ∃ event : TraceEvent, event.isEntry = true ∧ told = ledger.tell event

end Ledger

theorem blind_ledger : Blind Processor.ledger := fun _ _ _ _ _ _ _ _ _ _ => rfl

@[simp] theorem Processor.ledger_emit (processor : Processor) (event : TraceEvent) :
    (processor.emit event).ledger = processor.ledger.tell event := by
  rw [emit_eq]
  rfl

variable {β : Type}

/-- A machine with this ledger. -/
abbrev HasLedger (ledger : Ledger) (machine : Machine β) : Prop := machine.processor.ledger = ledger

/-- Faults of an instruction's own word are counted apart. -/
theorem beside_faultsAlike_ledger (ledger : Ledger) : FaultsAlike (Beside (HasLedger ledger : Machine β → Prop)) := by
  rintro machine _ code decode ⟨rfl, kept⟩
  refine ⟨rfl, ?_⟩
  rw [← kept]
  cases code with
  | illegalInstruction | reservedInstruction => rfl
  | busError | doubleFault => cases decode

variable [Board β] {ledger : Ledger} {machine after : Machine β}

theorem beside_coupling_ledger (ledger : Ledger) :
    Coupling (Beside (HasLedger ledger : Machine β → Prop))
      (Beside fun machine => ledger.AtMostEntry machine.processor.ledger) := by
  refine blind_ledger.coupling (· = ledger) ledger.AtMostEntry (fun _ kept => .inl kept) fun processor vector interrupted kept => ?_
  exact .inr ⟨.trapTaken vector interrupted, rfl, by rw [Processor.ledger_emit, kept]⟩

namespace Machine

variable (machine)

theorem trapped_ledger (vector pc status : Word) (board : β) :
    (machine.trapped vector pc status board).processor.ledger =
      machine.processor.ledger.tell (.trapTaken vector machine.processor.pc) := by
  rw [trapped, update_processor, Processor.ledger_emit, blind_ledger.woken, blind_ledger.installStatus]
  rfl

theorem halted_ledger (pc status : Word) (board : β) : (machine.halted pc status board).processor.ledger =
    machine.processor.ledger.tell (.haltEntered machine.processor.pc) := by
  have banked : { machine.processor.syncShadow with bank := .halt }.ledger = machine.processor.ledger :=
    blind_ledger.syncShadow machine.processor
  rw [halted, update_processor, Processor.ledger_emit]
  change Ledger.tell { Processor.wake _ with tracePending := false }.ledger _ = _
  rw [blind_ledger.woken, blind_ledger.installStatus, ← banked]
  rfl

end Machine

namespace Microcode

theorem enterTrap_told {vector : Word} (done : enterTrap vector machine = .ok () after) :
    after.processor.ledger = machine.processor.ledger.tell (.trapTaken vector machine.processor.pc) := by
  obtain ⟨_, pc, status, board, _, rfl⟩ := enterTrap_ok done
  exact machine.trapped_ledger vector pc status board

theorem enterHaltMode_told (done : enterHaltMode machine = .ok () after) :
    after.processor.ledger = machine.processor.ledger.tell (.haltEntered machine.processor.pc) := by
  obtain ⟨_, pc, status, board, _, rfl⟩ := enterHaltMode_ok done
  exact machine.halted_ledger pc status board

/-- An instruction tells of the entry that it makes, if it makes one, and only if it does
not break off. -/
theorem execute_tells (instruction : Instruction) :
    Ensures (HasLedger ledger : Machine β → Prop) (execute instruction)
      (fun _ machine => ledger.AtMostEntry machine.processor.ledger) (fun _ => HasLedger ledger) :=
  (beside_coupling_ledger ledger).execute_ensures (beside_faultsAlike_ledger ledger) instruction

theorem halt_tells : Ensures (HasLedger ledger : Machine β → Prop) halt
    (fun _ machine => ledger.AtMostEntry machine.processor.ledger) (fun _ => HasLedger ledger) := by
  intro machine kept
  rw [halt_eq]
  cases machine.processor.model with
  | t11 =>
    exact (blind_ledger.restart (· = ledger)).weaken (fun _ kept => kept) (fun _ _ kept => .inl kept)
      (fun _ _ kept => kept) machine kept
  | vm2 =>
    simp only
    cases entry : enterHaltMode machine with
    | ok _ after => exact .inr ⟨_, rfl, by rw [enterHaltMode_told entry, kept]⟩
    | error abort broken => exact (blind_ledger.enterHaltMode_broken entry).trans kept

theorem executeCharged_tells (instruction : Instruction) :
    Ensures (HasLedger ledger : Machine β → Prop) (executeCharged instruction)
      (fun _ machine => ledger.AtMostEntry machine.processor.ledger) (fun _ => HasLedger ledger) := by
  refine (execute_tells instruction).bind fun retirement => ?_
  cases retirement with
  | completed | waiting | halting | trapped =>
    exact Ensures.bind (.modify fun _ told => told) fun _ => .pure fun _ told => told

/-- The HALT instruction itself tells nothing, so that there is one entry at most. -/
theorem executeWord_tells (word : Word) :
    Ensures (HasLedger ledger : Machine β → Prop) (executeWord word)
      (fun _ machine => ledger.AtMostEntry machine.processor.ledger) (fun _ => HasLedger ledger) := by
  unfold executeWord
  cases Instruction.ofWord? word with
  | none =>
    have trapping : Ensures (HasLedger ledger : Machine β → Prop) (trapped .reservedInstruction)
        (fun _ machine => ledger.AtMostEntry machine.processor.ledger) (fun _ => HasLedger ledger) :=
      ((beside_coupling_ledger ledger).trapped (beside_faultsAlike_ledger ledger) rfl).ensures
    exact trapping.bind fun _ => Ensures.bind (.modify fun _ told => told) fun _ => .pure fun _ told => told
  | some instruction =>
    by_cases halts : instruction = .control .halt
    · subst halts
      have executing : Ensures (HasLedger ledger : Machine β → Prop) (executeCharged (.control .halt))
          (fun retirement machine => retirement = .halting ∧ HasLedger ledger machine) (fun _ => HasLedger ledger) :=
        fun _ kept => ⟨rfl, kept⟩
      refine executing.bind fun retirement => ?_
      rintro machine ⟨rfl, kept⟩
      exact halt_tells.bind (fun _ => Ensures.pure fun _ told => told) machine kept
    · refine ((executeCharged_tells instruction).answering (executeCharged_retires instruction)).bind fun retirement => ?_
      cases retirement with
      | completed | trapped => exact .pure fun _ ended => ended.2
      | waiting => exact Ensures.bind (.modify fun _ ended => ended.2) fun _ => .pure fun _ told => told
      | halting =>
        rintro machine ⟨own, _⟩
        exact absurd own halts

end Microcode
end Pdp11
