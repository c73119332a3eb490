import Pdp11.Board.Faulty
import Pdp11.Board.Flat
import Pdp11.Proofs.EventLedger
import Pdp11.Proofs.Lockstep

/-! What a step tells an observer. The events of a step follow a grammar that is decided by
its outcome, and the counts go on with them. Events are told where things happen and the
outcome is decided elsewhere, so this takes the arbiter, the instruction and the answer to a
bus error one by one, each with the ledger that it leaves, also where it breaks off. -/

namespace Pdp11

/-- The events of so many entries at most. -/
structure EntryEvents (most : Nat) (events : List TraceEvent) : Prop where
  few : events.length ≤ most
  entries : ∀ event ∈ events, event.isEntry = true

namespace EntryEvents

variable {most : Nat} {events : List TraceEvent}

theorem none (most : Nat) : EntryEvents most [] := ⟨Nat.zero_le most, nofun⟩

theorem cons {event : TraceEvent} (entry : event.isEntry = true) (rest : EntryEvents most events) :
    EntryEvents (most + 1) (event :: events) :=
  ⟨Nat.succ_le_succ rest.few, List.forall_mem_cons.mpr ⟨entry, rest.entries⟩⟩

end EntryEvents

variable {β : Type} [Board β] {ledger : Ledger} {machine after : Machine β}

/-- The arbiter has made an entry. -/
def Ledger.Entered (ledger told : Ledger) : Prop :=
  ∃ event : TraceEvent, event.isEntry = true ∧ told = ledger.note true event

/-- What a pass of the arbiter leaves of a ledger. -/
def Ledger.Passed (ledger : Ledger) (taken : Bool) (told : Ledger) : Prop :=
  if taken then ledger.Entered told else told = ledger

/-- What so many passes at most leave of a ledger: one event for each that took something. -/
def Ledger.Arbitrated (ledger : Ledger) (limit : Nat) (taken : Bool) (told : Ledger) : Prop :=
  ∃ events, EntryEvents limit events ∧ (taken = true ↔ events ≠ []) ∧ told = ledger.noteAll true events

/-- The same where one of the passes breaks off: that one has told nothing. -/
def Ledger.CutShort (ledger : Ledger) (limit : Nat) (told : Ledger) : Prop :=
  ∃ most < limit, ∃ events, EntryEvents most events ∧ told = ledger.noteAll true events

namespace Microcode

/-- An interrupt is told and counted when its entry is complete. -/
theorem takeInterrupt_notes (vector : Word) :
    Ensures (HasLedger ledger : Machine β → Prop) (takeInterrupt vector)
      (fun _ machine => ∃ pc, HasLedger (ledger.note true (.trapTaken vector pc)) machine) (fun _ => HasLedger ledger) := by
  have entering : Ensures (HasLedger ledger : Machine β → Prop) (enterTrap vector)
      (fun _ machine => ∃ pc, HasLedger (ledger.tell (.trapTaken vector pc)) machine) (fun _ => HasLedger ledger) := by
    intro machine kept
    cases entry : enterTrap vector machine with
    | ok _ after => exact ⟨_, (enterTrap_told entry).trans (by rw [kept])⟩
    | error abort broken => exact (blind_ledger.enterTrap_broken entry).trans kept
  have charged : Ensures (fun machine : Machine β => ∃ pc, HasLedger (ledger.tell (.trapTaken vector pc)) machine)
      (charge .interruptEntry) (fun _ machine => ∃ pc, HasLedger (ledger.tell (.trapTaken vector pc)) machine)
      (fun _ => HasLedger ledger) := .modify fun _ told => told
  refine entering.bind fun _ => charged.bind fun _ => .modify ?_
  rintro machine ⟨pc, told⟩
  refine ⟨pc, ?_⟩
  change { machine.processor.ledger with interrupts := machine.processor.ledger.interrupts.bump } = _
  rw [told]
  rfl

theorem enterHaltMode_notes :
    Ensures (HasLedger ledger : Machine β → Prop) enterHaltMode
      (fun _ machine => ∃ pc, HasLedger (ledger.note true (.haltEntered pc)) machine) (fun _ => HasLedger ledger) := by
  intro machine kept
  cases entry : enterHaltMode machine with
  | ok _ after => exact ⟨_, (enterHaltMode_told entry).trans (by rw [kept]; rfl)⟩
  | error abort broken => exact (blind_ledger.enterHaltMode_broken entry).trans kept

theorem arbiterPass_notes :
    Ensures (HasLedger ledger : Machine β → Prop) arbiterPass
      (fun taken machine => ledger.Passed taken machine.processor.ledger) (fun _ => HasLedger ledger) := by
  have interrupt (vector : Word) : Ensures (HasLedger ledger : Machine β → Prop) (takeInterrupt vector)
      (fun _ machine => ledger.Entered machine.processor.ledger) (fun _ => HasLedger ledger) :=
    (takeInterrupt_notes vector).weaken (fun _ kept => kept) (fun _ _ ⟨_, told⟩ => ⟨_, rfl, told⟩) fun _ _ kept => kept
  have halt : Ensures (HasLedger ledger : Machine β → Prop) enterHaltMode
      (fun _ machine => ledger.Entered machine.processor.ledger) (fun _ => HasLedger ledger) :=
    enterHaltMode_notes.weaken (fun _ kept => kept) (fun _ _ ⟨_, told⟩ => ⟨_, rfl, told⟩) fun _ _ kept => kept
  exact blind_ledger.arbiterPass (· = ledger) ledger.Entered interrupt halt

theorem arbiterPasses_notes (limit : Nat) :
    Ensures (HasLedger ledger : Machine β → Prop) (arbiterPasses limit)
      (fun taken machine => ledger.Arbitrated limit taken machine.processor.ledger)
      (fun _ machine => ledger.CutShort limit machine.processor.ledger) := by
  induction limit generalizing ledger with
  | zero => exact .pure fun _ kept => ⟨[], .none 0, by simp, kept⟩
  | succ limit ih =>
    have pass : Ensures (HasLedger ledger : Machine β → Prop) arbiterPass
        (fun taken machine => ledger.Passed taken machine.processor.ledger)
        (fun _ machine => ledger.CutShort (limit + 1) machine.processor.ledger) :=
      arbiterPass_notes.weaken (fun _ kept => kept) (fun _ _ told => told) fun _ _ kept =>
        ⟨0, Nat.succ_pos limit, [], .none 0, kept⟩
    refine pass.bind fun taken => ?_
    cases taken with
    | false => exact .pure fun _ kept => ⟨[], .none _, by simp, kept⟩
    | true =>
      rintro machine ⟨event, entry, told⟩
      have longer (events : List TraceEvent) :
          (ledger.note true event).noteAll true events = ledger.noteAll true (event :: events) := by
        rw [Ledger.noteAll_cons, TraceEvent.stays_of_isEntry entry]
        rfl
      have rest : Ensures (HasLedger (ledger.note true event) : Machine β → Prop) (arbiterPasses limit)
          (fun _ machine => ledger.Arbitrated (limit + 1) true machine.processor.ledger)
          (fun _ machine => ledger.CutShort (limit + 1) machine.processor.ledger) := by
        refine ih.weaken (fun _ kept => kept) ?_ ?_
        · rintro _ _ ⟨events, entries, _, kept⟩
          exact ⟨event :: events, entries.cons entry, by simp, kept.trans (longer events)⟩
        · rintro _ _ ⟨most, within, events, entries, kept⟩
          exact ⟨most + 1, Nat.succ_lt_succ within, event :: events, entries.cons entry, kept.trans (longer events)⟩
      exact (rest.bind fun _ => .pure fun _ ended => ended) machine told

theorem arbitrate_notes :
    Ensures (HasLedger ledger : Machine β → Prop) arbitrate
      (fun taken machine => ledger.Arbitrated maxNestedTraps taken machine.processor.ledger)
      (fun _ machine => ledger.CutShort maxNestedTraps machine.processor.ledger) :=
  arbiterPasses_notes maxNestedTraps

end Microcode

omit [Board β] in
theorem Ledger.AtMostEntry.events {told : Ledger} (entered : ledger.AtMostEntry told) :
    ∃ entry, EntryEvents 1 entry ∧ told = ledger.noteAll false entry := by
  rcases entered with rfl | ⟨event, entry, rfl⟩
  · exact ⟨[], .none 1, rfl⟩
  · refine ⟨[event], (EntryEvents.none 0).cons entry, ?_⟩
    cases event with
    | trapTaken | haltEntered => rfl
    | instructionStart | instructionRetired | busFault | doubleFault => cases entry

/-- An instruction from its word to its retirement, with the entry that it has made, if any. -/
def retirementEvents (pc word : Word) (cycles : Nat) (entry : List TraceEvent) : List TraceEvent :=
  .instructionStart pc :: (entry ++ [.instructionRetired pc word cycles])

namespace Machine

variable (machine)

omit [Board β] in
theorem begun_ledger : machine.begun.processor.ledger =
    machine.processor.ledger.tell (.instructionStart machine.processor.pc.even) := by
  rw [begun, update_processor, Processor.ledger_emit]
  rfl

omit [Board β] in
theorem retired_ledger (arbitrating : Bool) (start : UInt64) (pc word : Word) : (machine.retired start pc word).processor.ledger =
    machine.processor.ledger.note arbitrating (.instructionRetired pc word (machine.processor.elapsed start)) := by
  rw [retired, update_processor, blind_ledger.syncShadow, update_processor, Processor.ledger_emit]
  rfl

omit [Board β] in
theorem busFaultNoted_ledger (arbitrating : Bool) : machine.busFaultNoted.processor.ledger =
    machine.processor.ledger.note arbitrating (.busFault machine.processor.pc) := by
  have recorded := (machine.processor.recordFault .busError machine.processor.pc).ledger_emit (.busFault machine.processor.pc)
  exact recorded

omit [Board β] in
theorem doubleFaultNoted_ledger : machine.doubleFaultNoted.processor.ledger =
    machine.processor.ledger.tell (.doubleFault machine.processor.pc) := by
  rw [doubleFaultNoted, update_processor, Processor.ledger_emit]
  rfl

theorem restore_pc (boundary : Checkpoint) : (machine.restore boundary).processor.pc = boundary.registers.pc := by
  rw [restore, Processor.pc, installStatus_processor]
  rfl

end Machine

namespace Microcode

/-- An instruction that breaks off has only told of its start. -/
theorem instructionCycle_tells (start : UInt64) :
    Ensures (· = machine) (instructionCycle start)
      (fun outcome after => ∃ word cycles entry, outcome.cycles? = some cycles ∧ EntryEvents 1 entry ∧
        HasLedger (machine.processor.ledger.noteAll true (retirementEvents machine.processor.pc.even word cycles entry)) after)
      (fun _ => HasLedger (machine.processor.ledger.noteAll true [.instructionStart machine.processor.pc.even])) := by
  rintro machine rfl
  let begun := machine.processor.ledger.tell (.instructionStart machine.processor.pc.even)
  have fetching : Ensures (HasLedger begun : Machine β → Prop) fetchWord (fun _ => HasLedger begun) (fun _ => HasLedger begun) :=
    blind_ledger.fetchWord (· = begun)
  rw [instructionCycle_eq]
  cases fetched : fetchInstruction machine with
  | error abort broken => exact fetching.error machine.begun_ledger fetched
  | ok word reached =>
    have reading : HasLedger begun reached := fetching.ok machine.begun_ledger fetched
    simp only
    cases executed : executeWord word reached with
    | error abort broken => exact (executeWord_tells word).error reading executed
    | ok retirement done =>
      have entered : begun.AtMostEntry done.processor.ledger := (executeWord_tells word).ok reading executed
      obtain ⟨entry, entries, told⟩ := entered.events
      refine ⟨word, done.processor.elapsed start, entry, ?_, entries, ?_⟩
      · cases retirement <;> rfl
      · rw [HasLedger, done.retired_ledger false, told, retirementEvents, Ledger.noteAll_cons]
        exact (begun.noteAll_append false entry entries.entries
          [.instructionRetired machine.processor.pc.even word (done.processor.elapsed start)]).symm

end Microcode

/-- The answer to a bus error at this address. -/
inductive FaultEvents (pc : Word) : Outcome → List TraceEvent → Prop where
  | trapped (cycles : Nat) : FaultEvents pc (.faulted .busError cycles) [.busFault pc, .trapTaken TrapVector.busError pc]
  | halted (cycles : Nat) : FaultEvents pc (.faulted .doubleFault cycles) [.busFault pc, .doubleFault pc, .haltEntered pc]
  | stopped : FaultEvents pc (.stopped .doubleFault) [.busFault pc, .doubleFault pc]

namespace Dispatch

variable {start : UInt64} {outcome : Outcome}

theorem doubleFault_tells (done : doubleFault start machine = .ok outcome after) :
    ∃ told, FaultEvents machine.processor.pc outcome (.busFault machine.processor.pc :: told) ∧
      after.processor.ledger = machine.processor.ledger.noteAll false told := by
  have noted := machine.doubleFaultNoted_ledger
  have pc : machine.doubleFaultNoted.processor.pc = machine.processor.pc := (SameBoundary.noted ..).pc
  cases doubleFault_ended done with
  | stopped without => exact ⟨_, .stopped, noted⟩
  | halted has entered =>
    refine ⟨_, .halted _, ?_⟩
    rw [Machine.update_processor, blind_ledger.syncShadow, Microcode.enterHaltMode_told entered, pc, noted]
    rfl
  | @failed broken has failed =>
    have restored := blind_ledger.restore broken machine.doubleFaultNoted.processor.checkpoint
    exact ⟨_, .stopped, restored.trans ((blind_ledger.enterHaltMode_broken failed).trans noted)⟩

/-- A bus error that is answered has been told of, and counted, by then. -/
theorem serviceBusFault_tells (arbitrating : Bool) (done : serviceBusFault start machine = .ok outcome after) :
    ∃ told, FaultEvents machine.processor.pc outcome told ∧
      after.processor.ledger = machine.processor.ledger.noteAll arbitrating told := by
  have noted := machine.busFaultNoted_ledger arbitrating
  have boundary := SameBoundary.busFaultNoted machine
  have spelled (told : List TraceEvent) : machine.processor.ledger.noteAll arbitrating (.busFault machine.processor.pc :: told) =
      machine.busFaultNoted.processor.ledger.noteAll false told := by
    rw [Ledger.noteAll_cons, noted]
    cases arbitrating <;> rfl
  cases serviceBusFault_ended done with
  | @trapped taken entered =>
    refine ⟨_, .trapped _, ?_⟩
    have told := Microcode.enterTrap_told entered
    rw [boundary.pc] at told
    rw [Machine.update_processor, blind_ledger.syncShadow, spelled]
    exact told
  | @again broken _ _ failed done =>
    let saved := machine.busFaultNoted.processor.checkpoint
    have pc : (broken.restore saved).busErrorsCleared.processor.pc = machine.processor.pc :=
      (broken.restore_pc saved).trans boundary.pc
    have restored : (broken.restore saved).busErrorsCleared.processor.ledger = machine.busFaultNoted.processor.ledger :=
      (blind_ledger.restore broken saved).trans (blind_ledger.enterTrap_broken failed)
    obtain ⟨told, answered, ended⟩ := doubleFault_tells done
    rw [pc] at answered
    exact ⟨_, answered, by rw [ended, restored, spelled]⟩

end Dispatch

/-- What a bus error has cut short: the arbiter on its way, which may have taken nothing so
far, or an instruction. -/
inductive CutShortEvents : List TraceEvent → Prop where
  | arbitrating {most : Nat} {events : List TraceEvent} (within : most < Microcode.maxNestedTraps)
      (entries : EntryEvents most events) : CutShortEvents events
  | executing (pc : Word) : CutShortEvents [.instructionStart pc]

theorem CutShortEvents.append {events : List TraceEvent} (cut : CutShortEvents events) (ledger : Ledger) :
    ∃ arbitrating, ∀ rest, ledger.noteAll true (events ++ rest) = (ledger.noteAll true events).noteAll arbitrating rest := by
  cases cut with
  | arbitrating _ entries => exact ⟨true, ledger.noteAll_append true events entries.entries⟩
  | executing pc => exact ⟨false, fun _ => rfl⟩

/-- The events of a step of a processor that nothing holds. -/
inductive LiveEvents : Outcome → List TraceEvent → Prop where
  | waiting : LiveEvents .waiting []
  | interrupted {events : List TraceEvent} (cycles : Nat) (some : events ≠ [])
      (entries : EntryEvents Microcode.maxNestedTraps events) : LiveEvents (.interrupted cycles) events
  | retired {outcome : Outcome} {cycles : Nat} {entry : List TraceEvent} (pc word : Word) (retires : outcome.Retires)
      (spent : outcome.cycles? = some cycles) (entries : EntryEvents 1 entry) :
      LiveEvents outcome (retirementEvents pc word cycles entry)
  | cutShort {outcome : Outcome} {events answer : List TraceEvent} (pc : Word) (cut : CutShortEvents events)
      (answered : FaultEvents pc outcome answer) : LiveEvents outcome (events ++ answer)

/-- The events of any step. One that does not begin tells nothing. -/
inductive StepEvents (processor : Processor) : Outcome → List TraceEvent → Prop where
  | suspended (held : processor.runState = .suspended) : StepEvents processor .suspended []
  | stopped {cause : FaultCode} (held : processor.runState = .latched cause) : StepEvents processor (.stopped cause) []
  | live {outcome : Outcome} {events : List TraceEvent} (live : processor.Live) (told : LiveEvents outcome events) :
      StepEvents processor outcome events

namespace Dispatch

variable {outcome : Outcome}

/-- What has been told up to a bus error stays told, whatever else is undone. -/
theorem abandon_tells {broken : Machine β} {start : UInt64} {events : List TraceEvent} (cut : CutShortEvents events)
    (told : HasLedger (ledger.noteAll true events) broken) (boundary : Checkpoint)
    (served : serviceBusFault start (broken.restore boundary) = .ok outcome after) :
    ∃ events, LiveEvents outcome events ∧ after.processor.ledger = ledger.noteAll true events := by
  obtain ⟨arbitrating, append⟩ := cut.append ledger
  obtain ⟨answer, answered, ended⟩ := serviceBusFault_tells arbitrating served
  refine ⟨events ++ answer, .cutShort _ cut answered, ?_⟩
  rw [ended, blind_ledger.restore, told, append]

theorem boundaryStep_tells (done : boundaryStep machine = .ok outcome after) :
    ∃ events, LiveEvents outcome events ∧ after.processor.ledger = machine.processor.ledger.noteAll true events := by
  -- an instruction follows an arbiter that has taken nothing
  have quiet {settled : Machine β} (arbitrated : Microcode.arbitrate machine = .ok false settled) :
      settled.processor.ledger = machine.processor.ledger := by
    obtain ⟨events, _, none, told⟩ := Microcode.arbitrate_notes.ok rfl arbitrated
    have empty : events = [] := by simpa using none
    rw [told, empty, Ledger.noteAll_nil]
  cases boundaryStep_ended done with
  | pending _ served =>
    obtain ⟨answer, answered, ended⟩ := serviceBusFault_tells true served
    exact ⟨_, .cutShort _ (.arbitrating (by decide) (.none 0)) answered, ended⟩
  | arbiterFailed _ failed served =>
    obtain ⟨most, within, events, entries, told⟩ := Microcode.arbitrate_notes.error rfl failed
    exact abandon_tells (.arbitrating within entries) told _ served
  | @interrupted settled _ arbitrated =>
    obtain ⟨events, entries, some, told⟩ := Microcode.arbitrate_notes.ok rfl arbitrated
    refine ⟨events, .interrupted _ (some.mp rfl) entries, ?_⟩
    rw [Machine.update_processor, blind_ledger.syncShadow, told]
  | waiting _ arbitrated => exact ⟨[], .waiting, quiet arbitrated⟩
  | @instructionFailed settled broken _ _ _ arbitrated _ failed served =>
    have told := (Microcode.instructionCycle_tells _).error rfl failed
    rw [quiet arbitrated] at told
    exact abandon_tells (.executing _) told _ served
  | executed _ arbitrated _ executed =>
    obtain ⟨word, cycles, entry, spent, entries, told⟩ := (Microcode.instructionCycle_tells _).ok rfl executed
    rw [quiet arbitrated] at told
    exact ⟨_, .retired _ word (Microcode.instructionCycle_retires _ _ _ _ executed) spent entries, told⟩

/-- A reset tells nothing. -/
theorem reset_told (done : reset machine = .ok () after) : after.processor.ledger = machine.processor.ledger := by
  cases reset_ended done with
  | strapped without => exact blind_ledger.syncShadow _
  | loaded has loaded =>
    obtain ⟨pc, status, board, _, rfl⟩ := Microcode.loadStartBlock_ok loaded
    rw [Machine.update_processor, blind_ledger.syncShadow]
    exact blind_ledger.installStatus _ status
  | @failed broken has failed =>
    obtain ⟨_, lines, _, kept⟩ := Microcode.loadStartBlock_error failed
    have left : broken.processor.ledger = machine.processor.ledger := by
      rw [kept]
      rfl
    exact (blind_ledger.syncShadow _).trans left

theorem step_tells (done : step machine = .ok outcome after) :
    ∃ events, StepEvents machine.processor outcome events ∧
      after.processor.ledger = machine.processor.ledger.noteAll true events := by
  cases state : machine.processor.runState with
  | suspended =>
    rw [step_suspended state] at done
    cases done
    exact ⟨[], .suspended state, rfl⟩
  | latched cause =>
    rw [step_latched state] at done
    cases done
    exact ⟨[], .stopped state, rfl⟩
  | running | waiting =>
    cases step_ended done with
    | released live _ reset stepped =>
      obtain ⟨events, told, ended⟩ := boundaryStep_tells stepped
      exact ⟨events, .live live told, by rw [ended, reset_told reset]⟩
    | settled live _ stepped =>
      obtain ⟨events, told, ended⟩ := boundaryStep_tells stepped
      exact ⟨events, .live live told, ended⟩
    | held held =>
      refine absurd ?_ held
      simp [Processor.Live, state]

/-- With an observer the events of every step follow the grammar, and its counters go on by
what the observer has been told. -/
theorem step_follows_grammar {seen : Array TraceEvent} (enabled : machine.processor.configuration.traceEnabled = true)
    (observed : machine.processor.observed = some seen) (done : step machine = .ok outcome after) :
    ∃ events, StepEvents machine.processor outcome events ∧
      after.processor.observed = some (seen ++ events.toArray) ∧
      after.processor.statistics.instructions =
        machine.processor.statistics.instructions.advance (events.countP TraceEvent.isRetirement) ∧
      after.processor.statistics.interrupts =
        machine.processor.statistics.interrupts.advance (Ledger.arbiterTraps events) ∧
      after.processor.statistics.busFaults =
        machine.processor.statistics.busFaults.advance (events.countP TraceEvent.isBusFault) := by
  obtain ⟨events, told, ended⟩ := step_tells done
  refine ⟨events, told, ?_, ?_, ?_, ?_⟩
  · exact (congrArg Ledger.observed ended).trans (machine.processor.ledger.noteAll_observed true events enabled observed)
  · exact (congrArg Ledger.instructions ended).trans (machine.processor.ledger.noteAll_instructions true events)
  · exact (congrArg Ledger.interrupts ended).trans (machine.processor.ledger.noteAll_interrupts true events)
  · exact (congrArg Ledger.busFaults ended).trans (machine.processor.ledger.noteAll_busFaults true events)

end Dispatch

/-- Power fail and the timer at once, the timer's vector cannot be read, and someone watches. -/
def watchedRequests : Machine (Faulty FlatBoard) where
  processor :=
    let idle := Processor.create { model := .vm2, traceEnabled := true }
    { idle with lines := (idle.lines.drive .aclo true).drive .event true, observed := some #[] }
  board := { board := FlatBoard.load {} 0o24 [0o1000, 0], refused := [4] }

/-- The entry that is undone has been told, and counted. -/
theorem step_follows_grammar_nested : ∃ after,
    Dispatch.step watchedRequests = .ok (.faulted .busError 162) after ∧
      StepEvents watchedRequests.processor (.faulted .busError 162)
        [.trapTaken 0o24 0, .busFault 0, .trapTaken 4 0] ∧
      after.processor.statistics.interrupts = Counter.zero.advance 1 ∧
      after.processor.statistics.busFaults = Counter.zero.advance 1 := by
  have stepped : Dispatch.step watchedRequests = .ok (.faulted .busError 162) _ := eq_ok_of_answer (by decide +kernel)
  have shown : (ended (Dispatch.step watchedRequests)).processor.observed =
      some #[.trapTaken 0o24 0, .busFault 0, .trapTaken 4 0] := by decide +kernel
  obtain ⟨events, told, observed, _, interrupts, busFaults⟩ := Dispatch.step_follows_grammar rfl rfl stepped
  have events : events = [.trapTaken 0o24 0, .busFault 0, .trapTaken 4 0] := by
    simpa using congrArg (·.map Array.toList) (observed.symm.trans shown)
  subst events
  exact ⟨_, stepped, told, interrupts, busFaults⟩

/-- Steps one after the other, with what each of them tells. -/
inductive RunEvents : Machine β → List Outcome → List (List TraceEvent) → Machine β → Prop where
  | none {machine : Machine β} : RunEvents machine [] [] machine
  | step {machine middle last : Machine β} {outcome : Outcome} {outcomes : List Outcome} {events : List TraceEvent}
      {later : List (List TraceEvent)} (stepped : Dispatch.step machine = .ok outcome middle)
      (told : StepEvents machine.processor outcome events) (rest : RunEvents middle outcomes later last) :
      RunEvents machine (outcome :: outcomes) (events :: later) last

namespace Ledger

/-- Notes the events of steps one after the other. -/
def noteSteps (ledger : Ledger) : List (List TraceEvent) → Ledger
  | [] => ledger
  | events :: later => (ledger.noteAll true events).noteSteps later

/-- The traps that the arbiter has taken in steps one after the other. -/
def arbiterTrapsOver : List (List TraceEvent) → Nat
  | [] => 0
  | events :: later => arbiterTraps events + arbiterTrapsOver later

variable (ledger : Ledger) (told : List (List TraceEvent))

theorem noteSteps_observed {seen : Array TraceEvent} (enabled : ledger.enabled = true) (observed : ledger.observed = some seen) :
    (ledger.noteSteps told).observed = some (seen ++ told.flatten.toArray) := by
  induction told generalizing ledger seen with
  | nil => simpa [noteSteps] using observed
  | cons events later ih =>
    have still := (ledger.noteAll_enabled true events).trans enabled
    rw [noteSteps, ih _ still (ledger.noteAll_observed true events enabled observed)]
    simp

theorem noteSteps_instructions : (ledger.noteSteps told).instructions =
    ledger.instructions.advance (told.flatten.countP TraceEvent.isRetirement) := by
  induction told generalizing ledger with
  | nil => exact (Counter.advance_zero _).symm
  | cons events later ih => rw [noteSteps, ih, noteAll_instructions, Counter.advance_advance, List.flatten_cons, List.countP_append]

theorem noteSteps_busFaults : (ledger.noteSteps told).busFaults =
    ledger.busFaults.advance (told.flatten.countP TraceEvent.isBusFault) := by
  induction told generalizing ledger with
  | nil => exact (Counter.advance_zero _).symm
  | cons events later ih => rw [noteSteps, ih, noteAll_busFaults, Counter.advance_advance, List.flatten_cons, List.countP_append]

theorem noteSteps_interrupts : (ledger.noteSteps told).interrupts =
    ledger.interrupts.advance (arbiterTrapsOver told) := by
  induction told generalizing ledger with
  | nil => exact (Counter.advance_zero _).symm
  | cons events later ih =>
    rw [noteSteps, ih, noteAll_interrupts, if_pos rfl, Counter.advance_advance, arbiterTrapsOver]

end Ledger

namespace Dispatch

variable {outcomes : List Outcome} {last : Machine β} {count : Nat}

theorem steps_tell (done : steps count machine = .ok outcomes last) :
    ∃ told, RunEvents machine outcomes told last ∧ last.processor.ledger = machine.processor.ledger.noteSteps told := by
  induction count generalizing machine outcomes with
  | zero =>
    cases done
    exact ⟨[], .none, rfl⟩
  | succ count ih =>
    obtain ⟨outcome, middle, stepped, done⟩ := bind_eq_ok done
    obtain ⟨_, _, finished, done⟩ := bind_eq_ok done
    cases done
    obtain ⟨events, told, noted⟩ := step_tells stepped
    obtain ⟨later, rest, ended⟩ := ih finished
    refine ⟨events :: later, .step stepped told rest, ?_⟩
    rw [ended, noted, Ledger.noteSteps]

/-- Over a run the observer is told everything in its order, and the counters come to as much. -/
theorem steps_observed {seen : Array TraceEvent} (enabled : machine.processor.configuration.traceEnabled = true)
    (observed : machine.processor.observed = some seen) (done : steps count machine = .ok outcomes last) :
    ∃ told, RunEvents machine outcomes told last ∧
      last.processor.observed = some (seen ++ told.flatten.toArray) ∧
      last.processor.statistics.instructions =
        machine.processor.statistics.instructions.advance (told.flatten.countP TraceEvent.isRetirement) ∧
      last.processor.statistics.interrupts =
        machine.processor.statistics.interrupts.advance (Ledger.arbiterTrapsOver told) ∧
      last.processor.statistics.busFaults =
        machine.processor.statistics.busFaults.advance (told.flatten.countP TraceEvent.isBusFault) := by
  obtain ⟨told, run, ended⟩ := steps_tell done
  refine ⟨told, run, ?_, ?_, ?_, ?_⟩
  · exact (congrArg Ledger.observed ended).trans (machine.processor.ledger.noteSteps_observed told enabled observed)
  · exact (congrArg Ledger.instructions ended).trans (machine.processor.ledger.noteSteps_instructions told)
  · exact (congrArg Ledger.interrupts ended).trans (machine.processor.ledger.noteSteps_interrupts told)
  · exact (congrArg Ledger.busFaults ended).trans (machine.processor.ledger.noteSteps_busFaults told)

end Dispatch
end Pdp11
