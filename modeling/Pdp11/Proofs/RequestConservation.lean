import Pdp11.Board.Faulty
import Pdp11.Board.Flat
import Pdp11.Board.Recorded
import Pdp11.Proofs.ActionScope
import Pdp11.Proofs.ArbiterCases

/-! What becomes of the requests in a pass of the arbiter. The rungs are tried in a fixed
order and at most one of them is served; every other request stays where it was, and so
does the one that was to be served when a cycle fails before its entry is complete. -/

namespace Pdp11

open Microcode

/-- The rungs from the top. The requests of the T-11 have no rung, since that model has
an arbiter of its own. -/
def Service.ladder : List Service := [.trace, .haltPin, .powerFail, .event, .chain]

/-- What a rung asks for, whatever the rungs above it do. -/
def Service.enabled (processor : Processor) : Service → Bool
  | trace => processor.isTraceDue
  | request _ => false
  | haltPin => processor.lines.isAsserted .halt && !processor.status.haltMode
  | powerFail =>
    processor.status.priority != StatusWord.maxPriority && processor.lines.isAsserted .aclo && !processor.status.haltMode
  | event => processor.status.priority != StatusWord.maxPriority && processor.lines.event
  | chain => processor.status.priority != StatusWord.maxPriority && processor.lines.isAsserted .virq

/-- The rung at which a pass stops. -/
def Processor.firstRung? (processor : Processor) : Option Service := Service.ladder.find? (Service.enabled processor)

theorem Processor.service?_eq_firstRung? {processor : Processor} (has : processor.model = .vm2) :
    processor.service? = processor.firstRung? := by
  simp only [service?, has, vm2Service?, firstRung?, Service.ladder, List.find?, Service.enabled]
  by_cases masked : processor.status.priority = StatusWord.maxPriority
  · grind
  · grind

/-- The chain comes last, so no timer event is pending when it is asked. -/
theorem Processor.event_of_chain {processor : Processor} (first : processor.firstRung? = some .chain) :
    processor.lines.event = false := by
  simp only [firstRung?, Service.ladder, List.find?, Service.enabled] at first
  grind

/-- The lines behind a service that is complete. -/
def Service.lowered (lines : InputLines) : Service → InputLines
  | powerFail => lines.setLevel .aclo false
  | event => lines.clearEvent
  | trace | request _ | haltPin | chain => lines

variable {β : Type} [Board β]

/-- The board when a service has asked for what it needs to know. -/
def Service.asked (board : β) : Service → β
  | chain => (Board.acknowledgeChain board).2
  | trace | request _ | haltPin | powerFail | event => board

/-- The vector that a service goes through. A device that answers zero has given way. -/
def Service.vector? (board : β) : Service → Option Word
  | trace => some TrapVector.breakpoint
  | powerFail => some TrapVector.powerFail
  | event => some TrapVector.event
  | chain => (Board.acknowledgeChain board).1.filter (· != 0)
  | haltPin | request _ => none

/-- A service is one entry, made with the registers of the program, and its line is
lowered behind it. -/
inductive Service.Serves (machine : Machine β) (service : Service) (after : Machine β) : Prop where
  | trap {vector : Word} {start entered : Machine β} (through : service.vector? machine.board = some vector)
      (registers : start.processor.registers = machine.processor.registers)
      (entry : takeInterrupt vector start = .ok () entered)
      (lowered : after = entered.update fun processor => { processor with lines := service.lowered processor.lines })
  | halt (pin : service = .haltPin) (entry : enterHaltMode machine = .ok () after)

/-- What an entry may do besides cycles: bring the HALT bank and the shadow up ahead of
its status word. It asks no device and lowers no line. -/
def Scope.entering : Scope := fun special => special = .haltBank ∨ special = .shadow

theorem Scope.entering_halts (model : Model) : entering.Halts model := fun _ => ⟨.inl rfl, .inr rfl⟩

/-- The board has been asked for cycles and banks since, and for nothing else. -/
abbrev OnlyCycled : β → β → Prop :=
  Relation.ReflTransGen fun before after => Cycled before after ∨ ∃ bank, after = Board.selectBank bank before

theorem OnlyCycled.persistentIn (first : β) : PersistentIn .entering (OnlyCycled first) := by
  constructor
  · intro before after called since
    cases called with
    | cycle cycled => exact since.tail (.inl cycled)
    | acknowledge may | acknowledgeChain may | resetDevices may => rcases may with same | same <;> cases same
  · intro bank board since
    exact since.tail (.inr ⟨bank, rfl⟩)

theorem InputLines.eq_of_clearBusErrors {left right : InputLines} (requests : left.clearBusErrors = right.clearBusErrors)
    (errors : left.busErrors = right.busErrors) : left = right := by
  obtain ⟨levels, event, _⟩ := InputLines.mk.inj requests
  cases left
  cases right
  cases levels
  cases event
  cases errors
  rfl

section

variable {before after : Machine β}

/-- An entry that is complete leaves all lines alone. -/
theorem Actions.lines_entering (actions : Actions .entering before after) :
    after.processor.lines = before.processor.lines ∧ OnlyCycled before.board after.board := by
  refine ⟨?_, actions.keeps (OnlyCycled.persistentIn before.board).action .refl⟩
  induction actions with
  | refl => rfl
  | tail _ last ih =>
    rw [← ih]
    have errors := last.busErrors_eq (by rintro (same | same) <;> cases same)
    have requests := last.lines_eq (by rintro (same | same) <;> cases same)
    exact InputLines.eq_of_clearBusErrors requests errors

/-- One that breaks off may have counted a bus error. -/
theorem Broken.lines_entering {abort : Abort} (broken : Broken .entering before abort after) :
    after.processor.lines.clearBusErrors = before.processor.lines.clearBusErrors ∧
      OnlyCycled before.board after.board := by
  obtain ⟨middle, path, failed | ⟨_, rfl⟩⟩ := broken
  · obtain ⟨kept, since⟩ := path.lines_entering
    exact ⟨failed.lines_eq.trans (by rw [kept]), since.tail (.inl failed.cycled)⟩
  · obtain ⟨kept, since⟩ := path.lines_entering
    exact ⟨by rw [kept], since⟩

end

/-- How a pass treats the requests, by how it ends. -/
inductive Conserves (machine : Machine β) : EStateM.Result Abort (Machine β) Bool → Prop where
  | served {service : Service} {after : Machine β} (first : machine.processor.firstRung? = some service)
      (serves : service.Serves machine after) (lines : after.processor.lines = service.lowered machine.processor.lines)
      (board : OnlyCycled (service.asked machine.board) after.board) : Conserves machine (.ok true after)
  | idle (none : machine.processor.firstRung? = none) : Conserves machine (.ok false machine)
  /-- The chain was reached and had no vector, so its request is dropped. -/
  | withdrawn (first : machine.processor.firstRung? = some .chain) (unanswered : Service.chain.vector? machine.board = none) :
      Conserves machine (.ok false
        ⟨{ machine.processor with lines := machine.processor.lines.setLevel .virq false }, Service.chain.asked machine.board⟩)
  | aborted {service : Service} {abort : Abort} {broken : Machine β} (first : machine.processor.firstRung? = some service)
      (lines : broken.processor.lines.clearBusErrors = machine.processor.lines.clearBusErrors)
      (board : OnlyCycled (service.asked machine.board) broken.board) : Conserves machine (.error abort broken)

variable {machine : Machine β}

theorem serve_chain (machine : Machine β) : serve .chain machine =
    (match Service.chain.vector? machine.board with
      | none => do
        updateLines (·.setLevel .virq false)
        return false
      | some vector => do
        leaveHaltMode
        updateLines (·.clearEvent)
        takeInterrupt vector
        return true : Microcode β Bool) ⟨machine.processor, Service.chain.asked machine.board⟩ := rfl

/-- All services but the HALT pin are one trap entry behind what they asked for. The
chain has left HALT mode by then; it clears the event latch too, which is clear. -/
theorem serve_eq_trap {service : Service} {vector : Word} (first : machine.processor.firstRung? = some service)
    (through : service.vector? machine.board = some vector) :
    ∃ start : Machine β, start.processor.registers = machine.processor.registers ∧
      start.processor.lines = machine.processor.lines ∧ OnlyCycled (service.asked machine.board) start.board ∧
      serve service machine = (do
        takeInterrupt vector
        updateLines fun lines => service.lowered lines
        return true : Microcode β Bool) start := by
  cases service with
  | haltPin | request => cases through
  | trace | powerFail | event =>
    cases through
    exact ⟨machine, rfl, rfl, .refl, rfl⟩
  | chain =>
    let left := (⟨machine.processor, (Board.acknowledgeChain machine.board).2⟩ : Machine β).installStatus
      (machine.processor.status.bits &&& ~~~StatusWord.haltBit)
    have since : OnlyCycled (Board.acknowledgeChain machine.board).2 left.board :=
      (OnlyCycled.persistentIn _).installStatus _ .refl
    refine ⟨left.update fun processor => { processor with lines := processor.lines.clearEvent }, ?_, ?_, since, ?_⟩
    · simp only [left, Machine.update_processor, Machine.installStatus_processor]
    · simp only [left, Machine.update_processor, Machine.installStatus_processor]
      rw [InputLines.clearEvent, ← Processor.event_of_chain first]
    · rw [serve_chain, through]
      rfl

theorem serve_conserves_trap {service : Service} {vector : Word} (first : machine.processor.firstRung? = some service)
    (through : service.vector? machine.board = some vector) : Conserves machine (serve service machine) := by
  obtain ⟨start, registers, lines, asked, same⟩ := serve_eq_trap first through
  rw [same]
  cases entry : takeInterrupt vector start with
  | ok _ entered =>
    rw [bind_of_ok entry]
    obtain ⟨kept, since⟩ := ((acts_takeInterrupt vector).ok entry).lines_entering
    refine .served first (.trap through registers entry rfl) ?_ (asked.trans since)
    rw [← lines, ← kept]
    rfl
  | error abort broken =>
    rw [bind_of_error entry]
    obtain ⟨kept, since⟩ := ((acts_takeInterrupt vector).error entry).lines_entering
    exact .aborted first (kept.trans (by rw [lines])) (asked.trans since)

theorem serve_conserves_halt (has : machine.processor.model = .vm2) (first : machine.processor.firstRung? = some .haltPin) :
    Conserves machine (serve .haltPin machine) := by
  have acts := acts_enterHaltMode has (Scope.entering_halts .vm2)
  rw [serve]
  cases entry : enterHaltMode machine with
  | ok _ entered =>
    rw [bind_of_ok entry]
    obtain ⟨kept, since⟩ := (acts.ok rfl entry).lines_entering
    exact .served first (.halt rfl entry) kept since
  | error abort broken =>
    rw [bind_of_error entry]
    obtain ⟨kept, since⟩ := (acts.error rfl entry).lines_entering
    exact .aborted first kept since

theorem serve_conserves_withdrawn (first : machine.processor.firstRung? = some .chain)
    (unanswered : Service.chain.vector? machine.board = none) : Conserves machine (serve .chain machine) := by
  rw [serve_chain, unanswered]
  exact .withdrawn first unanswered

theorem arbiterPass_conserves (has : machine.processor.model = .vm2) : Conserves machine (arbiterPass machine) := by
  cases first : machine.processor.firstRung? with
  | none =>
    rw [arbiterPass_quiet ((Processor.service?_eq_firstRung? has).trans first)]
    exact .idle first
  | some service =>
    have pass : arbiterPass machine = serve service machine := by
      simp only [arbiterPass, Bind.bind, EStateM.bind, processor, Processor.service?_eq_firstRung? has, first]
    rw [pass]
    cases through : service.vector? machine.board with
    | some vector => exact serve_conserves_trap first through
    | none =>
      cases service with
      | haltPin => exact serve_conserves_halt has first
      | chain => exact serve_conserves_withdrawn first through
      | trace | powerFail | event => cases through
      | request number => cases List.find?_some first

/-- The nearest pending device has been acknowledged, and no other. -/
inductive InterruptChain.Acknowledged : InterruptChain → InterruptChain → Prop where
  | nearest (front back : InterruptChain) (device : ChainDevice) (idle : ∀ other ∈ front, other.pending = false)
      (pending : device.pending = true) : Acknowledged (front ++ device :: back) (front ++ device.answered :: back)

namespace InterruptChain

variable {chain front back : InterruptChain} {device : ChainDevice}

theorem acknowledge_of_quiet (quiet : ∀ other ∈ chain, other.pending = false) : chain.acknowledge = (none, chain) := by
  induction chain with
  | nil => rfl
  | cons first rest ih =>
    obtain ⟨idle, others⟩ := List.forall_mem_cons.mp quiet
    rw [acknowledge, idle, ih others]
    rfl

theorem acknowledge_nearest (idle : ∀ other ∈ front, other.pending = false) (pending : device.pending = true) :
    (front ++ device :: back).acknowledge = (device.vector.filter (· != 0), front ++ device.answered :: back) := by
  induction front with
  | nil => rw [List.nil_append, acknowledge, if_pos pending, List.nil_append]
  | cons first rest ih =>
    obtain ⟨quiet, others⟩ := List.forall_mem_cons.mp idle
    rw [List.cons_append, acknowledge, quiet, ih others]
    rfl

/-- Either nobody asks or somebody is the nearest who does. -/
theorem quiet_or_nearest (chain : InterruptChain) :
    (∀ other ∈ chain, other.pending = false) ∨
      ∃ front device back, chain = front ++ device :: back ∧ (∀ other ∈ front, other.pending = false) ∧
        device.pending = true := by
  cases found : chain.find? (·.pending) with
  | none => exact .inl fun other member => Bool.eq_false_iff.mpr (List.find?_eq_none.mp found other member)
  | some device =>
    obtain ⟨pending, front, back, split, idle⟩ := List.find?_eq_some_iff_append.mp found
    exact .inr ⟨front, device, back, split, fun other member => by simpa using idle other member, pending⟩

theorem acknowledge_cases (chain : InterruptChain) :
    chain.acknowledge = (none, chain) ∨ Acknowledged chain chain.acknowledge.2 := by
  rcases chain.quiet_or_nearest with quiet | ⟨front, device, back, rfl, idle, pending⟩
  · exact .inl (acknowledge_of_quiet quiet)
  · rw [acknowledge_nearest idle pending]
    exact .inr (.nearest front back device idle pending)

end InterruptChain

/-- The devices of a board: an acknowledge of the chain is theirs to answer, and cycles
and banks leave their requests alone. -/
structure Wired (sources : β → InterruptChain) : Prop where
  cycled : ∀ {before after}, Cycled before after → sources after = sources before
  selected : ∀ bank board, sources (Board.selectBank bank board) = sources board
  answered : ∀ board, (Board.acknowledgeChain board).1 = (sources board).acknowledge.1
  acknowledged : ∀ board, sources (Board.acknowledgeChain board).2 = (sources board).acknowledge.2

namespace Wired

theorem flat : Wired FlatBoard.sources := by
  refine ⟨fun {before _} cycled => ?_, fun _ _ => rfl, fun _ => rfl, fun _ => rfl⟩
  cases cycled with
  | readWord | readByte => rfl
  | writeWord address value =>
    change (FlatBoard.writeWord address.even value before).2.sources = before.sources
    unfold FlatBoard.writeWord
    split <;> rfl
  | writeByte address value =>
    change (FlatBoard.writeByte address value before).2.sources = before.sources
    unfold FlatBoard.writeByte
    split <;> rfl

variable {sources : β → InterruptChain}

/-- Refused cycles change nothing about the devices. -/
theorem faulty (wired : Wired sources) : Wired fun board : Faulty β => sources board.board := by
  have passed {α : Type} (address : Word) (request : β → Except BusError α × β) (board : Faulty β)
      (cycled : Cycled board.board (request board.board).2) :
      sources (Faulty.cycle address request board).2.board = sources board.board := by
    obtain ⟨board, next, refused⟩ := board
    simp only [Faulty.cycle]
    split
    · rfl
    · exact wired.cycled cycled
  refine ⟨fun {before _} cycled => ?_, fun bank board => wired.selected bank board.board, fun board => wired.answered board.board,
    fun board => wired.acknowledged board.board⟩
  cases cycled with
  | readWord address => exact passed _ _ before (.readWord _ _)
  | readByte address => exact passed _ _ before (.readByte _ _)
  | writeWord address value => exact passed _ _ before (.writeWord _ _ _)
  | writeByte address value => exact passed _ _ before (.writeByte _ _ _)

theorem recorded (wired : Wired sources) : Wired fun board : Recorded β => sources board.board := by
  refine ⟨fun {before _} cycled => ?_, fun bank board => wired.selected bank board.board, fun board => wired.answered board.board,
    fun board => wired.acknowledged board.board⟩
  cases cycled with
  | readWord address => exact wired.cycled (.readWord address before.board)
  | readByte address => exact wired.cycled (.readByte address before.board)
  | writeWord address value => exact wired.cycled (.writeWord address value before.board)
  | writeByte address value => exact wired.cycled (.writeByte address value before.board)

theorem onlyCycled {before after : β} (wired : Wired sources) (since : OnlyCycled before after) :
    sources after = sources before := by
  induction since with
  | refl => rfl
  | tail _ last ih =>
    rw [← ih]
    rcases last with cycled | ⟨bank, rfl⟩
    · exact wired.cycled cycled
    · exact wired.selected bank _

/-- What asking does to the devices. -/
theorem asked (wired : Wired sources) (service : Service) (board : β) :
    sources (service.asked board) = sources board ∨
      service = .chain ∧ InterruptChain.Acknowledged (sources board) (sources (service.asked board)) := by
  cases service with
  | trace | request | haltPin | powerFail | event => exact .inl rfl
  | chain =>
    rw [Service.asked, wired.acknowledged]
    rcases (sources board).acknowledge_cases with none | answered
    · rw [none]
      exact .inl rfl
    · exact .inr ⟨rfl, answered⟩

end Wired

/-- No device but one is acknowledged, and that one only in the last rung. -/
theorem Conserves.devices {sources : β → InterruptChain} {result : EStateM.Result Abort (Machine β) Bool}
    (conserves : Conserves machine result) (wired : Wired sources) :
    sources (ended result).board = sources machine.board ∨
      machine.processor.firstRung? = some .chain ∧
        InterruptChain.Acknowledged (sources machine.board) (sources (ended result).board) := by
  have entered {service : Service} {after : Machine β} (first : machine.processor.firstRung? = some service)
      (since : OnlyCycled (service.asked machine.board) after.board) :
      sources after.board = sources machine.board ∨
        machine.processor.firstRung? = some .chain ∧
          InterruptChain.Acknowledged (sources machine.board) (sources after.board) := by
    rw [wired.onlyCycled since]
    rcases wired.asked service machine.board with kept | ⟨rfl, answered⟩
    · exact .inl kept
    · exact .inr ⟨first, answered⟩
  cases conserves with
  | served first _ _ since | aborted first _ since => exact entered first since
  | idle => exact .inl rfl
  | withdrawn first => exact entered first .refl

/-- A pass conserves the requests: it serves at most the first of the enabled rungs, lowers
the line of what it has served and no other, and keeps all lines if it breaks off; and
whatever devices there are, at most the nearest pending one has been acknowledged. -/
theorem arbiterPass_conserves_requests (machine : Machine β) (has : machine.processor.model = .vm2) :
    Conserves machine (arbiterPass machine) ∧
      ∀ sources : β → InterruptChain, Wired sources →
        sources (ended (arbiterPass machine)).board = sources machine.board ∨
          machine.processor.firstRung? = some .chain ∧
            InterruptChain.Acknowledged (sources machine.board) (sources (ended (arbiterPass machine)).board) :=
  ⟨arbiterPass_conserves has, fun _ => (arbiterPass_conserves has).devices⟩

/-- Three devices on the chain, of which the nearest is idle, and a cycle of the entry
that is refused. -/
def refusedDevice : Machine (Faulty FlatBoard) where
  processor :=
    let idle := Processor.create { model := .vm2 }
    { idle with lines := idle.lines.drive .virq true }
  board :=
    { board := { FlatBoard.load {} 0o64 [0o1000, 0] with
        sources := [⟨some 0o60, false, .zero⟩, ⟨some 0o64, true, .zero⟩, ⟨some 0o70, true, .zero⟩] }
      refused := [3] }

theorem arbiterPass_conserves_requests_refused :
    refusedDevice.processor.model = .vm2 ∧ failure? (arbiterPass refusedDevice) = some .failedCycle ∧
      Conserves refusedDevice (arbiterPass refusedDevice) ∧
      InterruptChain.Acknowledged refusedDevice.board.board.sources
        (ended (arbiterPass refusedDevice)).board.board.sources := by
  obtain ⟨conserves, devices⟩ := arbiterPass_conserves_requests refusedDevice rfl
  refine ⟨rfl, by decide +kernel, conserves, ?_⟩
  rcases devices _ Wired.flat.faulty with kept | ⟨_, answered⟩
  · exact absurd kept (by decide +kernel)
  · exact answered

end Pdp11
