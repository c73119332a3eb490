import Pdp11.Proofs.BankSignals
import Pdp11.Proofs.DeviceAnswers

/-! The requests that the T-11 acknowledges. Each is what the pins read at that moment, and
its priority is above the one in the status word, so a handler that runs at the priority of
its request is left alone by it. Behind the acknowledgement comes the entry at once. -/

namespace Pdp11

open Microcode

/-- The processor gives way to this request. -/
structure Processor.YieldsTo (processor : Processor) (number : BitVec 4) : Prop where
  pins : processor.lines.request = number
  requested : number ≠ 0
  above : processor.status.priority < (T11.request number).priority
  untraced : processor.isTraceDue = false

namespace Processor

variable {processor : Processor}

theorem service?_t11 (has : processor.model = .t11) :
    processor.service? = if processor.isTraceDue then some .trace else processor.t11Service? := by
  simp only [service?, has]

/-- Number zero has the lowest priority there is, so it is above none. -/
theorem yieldsTo_iff (has : processor.model = .t11) {number : BitVec 4} :
    processor.service? = some (.request number) ↔ processor.YieldsTo number := by
  rw [service?_t11 has, t11Service?]
  constructor
  · intro chosen
    split at chosen
    · cases chosen
    rename_i untraced
    split at chosen
    · cases chosen
    rename_i high
    cases chosen
    refine ⟨rfl, fun none => ?_, BitVec.not_le.mp high, Bool.not_eq_true _ ▸ untraced⟩
    rw [none] at high
    exact high (Nat.zero_le _)
  · rintro ⟨rfl, _, above, untraced⟩
    simp only [untraced, Bool.false_eq_true, if_false, if_neg (BitVec.not_le.mpr above)]

theorem service_t11 (has : processor.model = .t11) {service : Service} (chosen : processor.service? = some service) :
    service = .trace ∨ ∃ number, service = .request number := by
  rw [service?_t11 has, t11Service?] at chosen
  split at chosen
  · cases chosen
    exact .inl rfl
  split at chosen
  · cases chosen
  · cases chosen
    exact .inr ⟨_, rfl⟩

/-- A request that is not above the status word is not asked for. -/
theorem not_asksNext (has : processor.model = .t11)
    (masked : (T11.request processor.lines.request).priority ≤ processor.status.priority) : ¬processor.AsksNext := by
  rintro ⟨service, chosen, asks⟩
  rcases service_t11 has chosen with rfl | ⟨number, rfl⟩
  · cases asks
  · have yields := (yieldsTo_iff has).mp chosen
    have above := yields.above
    rw [← yields.pins] at above
    exact absurd masked (BitVec.not_le.mpr above)

end Processor

section

variable {β : Type} [Board β] {machine handler : Machine β}

/-- The board of the T-11 hears of no bank. -/
theorem Machine.trapped_board (has : machine.processor.model = .t11) (vector pc status : Word) (board : β) :
    (machine.trapped vector pc status board).board = board := by
  let stacked : Machine β := ⟨(machine.processor.setSp (machine.processor.sp - 4)).setPc pc, board⟩
  have model : stacked.processor.model = .t11 := has
  change (stacked.installStatus status).board = board
  rw [installStatus_board, switches, model]
  rfl

/-- What an interrupt leaves on the T-11. -/
theorem Microcode.takeInterrupt_t11 {vector : Word} (done : takeInterrupt vector machine = .ok () handler)
    (has : machine.processor.model = .t11) :
    ∃ pc status, TrapCycles vector machine.processor pc status machine.board handler.board ∧
      handler.processor.context = ⟨pc, machine.installed status⟩ ∧
      handler.processor.lines = machine.processor.lines ∧ handler.processor.tracePending = false := by
  obtain ⟨entered, _, _, taken, rfl⟩ := takeInterrupt_ok done
  obtain ⟨_, pc, status, board, cycles, same⟩ := enterTrap_ok taken
  have written : TrapCycles vector machine.processor pc status machine.board entered.board := by
    rwa [same, Machine.trapped_board has]
  have moved : entered.processor.pc = pc := by
    rw [same, Processor.pc, Machine.trapped_registers]
    exact RegisterFile.pc_setPc _ _
  have installed : entered.processor.status = machine.installed status := by
    rw [same, Machine.trapped_status]
  have lines : entered.processor.lines = machine.processor.lines := by
    rw [same, Machine.trapped_lines]
  have untraced : entered.processor.tracePending = false := by
    rw [same, Machine.trapped_tracePending]
  exact ⟨pc, status, written, congrArg₂ Context.mk moved installed, lines, untraced⟩

end

section

variable {β : Type} [Board β] {machine handler : Machine (Recorded β)} {earlier later : List BusCall} {call : BusCall}

/-- What stands on record behind an acknowledgement: the cycles of the entry through this
vector, or those of an entry that was cut short. -/
inductive EntryFollows (asker : Machine (Recorded β)) (vector : Word) (call : BusCall) (later : List BusCall) : Prop where
  | complete {pc status : Word} {handler : Machine (Recorded β)} (entered : arbiterPass asker = .ok true handler)
      (context : handler.processor.context = ⟨pc, asker.installed status⟩)
      (cycles : (trapCalls vector asker.processor pc status).toList <+: later)
  | aborted {abort : Abort} {board : β} {broken : Machine (Recorded β)} {cycles : List BusCall}
      (stopped : arbiterPass asker = .error abort broken)
      (entry : takeInterrupt vector (asker.noting call board) = .error abort broken)
      (calls : broken.board.calls.toList = (asker.noting call board).board.calls.toList ++ cycles) (cycles : cycles <+: later)

/-- The T-11 has acknowledged what its pins read, and entered the trap at once. -/
structure Acknowledged (asker : Machine (Recorded β)) (earlier : List BusCall) (call : BusCall) (later : List BusCall) : Prop where
  moment : asker.board.calls.toList = earlier
  request : ∃ number answer, call = .acknowledge (number.setWidth 8) answer ∧ asker.processor.YieldsTo number ∧
    EntryFollows asker (answer.getD (T11.request number).vector) call later

/-- Serving a request is one acknowledgement and one entry. -/
theorem respond_acknowledge (number : BitVec 4) (answer : Option Word) :
    (respond (.acknowledge (number.setWidth 8) answer) : Microcode β Bool) = do
      takeInterrupt (answer.getD (T11.request number).vector)
      return true := by
  have same : (number.setWidth 8).setWidth 4 = number := by simp
  simp only [respond, same]

theorem Asked.acknowledged (asked : Asked machine earlier call later) (has : machine.processor.model = .t11) :
    Acknowledged machine earlier call later := by
  obtain ⟨service, question, answer, board, chosen, found, same, pass⟩ := asked.question
  rcases Processor.service_t11 has chosen with rfl | ⟨number, rfl⟩
  · cases found
  cases found
  refine ⟨asked.moment, number, answer, same, (Processor.yieldsTo_iff has).mp chosen, ?_⟩
  obtain ⟨follow, calls, short⟩ := asked.behind
  rw [same, respond_acknowledge, ← same] at pass
  cases entry : takeInterrupt (answer.getD (T11.request number).vector) (machine.noting call board) with
  | ok _ handler =>
    rw [bind_of_ok entry] at pass
    obtain ⟨pc, status, cycles, context, _⟩ := takeInterrupt_t11 entry has
    have recording : (machine.noting call board).board.recording = true := asked.recording
    obtain ⟨_, made, _⟩ := cycles.recorded recording
    have whole : handler.board.calls.toList = earlier ++ call :: follow := by
      rw [pass] at calls
      exact calls
    rw [made, Array.toList_append, Machine.noting_calls asked.recording, asked.moment, List.append_assoc,
      List.append_cancel_left_eq, List.singleton_append, List.cons.injEq] at whole
    exact .complete pass context (whole.2 ▸ short)
  | error abort broken =>
    rw [bind_of_error entry] at pass
    refine .aborted pass entry ?_ short
    rw [pass] at calls
    rw [Machine.noting_calls asked.recording, asked.moment, List.append_assoc]
    exact calls

end

section

variable {β : Type} [Board β] {machine : Machine β}

theorem Entries.model {count : Nat} {asker : Machine β} (entries : Entries count machine asker) :
    asker.processor.model = machine.processor.model := by
  induction entries with
  | none => rfl
  | @taken count machine next middle entry _ ih =>
    have kept := (acts_arbiterPass (Scope.any_arbitrates machine.processor.model)).configuration
    rw [entry] at kept
    exact ih.trans (congrArg Configuration.model kept)

/-- A handler finds the lines as they were. If it runs at the priority of its request or
above, nothing is left to be served. -/
theorem request_handled {handler : Machine β} {number : BitVec 4} (has : machine.processor.model = .t11)
    (chosen : machine.processor.service? = some (.request number)) (entered : arbiterPass machine = .ok true handler) :
    machine.processor.status.priority < (T11.request number).priority ∧
      handler.processor.lines = machine.processor.lines ∧
      ((T11.request number).priority ≤ handler.processor.status.priority → handler.processor.service? = none) := by
  have yields := (Processor.yieldsTo_iff has).mp chosen
  have model := (acts_arbiterPass (Scope.any_arbitrates machine.processor.model)).configuration
  rw [entered] at model
  have kept : handler.processor.model = .t11 := (congrArg Configuration.model model).trans has
  rw [arbiterPass_eq_serve chosen] at entered
  obtain ⟨answer, asked, answered, served⟩ := bind_eq_ok entered
  obtain ⟨_, _, taken, done⟩ := bind_eq_ok served
  cases answered
  cases done
  obtain ⟨_, _, _, _, lines, untraced⟩ := takeInterrupt_t11 taken has
  refine ⟨yields.above, lines, fun masked => ?_⟩
  have held : (T11.request handler.processor.lines.request).priority ≤ handler.processor.status.priority := by
    rwa [lines, yields.pins]
  rw [Processor.service?_t11 kept, Processor.isTraceDue, untraced, Bool.false_and, if_neg Bool.false_ne_true,
    Processor.t11Service?]
  exact if_pos held

end

/-- In every operation of a T-11, each acknowledgement carries the number that the pins read
then. That request is one, no trace trap is due, and its priority is above that of the
status word; behind it stands the entry through the vector answered, or the one of the
table. Entries nest eight deep at most, so no more requests than that are acknowledged each
time, and none that a handler masks is acknowledged again while the pins stay as they are. -/
theorem acknowledges_above_priority {β : Type} [Board β] {configuration : Configuration} {machine : Machine (Recorded β)}
    (session : Session configuration machine) (without : configuration.model = .t11) (operation : Operation) :
    let after := ended (operation.perform machine)
    (∀ earlier call later, Recorded.Notes machine.board after.board earlier call later → call.asks = true →
      ∃ boundary count asker, operation.script.Arbitrates machine boundary ∧ count < maxNestedTraps ∧
        Entries count boundary asker ∧ Acknowledged asker earlier call later) ∧
    after.board.AsksAtMost (maxNestedTraps * operation.arbitrations) machine.board.calls.toList ∧
    ∀ boundary : Machine (Recorded β), operation.script.Arbitrates machine boundary →
      Nested maxNestedTraps boundary (arbitrate boundary) ∧
      ∀ count asker handler number, Entries count boundary asker →
        asker.processor.service? = some (.request number) → arbiterPass asker = .ok true handler →
        asker.processor.status.priority < (T11.request number).priority ∧
        handler.processor.lines = asker.processor.lines ∧
        ((T11.request number).priority ≤ handler.processor.status.priority → handler.processor.service? = none) ∧
        ∀ later : Processor, later.model = .t11 → later.lines = handler.processor.lines →
          (T11.request number).priority ≤ later.status.priority → ¬later.AsksNext := by
  intro after
  have orderly := operation.orderly machine
  have recording := session.recording
  have same : ended (operation.script.perform machine) = after := congrArg (fun code => ended (code machine)) operation.perform_script
  have model : machine.processor.model = .t11 := session.reachable.consistent.model.trans without
  have reaches {boundary : Machine (Recorded β)} (arbitrates : operation.script.Arbitrates machine boundary) :
      boundary.processor.model = .t11 := (congrArg Configuration.model (orderly.boundary arbitrates)).trans model
  refine ⟨fun earlier call later notes asks => ?_, ?_, fun boundary arbitrates => ⟨arbiterPasses_nested _ boundary, ?_⟩⟩
  · rw [← same] at notes
    obtain ⟨boundary, count, asker, arbitrates, few, entries, asked⟩ := orderly.asked recording asks notes
    exact ⟨boundary, count, asker, arbitrates, few, entries, asked.acknowledged (entries.model.trans (reaches arbitrates))⟩
  · rw [← same]
    exact orderly.asksAtMost recording
  · intro count asker handler number entries chosen entered
    have has := entries.model.trans (reaches arbitrates)
    obtain ⟨above, lines, settles⟩ := request_handled has chosen entered
    refine ⟨above, lines, settles, fun later kept unchanged masked => Processor.not_asksNext kept ?_⟩
    rwa [unchanged, lines, ((Processor.yieldsTo_iff has).mp chosen).pins]

/-- A request of the T-11 whose handler runs at the highest priority. -/
def requestDriven : Machine (Recorded FlatBoard) :=
  ended (Dispatch.drive .irq0 true ⟨.create { model := .t11 }, { board := FlatBoard.load {} 0o70 [0o1000, 0o340] }⟩)

theorem acknowledges_above_priority_driven :
    let cycles := [.readWord 0o70 (.ok 0o1000), .readWord 0o72 (.ok 0o340), .writeWord 0o177776 0 (.ok ()),
      .writeWord 0o177774 0 (.ok ())]
    Session { model := .t11 } requestDriven ∧
      (ended (Operation.step.perform requestDriven)).board.calls.toList = .acknowledge 1 none :: cycles ∧
      ∃ boundary count asker, Operation.step.script.Arbitrates requestDriven boundary ∧ count < maxNestedTraps ∧
        Entries count boundary asker ∧ Acknowledged asker [] (.acknowledge 1 none) cycles := by
  intro cycles
  have driven : (Operation.drive .irq0 true).perform
      ⟨.create { model := .t11 }, { board := FlatBoard.load {} 0o70 [0o1000, 0o340] }⟩ = .ok .done requestDriven := rfl
  have session : Session { model := .t11 } requestDriven := .perform (.powerOn _) driven
  have calls : (ended (Operation.step.perform requestDriven)).board.calls.toList = .acknowledge 1 none :: cycles := by
    decide +kernel
  obtain ⟨acknowledged, _, _⟩ := acknowledges_above_priority session rfl .step
  exact ⟨session, calls, acknowledged [] (.acknowledge 1 none) cycles ⟨List.nil_prefix, calls⟩ rfl⟩

end Pdp11
