import Pdp11.Proofs.ActionScope
import Pdp11.Proofs.CycleCount
import Pdp11.Proofs.NestedAbort
import Pdp11.Proofs.ScheduledReset

/-! A pending bus error among the requests. It should come before all of them, and a step
looks at it first. A check of interrupts does not look: most services then fail with
their first cycle, before they have taken anything, but one that begins by asking a
device has taken its request away by then. -/

namespace Pdp11

open Microcode

/-- Code of this scope leaves requests in their devices and on their lines. -/
def Scope.sparing : Scope := fun special => special ≠ .acknowledge ∧ special ≠ .resetDevices ∧ special ≠ .lines

theorem Scope.sparing_halts (model : Model) : sparing.Halts model :=
  fun _ => ⟨⟨nofun, nofun, nofun⟩, ⟨nofun, nofun, nofun⟩⟩

section

variable {β : Type}

/-- The board has been asked for cycles and banks since, and for nothing else. -/
abbrev Unasked (earlier : List BusCall) (board : Recorded β) : Prop :=
  board.Since earlier (∀ call ∈ ·, call.takesRequest = false)

/-- The first thing asked of the board since has taken a request. -/
abbrev TakenFirst (earlier : List BusCall) (board : Recorded β) : Prop :=
  board.Since earlier fun later => ∃ call rest, later = call :: rest ∧ call.takesRequest = true

theorem TakenFirst.not_unasked {earlier : List BusCall} {board : Recorded β} (taken : TakenFirst earlier board) :
    ¬Unasked earlier board := by
  rintro ⟨_, other, same, unasked⟩
  obtain ⟨_, later, calls, call, rest, rfl, takes⟩ := taken
  rw [calls] at same
  have quiet := unasked call (List.append_cancel_left same ▸ List.mem_cons_self)
  rw [takes] at quiet
  cases quiet

/-- No request has been taken since, neither from a device nor from a line. -/
structure Spared (before after : Machine (Recorded β)) : Prop where
  devices : Unasked before.board.calls.toList after.board
  lines : after.processor.lines.clearBusErrors = before.processor.lines.clearBusErrors

namespace Spared

variable {first machine : Machine (Recorded β)}

theorem refl (recording : machine.board.recording = true) : Spared machine machine :=
  ⟨.start recording nofun, rfl⟩

theorem update {change : Processor → Processor} (spared : Spared first machine)
    (kept : (change machine.processor).lines.clearBusErrors = machine.processor.lines.clearBusErrors) :
    Spared first (machine.update change) := ⟨spared.devices, kept.trans spared.lines⟩

theorem syncShadow (spared : Spared first machine) : Spared first (machine.update (·.syncShadow)) :=
  spared.update (by rw [Processor.syncShadow_eq])

theorem busErrorsCleared (spared : Spared first machine) : Spared first machine.busErrorsCleared := spared.update rfl

end Spared

variable [Board β]

theorem unasked_persistent (earlier : List BusCall) :
    PersistentIn .sparing (Unasked earlier : Recorded β → Prop) := by
  refine Recorded.since_persistentIn earlier fun later call takes unasked => ?_
  have spares : call.takesRequest = false := by
    refine Bool.eq_false_iff.mpr fun on => ?_
    rcases takes on with may | may
    · exact may.1 rfl
    · exact may.2.1 rfl
  exact List.forall_mem_append.mpr ⟨unasked, List.forall_mem_singleton.mpr spares⟩

namespace Spared

variable {first machine before after : Machine (Recorded β)} {start : UInt64} {outcome : Outcome}

theorem restore (spared : Spared first machine) (boundary : Checkpoint) : Spared first (machine.restore boundary) := by
  refine ⟨(unasked_persistent _).restore boundary spared.devices, ?_⟩
  rw [Machine.restore, Machine.installStatus_processor]
  exact spared.lines

theorem action (action : Action .sparing before after) (spared : Spared first before) : Spared first after :=
  ⟨(unasked_persistent _).action action spared.devices, (action.lines_eq fun may => may.2.2 rfl).trans spared.lines⟩

theorem path (spared : Spared first before) (path : Actions .sparing before after) : Spared first after :=
  path.keeps action spared

theorem broken {abort : Abort} (spared : Spared first before) (left : Broken .sparing before abort after) :
    Spared first after := by
  refine left.keeps action (fun failed spared => ⟨?_, failed.lines_eq.trans spared.lines⟩) spared
  exact (unasked_persistent _).called (.cycle failed.cycled) spared.devices

theorem doubleFault (spared : Spared first machine) (done : Dispatch.doubleFault start machine = .ok outcome after) :
    Spared first after := by
  have noted : Spared first machine.doubleFaultNoted := by
    refine spared.update ?_
    rw [Processor.emit_eq]
    rfl
  have model (has : machine.processor.model = .vm2) : machine.doubleFaultNoted.processor.model = .vm2 :=
    (congrArg Configuration.model (Bookkept.noted _ _ _).configuration).trans has
  cases Dispatch.doubleFault_ended done with
  | stopped => exact noted.update rfl
  | halted has entered =>
    exact (noted.path ((acts_enterHaltMode (model has) (Scope.sparing_halts _)).ok rfl entered)).syncShadow
  | failed has failed =>
    have left := noted.broken ((acts_enterHaltMode (model has) (Scope.sparing_halts _)).error rfl failed)
    exact (left.restore _).busErrorsCleared.update rfl

/-- The answer to a bus error takes no request. -/
theorem serviceBusFault (spared : Spared first machine)
    (done : Dispatch.serviceBusFault start machine = .ok outcome after) : Spared first after := by
  have noted : Spared first machine.busFaultNoted := by
    refine spared.update ?_
    rw [Processor.emit_eq]
    rfl
  cases Dispatch.serviceBusFault_ended done with
  | trapped entered => exact ((noted.path ((acts_enterTrap _).ok entered)).update rfl).syncShadow
  | again failed done =>
    have left := noted.broken ((acts_enterTrap _).error failed)
    exact (left.restore _).busErrorsCleared.doubleFault done

end Spared
end

namespace Dispatch

variable {β : Type} [Board β] (start : UInt64) (machine : Machine β)

theorem doubleFault_finishes : ∃ outcome after, doubleFault start machine = .ok outcome after := by
  rw [doubleFault_eq]
  cases machine.processor.model with
  | t11 => exact ⟨_, _, rfl⟩
  | vm2 =>
    cases entered : enterHaltMode machine.doubleFaultNoted with
    | ok _ after => exact ⟨_, _, rfl⟩
    | error abort broken =>
      cases OnlyCyclesFail.enterHaltMode _ _ _ entered
      exact ⟨_, _, rfl⟩

theorem serviceBusFault_finishes : ∃ outcome after, serviceBusFault start machine = .ok outcome after := by
  rw [serviceBusFault_eq]
  cases entered : enterTrap TrapVector.busError machine.busFaultNoted with
  | ok _ after => exact ⟨_, _, rfl⟩
  | error abort broken =>
    cases OnlyCyclesFail.enterTrap (by decide) _ _ _ entered
    exact doubleFault_finishes start _

end Dispatch

/-- What an operation does first: a run begins with a step, and a step with the reset
that is owed. -/
def Operation.opening {β : Type} [Board β] (processor : Processor) : Operation → Dispatch β Response
  | step | run _ => if processor.resetOnResume then reset.perform else step.perform
  | operation => operation.perform

/-- The arbiter is about to ask a device for its vector. -/
def Processor.AsksNext (processor : Processor) : Prop :=
  ∃ service, processor.service? = some service ∧ service.asks = true

section

variable {β : Type} [Board β] {operation : Operation} {machine after : Machine β}

theorem Operation.opening_released (steps : operation.Steps) (due : machine.processor.resetOnResume = true) :
    (operation.opening machine.processor : Dispatch β Response) = reset.perform := by
  cases operation with
  | step | run budget => simp only [opening, due, if_true]
  | reset | checkInterrupts | drive line asserted | suspend | resume | observe on => exact steps.elim

theorem Operation.opening_settled (steps : operation.Steps) (settled : machine.processor.resetOnResume = false) :
    (operation.opening machine.processor : Dispatch β Response) = step.perform := by
  cases operation with
  | step | run budget => simp only [opening, settled, Bool.false_eq_true, if_false]
  | reset | checkInterrupts | drive line asserted | suspend | resume | observe on => exact steps.elim

/-- So an operation can go on from its opening to what it does as a whole. -/
theorem Operation.perform_opening (live : machine.processor.Live) (next : operation.Steps ∨ operation = .checkInterrupts) :
    ∃ rest : Response → Dispatch β Response, operation.perform machine = (operation.opening machine.processor >>= rest) machine := by
  have begun (steps : operation.Steps) (rest : Outcome → Dispatch β Response) :
      ∃ later : Response → Dispatch β Response, (Dispatch.step >>= rest) machine = (operation.opening machine.processor >>= later) machine := by
    cases due : machine.processor.resetOnResume with
    | true =>
      obtain ⟨fresh, reset, _⟩ := Dispatch.reset_fresh machine
      have stepped : Dispatch.step machine = Dispatch.boundaryStep fresh := by
        rw [Dispatch.step_eq live, if_pos due, bind_of_ok reset]
      have answered : Operation.reset.perform machine = .ok .done fresh := bind_of_ok reset _
      refine ⟨fun _ => do rest (← Dispatch.boundaryStep), ?_⟩
      rw [Operation.opening_released steps due, bind_of_ok answered]
      simp only [Bind.bind, EStateM.bind, stepped]
    | false =>
      refine ⟨fun | .outcome outcome => rest outcome | response => pure response, ?_⟩
      rw [Operation.opening_settled steps due]
      simp only [Operation.perform, bind_assoc]
      rfl
  rcases next with steps | rfl
  · cases operation with
    | step => exact begun steps _
    | run budget =>
      have within : 0 < budget.toNat := steps
      simp only [perform, Dispatch.run]
      rw [Dispatch.runFrom, dif_pos within, bind_assoc]
      exact begun steps _
    | reset | checkInterrupts | drive line asserted | suspend | resume | observe on => exact steps.elim
  · exact ⟨pure, (congrFun (bind_pure _) machine).symm⟩

end

section

variable {β : Type} [Board β] {configuration : Configuration} {operation : Operation}
  {machine after : Machine (Recorded β)} {service : Service}

theorem Dispatch.reset_unasked (recording : machine.board.recording = true) (done : reset machine = .ok () after) :
    Unasked machine.board.calls.toList after.board := by
  let earlier := machine.board.calls.toList
  have started : Unasked earlier machine.board := .start recording nofun
  have persistent : PersistentIn .sparing (Unasked earlier : Recorded β → Prop) := unasked_persistent earlier
  have loads : Keeps (fun machine : Machine (Recorded β) => Unasked earlier machine.board) loadStartBlock :=
    loadStartBlock_keepsBoard persistent
  have banked : Unasked earlier machine.atStartBlock.board :=
    persistent.selected .halt (persistent.selected .user started)
  cases reset_ended done with
  | strapped => exact started
  | loaded _ ended =>
    have left := loads.ok banked ended
    exact left
  | failed _ ended =>
    have left := loads.error banked ended
    exact left

theorem takenFirst_persistent (earlier : List BusCall) : Persistent (TakenFirst earlier : Recorded β → Prop) :=
  Recorded.since_persistent earlier fun later call ⟨first, rest, same, takes⟩ =>
    ⟨first, rest ++ [call], by rw [same]; rfl, takes⟩

/-- A service that asks a device does so before anything can stop it. -/
theorem arbiterPass_asks (recording : machine.board.recording = true) (asks : machine.processor.AsksNext) :
    let taken := fun after : Machine (Recorded β) => TakenFirst machine.board.calls.toList after.board
    Ensures (· = machine) arbiterPass (fun _ => taken) (fun _ => taken) := by
  intro taken
  have persistent := takenFirst_persistent (β := β) machine.board.calls.toList
  have consulted {α : Type} {hook : Recorded β → α × Recorded β}
      (noted : ∃ call board, call.takesRequest = true ∧
        (hook machine.board).2 = .note machine.board.recording machine.board.calls call board) :
      Ensures (· = machine) (consult hook) (fun _ => taken) (fun _ => taken) := by
    intro state same
    obtain ⟨call, board, takes, noted⟩ := noted
    rw [same]
    have start : machine.board.Since machine.board.calls.toList (· = []) := .start recording rfl
    have first : TakenFirst machine.board.calls.toList (Recorded.note machine.board.recording machine.board.calls call board) := by
      refine start.note (fun later none => ⟨call, [], ?_, takes⟩) board
      rw [none]
      rfl
    rw [← noted] at first
    exact first
  obtain ⟨service, chosen, asks⟩ := asks
  have served : Ensures (· = machine) (serve service) (fun _ => taken) (fun _ => taken) := by
    cases service with
    | request number =>
      have rest (answer : Option Word) : Acts .any (do
          takeInterrupt (answer.getD (T11.request number).vector)
          return true : Microcode (Recorded β) Bool) := (acts_takeInterrupt _).bind fun _ => .pure _
      exact (consulted ⟨.acknowledge _ _, _, rfl, rfl⟩).bind fun answer => (rest answer).keepsBoard persistent
    | chain =>
      exact (consulted ⟨.acknowledgeChain _, _, rfl, rfl⟩).bind fun answer =>
        (acts_answerChain trivial answer).keepsBoard persistent
    | trace | haltPin | powerFail | event => cases asks
  intro state same
  rw [same, arbiterPass_eq_serve chosen]
  exact served machine rfl

/-- What the arbiter attempts while a bus error is pending fails, and takes nothing if it
did not begin by asking a device. -/
theorem arbitrate_pending (pending : machine.processor.lines.hasBusError = true)
    (chosen : machine.processor.service? = some service) (silent : service.asks = false) :
    ∃ broken, arbitrate machine = .error .failedCycle broken ∧ Broken .sparing machine .failedCycle broken := by
  have attempted := arbiterPass_eq_serve chosen
  cases pass : arbiterPass machine with
  | ok taken reached =>
    rw [pass] at attempted
    have apart : service ≠ .chain := by
      rintro rfl
      cases silent
    obtain rfl := serve_answers apart _ _ _ attempted.symm
    rw [(arbiterPass_moves pass).1] at pending
    cases pending
  | error abort broken =>
    rw [pass] at attempted
    obtain ⟨rfl, left⟩ := serve_broken (Scope.sparing_halts _) chosen silent attempted.symm
    exact ⟨broken, (Entries.none machine).arbiterPasses (by decide) pass, left⟩

/-- How a pending bus error comes before all requests: nothing has been taken by the time
that it has been answered. A reset that is owed forgets it along with the lines, and a
check of interrupts may have nothing to do. -/
inductive BusErrorFirst (operation : Operation) (machine : Machine (Recorded β)) : Prop where
  | answered {response : Response} {outcome : Outcome} {after : Machine (Recorded β)}
      (done : operation.opening machine.processor machine = .ok response after) (spared : Spared machine after)
      (answered : FaultAnswered machine.processor (fun _ => True) outcome after) : BusErrorFirst operation machine
  | forgotten {after : Machine (Recorded β)} (resets : operation.Resets machine.processor)
      (done : operation.opening machine.processor machine = .ok .done after)
      (devices : Unasked machine.board.calls.toList after.board) (lines : after.processor.lines = {}) :
      BusErrorFirst operation machine
  | idle (checks : operation = .checkInterrupts)
      (done : operation.opening machine.processor machine = .ok (.taken false) machine) : BusErrorFirst operation machine

theorem busFault_answered {boundary : Processor} {first : Machine (Recorded β)} (start : UInt64)
    (holds : Consistent configuration machine.processor) (same : SameBoundary boundary machine.processor)
    (spared : Spared first machine) :
    ∃ outcome after, Dispatch.serviceBusFault start machine = .ok outcome after ∧ Spared first after ∧
      FaultAnswered boundary (fun _ => True) outcome after := by
  have everywhere : Persistent fun _ : Recorded β => True := ⟨fun _ _ => trivial, fun _ _ _ => trivial⟩
  obtain ⟨outcome, after, served⟩ := Dispatch.serviceBusFault_finishes start machine
  exact ⟨outcome, after, served, spared.serviceBusFault served,
    Dispatch.serviceBusFault_answers everywhere trivial holds same served⟩

theorem BusErrorFirst.step (holds : Consistent configuration machine.processor) (live : machine.processor.Live)
    (pending : machine.processor.lines.hasBusError = true) (recording : machine.board.recording = true)
    (steps : operation.Steps) : BusErrorFirst operation machine := by
  cases due : machine.processor.resetOnResume with
  | true =>
    obtain ⟨fresh, reset, settled⟩ := Dispatch.reset_fresh machine
    refine .forgotten (.inr ⟨steps, live, due⟩) ?_ (Dispatch.reset_unasked recording reset) settled.lines
    rw [Operation.opening_released steps due]
    exact bind_of_ok reset _
  | false =>
    obtain ⟨outcome, after, served, spared, answered⟩ :=
      busFault_answered machine.processor.cycles holds (.refl _) (.refl recording)
    have stepped : Dispatch.step machine = .ok outcome after := by
      rw [Dispatch.step_eq live, due, Dispatch.boundaryStep_eq]
      simp only [pending, Bool.false_eq_true, if_false, if_true]
      exact served
    have opened : operation.opening machine.processor machine = .ok (.outcome outcome) after := by
      rw [Operation.opening_settled steps due]
      exact bind_of_ok stepped _
    exact .answered opened spared answered

theorem BusErrorFirst.check (holds : Consistent configuration machine.processor) (live : machine.processor.Live)
    (pending : machine.processor.lines.hasBusError = true) (recording : machine.board.recording = true)
    (silent : ¬machine.processor.AsksNext) : BusErrorFirst .checkInterrupts machine := by
  cases chosen : machine.processor.service? with
  | none =>
    have checked : Dispatch.checkInterrupts machine = .ok false machine := by
      rw [Dispatch.checkInterrupts_eq live, arbitrate_quiet chosen]
    exact .idle rfl (bind_of_ok checked _)
  | some service =>
    have silent : service.asks = false := Bool.eq_false_iff.mpr fun asks => silent ⟨service, chosen, asks⟩
    obtain ⟨broken, failed, left⟩ := arbitrate_pending pending chosen silent
    have spared := ((Spared.refl recording).broken left).restore machine.processor.checkpoint
    have restored := (left.path.recoverable holds.recoverable).restore machine.processor.checkpoint
    obtain ⟨outcome, after, served, spared, answered⟩ :=
      busFault_answered (broken.restore machine.processor.checkpoint).processor.cycles restored (left.path.restore holds) spared
    have checked : Dispatch.checkInterrupts machine = .ok true after := by
      rw [Dispatch.checkInterrupts_eq live, failed]
      simp only [served]
    exact .answered (bind_of_ok checked _) spared answered

theorem check_takes (live : machine.processor.Live) (recording : machine.board.recording = true)
    (asks : machine.processor.AsksNext) :
    TakenFirst machine.board.calls.toList (ended (Operation.checkInterrupts.perform machine)).board := by
  have persistent := takenFirst_persistent (β := β) machine.board.calls.toList
  have rest (limit : Nat) : Acts .any (arbiterPasses limit : Microcode (Recorded β) Bool) :=
    fun _ => acts_arbiterPasses (Scope.any_arbitrates _) limit
  have arbitrated : Ensures (· = machine) arbitrate (fun _ after => TakenFirst machine.board.calls.toList after.board)
      (fun _ after => TakenFirst machine.board.calls.toList after.board) := by
    refine (arbiterPass_asks recording asks).bind fun any => ?_
    cases any with
    | true => exact ((rest 7).keepsBoard persistent).bind fun _ => .pure fun _ holds => holds
    | false => exact .pure fun _ holds => holds
  have checked := persistent.enduring.toSteady.checkInterrupts_after live arbitrated
  have answered : Ensures (· = machine) (Operation.checkInterrupts.perform : Dispatch (Recorded β) Response)
      (fun _ after => TakenFirst machine.board.calls.toList after.board)
      (fun _ after => TakenFirst machine.board.calls.toList after.board) := checked.bind fun _ => .pure fun _ holds => holds
  exact answered.ended

theorem BusErrorFirst.silent (first : BusErrorFirst .checkInterrupts machine) (live : machine.processor.Live)
    (recording : machine.board.recording = true) : ¬machine.processor.AsksNext := by
  intro asks
  have taken := check_takes live recording asks
  cases first with
  | answered done spared => exact (congrArg ended done ▸ taken).not_unasked spared.devices
  | forgotten resets =>
    rcases resets with reset | ⟨steps, _⟩
    · cases reset
    · exact steps
  | idle _ done => exact (congrArg ended done ▸ taken).not_unasked (.start recording nofun)

/-- A pending bus error comes before every request, unless the next operation is a check
of interrupts that asks a device. Then the device is asked before anything else, and
its request is gone. -/
theorem busError_first_iff (reached : Reachable configuration machine.processor) (live : machine.processor.Live)
    (pending : machine.processor.lines.hasBusError = true) (recording : machine.board.recording = true)
    (next : operation.Steps ∨ operation = .checkInterrupts) :
    (∃ rest : Response → Dispatch (Recorded β) Response,
      operation.perform machine = (operation.opening machine.processor >>= rest) machine) ∧
    (BusErrorFirst operation machine ↔ ¬(operation = .checkInterrupts ∧ machine.processor.AsksNext)) ∧
    (operation = .checkInterrupts → machine.processor.AsksNext →
      TakenFirst machine.board.calls.toList (ended (operation.opening machine.processor machine)).board) := by
  have holds := reached.consistent
  refine ⟨Operation.perform_opening live next, ⟨fun first => ?_, fun silent => ?_⟩, fun checks asks => ?_⟩
  · rintro ⟨rfl, asks⟩
    exact first.silent live recording asks
  · rcases next with steps | rfl
    · exact .step holds live pending recording steps
    · exact .check holds live pending recording fun asks => silent ⟨rfl, asks⟩
  · subst checks
    exact check_takes live recording asks

end

/-- A request of the T-11 and a bus error, both reported by the driver. -/
def requestAndBusError : Machine (Recorded FlatBoard) :=
  let requested := ended (Dispatch.drive .irq0 true
    ⟨.create { model := .t11 }, { board := FlatBoard.load {} 4 [0o1000, 0o340] }⟩)
  ended (Dispatch.drive .busError true requested)

theorem busError_first_iff_request :
    requestAndBusError.processor.AsksNext ∧ requestAndBusError.processor.lines.hasBusError = true ∧
      BusErrorFirst .step requestAndBusError := by
  let powered : Machine (Recorded FlatBoard) :=
    ⟨.create { model := .t11 }, { board := FlatBoard.load {} 4 [0o1000, 0o340] }⟩
  let requested : Machine (Recorded FlatBoard) := ended (Dispatch.drive .irq0 true powered)
  have first : (Operation.drive .irq0 true).perform powered = .ok .done requested := rfl
  have second : (Operation.drive .busError true).perform requested = .ok .done requestAndBusError := rfl
  have reached : Reachable { model := .t11 } requestAndBusError.processor := .perform (.perform .powerOn first) second
  have pending : requestAndBusError.processor.lines.hasBusError = true := by decide +kernel
  obtain ⟨_, precedes, _⟩ := busError_first_iff reached (.inl rfl) pending rfl (.inl (show Operation.step.Steps from trivial))
  exact ⟨⟨.request 1, by decide +kernel, rfl⟩, pending, precedes.mpr fun check => nomatch check.1⟩

/-- A check of interrupts acknowledges the request, fails to read its vector, and only then
answers the bus error. -/
theorem busError_not_first_request :
    requestAndBusError.processor.lines.hasBusError = true ∧ ¬BusErrorFirst .checkInterrupts requestAndBusError ∧
      (ended (Operation.checkInterrupts.perform requestAndBusError)).board.calls.toList =
        [.acknowledge 1 none, .readWord 0o70 (.ok 0), .readWord 4 (.ok 0o1000), .readWord 6 (.ok 0o340),
          .writeWord 0o177776 0 (.ok ()), .writeWord 0o177774 0 (.ok ())] := by
  have asks : requestAndBusError.processor.AsksNext := ⟨.request 1, by decide +kernel, rfl⟩
  exact ⟨by decide +kernel, fun first => first.silent (.inl rfl) rfl asks, by decide +kernel⟩

end Pdp11
