import Pdp11.Proofs.BankSignals
import Pdp11.Proofs.InstructionCases
import Pdp11.Proofs.NestedAbort

/-! HALT mode as the interrupted user sees it: not at all. As long as nothing leaves the
mode, nothing touches the context that it was entered from, so the instruction that goes
back finds it as it was. Whether something has left the mode the board can tell: it then
hears of the user bank. -/

namespace Pdp11

open Microcode

/-- In HALT mode, which was entered from this context. -/
structure HaltedFrom (saved : Context) (processor : Processor) : Prop where
  model : processor.model = .vm2
  haltMode : processor.status.haltMode = true
  bank : processor.bank = .halt
  shadow : processor.shadow = saved

namespace HaltedFrom

variable {saved : Context} {processor : Processor}

theorem bookkept {after : Processor} (halted : HaltedFrom saved processor) (same : Bookkept processor after) :
    HaltedFrom saved after := by
  refine ⟨(congrArg Configuration.model same.configuration).trans halted.model, ?_, same.bank.trans halted.bank, ?_⟩
  · rw [same.status]
    exact halted.haltMode
  · rcases same.shadow with kept | ⟨user, _⟩
    · exact kept.trans halted.shadow
    · rw [halted.haltMode] at user
      cases user

theorem status (halted : HaltedFrom saved processor) {status : StatusWord} (kept : status.haltMode = true) :
    HaltedFrom saved { processor with status } := ⟨halted.model, kept, halted.bank, halted.shadow⟩

variable {β : Type} {machine before after : Machine β}

/-- What retires an instruction leaves HALT mode, context and bank as they are. -/
theorem retired (halted : HaltedFrom saved machine.processor) (start : UInt64) (pc word : Word) :
    HaltedFrom saved (machine.retired start pc word).processor := by
  obtain ⟨_, _, _, kept⟩ := machine.retired_processor start pc word
  rw [kept]
  refine ⟨halted.model, halted.haltMode, halted.bank, ?_⟩
  simp only [halted.haltMode, if_true]
  exact halted.shadow

variable [Board β]

/-- A status word that leaves HALT mode selects the user bank. -/
theorem installStatus (halted : HaltedFrom saved machine.processor) (bits : Word) :
    HaltedFrom saved (machine.installStatus bits).processor ∨
      (machine.installStatus bits).board = Board.selectBank .user machine.board := by
  have has : machine.processor.model.hasHaltMode = true := by
    rw [halted.model]
    rfl
  cases on : (machine.installed bits).haltMode with
  | true =>
    left
    rw [Machine.installStatus_processor, has, on]
    exact ⟨halted.model, on, rfl, halted.shadow⟩
  | false =>
    right
    have switches : machine.switches bits = true := by
      rw [Machine.switches, has, on, halted.bank]
      rfl
    rw [Machine.installStatus_board, switches, on]
    rfl

theorem action {allowed : Scope} (halted : HaltedFrom saved before.processor) (action : Action allowed before after) :
    HaltedFrom saved after.processor ∨ after.board = Board.selectBank .user before.board := by
  cases action with
  | registers | lines | trace | wait | previousPc | charge | count | call | refused =>
    exact .inl ⟨halted.model, halted.haltMode, halted.bank, halted.shadow⟩
  | codes _ status kept => exact .inl (halted.status (kept.haltMode.trans halted.haltMode))
  | priority _ value =>
    have kept := StatusWord.mtps_haltMode before.processor.status value
    rw [← halted.model] at kept
    exact .inl (halted.status (kept.trans halted.haltMode))
  | restart _ without =>
    rw [halted.model] at without
    cases without
  | install _ bits => exact halted.installStatus bits
  | haltBank _ _ _ apart => exact absurd halted.bank apart
  | wake =>
    rw [Machine.update_processor, Processor.wake_eq]
    exact .inl ⟨halted.model, halted.haltMode, halted.bank, halted.shadow⟩
  | shadow => exact .inl (halted.bookkept (.syncShadow _))
  | emit event =>
    rw [Machine.update_processor, Processor.emit_eq]
    exact .inl ⟨halted.model, halted.haltMode, halted.bank, halted.shadow⟩

end HaltedFrom

variable {β : Type}

/-- Nothing since an earlier time has told the board of the user bank: there was no reset,
and no status word has left HALT mode. -/
def StaysHalted (before after : Recorded β) : Prop :=
  before.recording = true ∧ ∃ later, after.calls.toList = before.calls.toList ++ later ∧ .user ∉ selections later

/-- The board has been told of the user bank. -/
abbrev Heard (earlier : List BusCall) (board : Recorded β) : Prop := board.Since earlier (.user ∈ selections ·)

theorem StaysHalted.not_heard {before after : Recorded β} (stays : StaysHalted before after) :
    ¬Heard before.calls.toList after := by
  rintro ⟨_, later, calls, heard⟩
  obtain ⟨_, other, same, quiet⟩ := stays
  rw [calls] at same
  exact quiet (List.append_cancel_left same ▸ heard)

/-- HALT mode since an earlier time, unless the board has heard otherwise. -/
def Frozen (saved : Context) (earlier : List BusCall) (machine : Machine (Recorded β)) : Prop :=
  Heard earlier machine.board ∨
    (machine.board.Since earlier fun _ => True) ∧ HaltedFrom saved machine.processor

theorem Frozen.resumed {saved : Context} {earlier : List BusCall} {machine : Machine (Recorded β)} (frozen : Frozen saved earlier machine) :
    Frozen saved earlier (machine.update ({ · with runState := .running, resetOnResume := true })) :=
  frozen.imp_right fun ⟨grown, halted⟩ => ⟨grown, halted.model, halted.haltMode, halted.bank, halted.shadow⟩

variable [Board β] {earlier : List BusCall}

theorem heard_persistent (earlier : List BusCall) : Persistent (Heard earlier : Recorded β → Prop) :=
  Recorded.since_persistent earlier fun later call heard => by
    rw [selections_append]
    exact List.mem_append_left _ heard

theorem grown_persistent (earlier : List BusCall) : Persistent (Recorded.Since earlier fun _ => True : Recorded β → Prop) :=
  Recorded.since_persistent earlier fun _ _ grown => grown

theorem Heard.user {board : Recorded β} (grown : board.Since earlier fun _ => True) :
    Heard earlier (Board.selectBank .user board) :=
  grown.note (fun later _ => by simp [selections, BusCall.bank?]) (Board.selectBank .user board.board)

variable {saved : Context} {machine before after : Machine (Recorded β)}

theorem Frozen.action (action : Action .any before after) (frozen : Frozen saved earlier before) :
    Frozen saved earlier after := by
  rcases frozen with heard | ⟨grown, halted⟩
  · exact .inl ((heard_persistent earlier).action action heard)
  · rcases halted.action action with kept | told
    · exact .inr ⟨(grown_persistent earlier).action action grown, kept⟩
    · left
      rw [told]
      exact .user grown

theorem Frozen.restore (boundary : Checkpoint) (frozen : Frozen saved earlier machine) :
    Frozen saved earlier (machine.restore boundary) := by
  rcases frozen with heard | ⟨grown, halted⟩
  · exact .inl ((heard_persistent earlier).restore boundary heard)
  · have moved : HaltedFrom saved (machine.update ({ · with registers := boundary.registers })).processor :=
      ⟨halted.model, halted.haltMode, halted.bank, halted.shadow⟩
    rcases moved.installStatus boundary.status.bits with kept | told
    · exact .inr ⟨(grown_persistent earlier).restore boundary grown, kept⟩
    · left
      rw [Machine.restore, told]
      exact .user grown

theorem Frozen.steady (saved : Context) (earlier : List BusCall) :
    Steady (Frozen saved earlier : Machine (Recorded β) → Prop) (Frozen saved earlier) := by
  refine .of_actions (fun same frozen => ?_) Frozen.restore Frozen.action
  exact frozen.imp_right fun ⟨grown, halted⟩ => ⟨grown, halted.bookkept (same _)⟩

theorem Operation.stays_halted {operation : Operation} {response : Response}
    (performed : operation.perform machine = .ok response after) (halted : HaltedFrom saved machine.processor)
    (stays : StaysHalted machine.board after.board) : HaltedFrom saved after.processor := by
  by_cases resets : operation.Resets machine.processor
  · obtain ⟨fresh, reset, _⟩ := Dispatch.reset_fresh machine
    obtain ⟨answer, recording, later, calls, _⟩ := Signalled.reset_vm2 stays.1 halted.model reset
    have heard : Heard machine.board.calls.toList fresh.board :=
      ⟨recording, _, calls.trans (List.append_assoc ..), by simp [selections, BusCall.bank?]⟩
    have kept := (heard_persistent _).enduring.toSteady.perform_reset resets reset heard
    exact absurd (kept.ok rfl performed) stays.not_heard
  · have frozen : Frozen saved machine.board.calls.toList machine := .inr ⟨.start stays.1 trivial, halted⟩
    have kept := ((Frozen.steady saved machine.board.calls.toList).perform Frozen.resumed resets frozen).ok rfl performed
    exact (kept.resolve_left stays.not_heard).2

theorem Episodes.stay_halted {first last : Processor} {episodes : List (Episode (Recorded β))}
    (run : Episodes first episodes last) (halted : HaltedFrom saved first)
    (stay : ∀ episode ∈ episodes, StaysHalted episode.before.board episode.after.board) : HaltedFrom saved last := by
  induction run with
  | none => exact halted
  | next episode rest ih =>
    rw [List.forall_mem_cons] at stay
    exact ih (Operation.stays_halted episode.performed halted stay.1) stay.2

section

variable {β : Type} [Board β] {boundary middle entered fetched after : Machine β} {count limit : Nat}

/-- The next instruction is this word: nothing comes before it, and it can be read. -/
structure Fetches (word : Word) (boundary fetched : Machine β) : Prop where
  ready : boundary.processor.lines.hasBusError = false
  fetch : ∃ settled, arbitrate boundary = .ok false settled ∧ settled.processor.runState ≠ .waiting ∧
    fetchInstruction settled = .ok word fetched

/-- A step or a check of interrupts ends here. -/
inductive Finishes (boundary after : Machine β) : Prop where
  | step {outcome : Outcome} (done : Dispatch.boundaryStep boundary = .ok outcome after)
  | check {taken : Bool} (live : boundary.processor.Live) (done : Dispatch.checkInterrupts boundary = .ok taken after)

/-- The processor enters HALT mode between two boundaries, and this is the context that
it was in. Where the arbiter enters it may go on with other requests, so the mode is
entered before the second boundary is reached. -/
inductive HaltEntry (boundary : Machine β) : Context → Machine β → Machine β → Prop where
  | pin {count : Nat} {middle entered after : Machine β} (entries : Entries count boundary middle)
      (within : count < maxNestedTraps) (chosen : middle.processor.service? = some .haltPin)
      (entry : arbiterPass middle = .ok true entered) (finishes : Finishes boundary after) :
      HaltEntry boundary middle.processor.context entered after
  | instruction {retirement : Retirement} {fetched entered after : Machine β} {outcome : Outcome}
      (user : boundary.processor.status.haltMode = false) (fetches : Fetches 0 boundary fetched)
      (executed : executeWord 0 fetched = .ok retirement entered) (done : Dispatch.boundaryStep boundary = .ok outcome after) :
      HaltEntry boundary ⟨boundary.processor.pc.even + 2, boundary.processor.status⟩ entered after
  | doubleFault {cycles : Nat} {after : Machine β} (user : boundary.processor.status.haltMode = false)
      (done : Dispatch.boundaryStep boundary = .ok (.faulted .doubleFault cycles) after) :
      HaltEntry boundary boundary.processor.context after after
  | doubleFaultAtCheck {start : UInt64} {cycles : Nat} {broken after : Machine β}
      (user : boundary.processor.status.haltMode = false) (failed : arbitrate boundary = .error .failedCycle broken)
      (served : Dispatch.serviceBusFault start (broken.restore boundary.processor.checkpoint) =
        .ok (.faulted .doubleFault cycles) after) : HaltEntry boundary boundary.processor.context after after

theorem Fetches.processor {word : Word} (fetches : Fetches word boundary fetched) :
    ∃ lines observed, fetched.processor =
      { boundary.processor.setPc (boundary.processor.pc.even + 2) with
        previousPc := boundary.processor.pc.even
        lines
        observed } := by
  obtain ⟨_, settled, idle, _, fetch⟩ := fetches
  obtain ⟨lines, same, _⟩ := arbiterPass_idle (arbitrate_idle idle)
  obtain ⟨observed, kept⟩ := fetchInstruction_ok fetch
  refine ⟨lines, observed, ?_⟩
  rw [kept, same]
  rfl

theorem Fetches.context {word : Word} (fetches : Fetches word boundary fetched) :
    fetched.processor.context = ⟨boundary.processor.pc.even + 2, boundary.processor.status⟩ := by
  obtain ⟨lines, observed, same⟩ := fetches.processor
  rw [same]
  exact congrArg (Context.mk · boundary.processor.status) (RegisterFile.pc_setPc _ _)

theorem Fetches.boundaryStep {word : Word} {retirement : Retirement} (fetches : Fetches word boundary fetched)
    (executed : executeWord word fetched = .ok retirement entered) :
    Dispatch.boundaryStep boundary = .ok (retirement.outcome (entered.processor.elapsed boundary.processor.cycles))
      (entered.retired boundary.processor.cycles boundary.processor.pc.even word) := by
  obtain ⟨ready, settled, idle, active, fetch⟩ := fetches
  obtain ⟨lines, same, _⟩ := arbiterPass_idle (arbitrate_idle idle)
  have pc : settled.processor.pc = boundary.processor.pc := by
    rw [same]
    rfl
  have cycle : instructionCycle boundary.processor.cycles settled =
      .ok (retirement.outcome (entered.processor.elapsed boundary.processor.cycles))
        (entered.retired boundary.processor.cycles boundary.processor.pc.even word) := by
    rw [instructionCycle_eq, fetch, ← pc]
    simp only [executed]
  rw [Dispatch.boundaryStep_eq, idle]
  simp only [ready, active, cycle, Bool.false_eq_true, if_false]

theorem Entries.ready (entries : Entries count boundary middle) (entry : arbiterPass middle = .ok true entered) :
    boundary.processor.lines.hasBusError = false := by
  cases entries with
  | none => exact (arbiterPass_moves entry).1
  | taken first _ => exact (arbiterPass_moves first).1

theorem Entries.consistent {configuration : Configuration} (entries : Entries count boundary middle)
    (holds : Consistent configuration boundary.processor) : Consistent configuration middle.processor := by
  induction entries with
  | none => exact holds
  | taken entry _ ih => exact ih (arbiterPass_settles.ok holds entry)

theorem Microcode.arbiterPasses_after {whole broken : Machine β → Prop} (entry : arbiterPass boundary = .ok true entered)
    (rest : Ensures (· = entered) (arbiterPasses limit) (fun _ => whole) (fun _ => broken)) :
    Ensures (· = boundary) (arbiterPasses (limit + 1)) (fun _ => whole) (fun _ => broken) := by
  have first : Ensures (· = boundary) arbiterPass (fun taken after => taken = true ∧ after = entered) (fun _ => broken) := by
    intro state same
    rw [same, entry]
    exact ⟨rfl, rfl⟩
  refine first.bind fun taken => ?_
  rintro _ ⟨rfl, rfl⟩
  exact rest.bind (fun _ => .pure fun _ holds => holds) _ rfl

/-- What the passes keep that are left after some entries, arbitration keeps. -/
theorem Entries.keeps {whole broken : Machine β → Prop} (entries : Entries count boundary middle) (within : count < limit)
    (entry : arbiterPass middle = .ok true entered)
    (rest : ∀ left, count + left < limit →
      Ensures (· = entered) (Microcode.arbiterPasses left) (fun _ => whole) (fun _ => broken)) :
    Ensures (· = boundary) (Microcode.arbiterPasses limit) (fun _ => whole) (fun _ => broken) := by
  induction entries generalizing limit with
  | none machine =>
    obtain ⟨left, rfl⟩ : ∃ left, limit = left + 1 := ⟨limit - 1, by omega⟩
    exact arbiterPasses_after entry (rest left (by omega))
  | taken first _ ih =>
    obtain ⟨left, rfl⟩ : ∃ left, limit = left + 1 := ⟨limit - 1, by omega⟩
    exact arbiterPasses_after first (ih (Nat.lt_of_succ_lt_succ within) entry fun left fits => rest left (by omega))

theorem Microcode.enterHaltMode_halted {machine : Machine β} (has : machine.processor.model = .vm2)
    (user : machine.processor.status.haltMode = false) (done : enterHaltMode machine = .ok () entered) :
    HaltedFrom machine.processor.context entered.processor := by
  have kept := ((acts_enterHaltMode has (Scope.any_halts _)).ok rfl done).sameSetting.model
  obtain ⟨_, pc, status, board, _, rfl⟩ := enterHaltMode_ok done
  refine ⟨kept.trans has, machine.halted_haltMode pc status board has, machine.halted_bank pc status board has, ?_⟩
  rw [Machine.halted_shadow, user]
  rfl

theorem Microcode.arbiterPass_halted (chosen : middle.processor.service? = some .haltPin)
    (entry : arbiterPass middle = .ok true entered) : HaltedFrom middle.processor.context entered.processor := by
  obtain ⟨_, _, read, entry⟩ := bind_eq_ok entry
  cases read
  rw [chosen] at entry
  obtain ⟨_, _, taken, done⟩ := bind_eq_ok entry
  cases done
  exact enterHaltMode_halted (model_of_haltPin chosen) (outside_of_haltPin chosen) taken

theorem Microcode.executeWord_halt {machine : Machine β} {retirement : Retirement} (has : machine.processor.model = .vm2)
    (user : machine.processor.status.haltMode = false) (done : executeWord 0 machine = .ok retirement entered) :
    HaltedFrom machine.processor.context entered.processor := by
  have found : Instruction.ofWord? 0 = some (.control .halt) := by decide
  simp only [executeWord, found] at done
  obtain ⟨_, _, begun, done⟩ := bind_eq_ok done
  cases begun
  obtain ⟨_, _, halted, done⟩ := bind_eq_ok done
  cases done
  let charged := machine.update (·.charge (Instruction.control .halt).cycles)
  have model : charged.processor.model = .vm2 := has
  have outside : charged.processor.status.haltMode = false := user
  have taken : halt charged = .ok _ _ := halted
  rw [halt_eq, model] at taken
  have entered : HaltedFrom charged.processor.context entered.processor := enterHaltMode_halted model outside taken
  exact entered

/-- START goes back to the context in the shadow, and to the user bank. -/
theorem Microcode.executeWord_start {saved : Context} {machine : Machine β} (halted : HaltedFrom saved machine.processor)
    (user : saved.status.haltMode = false) (fits : saved.status.Fits Model.vm2.implemented) :
    ∃ after, executeWord 0o12 machine = .ok .completed after ∧ after.processor.context = saved ∧
      after.processor.bank = .user ∧ after.board = Board.selectBank .user machine.board := by
  have found : Instruction.ofWord? 0o12 = some (.control .start) := by decide
  let moved := machine.update (·.setPc machine.processor.shadow.pc)
  have model : moved.processor.model = .vm2 := halted.model
  have installed : moved.installed machine.processor.shadow.status.bits = saved.status := by
    rw [Machine.installed, model, halted.shadow]
    exact fits.masked
  refine ⟨(moved.installStatus machine.processor.shadow.status.bits).update (·.charge (Instruction.control .start).cycles),
    ?_, ?_, ?_, ?_⟩
  · simp only [executeWord, found, executeCharged, execute, executeControl, Bind.bind, EStateM.bind, processor,
      halted.model, halted.haltMode]
    rfl
  · change Context.mk (moved.installStatus _).processor.pc (moved.installStatus _).processor.status = saved
    rw [Machine.installStatus_processor]
    change Context.mk (machine.processor.registers.setPc machine.processor.shadow.pc).pc (moved.installed _) = saved
    rw [RegisterFile.pc_setPc, installed, halted.shadow]
  · change (moved.installStatus _).processor.bank = .user
    rw [Machine.installStatus_processor, model, installed, user]
    rfl
  · have on : moved.processor.bank = .halt := halted.bank
    have switches : moved.switches machine.processor.shadow.status.bits = true := by
      rw [Machine.switches, model, installed, user, on]
      rfl
    change (moved.installStatus _).board = _
    rw [Machine.installStatus_board, switches, installed, user]
    rfl

end

section

variable {boundary entered fetched : Machine (Recorded β)} {configuration : Configuration}

/-- The context that is kept is one of a user. -/
theorem HaltEntry.user (entry : HaltEntry boundary saved entered after) (holds : Consistent configuration boundary.processor)
    (has : configuration.model = .vm2) : saved.status.haltMode = false ∧ saved.status.Fits Model.vm2.implemented := by
  cases entry with
  | pin entries _ chosen _ _ =>
    exact ⟨outside_of_haltPin chosen, has ▸ (entries.consistent holds).fits⟩
  | instruction user _ _ _ | doubleFault user _ | doubleFaultAtCheck user _ _ => exact ⟨user, has ▸ holds.fits⟩

private theorem halted_of_answer {cycles : Nat} (user : boundary.processor.status.haltMode = false)
    (model : after.processor.model = .vm2)
    (answered : FaultAnswered boundary.processor (fun _ => True) (.faulted .doubleFault cycles) after) :
    HaltedFrom boundary.processor.context after.processor := by
  cases answered with
  | @halted _ pc status _ _ _ has _ registers installed bank shadow =>
    refine ⟨model, ?_, bank, shadow user⟩
    rw [installed, has]
    exact StatusWord.isSet_masked_or (by decide) status

/-- HALT mode lasts from its entry to the next boundary, unless the board hears otherwise. -/
theorem HaltEntry.halted (entry : HaltEntry boundary saved entered after) (holds : Consistent configuration boundary.processor)
    (has : configuration.model = .vm2) (stays : StaysHalted entered.board after.board) :
    HaltedFrom saved after.processor := by
  have everywhere : Persistent fun _ : Recorded β => True := ⟨fun _ _ => trivial, fun _ _ _ => trivial⟩
  cases entry with
  | @pin _ middle _ _ entries within chosen entry finishes =>
    let earlier := entered.board.calls.toList
    have frozen : Frozen middle.processor.context earlier entered :=
      .inr ⟨.start stays.1 trivial, arbiterPass_halted chosen entry⟩
    have steady : Steady (Frozen middle.processor.context earlier : Machine (Recorded β) → Prop) _ := Frozen.steady _ _
    have rest (left : Nat) : Ensures (· = entered) (arbiterPasses left) (fun _ => Frozen middle.processor.context earlier)
        (fun _ => Frozen middle.processor.context earlier) :=
      (acts_arbiterPasses (Scope.any_arbitrates _) left).weaken (fun _ same => same)
        (fun _ _ path => path.keeps Frozen.action frozen) fun _ _ left => left.path.keeps Frozen.action frozen
    have arbitrated := entries.keeps within entry fun left _ => rest left
    have kept : Frozen middle.processor.context earlier after := by
      cases finishes with
      | step done => exact (steady.boundaryStep_after (entries.ready entry) arbitrated).ok rfl done
      | check live done => exact (steady.checkInterrupts_after live arbitrated).ok rfl done
    exact (kept.resolve_left stays.not_heard).2
  | @instruction _ fetched _ _ _ user fetches executed done =>
    rw [fetches.boundaryStep executed] at done
    cases done
    obtain ⟨lines, observed, same⟩ := fetches.processor
    have model : fetched.processor.model = .vm2 := by
      rw [same]
      exact holds.model.trans has
    have outside : fetched.processor.status.haltMode = false := by
      rw [same]
      exact user
    rw [← fetches.context]
    exact (executeWord_halt model outside executed).retired _ _ _
  | doubleFault user done =>
    have model := (consistent_enduring.boundaryStep.ok holds done).model.trans has
    exact halted_of_answer user model (Dispatch.boundaryStep_answers everywhere trivial holds done fun decode => by cases decode)
  | @doubleFaultAtCheck _ _ broken _ user failed served =>
    have path := (acts_arbitrate.error failed).path
    have restored := (path.recoverable holds.recoverable).restore boundary.processor.checkpoint
    have model := ((consistent_enduring.serviceBusFault _).ok restored served).model.trans has
    exact halted_of_answer user model (Dispatch.serviceBusFault_answers everywhere trivial restored (path.restore holds) served)

/-- However long HALT mode lasts, and whatever happens in it, the instruction that goes
back finds program counter and status word as they were when the mode was entered. -/
theorem start_restores_interrupted {last : Machine (Recorded β)} {later : List (Episode (Recorded β))}
    (reached : Reachable configuration boundary.processor) (has : configuration.model = .vm2)
    (entry : HaltEntry boundary saved entered after) (stays : StaysHalted entered.board after.board)
    (run : Episodes after.processor later last.processor)
    (stay : ∀ episode ∈ later, StaysHalted episode.before.board episode.after.board)
    (live : last.processor.Live) (settled : last.processor.resetOnResume = false) (fetches : Fetches 0o12 last fetched) :
    ∃ cycles final, Dispatch.step last = .ok (.retired cycles) final ∧ final.processor.context = saved ∧
      final.processor.bank = .user ∧ final.board = Board.selectBank .user fetched.board := by
  have holds := reached.consistent
  obtain ⟨user, fits⟩ := entry.user holds has
  have halted := run.stay_halted (entry.halted holds has stays) stay
  obtain ⟨lines, observed, same⟩ := fetches.processor
  have inside : HaltedFrom saved fetched.processor := by
    rw [same]
    exact ⟨halted.model, halted.haltMode, halted.bank, halted.shadow⟩
  obtain ⟨executed, done, context, bank, board⟩ := executeWord_start inside user fits
  obtain ⟨sameContext, sameBank⟩ := executed.retired_context last.processor.cycles last.processor.pc.even 0o12
  have stepped : Dispatch.step last = .ok (.retired (executed.processor.elapsed last.processor.cycles))
      (executed.retired last.processor.cycles last.processor.pc.even 0o12) := by
    rw [Dispatch.step_eq live, settled]
    exact fetches.boundaryStep done
  exact ⟨_, _, stepped, sameContext.trans context, sameBank.trans bank, board⟩

/-- A processor about to execute a HALT instruction, with a NOP and a START in HALT mode. -/
def aboutToHalt : Machine (Recorded FlatBoard) :=
  ⟨.create { model := .vm2 }, { board := (FlatBoard.load {} 4 [0o1000, 0o340]).load 0o1000 [0o240, 0o12] }⟩

def haltEntered : Machine (Recorded FlatBoard) := ended (executeWord 0 (ended (fetchInstruction (ended (arbitrate aboutToHalt)))))

def haltRetired : Machine (Recorded FlatBoard) := ended (Dispatch.boundaryStep aboutToHalt)

def nopInHaltMode : Episode (Recorded FlatBoard) where
  operation := .step
  before := haltRetired
  response := .outcome (.retired 12)
  after := ended (Operation.step.perform haltRetired)
  performed := eq_ok_of_answer (by decide +kernel)

theorem start_restores_interrupted_halt :
    aboutToHalt.processor.pc = 0 ∧ nopInHaltMode.after.processor.pc = 0o1002 ∧
      ∃ cycles final, Dispatch.step nopInHaltMode.after = .ok (.retired cycles) final ∧
        final.processor.context = ⟨2, ⟨0⟩⟩ ∧ final.processor.bank = .user := by
  have idle : arbitrate aboutToHalt = .ok false _ := eq_ok_of_answer (by decide +kernel)
  have fetched : fetchInstruction (ended (arbitrate aboutToHalt)) = .ok 0 _ := eq_ok_of_answer (by decide +kernel)
  have fetches : Fetches 0 aboutToHalt _ := ⟨rfl, _, idle, by decide +kernel, fetched⟩
  have executed : executeWord 0 (ended (fetchInstruction (ended (arbitrate aboutToHalt)))) = .ok .halting haltEntered :=
    eq_ok_of_answer (by decide +kernel)
  have done : Dispatch.boundaryStep aboutToHalt = .ok (.retired 96) haltRetired := eq_ok_of_answer (by decide +kernel)
  have entry : HaltEntry aboutToHalt ⟨2, ⟨0⟩⟩ haltEntered haltRetired := .instruction rfl fetches executed done
  have retired : StaysHalted haltEntered.board haltRetired.board := ⟨by decide +kernel, [], by decide +kernel, nofun⟩
  have stays : StaysHalted haltRetired.board nopInHaltMode.after.board :=
    ⟨by decide +kernel, [.readWord 0o1000 (.ok 0o240)], by decide +kernel, by decide⟩
  have startIdle : arbitrate nopInHaltMode.after = .ok false _ := eq_ok_of_answer (by decide +kernel)
  have startFetched : fetchInstruction (ended (arbitrate nopInHaltMode.after)) = .ok 0o12 _ := eq_ok_of_answer (by decide +kernel)
  have fetchesStart : Fetches 0o12 nopInHaltMode.after _ := ⟨by decide +kernel, _, startIdle, by decide +kernel, startFetched⟩
  obtain ⟨cycles, final, stepped, context, bank, _⟩ :=
    start_restores_interrupted .powerOn rfl entry retired (.next nopInHaltMode (.none _)) (List.forall_mem_singleton.mpr stays)
      (.inl (by decide +kernel)) (by decide +kernel) fetchesStart
  exact ⟨rfl, by decide +kernel, cycles, final, stepped, context, bank⟩

end

end Pdp11
