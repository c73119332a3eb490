import Pdp11.Proofs.HaltTransparency

/-! An interrupt and the return from it. What an entry leaves on the stack is what the
return takes from there, so the interrupted program goes on as if nothing had been. Only a
request of the interrupt chain is different: it leaves HALT mode before its entry saves
anything, so the return from it does not go back there. -/

namespace Pdp11

open Microcode

/-- Words of a board that are plain memory, in whatever bank: what is written there is what
is read, and nothing but a write there changes it. -/
structure Ram (β : Type) [Board β] (cells : Word → Prop) where
  word : Word → β → Word
  read : ∀ {address value : Word} {before after : β}, cells address.even →
    Board.readWord address.even before = (.ok value, after) → value = word address.even before
  written : ∀ {address value : Word} {before after : β}, cells address.even →
    Board.writeWord address.even value before = (.ok (), after) → word address.even after = value
  keptByRead : ∀ (address : Word) {other : Word} (board : β), cells other →
    word other (Board.readWord address.even board).2 = word other board
  keptByWrite : ∀ (address value : Word) {other : Word} (board : β), cells other.even → other.even ≠ address.even →
    word other.even (Board.writeWord address.even value board).2 = word other.even board
  selected : ∀ {bank : Bank} {other : Word} (board : β), cells other →
    word other (Board.selectBank bank board) = word other board

/-- The two words that a trap entry writes below this stack pointer. -/
def TrapFrame (sp address : Word) : Prop := address = (sp - 2).even ∨ address = (sp - 4).even

/-- The status word that an interrupt saves. -/
def Service.saved (service : Service) (status : StatusWord) : StatusWord :=
  if service = .chain then status.set StatusWord.haltBit false else status

theorem Service.saved_fits {service : Service} {status : StatusWord} {implemented : Word}
    (fits : status.Fits implemented) : (service.saved status).Fits implemented := by
  unfold saved
  split
  · exact fits.clearHalt
  · exact fits

theorem Service.saved_eq {service : Service} {status : StatusWord} (outside : service = .chain → status.haltMode = false) :
    service.saved status = status := by
  unfold saved
  split
  · exact StatusWord.clearHalt_of_user (outside ‹_›)
  · rfl

variable {β : Type} [Board β]

/-- The two cycles of a return: program counter and status word come back in the order in
which they lie on the stack. -/
def ReturnCycles (sp pc status : Word) (before after : β) : Prop :=
  ∃ first, Board.readWord sp.even before = (.ok pc, first) ∧ Board.readWord (sp + 2).even first = (.ok status, after)

/-- Where a return ends, once the board has answered both of its cycles. -/
def Machine.returned (machine : Machine β) (pc status : Word) (board : β) : Machine β :=
  (⟨(machine.processor.setSp (machine.processor.sp + 4)).setPc pc, board⟩ : Machine β).installStatus status

namespace Machine

variable (machine : Machine β) (pc status : Word) (board : β)

theorem returned_registers : (machine.returned pc status board).processor.registers =
    (machine.processor.registers.setSp (machine.processor.sp + 4)).setPc pc := by
  rw [returned, installStatus_processor]
  rfl

theorem returned_status : (machine.returned pc status board).processor.status = machine.installed status := by
  rw [returned, installStatus_processor]
  rfl

theorem returned_bank : (machine.returned pc status board).processor.bank =
    if machine.processor.model.hasHaltMode then Bank.ofHaltMode (machine.installed status).haltMode
    else machine.processor.bank := by
  rw [returned, installStatus_processor]
  rfl

theorem returned_runState : (machine.returned pc status board).processor.runState = machine.processor.runState := by
  rw [returned, installStatus_processor]
  rfl

end Machine

section

variable {machine : Machine β} {pc status : Word} {board : β}

omit [Board β] in
theorem Microcode.cycle_of_ok {α : Type} {request : β → Except BusError α × β} {value : α}
    (ready : machine.processor.lines.hasBusError = false) (answered : request machine.board = (.ok value, board)) :
    cycle request machine = .ok value { machine with board } := by
  obtain ⟨processor, before⟩ := machine
  simp only [cycle, answered, ready, Bool.false_eq_true, if_false]

theorem Microcode.pop_of_read {value : Word} (ready : machine.processor.lines.hasBusError = false)
    (answered : Board.readWord machine.processor.sp.even machine.board = (.ok value, board)) :
    pop machine = .ok value ⟨machine.processor.setSp (machine.processor.sp + 2), board⟩ := by
  have read : readWord machine.processor.sp machine = .ok value { machine with board } := cycle_of_ok ready answered
  change (do
    let value ← readWord machine.processor.sp
    setRegister .sp (machine.processor.sp + 2)
    return value : Microcode β Word) machine = _
  rw [bind_of_ok read]
  rfl

theorem Microcode.returnFromTrap_of_read (ready : machine.processor.lines.hasBusError = false)
    (cycles : ReturnCycles machine.processor.sp pc status machine.board board) :
    returnFromTrap machine = .ok () (machine.returned pc status board) := by
  obtain ⟨first, readPc, readStatus⟩ := cycles
  let middle : Machine β := ⟨machine.processor.setSp (machine.processor.sp + 2), first⟩
  have raised : middle.processor.sp = machine.processor.sp + 2 := Processor.sp_setSp _ _
  have popped : pop machine = .ok pc middle := pop_of_read ready readPc
  have poppedStatus : pop middle = .ok status ⟨middle.processor.setSp (middle.processor.sp + 2), board⟩ :=
    pop_of_read ready (raised ▸ readStatus)
  have stacked : middle.processor.setSp (middle.processor.sp + 2) = machine.processor.setSp (machine.processor.sp + 4) := by
    rw [raised, show machine.processor.sp + 2 + 2 = machine.processor.sp + 4 by bv_omega]
    exact Processor.setSp_setSp _ _ _
  rw [returnFromTrap, bind_of_ok popped, bind_of_ok poppedStatus, stacked]
  rfl

theorem Microcode.pop_ok {value : Word} {after : Machine β} (done : pop machine = .ok value after) :
    Board.readWord machine.processor.sp.even machine.board = (.ok value, after.board) ∧
      after.processor = machine.processor.setSp (machine.processor.sp + 2) := by
  obtain ⟨_, _, located, done⟩ := bind_eq_ok done
  cases located
  obtain ⟨_, reached, read, done⟩ := bind_eq_ok done
  cases done
  obtain ⟨answered, kept⟩ := cycle_ok read
  refine ⟨answered, ?_⟩
  change reached.processor.setSp (machine.processor.sp + 2) = _
  rw [kept]

theorem Microcode.returnFromTrap_ok {after : Machine β} (done : returnFromTrap machine = .ok () after) :
    ∃ pc status board, ReturnCycles machine.processor.sp pc status machine.board board ∧
      after = machine.returned pc status board := by
  obtain ⟨pc, middle, popped, done⟩ := bind_eq_ok done
  obtain ⟨status, last, poppedStatus, done⟩ := bind_eq_ok done
  cases done
  obtain ⟨readPc, kept⟩ := pop_ok popped
  obtain ⟨readStatus, keptStatus⟩ := pop_ok poppedStatus
  have raised : middle.processor.sp = machine.processor.sp + 2 := by
    rw [kept, Processor.sp_setSp]
  have stacked : last.processor = machine.processor.setSp (machine.processor.sp + 4) := by
    rw [keptStatus, raised, kept, show machine.processor.sp + 2 + 2 = machine.processor.sp + 4 by bv_omega,
      Processor.setSp_setSp]
  refine ⟨pc, status, last.board, ⟨middle.board, readPc, raised ▸ readStatus⟩, ?_⟩
  rw [Machine.returned, ← stacked]
  rfl

theorem Microcode.executeWord_rti (ready : machine.processor.lines.hasBusError = false)
    (cycles : ReturnCycles machine.processor.sp pc status machine.board board) :
    executeWord 2 machine = .ok .completed
      ((machine.returned pc status board).update (·.charge (Instruction.control .rti).cycles)) := by
  have found : Instruction.ofWord? 2 = some (.control .rti) := by decide
  simp only [executeWord, found, executeCharged, execute, executeControl, Bind.bind, EStateM.bind,
    returnFromTrap_of_read ready cycles]
  rfl

end

/-- What an entry saves of a program, where a return looks for it. -/
structure Ram.Holds {sp : Word} (ram : Ram β (TrapFrame sp)) (saved : Context) (board : β) : Prop where
  status : ram.word (sp - 2).even board = saved.status.bits
  pc : ram.word (sp - 4).even board = saved.pc

namespace Ram

variable {sp : Word} {before after : β} {saved : Context}

theorem installStatus {cells : Word → Prop} (ram : Ram β cells) (machine : Machine β) (bits : Word) {address : Word}
    (cell : cells address) : ram.word address (machine.installStatus bits).board = ram.word address machine.board := by
  rw [Machine.installStatus_board]
  split
  · exact ram.selected _ cell
  · rfl

/-- The second word is written elsewhere than the first, however the stack lies. -/
theorem holds_of_trapCycles {vector pc status : Word} {interrupted : Processor} (ram : Ram β (TrapFrame interrupted.sp))
    (cycles : TrapCycles vector interrupted pc status before after) : ram.Holds interrupted.context after := by
  obtain ⟨first, second, third, _, _, savedStatus, savedPc⟩ := cycles
  have kept : ram.word (interrupted.sp - 2).even after = ram.word (interrupted.sp - 2).even third := by
    have left := ram.keptByWrite (interrupted.sp - 4) interrupted.pc third (.inl rfl)
      (Word.even_sub_two_ne interrupted.sp)
    rwa [savedPc] at left
  exact ⟨kept.trans (ram.written (.inl rfl) savedStatus), ram.written (.inr rfl) savedPc⟩

theorem Holds.installStatus {ram : Ram β (TrapFrame sp)} {machine : Machine β} (holds : ram.Holds saved machine.board)
    (bits : Word) : ram.Holds saved (machine.installStatus bits).board :=
  ⟨(ram.installStatus machine bits (.inl rfl)).trans holds.status, (ram.installStatus machine bits (.inr rfl)).trans holds.pc⟩

/-- A return finds what was saved: the words are read where they were written. -/
theorem Holds.returned {ram : Ram β (TrapFrame sp)} {pc status : Word} (holds : ram.Holds saved before)
    (cycles : ReturnCycles (sp - 4) pc status before after) : pc = saved.pc ∧ status = saved.status.bits := by
  obtain ⟨first, readPc, readStatus⟩ := cycles
  have raised : sp - 4 + 2 = sp - 2 := by bv_omega
  rw [raised] at readStatus
  have kept : ram.word (sp - 2).even first = ram.word (sp - 2).even before := by
    have left : ram.word (sp - 2).even _ = _ := ram.keptByRead (sp - 4) before (.inl rfl)
    rwa [readPc] at left
  refine ⟨(ram.read (.inr rfl) readPc).trans holds.pc, ?_⟩
  exact ((ram.read (.inl rfl) readStatus).trans kept).trans holds.status

end Ram

namespace Microcode

variable {machine entered : Machine β}

theorem takeInterrupt_saves {vector sp : Word} (ram : Ram β (TrapFrame sp)) (lies : machine.processor.sp = sp)
    (taken : takeInterrupt vector machine = .ok () entered) :
    ram.Holds machine.processor.context entered.board ∧
      ∃ pc, entered.processor.registers = (machine.processor.registers.setSp (sp - 4)).setPc pc := by
  subst lies
  obtain ⟨trapped, _, _, entry, rfl⟩ := takeInterrupt_ok taken
  obtain ⟨_, pc, status, board, cycles, rfl⟩ := enterTrap_ok entry
  have saved : ram.Holds machine.processor.context board := ram.holds_of_trapCycles cycles
  exact ⟨saved.installStatus status, pc, machine.trapped_registers vector pc status board⟩

/-- What an interrupt saves, and which registers it leaves alone. -/
theorem arbiterPass_saves {service : Service} {configuration : Configuration}
    (holds : Consistent configuration machine.processor) (chosen : machine.processor.service? = some service)
    (vectored : service ≠ .haltPin) (entry : arbiterPass machine = .ok true entered)
    (ram : Ram β (TrapFrame machine.processor.sp)) :
    ram.Holds ⟨machine.processor.pc, service.saved machine.processor.status⟩ entered.board ∧
      ∃ pc, entered.processor.registers =
        (machine.processor.registers.setSp (machine.processor.sp - 4)).setPc pc := by
  obtain ⟨_, _, read, served⟩ := bind_eq_ok entry
  cases read
  rw [chosen] at served
  obtain ⟨vector, start, middle, lines, taken, registers, status, kept, board⟩ := serve_interrupts vectored served
  obtain ⟨saved, pc, moved⟩ := takeInterrupt_saves ram (congrArg RegisterFile.sp registers) taken
  have fits : (Service.chain.saved machine.processor.status).Fits configuration.model.implemented :=
    Service.saved_fits holds.fits
  have cleared := fits.masked
  rw [← holds.model] at cleared
  replace status : start.processor.status = service.saved machine.processor.status := by
    rw [status, Service.saved]
    split
    · exact cleared
    · rfl
  have context : start.processor.context = ⟨machine.processor.pc, service.saved machine.processor.status⟩ :=
    congrArg₂ Context.mk (congrArg RegisterFile.pc registers) status
  rw [board, kept, moved, registers, ← context]
  exact ⟨saved, pc, rfl⟩

end Microcode

section

variable {configuration : Configuration} {boundary interrupted entered returning fetched : Machine β} {count : Nat}
  {service : Service} {pc status : Word} {board : β}

/-- A return at a boundary, from what it takes off the stack. -/
theorem Fetches.returns {saved : Context} (fetches : Fetches 0o2 returning fetched)
    (holds : Consistent configuration returning.processor) (fits : saved.status.Fits configuration.model.implemented)
    (cycles : ReturnCycles returning.processor.sp saved.pc saved.status.bits fetched.board board) :
    ∃ spent after, Dispatch.boundaryStep returning = .ok (.retired spent) after ∧ after.processor.context = saved ∧
      after.processor.sp = returning.processor.sp + 4 ∧
      after.processor.bank = Bank.ofHaltMode saved.status.haltMode ∧
      ∀ name, name ≠ .sp → name ≠ .pc →
        after.processor.registers.get name = returning.processor.registers.get name := by
  obtain ⟨lines, observed, same⟩ := fetches.processor
  have ready : fetched.processor.lines.hasBusError = false := by
    obtain ⟨_, _, _, _, fetch⟩ := fetches
    exact fetchInstruction_ready fetch
  have registers : fetched.processor.registers = returning.processor.registers.setPc (returning.processor.pc.even + 2) := by
    rw [same]
    rfl
  have stackPointer : fetched.processor.sp = returning.processor.sp := by
    rw [Processor.sp, registers, RegisterFile.sp_setPc, Processor.sp]
  rw [← stackPointer] at cycles
  have stepped := fetches.boundaryStep (executeWord_rti ready cycles)
  have model : fetched.processor.model = configuration.model := by
    rw [same]
    exact holds.model
  have installed : fetched.installed saved.status.bits = saved.status := by
    rw [Machine.installed, model]
    exact fits.masked
  let executed := (fetched.returned saved.pc saved.status.bits board).update (·.charge (Instruction.control .rti).cycles)
  have moved : executed.processor.registers = (fetched.processor.registers.setSp (fetched.processor.sp + 4)).setPc saved.pc :=
    fetched.returned_registers saved.pc saved.status.bits board
  have status : executed.processor.status = saved.status :=
    (fetched.returned_status saved.pc saved.status.bits board).trans installed
  have bank : executed.processor.bank = Bank.ofHaltMode saved.status.haltMode := by
    refine (fetched.returned_bank saved.pc saved.status.bits board).trans ?_
    rw [installed, model]
    cases has : configuration.model with
    | vm2 => rfl
    | t11 =>
      have user : fetched.processor.bank = .user := by
        rw [same]
        exact holds.recoverable.bank has
      rw [fits.user has, user]
      rfl
  obtain ⟨_, _, _, kept⟩ := executed.retired_processor returning.processor.cycles returning.processor.pc.even 0o2
  refine ⟨_, _, stepped, ?_, ?_, ?_, fun name apartSp apartPc => ?_⟩
  · have pc : executed.processor.pc = saved.pc := (congrArg RegisterFile.pc moved).trans (RegisterFile.pc_setPc _ _)
    rw [kept]
    exact congrArg₂ Context.mk pc status
  · rw [kept, ← stackPointer]
    exact (congrArg RegisterFile.sp moved).trans ((RegisterFile.sp_setPc _ _).trans (RegisterFile.sp_setSp _ _))
  · rw [kept]
    exact bank
  · rw [kept]
    change executed.processor.registers.get name = _
    rw [moved, RegisterFile.get_setPc _ _ apartPc, RegisterFile.get_setSp _ _ apartSp, registers,
      RegisterFile.get_setPc _ _ apartPc]

/-- A return that finds the stack as an interrupt left it, whenever that is, brings back
program counter, stack pointer, status word and bank of the interrupted program. The status
word is all of the program's, with its HALT mode bit, unless the interrupt came from the
chain: that one had left HALT mode for good. -/
theorem return_resumes_interrupted (reached : Reachable configuration boundary.processor)
    (entries : Entries count boundary interrupted) (chosen : interrupted.processor.service? = some service)
    (vectored : service ≠ .haltPin) (entry : arbiterPass interrupted = .ok true entered)
    (ram : Ram β (TrapFrame interrupted.processor.sp)) (later : Reachable configuration returning.processor)
    (live : returning.processor.Live) (settled : returning.processor.resetOnResume = false)
    (fetches : Fetches 0o2 returning fetched) (stackPointer : returning.processor.sp = entered.processor.sp)
    (stack : ∀ address, TrapFrame interrupted.processor.sp address →
      ram.word address fetched.board = ram.word address entered.board)
    (cycles : ReturnCycles returning.processor.sp pc status fetched.board board) :
    (∀ name, name ≠ .sp → name ≠ .pc →
      entered.processor.registers.get name = interrupted.processor.registers.get name) ∧
    ∃ spent after, Dispatch.step returning = .ok (.retired spent) after ∧
      after.processor.context = ⟨interrupted.processor.pc, service.saved interrupted.processor.status⟩ ∧
      after.processor.sp = interrupted.processor.sp ∧
      after.processor.bank = Bank.ofHaltMode (service.saved interrupted.processor.status).haltMode ∧
      (∀ name, name ≠ .sp → name ≠ .pc →
        after.processor.registers.get name = returning.processor.registers.get name) ∧
      ((service = .chain → interrupted.processor.status.haltMode = false) →
        after.processor.context = interrupted.processor.context ∧ after.processor.bank = interrupted.processor.bank) ∧
      (service = .chain → after.processor.bank = .user) := by
  have holds := entries.consistent reached.consistent
  obtain ⟨saved, newPc, registers⟩ := arbiterPass_saves holds chosen vectored entry ram
  have lowered : returning.processor.sp = interrupted.processor.sp - 4 := by
    rw [stackPointer, Processor.sp, registers, RegisterFile.sp_setPc, RegisterFile.sp_setSp]
  have held : ram.Holds ⟨interrupted.processor.pc, service.saved interrupted.processor.status⟩ fetched.board :=
    ⟨(stack _ (.inl rfl)).trans saved.status, (stack _ (.inr rfl)).trans saved.pc⟩
  obtain ⟨rfl, rfl⟩ := held.returned (lowered ▸ cycles)
  obtain ⟨spent, after, stepped, context, raised, bank, kept⟩ :=
    fetches.returns later.consistent (Service.saved_fits holds.fits) cycles
  refine ⟨fun name apartSp apartPc => ?_, spent, after, ?_, context, ?_, bank, kept, fun outside => ?_, fun left => ?_⟩
  · rw [registers, RegisterFile.get_setPc _ _ apartPc, RegisterFile.get_setSp _ _ apartSp]
  · rw [Dispatch.step_eq live, settled]
    exact stepped
  · rw [raised, lowered]
    bv_omega
  · rw [context, bank, Service.saved_eq outside]
    exact ⟨rfl, holds.bank.symm⟩
  · rw [bank, Service.saved, if_pos left, StatusWord.haltMode_clearHalt]
    rfl

end

/-- The memory of this board is memory. -/
def FlatBoard.ram (cells : Word → Prop) : Ram FlatBoard cells where
  word address board := board.memory.word address
  read := by
    intro address value before after _ answered
    have read := congrArg Prod.fst answered
    change (before.checkMapped address.even).map (fun _ => before.memory.word address.even) = .ok value at read
    cases mapped : before.checkMapped address.even with
    | error failure =>
      rw [mapped] at read
      cases read
    | ok _ =>
      rw [mapped] at read
      cases read
      rfl
  written := by
    intro address value before after _ answered
    change FlatBoard.writeWord address.even value before = (.ok (), after) at answered
    unfold FlatBoard.writeWord at answered
    split at answered
    · cases answered
    · cases answered
      exact Memory.word_setWord _ _ _
  keptByRead _ _ _ _ := rfl
  keptByWrite := by
    intro address value other board _ apart
    change (FlatBoard.writeWord address.even value board).2.memory.word other.even = _
    unfold FlatBoard.writeWord
    split
    · rfl
    · refine Memory.word_setWord_of_ne _ _ ?_
      rw [Word.even_even, Word.even_even]
      exact apart.symm
  selected _ _ := rfl

/-- A board that starts in HALT mode, with a return as the handler of timer and chain. -/
def returningBoard : FlatBoard :=
  { ((((FlatBoard.load {} 0 [0o1000, 0o400]).load 0o100 [0o4000, 0]).load 0o300 [0o4000, 0o340]).load 0o4000 [0o2]) with
    sources := [⟨some 0o300, true, .zero⟩] }

def startedHalted : Machine FlatBoard := ended (Dispatch.reset ⟨.create { model := .vm2 }, returningBoard⟩)

theorem startedHalted_reached : Reachable { model := .vm2 } startedHalted.processor := by
  have reset : Operation.reset.perform (⟨.create { model := .vm2 }, returningBoard⟩ : Machine FlatBoard) =
      .ok .done startedHalted := eq_ok_of_answer (by decide +kernel)
  exact .perform .powerOn reset

/-- HALT mode interrupted by the timer. -/
def timedInHaltMode : Machine FlatBoard := ended (Dispatch.drive .event true startedHalted)

def timerHandled : Machine FlatBoard := ended (Dispatch.step timedInHaltMode)

theorem return_resumes_interrupted_timer :
    timedInHaltMode.processor.status = ⟨0o400⟩ ∧ timerHandled.processor.status = ⟨0⟩ ∧
      ∃ spent after, Dispatch.step timerHandled = .ok (.retired spent) after ∧
        after.processor.context = ⟨0o1000, ⟨0o400⟩⟩ ∧ after.processor.sp = resetSp ∧ after.processor.bank = .halt := by
  have driven : (Operation.drive .event true).perform startedHalted = .ok .done timedInHaltMode := rfl
  have reached : Reachable { model := .vm2 } timedInHaltMode.processor := startedHalted_reached.perform driven
  obtain ⟨sp, status, chosen, entry, stepped⟩ : timedInHaltMode.processor.sp = 0o376 ∧
      timedInHaltMode.processor.status = ⟨0o400⟩ ∧ timedInHaltMode.processor.service? = some .event ∧
      answer? (arbiterPass timedInHaltMode) = some true ∧
      answer? (Operation.step.perform timedInHaltMode) = some (.outcome (.interrupted 114)) := by decide +kernel
  obtain ⟨running, settled, ready, idle, active, fetched⟩ : timerHandled.processor.runState = .running ∧
      timerHandled.processor.resetOnResume = false ∧ timerHandled.processor.lines.hasBusError = false ∧
      answer? (arbitrate timerHandled) = some false ∧
      (ended (arbitrate timerHandled)).processor.runState ≠ .waiting ∧
      answer? (fetchInstruction (ended (arbitrate timerHandled))) = some 0o2 := by decide +kernel
  have reachedHandler := reached.perform (eq_ok_of_answer stepped)
  have fetches : Fetches 0o2 timerHandled _ := ⟨ready, _, eq_ok_of_answer idle, active, eq_ok_of_answer fetched⟩
  obtain ⟨_, spent, after, done, context, raised, bank, _⟩ :=
    return_resumes_interrupted reached (.none _) chosen (by decide) (eq_ok_of_answer entry) (FlatBoard.ram _)
      reachedHandler (.inl running) settled fetches (by decide +kernel)
      (by
        rintro address (rfl | rfl)
        · decide +kernel
        · decide +kernel)
      ⟨_, rfl, rfl⟩
  refine ⟨status, by decide +kernel, spent, after, done, ?_, ?_, ?_⟩
  · rw [context]
    decide +kernel
  · rw [raised]
    exact sp
  · rw [bank]
    decide +kernel

/-- HALT mode interrupted by a device of the chain. -/
def requestedInHaltMode : Machine FlatBoard := ended (Dispatch.drive .virq true startedHalted)

def requestHandled : Machine FlatBoard := ended (Dispatch.step requestedInHaltMode)

/-- The return finds the interrupted instruction, but neither HALT mode nor its bank. -/
theorem return_leaves_haltMode_chain :
    Reachable { model := .vm2 } requestedInHaltMode.processor ∧
      requestedInHaltMode.processor.service? = some .chain ∧
      ∃ entered fetched after, arbiterPass requestedInHaltMode = .ok true entered ∧
        Fetches 0o2 requestHandled fetched ∧ requestHandled.processor.sp = entered.processor.sp ∧
        (∀ address, TrapFrame requestedInHaltMode.processor.sp address →
          fetched.board.memory.word address = entered.board.memory.word address) ∧
        Dispatch.step requestHandled = .ok (.retired 24) after ∧
        after.processor.pc = requestedInHaltMode.processor.pc ∧
        requestedInHaltMode.processor.status = ⟨0o400⟩ ∧ after.processor.status = ⟨0⟩ ∧
        requestedInHaltMode.processor.bank = .halt ∧ after.processor.bank = .user := by
  have driven : (Operation.drive .virq true).perform startedHalted = .ok .done requestedInHaltMode := rfl
  have entry : arbiterPass requestedInHaltMode = .ok true _ := eq_ok_of_answer (by decide +kernel)
  obtain ⟨settled, idle, active, fetched⟩ : requestHandled.processor.lines.hasBusError = false ∧
      answer? (arbitrate requestHandled) = some false ∧
      (ended (arbitrate requestHandled)).processor.runState ≠ .waiting ∧
      answer? (fetchInstruction (ended (arbitrate requestHandled))) = some 0o2 := by decide +kernel
  obtain ⟨stepped, pc, status, bank⟩ : answer? (Dispatch.step requestHandled) = some (.retired 24) ∧
      (ended (Dispatch.step requestHandled)).processor.pc = requestedInHaltMode.processor.pc ∧
      (ended (Dispatch.step requestHandled)).processor.status = ⟨0⟩ ∧
      (ended (Dispatch.step requestHandled)).processor.bank = .user := by decide +kernel
  have fetches : Fetches 0o2 requestHandled _ :=
    ⟨settled, _, eq_ok_of_answer idle, active, eq_ok_of_answer fetched⟩
  refine ⟨startedHalted_reached.perform driven, by decide +kernel, _, _, _, entry, fetches, by decide +kernel, ?_,
    eq_ok_of_answer stepped, pc, by decide +kernel, status, by decide +kernel, bank⟩
  rintro address (rfl | rfl)
  · decide +kernel
  · decide +kernel

end Pdp11
