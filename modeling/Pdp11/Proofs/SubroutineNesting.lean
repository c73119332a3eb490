import Pdp11.Proofs.InstructionLayout
import Pdp11.Proofs.TrapNesting

/-! Subroutines within subroutines. A JSR saves its link register on the stack and keeps the
return address there instead; an RTS goes back to it and takes the old content from the stack.
As every level has a word of its own, the same register may serve as the link on all of them,
and the program counter may as well: then it is the return address that lies on the stack. -/

namespace Pdp11

open Microcode

/-- So many words below a stack pointer. -/
def Stacked (count : Nat) (sp address : Word) : Prop :=
  ∃ depth < count, address = (sp - 2 * BitVec.ofNat 16 (depth + 1)).even

namespace Stacked

variable {count : Nat} {sp address : Word}

theorem first : Stacked (count + 1) sp (sp - 2).even :=
  ⟨0, by omega, rfl⟩

/-- What lies below one word is a word deeper. -/
theorem deeper (sp : Word) (depth : Nat) :
    sp - 2 - 2 * BitVec.ofNat 16 (depth + 1) = sp - 2 * BitVec.ofNat 16 (depth + 1 + 1) := by
  rw [BitVec.ofNat_add (x := depth + 1)]
  bv_omega

theorem below (stacked : Stacked count (sp - 2) address) : Stacked (count + 1) sp address := by
  obtain ⟨depth, inside, rfl⟩ := stacked
  exact ⟨depth + 1, by omega, congrArg Word.even (deeper sp depth)⟩

theorem wider {more : Nat} (stacked : Stacked count sp address) (within : count ≤ more) : Stacked more sp address := by
  obtain ⟨depth, inside, same⟩ := stacked
  exact ⟨depth, by omega, same⟩

theorem apart (fits : 2 * (count + 1) ≤ 65536) : ¬Stacked count (sp - 2) (sp - 2).even := by
  intro ⟨depth, inside, same⟩
  rw [deeper] at same
  have equal : 0 = depth + 1 := Frames.eq_of_depth (by omega) (by omega) same
  omega

end Stacked

/-- Memory of its own for so many words below a stack pointer. -/
structure StackRoom (cells readable writable : Word → Prop) (count : Nat) (sp : Word) : Prop where
  fits : 2 * count ≤ 65536
  memory : ∀ address, Stacked count sp address → cells address ∧ readable address ∧ writable address

theorem StackRoom.below {cells readable writable : Word → Prop} {count : Nat} {sp : Word}
    (room : StackRoom cells readable writable (count + 1) sp) : StackRoom cells readable writable count (sp - 2) where
  fits := by
    have fits := room.fits
    omega
  memory address stacked := room.memory address stacked.below

namespace Processor

variable (processor : Processor) (link : Register) (address saved : Word)

theorem setPc_setPc (first second : Word) : (processor.setPc first).setPc second = processor.setPc second :=
  processor.setRegister_setRegister .pc first second

/-- What a JSR makes of the registers, once its target is found. -/
def called : Processor :=
  ((processor.setSp (processor.sp - 2)).setRegister link processor.pc).setPc address

/-- What an RTS makes of them, with what it takes from the stack. -/
def returned : Processor :=
  ((processor.setPc (processor.registers.get link)).setSp (processor.sp + 2)).setRegister link saved

theorem called_sp (apart : link ≠ .sp) : (processor.called link address).sp = processor.sp - 2 := by
  change ((processor.registers.setSp (processor.sp - 2)).set link processor.pc |>.setPc address).sp = _
  rw [RegisterFile.sp_setPc, RegisterFile.sp, RegisterFile.get_set, if_neg apart]
  exact RegisterFile.sp_setSp _ _

/-- A JSR with a link other than the program counter leaves the return address in it. -/
theorem called_link (apart : link ≠ .pc) : (processor.called link address).registers.get link = processor.pc := by
  refine (RegisterFile.get_setPc _ _ apart).trans ?_
  exact (RegisterFile.get_set _ _ _ _).trans (if_pos rfl)

theorem called_get {name : Register} (other : name ≠ link) (apartSp : name ≠ .sp) (apartPc : name ≠ .pc) :
    (processor.called link address).registers.get name = processor.registers.get name := by
  refine (RegisterFile.get_setPc _ _ apartPc).trans ?_
  refine (RegisterFile.get_set _ _ _ _).trans ((if_neg other.symm).trans ?_)
  exact RegisterFile.get_setSp _ _ apartSp

/-- An RTS undoes a JSR, wherever it is executed: the return address is in the link register or
on the stack, so it does not depend on the program counter. -/
theorem returned_called (apart : link ≠ .sp) (exit : Word) :
    ((processor.called link address).setPc exit).returned link (processor.registers.get link) = processor := by
  let entered := (processor.called link address).setPc exit
  have stackPointer : entered.sp + 2 = processor.sp := by
    have lowered : entered.sp = processor.sp - 2 :=
      (RegisterFile.sp_setPc _ _).trans (processor.called_sp link address apart)
    rw [lowered]
    exact BitVec.sub_add_cancel _ _
  have registers : (entered.returned link (processor.registers.get link)).registers = processor.registers := by
    apply RegisterFile.ext_get
    intro name
    refine (RegisterFile.get_set _ _ _ _).trans ?_
    by_cases own : link = name
    · rw [if_pos own, own]
    · rw [if_neg own]
      by_cases stack : name = .sp
      · subst stack
        exact (RegisterFile.sp_setSp _ _).trans stackPointer
      · refine (RegisterFile.get_setSp _ _ stack).trans ?_
        by_cases counter : name = .pc
        · subst counter
          refine (RegisterFile.pc_setPc _ _).trans ?_
          exact (RegisterFile.get_setPc _ _ own).trans (processor.called_link link address own)
        · refine (RegisterFile.get_setPc _ _ counter).trans ?_
          refine (RegisterFile.get_setPc _ _ counter).trans ?_
          exact processor.called_get link address (Ne.symm own) stack counter
  change { processor with registers := (entered.returned link (processor.registers.get link)).registers } = processor
  rw [registers]

end Processor

/-- Words that answer as long as `up` holds of a board, and no read puts an end to that. -/
structure Dependable (β : Type) [Board β] (readable writable : Word → Prop) (up : β → Prop) : Prop
    extends Serving β readable writable up where
  steady : ∀ (address : Word) {board : β}, up board → up (Board.readWord address.even board).2

variable {β : Type} [Board β]

theorem Dependable.inspected {readable writable : Word → Prop} {up : β → Prop} {before after : β}
    (dependable : Dependable β readable writable up) (inspected : Inspected before after) (working : up before) :
    up after := by
  induction inspected with
  | none => exact working
  | next address _ ih => exact dependable.steady address ih

theorem Ram.inspected {cells : Word → Prop} {before after : β} {address : Word} (ram : Ram β cells)
    (inspected : Inspected before after) (cell : cells address) : ram.word address after = ram.word address before := by
  induction inspected with
  | none => rfl
  | next other _ ih => exact (ram.keptByRead other _ cell).trans ih

namespace Microcode

variable {machine located : Machine β} {link : Register} {target : Operand} {address saved : Word} {board : β}

theorem fetchWord_processor {value : Word} (done : fetchWord machine = .ok value located) :
    located.processor = machine.processor.setPc (machine.processor.pc.even + 2) := by
  obtain ⟨_, _, same, done⟩ := bind_eq_ok done
  cases same
  obtain ⟨_, reached, read, done⟩ := bind_eq_ok done
  cases done
  change reached.processor.setPc _ = _
  rw [(cycle_ok read).2]
  rfl

theorem pointed_processor (machine : Machine β) (pointer : Word) {location : Location}
    (found : (do return .memory (← readWord pointer) : Microcode β Location) machine = .ok location located) :
    located.processor = machine.processor := by
  obtain ⟨_, reached, read, found⟩ := bind_eq_ok found
  cases found
  exact (cycle_ok read).2

/-- Past its extension word, if there is one, the program counter is at the next instruction. -/
theorem resolve_pc {width : Width} {operand : Operand} {location : Location} (forward : ¬operand.StepsPcBack)
    (even : machine.processor.pc.even = machine.processor.pc) (found : resolve width operand machine = .ok location located) :
    located.processor.pc = machine.processor.pc + 2 * BitVec.ofNat 16 operand.taken := by
  have stays : machine.processor.pc = machine.processor.pc + 2 * BitVec.ofNat 16 0 := by simp
  obtain ⟨mode, name⟩ := operand
  cases mode with
  | register | registerDeferred =>
    cases found
    exact stays
  | autoIncrement =>
    cases found
    exact machine.processor.registers.pc_advance name _ fun same => same ▸ rfl
  | autoIncrementDeferred =>
    let pointer := machine.processor.registers.get name
    rw [pointed_processor (machine.update (·.setRegister name (pointer + 2))) pointer found]
    exact machine.processor.registers.pc_advance name 2 fun _ => rfl
  | autoDecrement =>
    cases found
    have other : name ≠ .pc := fun same => forward (.inl (by rw [same]))
    exact ((RegisterFile.get_set _ _ _ _).trans (if_neg other)).trans stays
  | autoDecrementDeferred =>
    let pointer := machine.processor.registers.get name - 2
    rw [pointed_processor (machine.update (·.setRegister name pointer)) pointer found]
    have other : name ≠ .pc := fun same => forward (.inr (by rw [same]))
    exact ((RegisterFile.get_set _ _ _ _).trans (if_neg other)).trans stays
  | index =>
    obtain ⟨_, fetched, fetch, found⟩ := bind_eq_ok found
    cases found
    rw [fetchWord_processor fetch, even]
    exact RegisterFile.pc_setPc _ _
  | indexDeferred =>
    obtain ⟨offset, fetched, fetch, found⟩ := bind_eq_ok found
    rw [pointed_processor fetched (fetched.processor.registers.get name + offset) found, fetchWord_processor fetch, even]
    exact RegisterFile.pc_setPc _ _

theorem execute_jsr (ready : machine.processor.lines.hasBusError = false)
    (found : resolve .word target machine = .ok (.memory address) located)
    (answered : Board.writeWord (located.processor.sp - 2).even (located.processor.registers.get link) located.board =
      (.ok (), board)) :
    execute (.jsr link target) machine = .ok .completed ⟨located.processor.called link address, board⟩ := by
  have still : located.processor.lines.hasBusError = false := by
    obtain ⟨_, moved⟩ := OnlyMoves.resolve .word target machine located _ found
    rw [moved]
    exact ready
  have jumps : jumpTarget? target machine = .ok (some address) located := (bind_of_ok found _).trans rfl
  have pushed : push (located.processor.registers.get link) located =
      .ok () ⟨located.processor.setSp (located.processor.sp - 2), board⟩ := push_of_write still answered
  let lowered : Machine β := ⟨located.processor.setSp (located.processor.sp - 2), board⟩
  have following : lowered.processor.pc = located.processor.pc := RegisterFile.get_setSp _ _ (by decide)
  have linked : (do
      setRegister link (← register .pc)
      setPc address
      return .completed : Microcode β Retirement) lowered =
        .ok .completed ⟨located.processor.called link address, board⟩ := by
    rw [Processor.called, ← following]
    rfl
  refine (bind_of_ok jumps _).trans ?_
  exact (bind_of_ok pushed _).trans linked

theorem execute_rts (ready : machine.processor.lines.hasBusError = false)
    (answered : Board.readWord machine.processor.sp.even machine.board = (.ok saved, board)) :
    execute (.rts link) machine = .ok .completed ⟨machine.processor.returned link saved, board⟩ := by
  let jumped : Machine β := machine.update (·.setPc (machine.processor.registers.get link))
  have stackPointer : jumped.processor.sp = machine.processor.sp := RegisterFile.sp_setPc _ _
  have popped : pop jumped = .ok saved ⟨jumped.processor.setSp (jumped.processor.sp + 2), board⟩ :=
    pop_of_read ready (stackPointer.symm ▸ answered)
  rw [stackPointer] at popped
  exact bind_of_ok popped _

end Microcode

/-- A call: its JSR, and the RTS that answers it. Either may lie anywhere in memory, so each
comes with the program counter past its word. -/
structure Call where
  link : Register
  target : Operand
  site : Word
  exit : Word

namespace Call

variable (call : Call)

/-- The address after the JSR and its operand word, if it has one. -/
def following : Word := call.site + 2 * BitVec.ofNat 16 call.target.taken

def enter : Microcode β Retirement := do
  setPc call.site
  execute (.jsr call.link call.target)

def leave : Microcode β Retirement := do
  setPc call.exit
  execute (.rts call.link)

/-- The target is in memory, and of the registers only the program counter moves until it is
found. It is then past all the words of the JSR, and the address there is the one to return to. -/
structure Finds (machine : Machine β) (address : Word) (located : Machine β) : Prop where
  resolved : resolve .word call.target (machine.update (·.setPc call.site)) = .ok (.memory address) located
  moved : ∃ pc, located.processor = machine.processor.setPc pc

end Call

section

variable {cells readable writable : Word → Prop} {up : β → Prop} {machine : Machine β} {calls : List Call}

namespace Call.Finds

variable {call : Call} {located : Machine β} {address : Word}

theorem sp (found : call.Finds machine address located) : located.processor.sp = machine.processor.sp := by
  obtain ⟨_, moved⟩ := found.moved
  rw [moved]
  exact RegisterFile.sp_setPc _ _

theorem lines (found : call.Finds machine address located) : located.processor.lines = machine.processor.lines := by
  obtain ⟨_, moved⟩ := found.moved
  rw [moved]
  rfl

theorem inspected (found : call.Finds machine address located) : Inspected machine.board located.board :=
  OnlyInspects.resolve .word call.target (machine.update (·.setPc call.site)) _ _ found.resolved

theorem following (found : call.Finds machine address located) (forward : ¬call.target.StepsPcBack)
    (even : call.site.even = call.site) : located.processor.pc = call.following := by
  have counter : (machine.update (·.setPc call.site)).processor.pc = call.site := RegisterFile.pc_setPc _ _
  rw [← counter] at even
  refine (resolve_pc forward even found.resolved).trans ?_
  rw [counter, Call.following]

theorem enters (found : call.Finds machine address located) (dependable : Dependable β readable writable up)
    (ready : machine.processor.lines.hasBusError = false) (working : up machine.board)
    (writes : writable (machine.processor.sp - 2).even) :
    ∃ board, Board.writeWord (machine.processor.sp - 2).even (located.processor.registers.get call.link) located.board =
        (.ok (), board) ∧
      call.enter machine = .ok .completed ⟨located.processor.called call.link address, board⟩ ∧ up board := by
  obtain ⟨board, answered, working⟩ := dependable.write (located.processor.registers.get call.link) writes
    (dependable.inspected found.inspected working)
  refine ⟨board, answered, ?_, working⟩
  rw [← found.sp] at answered
  exact execute_jsr ready found.resolved answered

end Call.Finds

/-- An RTS finds its processor as the JSR has left it but for the program counter, and the word
on the stack as the JSR has written it. -/
theorem Call.leaves {call : Call} {caller : Processor} {innermost : Machine β} {address pc : Word} (ram : Ram β cells)
    (dependable : Dependable β readable writable up) (apart : call.link ≠ .sp)
    (kept : innermost.processor = (caller.called call.link address).setPc pc)
    (ready : caller.lines.hasBusError = false) (working : up innermost.board)
    (cell : cells (caller.sp - 2).even) (reads : readable (caller.sp - 2).even)
    (held : ram.word (caller.sp - 2).even innermost.board = caller.registers.get call.link) :
    ∃ board, call.leave innermost = .ok .completed ⟨caller, board⟩ ∧ Inspected innermost.board board := by
  let leaving := innermost.update (·.setPc call.exit)
  have placed : leaving.processor = (caller.called call.link address).setPc call.exit := by
    change innermost.processor.setPc call.exit = _
    rw [kept, Processor.setPc_setPc]
  have stackPointer : leaving.processor.sp = caller.sp - 2 := by
    rw [placed]
    exact (RegisterFile.sp_setPc _ _).trans (caller.called_sp call.link address apart)
  have still : leaving.processor.lines.hasBusError = false := by
    rw [placed]
    exact ready
  obtain ⟨saved, board, answered, _⟩ := dependable.read reads working
  have found : saved = caller.registers.get call.link := (ram.read cell answered).trans held
  rw [← stackPointer] at answered
  have done : execute (.rts call.link) leaving = .ok .completed ⟨leaving.processor.returned call.link saved, board⟩ :=
    execute_rts still answered
  rw [found, placed, caller.returned_called call.link address apart] at done
  exact ⟨board, done, (Inspected.none innermost.board).read answered⟩

end

/-- The operand is a place in memory, and finding it moves no register but the program counter. -/
def Operand.still (operand : Operand) : Bool :=
  match operand.mode with
  | .register => false
  | .registerDeferred | .index | .indexDeferred => true
  | .autoIncrement | .autoIncrementDeferred | .autoDecrement | .autoDecrementDeferred => operand.register == .pc

namespace Dependable

variable {up : β → Prop} (machine : Machine β)

theorem readWord (dependable : Dependable β (fun _ => True) (fun _ => True) up)
    (ready : machine.processor.lines.hasBusError = false) (working : up machine.board) (address : Word) :
    ∃ value board, Microcode.readWord address machine = .ok value ⟨machine.processor, board⟩ ∧ up board := by
  have answers : ∃ value board, Board.readWord address.even machine.board = (.ok value, board) ∧ up board :=
    dependable.read trivial working
  obtain ⟨value, board, answered, working⟩ := answers
  exact ⟨value, board, cycle_of_ok ready answered, working⟩

theorem throughPointer (dependable : Dependable β (fun _ => True) (fun _ => True) up)
    (ready : machine.processor.lines.hasBusError = false) (working : up machine.board) (pointer : Word) :
    ∃ address board, (do return .memory (← Microcode.readWord pointer) : Microcode β Location) machine =
      .ok (.memory address) ⟨machine.processor, board⟩ := by
  obtain ⟨address, board, read, _⟩ := dependable.readWord machine ready working pointer
  exact ⟨address, board, bind_of_ok read _⟩

theorem fetchWord (dependable : Dependable β (fun _ => True) (fun _ => True) up)
    (ready : machine.processor.lines.hasBusError = false) (working : up machine.board) :
    ∃ value board, Microcode.fetchWord machine =
      .ok value ⟨machine.processor.setPc (machine.processor.pc.even + 2), board⟩ ∧ up board := by
  obtain ⟨value, board, read, working⟩ := dependable.readWord machine ready working machine.processor.pc.even
  exact ⟨value, board, bind_of_ok read _, working⟩

end Dependable

theorem FlatBoard.dependable (readable writable : Word → Prop) :
    Dependable FlatBoard readable writable fun board =>
      (∀ address, readable address → board.checkMapped address = .ok ()) ∧
        ∀ address, writable address → board.checkWritable address = .ok () where
  toServing := FlatBoard.serving readable writable
  steady _ _ working := working

end Pdp11
