import Pdp11.Proofs.TrapReturn

/-! Traps within traps. Each entry puts a frame of two words below the one before, and each
return takes the last frame off again. Frames do not overlap while they fit in the address
space, so as many returns as there were entries lead back to where the first one began,
whatever contexts the vectors gave to the handlers in between. -/

namespace Pdp11

open Microcode

/-- The words that trap frames take below a stack pointer, two for each. -/
def Frames (count : Nat) (sp address : Word) : Prop :=
  ∃ depth < 2 * count, address = (sp - 2 * BitVec.ofNat 16 (depth + 1)).even

namespace Frames

variable {count : Nat} {sp address : Word}

theorem outermost (frame : TrapFrame sp address) : Frames (count + 1) sp address := by
  rcases frame with rfl | rfl
  · exact ⟨0, by omega, rfl⟩
  · exact ⟨1, by omega, rfl⟩

/-- What lies below one frame is two words deeper. -/
theorem deeper (sp : Word) (depth : Nat) :
    sp - 4 - 2 * BitVec.ofNat 16 (depth + 1) = sp - 2 * BitVec.ofNat 16 (depth + 2 + 1) := by
  rw [show depth + 2 + 1 = (depth + 1) + 2 by omega, BitVec.ofNat_add]
  bv_omega

theorem inner (frames : Frames count (sp - 4) address) : Frames (count + 1) sp address := by
  obtain ⟨depth, inside, rfl⟩ := frames
  exact ⟨depth + 2, by omega, congrArg Word.even (deeper sp depth)⟩

/-- Two words below the stack are the same only if they are as deep. -/
theorem eq_of_depth {first second : Nat} (firstInside : first < 32768) (secondInside : second < 32768)
    (same : (sp - 2 * BitVec.ofNat 16 (first + 1)).even = (sp - 2 * BitVec.ofNat 16 (second + 1)).even) :
    first = second := by
  have equal := congrArg BitVec.toNat same
  have bounded := sp.isLt
  have two : (2 : Word).toNat = 2 := rfl
  rw [Word.toNat_even, Word.toNat_even, BitVec.toNat_sub, BitVec.toNat_sub, BitVec.toNat_mul, BitVec.toNat_mul,
    BitVec.toNat_ofNat, BitVec.toNat_ofNat, two] at equal
  omega

theorem apart (fits : 4 * (count + 1) ≤ 65536) (frame : TrapFrame sp address) : ¬Frames count (sp - 4) address := by
  rintro ⟨depth, inside, same⟩
  rw [deeper] at same
  rcases frame with rfl | rfl
  · have equal : 0 = depth + 2 := eq_of_depth (by omega) (by omega) same
    omega
  · have equal : 1 = depth + 2 := eq_of_depth (by omega) (by omega) same
    omega

end Frames

variable {β : Type} [Board β]

/-- What `up` says of a board is all it takes for these words to answer, and no answer
changes that. -/
structure Serving (β : Type) [Board β] (readable writable : Word → Prop) (up : β → Prop) : Prop where
  read : ∀ {address : Word} {board : β}, readable address.even → up board →
    ∃ value after, Board.readWord address.even board = (.ok value, after) ∧ up after
  write : ∀ {address : Word} (value : Word) {board : β}, writable address.even → up board →
    ∃ after, Board.writeWord address.even value board = (.ok (), after) ∧ up after
  selected : ∀ {bank : Bank} {board : β}, up board → up (Board.selectBank bank board)

namespace Serving

variable {readable writable : Word → Prop} {up : β → Prop} {vector sp : Word} {board : β}

theorem trapCycles (serves : Serving β readable writable up) (interrupted : Processor) (working : up board)
    (readsPc : readable vector.even) (readsStatus : readable (vector + 2).even)
    (frame : ∀ address, TrapFrame interrupted.sp address → writable address) :
    ∃ pc status after, TrapCycles vector interrupted pc status board after ∧ up after := by
  obtain ⟨pc, first, readPc, working⟩ := serves.read readsPc working
  obtain ⟨status, second, readStatus, working⟩ := serves.read readsStatus working
  obtain ⟨third, savedStatus, working⟩ :=
    serves.write interrupted.status.bits (frame (interrupted.sp - 2).even (.inl rfl)) working
  obtain ⟨after, savedPc, working⟩ := serves.write interrupted.pc (frame (interrupted.sp - 4).even (.inr rfl)) working
  exact ⟨pc, status, after, ⟨first, second, third, readPc, readStatus, savedStatus, savedPc⟩, working⟩

theorem returnCycles (serves : Serving β readable writable up) (working : up board)
    (frame : ∀ address, TrapFrame sp address → readable address) :
    ∃ pc status after, ReturnCycles (sp - 4) pc status board after ∧ up after := by
  have raised : sp - 4 + 2 = sp - 2 := by bv_omega
  obtain ⟨pc, first, readPc, working⟩ := serves.read (frame (sp - 4).even (.inr rfl)) working
  obtain ⟨status, after, readStatus, working⟩ := serves.read (frame (sp - 2).even (.inl rfl)) working
  exact ⟨pc, status, after, ⟨first, readPc, raised.symm ▸ readStatus⟩, working⟩

theorem installStatus (serves : Serving β readable writable up) {machine : Machine β} (working : up machine.board)
    (bits : Word) : up (machine.installStatus bits).board := by
  rw [Machine.installStatus_board]
  split
  · exact serves.selected working
  · exact working

end Serving

namespace Ram

variable {cells : Word → Prop} {before after : β} {sp pc status address : Word}

/-- Fewer words of the same memory. -/
def restrict {fewer : Word → Prop} (ram : Ram β cells) (within : ∀ address, fewer address → cells address) :
    Ram β fewer where
  word := ram.word
  read cell := ram.read (within _ cell)
  written cell := ram.written (within _ cell)
  keptByRead address _ board cell := ram.keptByRead address board (within _ cell)
  keptByWrite address value _ board cell := ram.keptByWrite address value board (within _ cell)
  selected board cell := ram.selected board (within _ cell)

/-- An entry writes its own frame and nothing else. -/
theorem keptByTrapCycles {vector : Word} {interrupted : Processor} (ram : Ram β cells)
    (cycles : TrapCycles vector interrupted pc status before after) (cell : cells address.even)
    (outside : ¬TrapFrame interrupted.sp address.even) : ram.word address.even after = ram.word address.even before := by
  obtain ⟨first, second, third, readPc, readStatus, savedStatus, savedPc⟩ := cycles
  have afterFirst : ram.word address.even _ = _ := ram.keptByRead vector before cell
  have afterSecond : ram.word address.even _ = _ := ram.keptByRead (vector + 2) first cell
  have afterThird := ram.keptByWrite (interrupted.sp - 2) interrupted.status.bits second cell
    fun same => outside (.inl same)
  have afterFourth := ram.keptByWrite (interrupted.sp - 4) interrupted.pc third cell
    fun same => outside (.inr same)
  rw [readPc] at afterFirst
  rw [readStatus] at afterSecond
  rw [savedStatus] at afterThird
  rw [savedPc] at afterFourth
  exact afterFourth.trans (afterThird.trans (afterSecond.trans afterFirst))

theorem keptByReturnCycles (ram : Ram β cells) (cycles : ReturnCycles sp pc status before after) (cell : cells address) :
    ram.word address after = ram.word address before := by
  obtain ⟨first, readPc, readStatus⟩ := cycles
  have afterFirst : ram.word address _ = _ := ram.keptByRead sp before cell
  have afterSecond : ram.word address _ = _ := ram.keptByRead (sp + 2) first cell
  rw [readPc] at afterFirst
  rw [readStatus] at afterSecond
  exact afterSecond.trans afterFirst

end Ram

namespace Microcode

variable {machine : Machine β} {board : β}

theorem push_of_write {value : Word} (ready : machine.processor.lines.hasBusError = false)
    (answered : Board.writeWord (machine.processor.sp - 2).even value machine.board = (.ok (), board)) :
    push value machine = .ok () ⟨machine.processor.setSp (machine.processor.sp - 2), board⟩ := by
  let lowered : Machine β := ⟨machine.processor.setSp (machine.processor.sp - 2), machine.board⟩
  have written : writeWord (machine.processor.sp - 2) value lowered = .ok () ⟨lowered.processor, board⟩ :=
    cycle_of_ok ready answered
  exact written

theorem enterTrap_of_cycles {vector pc status : Word} (ready : machine.processor.lines.hasBusError = false)
    (aligned : vector &&& 3 = 0) (cycles : TrapCycles vector machine.processor pc status machine.board board) :
    enterTrap vector machine = .ok () (machine.trapped vector pc status board) := by
  obtain ⟨first, second, third, readPc, readStatus, savedStatus, savedPc⟩ := cycles
  let interrupted : Machine β := ⟨machine.processor, second⟩
  let middle : Machine β := ⟨machine.processor.setSp (machine.processor.sp - 2), third⟩
  have lowered : middle.processor.sp - 2 = machine.processor.sp - 4 := by
    rw [show middle.processor.sp = machine.processor.sp - 2 from Processor.sp_setSp _ _]
    bv_omega
  have stacked : middle.processor.setSp (machine.processor.sp - 4) =
      machine.processor.setSp (machine.processor.sp - 4) := Processor.setSp_setSp _ _ _
  have fetchedPc : readWord vector machine = .ok pc ⟨machine.processor, first⟩ := cycle_of_ok ready readPc
  have fetchedStatus : readWord (vector + 2) ⟨machine.processor, first⟩ = .ok status interrupted :=
    cycle_of_ok ready readStatus
  have pushed : push machine.processor.status.bits interrupted = .ok () middle := push_of_write ready savedStatus
  have pushedPc : push machine.processor.pc middle =
      .ok () ⟨machine.processor.setSp (machine.processor.sp - 4), board⟩ := by
    have written : push machine.processor.pc middle =
        .ok () ⟨middle.processor.setSp (middle.processor.sp - 2), board⟩ := push_of_write ready (lowered ▸ savedPc)
    rwa [lowered, stacked] at written
  unfold enterTrap
  rw [if_neg (by rw [aligned]; decide)]
  refine (bind_of_ok fetchedPc _).trans ((bind_of_ok fetchedStatus _).trans ?_)
  exact (bind_of_ok pushed _).trans (bind_of_ok pushedPc _)

/-- One entry after the other, each into the handler of the one before. -/
def enterTraps : List Word → Microcode β Unit
  | [] => return
  | vector :: rest => do
    enterTrap vector
    enterTraps rest

def returnAll : List ControlOp → Microcode β Unit
  | [] => return
  | op :: rest => do
    let _ ← executeControl op
    returnAll rest

theorem returnAll_concat {returns : List ControlOp} {last : ControlOp} {retirement : Retirement}
    {middle after : Machine β}
    (inner : returnAll returns machine = .ok () middle) (outer : executeControl last middle = .ok retirement after) :
    returnAll (returns ++ [last]) machine = .ok () after := by
  induction returns generalizing machine with
  | nil =>
    cases inner
    exact bind_of_ok outer _
  | cons op rest ih =>
    obtain ⟨_, _, first, inner⟩ := bind_eq_ok inner
    exact (bind_of_ok first _).trans (ih inner)

/-- Both returns do the same, except that one of them puts off the next trace trap. -/
theorem executeControl_return {op : ControlOp} {after : Machine β} (returning : op = .rti ∨ op = .rtt)
    (done : returnFromTrap machine = .ok () after) :
    ∃ traceInhibited, executeControl op machine = .ok .completed (after.update ({ · with traceInhibited })) := by
  rcases returning with rfl | rfl
  · exact ⟨after.processor.traceInhibited, bind_of_ok done _⟩
  · exact ⟨true, bind_of_ok done _⟩

end Microcode

/-- The bank is the one of the HALT mode bit, where there is such a mode. -/
def Processor.BankFollows (processor : Processor) : Prop :=
  processor.model.hasHaltMode → processor.bank = Bank.ofHaltMode processor.status.haltMode

/-- It is so at every boundary. Only an entry into HALT mode that breaks off leaves the two apart. -/
theorem Reachable.bankFollows {configuration : Configuration} {processor : Processor}
    (reached : Reachable configuration processor) : processor.BankFollows :=
  fun _ => reached.consistent.bank

/-- What traps and the returns from them bring back to what it was. -/
structure Restored (before after : Processor) : Prop where
  configuration : after.configuration = before.configuration
  lines : after.lines = before.lines
  registers : after.registers = before.registers
  status : after.status = before.status
  bank : before.BankFollows → after.bank = before.bank

namespace Machine

variable (machine : Machine β) (vector pc status : Word) (board : β)

theorem trapped_configuration : (machine.trapped vector pc status board).processor.configuration =
    machine.processor.configuration := by
  simp only [trapped, update_processor, Processor.emit_eq, Processor.wake_eq, installStatus_processor]
  rfl

theorem trapped_bank : (machine.trapped vector pc status board).processor.bank =
    if machine.processor.model.hasHaltMode then Bank.ofHaltMode (machine.installed status).haltMode
    else machine.processor.bank := by
  simp only [trapped, update_processor, Processor.emit_eq, Processor.wake_eq, installStatus_processor]
  rfl

theorem trapped_model : (machine.trapped vector pc status board).processor.model = machine.processor.model :=
  congrArg Configuration.model (machine.trapped_configuration vector pc status board)

theorem trapped_sp : (machine.trapped vector pc status board).processor.sp = machine.processor.sp - 4 := by
  rw [Processor.sp, trapped_registers, RegisterFile.sp_setPc, RegisterFile.sp_setSp]

theorem trapped_fits :
    (machine.trapped vector pc status board).processor.status.Fits
      (machine.trapped vector pc status board).processor.model.implemented := by
  rw [trapped_status, trapped_model]
  exact StatusWord.masked_fits _ _

theorem trapped_bankFollows : (machine.trapped vector pc status board).processor.BankFollows := by
  intro has
  rw [trapped_model] at has
  rw [trapped_bank, if_pos has, trapped_status]

theorem returned_configuration : (machine.returned pc status board).processor.configuration =
    machine.processor.configuration := by
  rw [returned, installStatus_processor]
  rfl

theorem returned_lines : (machine.returned pc status board).processor.lines = machine.processor.lines := by
  rw [returned, installStatus_processor]
  rfl

end Machine

namespace Restored

theorem refl (processor : Processor) : Restored processor processor :=
  ⟨rfl, rfl, rfl, rfl, fun _ => rfl⟩

/-- A handler that ends as it began returns to what it interrupted. -/
theorem returned {machine middle : Machine β} {vector pc status : Word} {board last : β}
    (fits : machine.processor.status.Fits machine.processor.model.implemented)
    (handled : Restored (machine.trapped vector pc status board).processor middle.processor) :
    Restored machine.processor (middle.returned machine.processor.pc machine.processor.status.bits last).processor := by
  have configuration := handled.configuration.trans (machine.trapped_configuration vector pc status board)
  have model : middle.processor.model = machine.processor.model := congrArg Configuration.model configuration
  have installed : middle.installed machine.processor.status.bits = machine.processor.status := by
    rw [Machine.installed, model]
    exact fits.masked
  have registers := handled.registers.trans (machine.trapped_registers vector pc status board)
  have raised : middle.processor.sp + 4 = machine.processor.sp := by
    rw [Processor.sp, registers, RegisterFile.sp_setPc, RegisterFile.sp_setSp]
    bv_omega
  refine ⟨?_, ?_, ?_, ?_, fun follows => ?_⟩
  · rw [Machine.returned_configuration, configuration]
  · rw [Machine.returned_lines, handled.lines, Machine.trapped_lines]
  · rw [Machine.returned_registers, raised, registers]
    apply RegisterFile.ext_get
    intro name
    simp only [RegisterFile.setPc, RegisterFile.setSp, RegisterFile.get_set]
    split
    · subst name
      rfl
    · split
      · subst name
        rfl
      · rfl
  · rw [Machine.returned_status, installed]
  · rw [Machine.returned_bank, installed, model]
    split
    · exact (follows ‹_›).symm
    · rw [handled.bank (machine.trapped_bankFollows vector pc status board), Machine.trapped_bank, if_neg ‹_›]

end Restored

/-- Every trap of a nest finds its vector, and every frame lies in memory of its own. -/
structure Nestable (cells readable writable : Word → Prop) (vectors : List Word) (sp : Word) : Prop where
  aligned : ∀ vector ∈ vectors, vector &&& 3 = 0
  vector : ∀ vector ∈ vectors, readable vector.even ∧ readable (vector + 2).even
  frame : ∀ address, Frames vectors.length sp address → cells address ∧ readable address ∧ writable address
  room : 4 * vectors.length ≤ 65536

namespace Nestable

variable {cells readable writable : Word → Prop} {vector sp address : Word} {rest : List Word}

theorem outermost (nestable : Nestable cells readable writable (vector :: rest) sp) (frame : TrapFrame sp address) :
    cells address ∧ readable address ∧ writable address :=
  nestable.frame address (.outermost frame)

theorem inner (nestable : Nestable cells readable writable (vector :: rest) sp) :
    Nestable cells readable writable rest (sp - 4) where
  aligned later inside := nestable.aligned later (.tail _ inside)
  vector later inside := nestable.vector later (.tail _ inside)
  frame address inside := nestable.frame address inside.inner
  room := by
    have room := nestable.room
    rw [List.length_cons] at room
    omega

end Nestable

section

variable {cells readable writable : Word → Prop} {up : β → Prop} {machine : Machine β} {vectors : List Word}
  {returns : List ControlOp}

open Microcode

/-- One level of a nest on the way in. -/
theorem Nestable.enters {vector : Word} {rest : List Word}
    (nestable : Nestable cells readable writable (vector :: rest) machine.processor.sp)
    (serves : Serving β readable writable up) (ready : machine.processor.lines.hasBusError = false)
    (working : up machine.board) :
    ∃ pc status board, TrapCycles vector machine.processor pc status machine.board board ∧
      enterTrap vector machine = .ok () (machine.trapped vector pc status board) ∧
      up (machine.trapped vector pc status board).board := by
  obtain ⟨readsPc, readsStatus⟩ := nestable.vector vector (.head _)
  obtain ⟨pc, status, board, cycles, working⟩ := serves.trapCycles machine.processor working readsPc readsStatus
    fun _ frame => (nestable.outermost frame).2.2
  exact ⟨pc, status, board, cycles, enterTrap_of_cycles ready (nestable.aligned vector (.head _)) cycles,
    serves.installStatus working status⟩

/-- One level of a nest on the way out. -/
theorem Restored.leaves {middle : Machine β} {vector pc status : Word} {board : β} {op : ControlOp}
    (handled : Restored (machine.trapped vector pc status board).processor middle.processor)
    (serves : Serving β readable writable up)
    (frame : ∀ address, TrapFrame machine.processor.sp address → readable address)
    (fits : machine.processor.status.Fits machine.processor.model.implemented)
    (ready : machine.processor.lines.hasBusError = false) (working : up middle.board) (returning : op = .rti ∨ op = .rtt)
    {saved : Ram β (TrapFrame machine.processor.sp)} (held : saved.Holds machine.processor.context middle.board) :
    ∃ after, executeControl op middle = .ok .completed after ∧ Restored machine.processor after.processor ∧
      up after.board ∧
      ∀ (ram : Ram β cells) {address : Word}, cells address →
        ram.word address after.board = ram.word address middle.board := by
  obtain ⟨savedPc, savedStatus, last, popped, working⟩ := serves.returnCycles working frame
  obtain ⟨rfl, rfl⟩ := held.returned popped
  have lines := handled.lines.trans (machine.trapped_lines vector pc status board)
  have lowered : middle.processor.sp = machine.processor.sp - 4 :=
    (congrArg RegisterFile.sp handled.registers).trans (machine.trapped_sp vector pc status board)
  have done : returnFromTrap middle = .ok () (middle.returned _ _ last) :=
    returnFromTrap_of_read (lines.symm ▸ ready) (lowered.symm ▸ popped)
  obtain ⟨traceInhibited, retired⟩ := executeControl_return returning done
  have restored : Restored machine.processor (middle.returned _ _ last).processor := handled.returned fits
  refine ⟨_, retired, ⟨restored.configuration, restored.lines, restored.registers, restored.status, restored.bank⟩,
    serves.installStatus working _, fun ram address cell => ?_⟩
  exact (ram.installStatus _ _ cell).trans (ram.keptByReturnCycles popped cell)

/-- Nested traps and as many returns end where the first trap began. The vectors may hold
anything, even words from the frames of earlier traps: a return takes what it restores from its
own frame, and the frames below do not touch that one. Memory changes in the frames alone. -/
theorem trap_frames_nest (ram : Ram β cells) (serves : Serving β readable writable up)
    (nestable : Nestable cells readable writable vectors machine.processor.sp)
    (fits : machine.processor.status.Fits machine.processor.model.implemented)
    (ready : machine.processor.lines.hasBusError = false) (working : up machine.board)
    (paired : returns.length = vectors.length) (returning : ∀ op ∈ returns, op = .rti ∨ op = .rtt) :
    ∃ entered after, enterTraps vectors machine = .ok () entered ∧ returnAll returns entered = .ok () after ∧
      Restored machine.processor after.processor ∧ up after.board ∧
      ∀ address : Word, cells address.even → ¬Frames vectors.length machine.processor.sp address.even →
        ram.word address.even after.board = ram.word address.even machine.board := by
  induction vectors generalizing machine returns with
  | nil =>
    cases List.length_eq_zero_iff.mp paired
    exact ⟨machine, machine, rfl, rfl, .refl _, working, fun _ _ _ => rfl⟩
  | cons vector rest ih =>
    obtain ⟨inner, last, rfl⟩ : ∃ inner last, returns = inner ++ [last] := by
      rcases List.eq_nil_or_concat returns with rfl | ⟨inner, last, rfl⟩
      · cases paired
      · exact ⟨inner, last, List.concat_eq_append⟩
    obtain ⟨pc, status, board, cycles, entry, working⟩ := nestable.enters serves ready working
    let trapped := machine.trapped vector pc status board
    have lowered : trapped.processor.sp = machine.processor.sp - 4 := machine.trapped_sp vector pc status board
    have lines : trapped.processor.lines = machine.processor.lines := machine.trapped_lines vector pc status board
    have nested : Nestable cells readable writable rest trapped.processor.sp := lowered.symm ▸ nestable.inner
    have innerPaired : inner.length = rest.length := by simpa using paired
    obtain ⟨entered, middle, entries, inward, handled, working, kept⟩ :=
      ih nested (machine.trapped_fits vector pc status board) (lines.symm ▸ ready) working innerPaired
        fun op inside => returning op (List.mem_append_left _ inside)
    rw [lowered] at kept
    -- The traps in between have their frames below this one, so it still holds what it held.
    let frame : Ram β (TrapFrame machine.processor.sp) := ram.restrict fun _ inside => (nestable.outermost inside).1
    have saved : frame.Holds machine.processor.context trapped.board :=
      (frame.holds_of_trapCycles cycles).installStatus status
    have held : frame.Holds machine.processor.context middle.board :=
      ⟨(kept _ (nestable.outermost (.inl rfl)).1 (Frames.apart nestable.room (.inl rfl))).trans saved.status,
        (kept _ (nestable.outermost (.inr rfl)).1 (Frames.apart nestable.room (.inr rfl))).trans saved.pc⟩
    obtain ⟨after, outward, restored, working, left⟩ :=
      handled.leaves serves (fun _ inside => (nestable.outermost inside).2.1) fits ready working
        (returning last (by simp)) held
    refine ⟨entered, after, (bind_of_ok entry _).trans entries, returnAll_concat inward outward, restored, working,
      fun address cell outside => ?_⟩
    calc ram.word address.even after.board
      _ = ram.word address.even middle.board := left ram cell
      _ = ram.word address.even trapped.board := kept address cell fun inside => outside inside.inner
      _ = ram.word address.even board := ram.installStatus _ _ cell
      _ = ram.word address.even machine.board :=
        ram.keptByTrapCycles cycles cell fun inside => outside (.outermost inside)

end

/-- A board of plain memory answers wherever it has neither hole nor window. -/
theorem FlatBoard.serving (readable writable : Word → Prop) :
    Serving FlatBoard readable writable fun board =>
      (∀ address, readable address → board.checkMapped address = .ok ()) ∧
        ∀ address, writable address → board.checkWritable address = .ok () where
  read reads working := ⟨_, _, readWord_of_mapped (working.1 _ reads), working⟩
  write value _ writes working := ⟨_, writeWord_of_writable (working.2 _ writes) value, working⟩
  selected working := working

/-- A program whose first trap writes its frame over the vector of the second, which then
takes the saved program counter for a status word without HALT mode. -/
def overlapping : Machine FlatBoard :=
  ⟨{ Processor.create { model := .vm2 } with
      registers := (({} : RegisterFile).setSp 0o27).setPc 0o1001
      status := ⟨0o5⟩ }, FlatBoard.load {} 0o100 [0o4000, 0o400]⟩

theorem trap_frames_nest_overlapping :
    ∃ entered after, Microcode.enterTraps [0o100, 0o20, 0o100] overlapping = .ok () entered ∧
      Microcode.returnAll [.rti, .rtt, .rti] entered = .ok () after ∧ entered.processor.bank = .halt ∧
      after.processor.pc = 0o1001 ∧ after.processor.sp = 0o27 ∧ after.processor.status = ⟨0o5⟩ ∧
      after.processor.bank = .user ∧ after.board.memory.word 0o100 = 0o4000 := by
  have nestable : Nestable (fun _ => True) (fun _ => True) (fun _ => True) [0o100, 0o20, 0o100] overlapping.processor.sp :=
    ⟨by simp, fun _ _ => ⟨trivial, trivial⟩, fun _ _ => ⟨trivial, trivial, trivial⟩, by simp⟩
  have returning : ∀ op ∈ [ControlOp.rti, .rtt, .rti], op = .rti ∨ op = .rtt := by decide
  obtain ⟨entered, after, entries, returned, restored, _, kept⟩ :=
    trap_frames_nest (FlatBoard.ram _) (FlatBoard.serving _ _) nestable (by decide) rfl
      ⟨fun _ _ => rfl, fun _ _ => rfl⟩ (by rfl) returning
  have bank : (ended (Microcode.enterTraps [0o100, 0o20, 0o100] overlapping)).processor.bank = .halt := by decide +kernel
  rw [entries] at bank
  refine ⟨entered, after, entries, returned, bank, ?_, ?_, restored.status, restored.bank fun _ => by decide, ?_⟩
  · exact congrArg RegisterFile.pc restored.registers
  · exact congrArg RegisterFile.sp restored.registers
  · refine (kept 0o100 trivial ?_).trans (by decide +kernel)
    rintro ⟨depth, inside, same⟩
    have apart : ∀ depth < 6, (0o100 : Word).even ≠ ((0o27 : Word) - 2 * BitVec.ofNat 16 (depth + 1)).even := by decide
    exact apart depth inside same

end Pdp11
