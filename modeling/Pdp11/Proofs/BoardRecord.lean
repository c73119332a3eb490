import Pdp11.Board.Faulty
import Pdp11.Board.Flat
import Pdp11.Board.Recorded
import Pdp11.Proofs.Actions
import Pdp11.Proofs.TrapEntry

/-! Cycles on a recorded board of memory: what an answered cycle adds to the record,
and what it leaves in memory. -/

namespace Pdp11

namespace Word

theorem toNat_even (address : Word) : address.even.toNat = address.toNat / 2 * 2 := by
  have shifted : address.even = (address >>> 1) <<< 1 := by
    apply BitVec.eq_of_getLsbD_eq
    intro index inside
    cases index with
    | zero => simp [even]
    | succ index => simp [even, inside, Nat.add_comm, -BitVec.reduceNot]
  have bounded := address.isLt
  rw [shifted, BitVec.toNat_shiftLeft, BitVec.toNat_ushiftRight, Nat.shiftRight_eq_div_pow, Nat.shiftLeft_eq]
  omega

theorem even_even (address : Word) : address.even.even = address.even := by
  apply BitVec.eq_of_toNat_eq
  rw [toNat_even, toNat_even]
  omega

theorem even_even_succ (address : Word) : (address.even + 1).even = address.even := by
  apply BitVec.eq_of_toNat_eq
  have bounded := address.isLt
  have one : (1 : Word).toNat = 1 := rfl
  rw [toNat_even, BitVec.toNat_add, toNat_even, one]
  omega

/-- The two bytes of one word are never the two of another. -/
theorem even_ne_even_succ (first second : Word) : first.even ≠ second.even + 1 := by
  intro same
  have parity := congrArg BitVec.toNat same
  have bounded := second.isLt
  rw [BitVec.toNat_add, toNat_even, toNat_even] at parity
  have one : (1 : Word).toNat = 1 := rfl
  omega

theorem even_sub_two_ne (top : Word) : (top - 2).even ≠ (top - 4).even := by
  intro same
  have equal := congrArg BitVec.toNat same
  have bounded := top.isLt
  rw [toNat_even, toNat_even, BitVec.toNat_sub, BitVec.toNat_sub] at equal
  have two : (2 : Word).toNat = 2 := rfl
  have four : (4 : Word).toNat = 4 := rfl
  omega

theorem ofBytes_low_high (word : Word) : ofBytes word.low word.high = word := by
  apply BitVec.eq_of_getLsbD_eq
  intro index inside
  by_cases lower : index < 8
  · simp [ofBytes, low, high, lower, inside]
  · have split : 8 + (index - 8) = index := by omega
    simp [ofBytes, low, high, lower, inside, split]
    omega

end Word

namespace Memory

theorem word_setWord (memory : Memory) (address value : Word) : (memory.setWord address value).word address = value := by
  have apart : ¬address.even + 1 = address.even := fun same => Word.even_ne_even_succ address address same.symm
  simp only [word, setWord, byte_setByte, apart, if_true, if_false]
  exact Word.ofBytes_low_high value

theorem word_setWord_of_ne {address other : Word} (memory : Memory) (value : Word)
    (apart : address.even ≠ other.even) : (memory.setWord address value).word other = memory.word other := by
  have lowHigh : ¬address.even + 1 = other.even := fun same => Word.even_ne_even_succ other address same.symm
  have highLow : ¬address.even = other.even + 1 := Word.even_ne_even_succ address other
  have highHigh : ¬address.even + 1 = other.even + 1 := fun same => apart (by bv_omega)
  simp only [word, setWord, byte_setByte, apart, lowHigh, highLow, highHigh, if_false]

theorem byte_setWord_of_ne {address place : Word} (memory : Memory) (value : Word) (apart : place.even ≠ address.even) :
    (memory.setWord address value).byte place = memory.byte place := by
  have low : ¬address.even = place := fun same => apart (same ▸ Word.even_even address)
  have high : ¬address.even + 1 = place := fun same => apart (same ▸ Word.even_even_succ address)
  rw [setWord, byte_setByte, if_neg high, byte_setByte, if_neg low]

theorem word_even (memory : Memory) (address : Word) : memory.word address.even = memory.word address := by
  simp only [word, Word.even_even]

end Memory

namespace Recorded

variable {β : Type} [Board β] {before after : Recorded β}

theorem recording_persistent : Persistent fun board : Recorded β => board.recording = true := by
  constructor
  · intro before after called holds
    cases called with
    | cycle cycled => cases cycled <;> exact holds
    | acknowledge | acknowledgeChain | resetDevices => exact holds
  · intro bank board holds
    exact holds

theorem readWord_ok {address value : Word} (noted : before.recording = true)
    (answered : Board.readWord address before = (.ok value, after)) :
    after.recording = true ∧ after.calls = before.calls.push (.readWord address (.ok value)) ∧
      Board.readWord address before.board = (.ok value, after.board) := by
  obtain ⟨board, recording, calls⟩ := before
  cases noted
  obtain ⟨same, rfl⟩ := Prod.mk.inj answered
  refine ⟨rfl, ?_, Prod.ext same rfl⟩
  rw [← same]
  rfl

theorem writeWord_ok {address value : Word} (noted : before.recording = true)
    (answered : Board.writeWord address value before = (.ok (), after)) :
    after.recording = true ∧ after.calls = before.calls.push (.writeWord address value (.ok ())) ∧
      Board.writeWord address value before.board = (.ok (), after.board) := by
  obtain ⟨board, recording, calls⟩ := before
  cases noted
  obtain ⟨same, rfl⟩ := Prod.mk.inj answered
  refine ⟨rfl, ?_, Prod.ext same rfl⟩
  rw [← same]
  rfl

end Recorded

/-- What a trap entry asks of a board, and what it is answered. -/
def trapCalls (vector : Word) (interrupted : Processor) (pc status : Word) : Array BusCall :=
  #[.readWord vector.even (.ok pc), .readWord (vector + 2).even (.ok status),
    .writeWord (interrupted.sp - 2).even interrupted.status.bits (.ok ()),
    .writeWord (interrupted.sp - 4).even interrupted.pc (.ok ())]

def haltCalls (block pc status : Word) : Array BusCall :=
  #[.readWord (block + 4).even (.ok pc), .readWord (block + 6).even (.ok status)]

section

variable {β : Type} [Board β] {before after : Recorded β}

theorem TrapCycles.recorded {vector pc status : Word} {interrupted : Processor}
    (noted : before.recording = true) (answered : TrapCycles vector interrupted pc status before after) :
    after.recording = true ∧ after.calls = before.calls ++ trapCalls vector interrupted pc status ∧
      TrapCycles vector interrupted pc status before.board after.board := by
  obtain ⟨first, second, third, readPc, readStatus, savedStatus, savedPc⟩ := answered
  obtain ⟨noted, one, readPc⟩ := Recorded.readWord_ok noted readPc
  obtain ⟨noted, two, readStatus⟩ := Recorded.readWord_ok noted readStatus
  obtain ⟨noted, three, savedStatus⟩ := Recorded.writeWord_ok noted savedStatus
  obtain ⟨noted, four, savedPc⟩ := Recorded.writeWord_ok noted savedPc
  refine ⟨noted, ?_, first.board, second.board, third.board, readPc, readStatus, savedStatus, savedPc⟩
  rw [four, three, two, one]
  apply Array.toList_inj.mp
  simp [trapCalls]

theorem HaltCycles.recorded {block pc status : Word} (noted : before.recording = true)
    (answered : HaltCycles block pc status before after) :
    after.recording = true ∧ after.calls = before.calls ++ haltCalls block pc status ∧
      HaltCycles block pc status before.board after.board := by
  obtain ⟨first, readPc, readStatus⟩ := answered
  obtain ⟨noted, one, readPc⟩ := Recorded.readWord_ok noted readPc
  obtain ⟨noted, two, readStatus⟩ := Recorded.readWord_ok noted readStatus
  refine ⟨noted, ?_, first.board, readPc, readStatus⟩
  rw [two, one]
  apply Array.toList_inj.mp
  simp [haltCalls]

end

namespace FlatBoard

variable {board : FlatBoard} {address : Word}

theorem readWord_of_mapped (mapped : board.checkMapped address = .ok ()) :
    Board.readWord address board = (.ok (board.memory.word address), board) := by
  change ((board.checkMapped address).map _, board) = _
  rw [mapped]
  rfl

theorem readByte_of_mapped (mapped : board.checkMapped address = .ok ()) :
    Board.readByte address board = (.ok (board.memory.byte address), board) := by
  change ((board.checkMapped address).map _, board) = _
  rw [mapped]
  rfl

theorem writeWord_of_writable (writable : board.checkWritable address = .ok ()) (value : Word) :
    Board.writeWord address value board =
      (.ok (), { board with memory := board.memory.setWord address value }) := by
  change FlatBoard.writeWord address value board = _
  rw [FlatBoard.writeWord, writable]

theorem writeByte_of_writable (writable : board.checkWritable address = .ok ()) (value : Byte) :
    Board.writeByte address value board =
      (.ok (), { board with memory := board.memory.setByte address value }) := by
  change FlatBoard.writeByte address value board = _
  rw [FlatBoard.writeByte, writable]

theorem mapped_of_writable (writable : board.checkWritable address = .ok ()) : board.checkMapped address = .ok () := by
  unfold checkWritable at writable
  cases mapped : board.checkMapped address with
  | ok => rfl
  | error failure =>
    rw [mapped] at writable
    cases writable

end FlatBoard

section

variable {before after : Faulty FlatBoard}

theorem Faulty.cycle_ok {α : Type} {address : Word} {request : FlatBoard → Except BusError α × FlatBoard}
    {value : α} (answered : Faulty.cycle address request before = (.ok value, after)) :
    request before.board = (.ok value, after.board) := by
  obtain ⟨board, next, refused⟩ := before
  simp only [Faulty.cycle] at answered
  split at answered
  · cases answered
  · cases passed : request board with
    | mk answer later =>
      rw [passed] at answered
      cases answered
      rfl

theorem writeWord_memory {address value : Word} (answered : Board.writeWord address value before = (.ok (), after)) :
    after.board.memory = before.board.memory.setWord address value := by
  have passed : FlatBoard.writeWord address value before.board = (.ok (), after.board) := Faulty.cycle_ok answered
  unfold FlatBoard.writeWord at passed
  split at passed
  · cases passed
  · rw [← (Prod.mk.inj passed).2]

/-- A trap entry leaves the status word and the program counter on the stack. -/
theorem TrapCycles.stacked {vector pc status : Word} {interrupted : Processor}
    (answered : TrapCycles vector interrupted pc status before after) :
    after.board.memory.word (interrupted.sp - 2) = interrupted.status.bits ∧
      after.board.memory.word (interrupted.sp - 4) = interrupted.pc := by
  obtain ⟨first, second, third, readPc, readStatus, savedStatus, savedPc⟩ := answered
  rw [writeWord_memory savedPc, writeWord_memory savedStatus]
  constructor
  · rw [← Memory.word_even _ (interrupted.sp - 2), Memory.word_setWord_of_ne, Memory.word_setWord]
    rw [Word.even_even, Word.even_even]
    exact (Word.even_sub_two_ne interrupted.sp).symm
  · rw [← Memory.word_even _ (interrupted.sp - 4), Memory.word_setWord]

end
end Pdp11
