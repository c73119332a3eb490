import Pdp11.Proofs.TrapNesting

/-! Any register is a stack. Autodecrement moves it before a store and autoincrement after a load,
both by the same step, so what has been stored going down is loaded going up, last value first,
and the register is back where it was. An odd register does no harm: word cycles drop the bit and
the register keeps it. -/

namespace Pdp11

open Microcode

namespace Width

/-- Where the operand at an address begins. -/
def align (width : Width) (address : Word) : Word :=
  match width with
  | word => address.even
  | byte => address

/-- The operand at an address takes this byte. -/
def Spans (width : Width) (address place : Word) : Prop := width.align place = width.align address

instance (width : Width) (address place : Word) : Decidable (width.Spans address place) :=
  inferInstanceAs (Decidable (_ = _))

/-- The operand at an address, put together from the bytes. -/
def contents (width : Width) (bytes : Word → Byte) (address : Word) : Word :=
  match width with
  | word => .ofBytes (bytes address.even) (bytes (address.even + 1))
  | byte => (bytes address).setWidth 16

theorem contents_congr {width : Width} {address : Word} {bytes others : Word → Byte}
    (same : ∀ place, width.Spans address place → bytes place = others place) :
    width.contents bytes address = width.contents others address := by
  cases width with
  | byte => exact congrArg (BitVec.setWidth 16) (same address rfl)
  | word => exact congrArg₂ Word.ofBytes (same _ (Word.even_even _)) (same _ (Word.even_even_succ _))

/-- What is left of a value that is stored and loaded again. -/
def held (width : Width) (value : Word) : Word :=
  match width with
  | word => value
  | byte => value.low.setWidth 16

variable {β : Type} [Board β]

def readCycle (width : Width) (address : Word) (board : β) : Except BusError Word × β :=
  match width with
  | word => Board.readWord address.even board
  | byte => (Board.readByte address board).map (·.map (·.setWidth 16)) id

def writeCycle (width : Width) (address value : Word) (board : β) : Except BusError Unit × β :=
  match width with
  | word => Board.writeWord address.even value board
  | byte => Board.writeByte address value.low board

end Width

/-- How far a register moves, in bytes: one by one only for bytes and only in a register that need
not stay even. -/
def stride (width : Width) (name : Register) : Nat :=
  if width = .byte ∧ name ≠ .sp ∧ name ≠ .pc then 1 else 2

/-- The bytes of so many operands, one stride below the other. -/
def Stowed (width : Width) (name : Register) (count : Nat) (start place : Word) : Prop :=
  ∃ depth < count, width.Spans (start - BitVec.ofNat 16 ((depth + 1) * stride width name)) place

/-- Bytes of a board that are memory and answer while `up` holds of it. Every read tells what they
hold and every write replaces what it spans, and neither touches the others. -/
structure ByteRam (β : Type) [Board β] (cells : Word → Prop) (up : β → Prop) where
  byte : Word → β → Byte
  read : ∀ (width : Width) (address : Word) {board : β}, (∀ place, width.Spans address place → cells place) →
    up board →
    ∃ after, width.readCycle address board = (.ok (width.contents (byte · board) address), after) ∧ up after ∧
      ∀ place, cells place → byte place after = byte place board
  write : ∀ (width : Width) (address value : Word) {board : β}, (∀ place, width.Spans address place → cells place) →
    up board →
    ∃ after, width.writeCycle address value board = (.ok (), after) ∧ up after ∧
      width.contents (byte · after) address = width.held value ∧
      ∀ place, cells place → ¬width.Spans address place → byte place after = byte place board

namespace Microcode

variable {β : Type} [Board β]

/-- Stores the values one after the other. -/
def storeDown (width : Width) (name : Register) : List Word → Microcode β Unit
  | [] => return
  | value :: rest => do
    let location ← resolve width ⟨.autoDecrement, name⟩
    store width value location
    storeDown width name rest

/-- Loads so many values. -/
def loadUp (width : Width) (name : Register) : Nat → Microcode β (List Word)
  | 0 => return []
  | count + 1 => do
    let (_, value) ← readOperand width ⟨.autoIncrement, name⟩
    return value :: (← loadUp width name count)

variable {width : Width} {name : Register} {machine middle after : Machine β}

/-- The last value may be loaded by itself. -/
theorem loadUp_concat {count : Nat} {values : List Word} {location : Location} {value : Word}
    (inner : loadUp width name count machine = .ok values middle)
    (outer : readOperand width ⟨.autoIncrement, name⟩ middle = .ok (location, value) after) :
    loadUp width name (count + 1) machine = .ok (values ++ [value]) after := by
  induction count generalizing machine values with
  | zero =>
    cases inner
    exact bind_of_ok outer _
  | succ count ih =>
    obtain ⟨⟨located, first⟩, moved, begun, inner⟩ := bind_eq_ok inner
    obtain ⟨rest, _, loaded, inner⟩ := bind_eq_ok inner
    cases inner
    exact (bind_of_ok begun _).trans (bind_of_ok (ih loaded) _)

theorem load_memory (width : Width) (address : Word) :
    (load width (.memory address) : Microcode β Word) = cycle (width.readCycle address) := by
  cases width with
  | word => rfl
  | byte =>
    funext machine
    change ((cycle (Board.readByte address) : Microcode β Byte) >>= fun byte => pure (byte.setWidth 16)) machine = _
    simp only [Bind.bind, EStateM.bind, cycle, Width.readCycle, Prod.map]
    rcases Board.readByte address machine.board with ⟨failure | byte, board⟩
    · rfl
    · dsimp only [Except.map]
      cases machine.processor.lines.hasBusError <;> rfl

theorem store_memory (width : Width) (address value : Word) :
    (store width value (.memory address) : Microcode β Unit) = cycle (width.writeCycle address value) := by
  cases width with
  | word | byte => rfl

theorem stepOf_eq (name : Register) (width : Width) : stepOf name width = BitVec.ofNat 16 (stride width name) := by
  cases name <;> cases width <;> rfl

theorem resolve_down (width : Width) (name : Register) (machine : Machine β) :
    let address := machine.processor.registers.get name - BitVec.ofNat 16 (stride width name)
    resolve width ⟨.autoDecrement, name⟩ machine =
      .ok (.memory address) ⟨machine.processor.setRegister name address, machine.board⟩ := by
  rw [← stepOf_eq]
  rfl

theorem resolve_up (width : Width) (name : Register) (machine : Machine β) :
    let address := machine.processor.registers.get name
    resolve width ⟨.autoIncrement, name⟩ machine =
      .ok (.memory address)
        ⟨machine.processor.setRegister name (address + BitVec.ofNat 16 (stride width name)), machine.board⟩ := by
  rw [← stepOf_eq]
  rfl

end Microcode

namespace Stowed

variable {width : Width} {name : Register} {count : Nat} {start place : Word}

theorem first (spans : width.Spans (start - BitVec.ofNat 16 (stride width name)) place) :
    Stowed width name (count + 1) start place :=
  ⟨0, by omega, by rwa [Nat.zero_add, Nat.one_mul]⟩

/-- What lies below one operand is a stride deeper. -/
theorem deeper (start : Word) (step depth : Nat) :
    start - BitVec.ofNat 16 step - BitVec.ofNat 16 (depth * step) = start - BitVec.ofNat 16 ((depth + 1) * step) := by
  rw [BitVec.sub_sub, ← BitVec.ofNat_add, Nat.succ_mul, Nat.add_comm step]

theorem below (stowed : Stowed width name count (start - BitVec.ofNat 16 (stride width name)) place) :
    Stowed width name (count + 1) start place := by
  obtain ⟨depth, inside, spans⟩ := stowed
  rw [deeper] at spans
  exact ⟨depth + 1, by omega, spans⟩

/-- Two operands share a byte only if they are as deep. -/
theorem eq_of_align {first second : Nat} (firstFits : (first + 1) * stride width name ≤ 65536)
    (secondFits : (second + 1) * stride width name ≤ 65536)
    (same : width.align (start - BitVec.ofNat 16 ((first + 1) * stride width name)) =
      width.align (start - BitVec.ofNat 16 ((second + 1) * stride width name))) : first = second := by
  have bounded := start.isLt
  have equal := congrArg BitVec.toNat same
  cases width with
  | word =>
    have step : stride .word name = 2 := rfl
    rw [step] at firstFits secondFits equal
    simp only [Width.align, Word.toNat_even, BitVec.toNat_sub, BitVec.toNat_ofNat] at equal
    omega
  | byte =>
    have step : stride .byte name = 1 ∨ stride .byte name = 2 := by
      unfold stride
      split <;> simp
    simp only [Width.align, BitVec.toNat_sub, BitVec.toNat_ofNat] at equal
    rcases step with step | step
    · rw [step] at firstFits secondFits equal
      omega
    · rw [step] at firstFits secondFits equal
      omega

theorem apart (fits : (count + 1) * stride width name ≤ 65536)
    (spans : width.Spans (start - BitVec.ofNat 16 (stride width name)) place) :
    ¬Stowed width name count (start - BitVec.ofNat 16 (stride width name)) place := by
  intro ⟨depth, inside, same⟩
  rw [deeper] at same
  have fewer : (depth + 1 + 1) * stride width name ≤ (count + 1) * stride width name :=
    Nat.mul_le_mul_right _ (by omega)
  have one : (0 + 1) * stride width name = stride width name := by rw [Nat.zero_add, Nat.one_mul]
  have outermost : (0 + 1) * stride width name ≤ 65536 := by
    have least : 1 * stride width name ≤ (count + 1) * stride width name := Nat.mul_le_mul_right _ (by omega)
    omega
  have equal : 0 = depth + 1 := eq_of_align outermost (fewer.trans fits) (by rw [one]; exact spans.symm.trans same)
  omega

end Stowed

namespace ByteRam

variable {β : Type} [Board β] {cells : Word → Prop} {up : β → Prop} {width : Width} {name : Register}
  {machine : Machine β} {address : Word}

/-- A value that is stored through autodecrement goes one stride below the register. -/
theorem stow (ram : ByteRam β cells up) (value : Word)
    (found : machine.processor.registers.get name - BitVec.ofNat 16 (stride width name) = address)
    (room : ∀ place, width.Spans address place → cells place) (ready : machine.processor.lines.hasBusError = false)
    (working : up machine.board) :
    ∃ board, (do
        let location ← resolve width ⟨.autoDecrement, name⟩
        store width value location : Microcode β Unit) machine =
        .ok () ⟨machine.processor.setRegister name address, board⟩ ∧ up board ∧
      width.contents (ram.byte · board) address = width.held value ∧
      ∀ place, cells place → ¬width.Spans address place → ram.byte place board = ram.byte place machine.board := by
  subst found
  obtain ⟨board, written, working, holds, kept⟩ := ram.write width _ value room working
  refine ⟨board, (bind_of_ok (resolve_down width name machine) _).trans ?_, working, holds, kept⟩
  rw [store_memory]
  exact cycle_of_ok ready written

/-- A load through autoincrement takes what the register points at. -/
theorem take (ram : ByteRam β cells up) (found : machine.processor.registers.get name = address)
    (room : ∀ place, width.Spans address place → cells place) (ready : machine.processor.lines.hasBusError = false)
    (working : up machine.board) :
    ∃ board, readOperand width ⟨.autoIncrement, name⟩ machine =
        .ok (.memory address, width.contents (ram.byte · machine.board) address)
          ⟨machine.processor.setRegister name (address + BitVec.ofNat 16 (stride width name)), board⟩ ∧ up board ∧
      ∀ place, cells place → ram.byte place board = ram.byte place machine.board := by
  subst found
  obtain ⟨board, answered, working, kept⟩ := ram.read width _ room working
  refine ⟨board, (bind_of_ok (resolve_up width name machine) _).trans (bind_of_ok ?_ _), working, kept⟩
  rw [load_memory]
  exact cycle_of_ok ready answered

end ByteRam

/-- What is stored going down is loaded going up. -/
theorem register_stacks_values {β : Type} [Board β] {cells : Word → Prop} {up : β → Prop} (ram : ByteRam β cells up)
    (width : Width) (name : Register) (values : List Word) (machine : Machine β)
    (fits : values.length * stride width name ≤ 65536)
    (room : ∀ place, Stowed width name values.length (machine.processor.registers.get name) place → cells place)
    (ready : machine.processor.lines.hasBusError = false) (working : up machine.board) :
    ∃ stored after, storeDown width name values machine = .ok () stored ∧
      stored.processor = machine.processor.setRegister name
        (machine.processor.registers.get name - BitVec.ofNat 16 (values.length * stride width name)) ∧
      loadUp width name values.length stored = .ok (values.reverse.map width.held) after ∧
      after.processor = machine.processor ∧ up after.board ∧
      ∀ place, cells place → ¬Stowed width name values.length (machine.processor.registers.get name) place →
        ram.byte place after.board = ram.byte place machine.board := by
  induction values generalizing machine with
  | nil =>
    refine ⟨machine, machine, rfl, ?_, rfl, rfl, working, fun _ _ _ => rfl⟩
    have still : machine.processor.registers.get name - BitVec.ofNat 16 (0 * stride width name) =
        machine.processor.registers.get name := by
      rw [Nat.zero_mul]
      exact BitVec.sub_zero _
    rw [List.length_nil, still, Processor.setRegister_get]
  | cons value rest ih =>
    let start := machine.processor.registers.get name
    let below := start - BitVec.ofNat 16 (stride width name)
    have spanned : ∀ place, width.Spans below place → cells place := fun place spans => room place (.first spans)
    obtain ⟨board, stowed, working, holds, kept⟩ := ram.stow value rfl spanned ready working
    let lowered : Machine β := ⟨machine.processor.setRegister name below, board⟩
    have reached : lowered.processor.registers.get name = below := (RegisterFile.get_set ..).trans (if_pos rfl)
    have fewer : rest.length * stride width name ≤ 65536 :=
      (Nat.mul_le_mul_right _ (Nat.le_succ rest.length)).trans fits
    have deeper : ∀ place, Stowed width name rest.length (lowered.processor.registers.get name) place → cells place := by
      rw [reached]
      exact fun place inside => room place inside.below
    -- the rest is stored below and loaded again, and leaves the first value alone
    obtain ⟨stored, middle, down, lowest, loaded, restored, working, unchanged⟩ := ih lowered fewer deeper ready working
    rw [reached] at lowest unchanged
    have still : width.contents (ram.byte · middle.board) below = width.held value := by
      refine (Width.contents_congr fun place spans => ?_).trans holds
      exact unchanged place (spanned place spans) (Stowed.apart fits spans)
    have back : middle.processor.registers.get name = below := restored ▸ reached
    obtain ⟨after, taken, working, same⟩ := ram.take back spanned (restored ▸ ready) working
    have raised : middle.processor.setRegister name (below + BitVec.ofNat 16 (stride width name)) = machine.processor := by
      rw [restored, Processor.setRegister_setRegister, show below + BitVec.ofNat 16 (stride width name) = start from
        BitVec.sub_add_cancel _ _, Processor.setRegister_get]
    rw [raised, still] at taken
    refine ⟨stored, ⟨machine.processor, after⟩, (bind_of_ok stowed _).trans down, ?_, ?_, rfl, working, ?_⟩
    · rw [lowest, Processor.setRegister_setRegister, Stowed.deeper]
      rfl
    · rw [List.reverse_cons, List.map_append]
      exact loadUp_concat loaded taken
    · intro place cell outside
      calc ram.byte place after
        _ = ram.byte place middle.board := same place cell
        _ = ram.byte place board := unchanged place cell fun inside => outside inside.below
        _ = ram.byte place machine.board := kept place cell fun spans => outside (.first spans)

/-- The memory of this board is memory wherever there is neither hole nor window. -/
def FlatBoard.byteRam (cells : Word → Prop) :
    ByteRam FlatBoard cells fun board => ∀ place, cells place → board.checkWritable place = .ok () where
  byte place board := board.memory.byte place
  read width address board room working := by
    refine ⟨board, ?_, working, fun _ _ => rfl⟩
    cases width with
    | word =>
      have mapped := mapped_of_writable (working _ (room address.even (Word.even_even _)))
      refine (readWord_of_mapped mapped).trans ?_
      rw [Memory.word_even]
      rfl
    | byte =>
      have mapped := mapped_of_writable (working _ (room address rfl))
      change (Board.readByte address board).map _ id = _
      rw [readByte_of_mapped mapped]
      rfl
  write width address value board room working := by
    cases width with
    | word =>
      have writable := working _ (room address.even (Word.even_even _))
      refine ⟨_, writeWord_of_writable writable value, working, ?_, fun place _ outside => ?_⟩
      · exact (Memory.word_even _ _).symm.trans (Memory.word_setWord _ _ _)
      · exact Memory.byte_setWord_of_ne _ _ fun same => outside (same.trans (Word.even_even _))
    | byte =>
      have writable := working _ (room address rfl)
      refine ⟨_, writeByte_of_writable writable value.low, working, ?_, fun place _ outside => ?_⟩
      · exact congrArg (BitVec.setWidth 16) ((Memory.byte_setByte ..).trans (if_pos rfl))
      · exact (Memory.byte_setByte ..).trans (if_neg fun same => outside same.symm)

/-- A stack that is odd and goes past the bottom of memory. -/
def stacking : Machine FlatBoard :=
  ⟨(Processor.create { model := .t11 }).setRegister .sp 3, FlatBoard.load {} 0 [0o100577]⟩

/-- Bytes lie two apart below this register, and what is between them stays. -/
theorem register_stacks_values_bytes :
    ∃ stored after, storeDown .byte .sp [0o12345, 0o377] stacking = .ok () stored ∧
      stored.processor.registers.get .sp = 0xFFFF ∧ loadUp .byte .sp 2 stored = .ok [0o377, 0o345] after ∧
      after.processor = stacking.processor ∧ after.board.memory.byte 0 = 0o177 := by
  obtain ⟨stored, after, down, lowest, loaded, restored, _, kept⟩ :=
    register_stacks_values (FlatBoard.byteRam fun _ => True) .byte .sp [0o12345, 0o377] stacking (by decide)
      (fun _ _ => trivial) rfl fun _ _ => rfl
  refine ⟨stored, after, down, ?_, loaded, restored, ?_⟩
  · rw [lowest]
    rfl
  · have between : ¬Stowed .byte .sp 2 3 0 := by
      rintro ⟨depth, inside, same⟩
      have apart : ∀ depth < 2, ¬Width.byte.Spans ((3 : Word) - BitVec.ofNat 16 ((depth + 1) * stride .byte .sp)) 0 := by
        decide
      exact apart depth inside same
    exact (kept 0 trivial between).trans (by decide +kernel)

end Pdp11
