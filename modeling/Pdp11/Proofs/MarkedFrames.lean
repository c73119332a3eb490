import Pdp11.Proofs.SubroutineNesting

/-! Frames that unwind themselves. The caller saves R5 on the stack, and above it the parameters
and the word of a MARK that counts them. R5 then points to that word, so the RTS of the callee
goes on with it: the instruction is taken from the stack, drops the parameters, and goes back to
the caller with its R5. -/

namespace Pdp11

open Microcode

variable {β : Type} [Board β]

/-- The instruction at the program counter is this one, and its word is taken. -/
structure Takes (instruction : Instruction) (machine fetched : Machine β) : Prop where
  fetch : ∃ word, fetchInstruction machine = .ok word fetched ∧ Instruction.ofWord? word = some instruction

/-- The instruction at the program counter is this one, and it completes. -/
structure Completes (instruction : Instruction) (machine after : Machine β) : Prop where
  taken : ∃ fetched, Takes instruction machine fetched
  retired : ∃ cycles, instructionCycle machine.processor.cycles machine = .ok (.retired cycles) after

/-- These instructions complete one after another. -/
inductive Runs : List Instruction → Machine β → Machine β → Prop where
  | none (machine : Machine β) : Runs [] machine machine
  | next {instruction : Instruction} {rest : List Instruction} {machine middle after : Machine β}
      (first : Completes instruction machine middle) (others : Runs rest middle after) :
      Runs (instruction :: rest) machine after

/-- An instruction and what it must find once its word is taken. -/
abbrev Stage (β : Type) := Instruction × (Machine β → Prop)

/-- These instructions are there to be taken one after another, as long as they complete. -/
def Supplies : List (Stage β) → Machine β → Prop
  | [], _ => True
  | (instruction, meets) :: rest, machine =>
    (∃ fetched, Takes instruction machine fetched ∧ meets fetched) ∧
      ∀ after, Completes instruction machine after → Supplies rest after

/-- A word is pushed. No register changes before that, except that the operand may take words of
the instruction stream. -/
def pushing (source : Operand) (value : Word) : Stage β :=
  (.mov .word source ⟨.autoDecrement, .sp⟩, fun fetched => ∃ location located pc,
    readOperand .word source fetched = .ok (location, value) located ∧ located.processor = fetched.processor.setPc pc)

/-- A subroutine is called that is found without a change to any register but the program counter,
which is then past the words of the call. -/
def calling (target : Operand) (following : Word) : Stage β :=
  (.jsr .pc target, fun fetched => ∃ address located,
    resolve .word target fetched = .ok (.memory address) located ∧
      located.processor = fetched.processor.setPc following)

theorem Runs.append {first second : List Instruction} {machine middle after : Machine β}
    (before : Runs first machine middle) (rest : Runs second middle after) : Runs (first ++ second) machine after := by
  induction before with
  | none => exact rest
  | next done _ ih => exact .next done (ih rest)

namespace Takes

variable {instruction : Instruction} {machine fetched executed : Machine β}

theorem registers (takes : Takes instruction machine fetched) :
    fetched.processor.registers = machine.processor.registers.setPc (machine.processor.pc.even + 2) := by
  obtain ⟨word, fetch, _⟩ := takes
  obtain ⟨_, kept⟩ := fetchInstruction_ok fetch
  rw [kept]
  rfl

theorem lines (takes : Takes instruction machine fetched) : fetched.processor.lines = machine.processor.lines := by
  obtain ⟨word, fetch, _⟩ := takes
  obtain ⟨_, kept⟩ := fetchInstruction_ok fetch
  rw [kept]
  rfl

theorem ready (takes : Takes instruction machine fetched) : fetched.processor.lines.hasBusError = false := by
  obtain ⟨word, fetch, _⟩ := takes
  exact fetchInstruction_ready fetch

theorem inspected (takes : Takes instruction machine fetched) : Inspected machine.board fetched.board := by
  obtain ⟨word, fetch, _⟩ := takes
  exact OnlyInspects.fetchWord machine.begun fetched word fetch

/-- An instruction that is executed to its end completes its cycle. What comes after it counts and
notes things, but leaves the registers and the board alone. -/
theorem completes (takes : Takes instruction machine fetched)
    (done : execute instruction fetched = .ok .completed executed) :
    ∃ after, Completes instruction machine after ∧ after.processor.registers = executed.processor.registers ∧
      after.processor.lines = executed.processor.lines ∧ after.board = executed.board := by
  obtain ⟨word, fetch, decoded⟩ := takes
  let charged := executed.update (·.charge instruction.cycles)
  have finished : executeWord word fetched = .ok .completed charged := by
    simp only [executeWord, decoded, executeCharged, Bind.bind, EStateM.bind, done]
    rfl
  have cycle := instructionCycle_eq machine.processor.cycles machine
  rw [fetch] at cycle
  simp only [finished] at cycle
  obtain ⟨_, _, _, kept⟩ := charged.retired_processor machine.processor.cycles machine.processor.pc.even word
  refine ⟨_, ⟨⟨fetched, word, fetch, decoded⟩, _, cycle⟩, ?_, ?_, rfl⟩
  · rw [kept]
    rfl
  · rw [kept]
    rfl

end Takes

/-- Words that were pushed from this stack pointer on, the oldest first. -/
def Ram.Pushed {cells : Word → Prop} (ram : Ram β cells) (base : Word) (values : List Word) (board : β) : Prop :=
  ∀ depth value, values[depth]? = some value → ram.word (base - 2 * BitVec.ofNat 16 (depth + 1)).even board = value

namespace Ram.Pushed

variable {cells : Word → Prop} {ram : Ram β cells} {base value : Word} {values : List Word} {before after : β}

theorem none (base : Word) (board : β) : ram.Pushed base [] board := by
  intro depth value found
  cases found

theorem inspected (pushed : ram.Pushed base values before) (inspected : Inspected before after)
    (stack : ∀ address, Stacked values.length base address → cells address) : ram.Pushed base values after := by
  intro depth value found
  have inside : depth < values.length := (List.getElem?_eq_some_iff.mp found).1
  exact (ram.inspected inspected (stack _ ⟨depth, inside, rfl⟩)).trans (pushed depth value found)

/-- A word is pushed below the others, and they stay as they are. -/
theorem push (pushed : ram.Pushed base values before)
    (written : Board.writeWord (base - 2 * BitVec.ofNat 16 (values.length + 1)).even value before = (.ok (), after))
    (stack : ∀ address, Stacked (values.length + 1) base address → cells address)
    (room : 2 * (values.length + 1) ≤ 65536) : ram.Pushed base (values ++ [value]) after := by
  intro depth word found
  rcases Nat.lt_trichotomy depth values.length with older | newest | beyond
  · rw [List.getElem?_append_left older] at found
    have apart : (base - 2 * BitVec.ofNat 16 (depth + 1)).even ≠ (base - 2 * BitVec.ofNat 16 (values.length + 1)).even := by
      intro same
      have equal := Frames.eq_of_depth (by omega) (by omega) same
      omega
    have kept := ram.keptByWrite (base - 2 * BitVec.ofNat 16 (values.length + 1)) value before
      (stack _ ⟨depth, by omega, rfl⟩) apart
    rw [written] at kept
    exact kept.trans (pushed depth word found)
  · subst newest
    rw [List.getElem?_concat_length] at found
    cases found
    exact ram.written (stack _ ⟨values.length, by omega, rfl⟩) written
  · rw [List.getElem?_eq_none (by rw [List.length_append, List.length_singleton]; omega)] at found
    cases found

theorem older (pushed : ram.Pushed base (values ++ [value]) before) : ram.Pushed base values before := by
  intro depth word found
  have inside : depth < values.length := (List.getElem?_eq_some_iff.mp found).1
  apply pushed depth word
  rw [List.getElem?_append_left inside]
  exact found

end Ram.Pushed

/-- What a MARK makes of the registers, with what it takes from the stack. The stack pointer comes
from the program counter, which is past the word of the MARK, and R5 holds where to go. -/
def Processor.unmarked (processor : Processor) (count : BitVec 6) (saved : Word) : Processor :=
  let base := processor.pc + 2 * count.setWidth 16
  let lowered := processor.setSp base
  ((lowered.setPc (lowered.registers.get .r5)).setSp (base + 2)).setRegister .r5 saved

namespace Microcode

variable {machine located : Machine β} {source : Operand} {location : Location} {value saved : Word} {board : β}

/-- A MOV of words stores what it has read. -/
theorem logic_word (value : Word) : (Alu.logic .word value).value = value := BitVec.and_allOnes

theorem execute_push (ready : machine.processor.lines.hasBusError = false)
    (read : readOperand .word source machine = .ok (location, value) located)
    (answered : Board.writeWord (located.processor.sp - 2).even value located.board = (.ok (), board)) :
    ∃ status, execute (.mov .word source ⟨.autoDecrement, .sp⟩) machine =
      .ok .completed ⟨{ located.processor.setSp (located.processor.sp - 2) with status }, board⟩ := by
  have still : located.processor.lines.hasBusError = false := by
    obtain ⟨_, moved⟩ := OnlyMoves.readOperand .word source machine located _ read
    rw [moved]
    exact ready
  let status := (Alu.logic .word value).status .word located.processor.status
  let lowered : Machine β := ⟨{ located.processor.setSp (located.processor.sp - 2) with status }, located.board⟩
  have ready : lowered.processor.lines.hasBusError = false := still
  have stored : store .word value (.memory (located.processor.sp - 2)) lowered = .ok () ⟨lowered.processor, board⟩ :=
    cycle_of_ok ready answered
  refine ⟨status, (bind_of_ok read _).trans ?_⟩
  rw [← logic_word value] at stored
  exact bind_of_ok stored _

theorem execute_copy (machine : Machine β) (origin copy : Register) :
    ∃ status, execute (.mov .word ⟨.register, origin⟩ ⟨.register, copy⟩) machine =
      .ok .completed (machine.update fun processor =>
        { processor.setRegister copy (processor.registers.get origin) with status }) := by
  let value := machine.processor.registers.get origin
  let status := (Alu.logic .word value).status .word machine.processor.status
  have copied : execute (.mov .word ⟨.register, origin⟩ ⟨.register, copy⟩) machine =
      .ok .completed (machine.update fun processor =>
        { processor.setRegister copy (Alu.logic .word value).value with status }) := rfl
  rw [logic_word] at copied
  exact ⟨status, copied⟩

end Microcode

namespace RegisterFile

/-- Other contents for the three registers that a frame works with. -/
def framed (file : RegisterFile) (pc sp r5 : Word) : RegisterFile := ((file.set .r5 r5).setSp sp).setPc pc

variable (file : RegisterFile) (pc sp r5 value : Word)

theorem get_framed (name : Register) : (file.framed pc sp r5).get name =
    match name with
    | .pc => pc
    | .sp => sp
    | .r5 => r5
    | other => file.get other := by
  cases name <;> simp [framed, setPc, setSp, get_set]

theorem framed_setPc : (file.framed pc sp r5).setPc value = file.framed value sp r5 := set_set _ _ _ _

theorem framed_setSp : (file.framed pc sp r5).setSp value = file.framed pc value r5 := by
  apply ext_get
  intro name
  rw [setSp, get_set, get_framed, get_framed]
  cases name <;> rfl

theorem framed_setR5 : (file.framed pc sp r5).set .r5 value = file.framed pc sp value := by
  apply ext_get
  intro name
  rw [get_set, get_framed, get_framed]
  cases name <;> rfl

end RegisterFile

namespace Processor

variable {processor : Processor} {start : RegisterFile} {pc sp r5 : Word}

theorem called_framed (found : processor.registers = start.framed pc sp r5) (address : Word) :
    (processor.called .pc address).registers = start.framed address (sp - 2) r5 := by
  have stackPointer : processor.sp = sp := (congrArg RegisterFile.sp found).trans (start.get_framed ..)
  change ((processor.registers.setSp (processor.sp - 2)).setPc processor.pc).setPc address = _
  rw [stackPointer, found, RegisterFile.framed_setSp, RegisterFile.framed_setPc, RegisterFile.framed_setPc]

theorem returned_framed (found : processor.registers = start.framed pc sp r5) (saved : Word) :
    (processor.returned .r5 saved).registers = start.framed r5 (sp + 2) saved := by
  have stackPointer : processor.sp = sp := (congrArg RegisterFile.sp found).trans (start.get_framed ..)
  have link : processor.registers.get .r5 = r5 := (congrArg (·.get .r5) found).trans (start.get_framed ..)
  change ((processor.registers.setPc (processor.registers.get .r5)).setSp (processor.sp + 2)).set .r5 saved = _
  rw [link, stackPointer, found, RegisterFile.framed_setPc, RegisterFile.framed_setSp, RegisterFile.framed_setR5]

end Processor

/-- The caller's registers are these, but that words are pushed, and R5 and the program counter
have moved on. -/
structure Framing {cells : Word → Prop} (ram : Ram β cells) (up : β → Prop) (start : RegisterFile) (values : List Word)
    (pc r5 : Word) (machine : Machine β) : Prop where
  registers : machine.processor.registers = start.framed pc (start.sp - 2 * BitVec.ofNat 16 values.length) r5
  ready : machine.processor.lines.hasBusError = false
  pushed : ram.Pushed start.sp values machine.board
  working : up machine.board

namespace Framing

variable {cells readable writable : Word → Prop} {ram : Ram β cells} {up : β → Prop} {start : RegisterFile}
  {values : List Word} {pc r5 value : Word} {machine fetched : Machine β} {seen : β} {count : Nat}
  {instruction : Instruction} {rest : List (Stage β)}

theorem taken (framing : Framing ram up start values pc r5 machine) (takes : Takes instruction machine fetched) :
    fetched.processor.registers = start.framed (pc.even + 2) (start.sp - 2 * BitVec.ofNat 16 values.length) r5 := by
  have counter : machine.processor.pc = pc := (congrArg RegisterFile.pc framing.registers).trans (start.get_framed ..)
  rw [takes.registers, framing.registers, counter, RegisterFile.framed_setPc]

/-- The word below the last one pushed. -/
theorem lower (base : Word) (length : Nat) :
    base - 2 * BitVec.ofNat 16 length - 2 = base - 2 * BitVec.ofNat 16 (length + 1) := by
  rw [BitVec.ofNat_add]
  bv_omega

theorem raise (base : Word) (length : Nat) :
    base - 2 * BitVec.ofNat 16 (length + 1) + 2 = base - 2 * BitVec.ofNat 16 length := by
  rw [← lower]
  exact BitVec.sub_add_cancel _ _

/-- Whatever takes words of the instruction stream leaves the frame alone. -/
theorem found {located : Machine β} {following : Word} (framing : Framing ram up start values pc r5 machine)
    (takes : Takes instruction machine fetched) (kept : located.processor = fetched.processor.setPc following) :
    located.processor.registers = start.framed following (start.sp - 2 * BitVec.ofNat 16 values.length) r5 ∧
      located.processor.sp - 2 = start.sp - 2 * BitVec.ofNat 16 (values.length + 1) ∧
      located.processor.lines.hasBusError = false := by
  have registers : located.processor.registers =
      start.framed following (start.sp - 2 * BitVec.ofNat 16 values.length) r5 := by
    rw [kept]
    change fetched.processor.registers.setPc following = _
    rw [framing.taken takes, RegisterFile.framed_setPc]
  refine ⟨registers, ?_, ?_⟩
  · rw [← lower]
    exact congrArg (· - 2) ((congrArg RegisterFile.sp registers).trans (start.get_framed ..))
  · rw [kept]
    exact takes.ready

variable (dependable : Dependable β readable writable up) (room : StackRoom cells readable writable count start.sp)

include dependable room

theorem still (framing : Framing ram up start values pc r5 machine) (within : values.length ≤ count)
    (looked : Inspected machine.board seen) : ram.Pushed start.sp values seen ∧ up seen := by
  refine ⟨framing.pushed.inspected looked ?_, dependable.inspected looked framing.working⟩
  intro address stacked
  exact (room.memory address (stacked.wider within)).1

/-- A word of the frame is read as it was pushed. -/
theorem reads (framing : Framing ram up start values pc r5 machine) (within : values.length ≤ count)
    (looked : Inspected machine.board seen) {depth : Nat} (found : values[depth]? = some value) :
    ∃ board, Board.readWord (start.sp - 2 * BitVec.ofNat 16 (depth + 1)).even seen = (.ok value, board) ∧
      Inspected machine.board board := by
  have inside : depth < values.length := (List.getElem?_eq_some_iff.mp found).1
  obtain ⟨cell, reads, _⟩ := room.memory _ ⟨depth, by omega, rfl⟩
  obtain ⟨pushed, working⟩ := framing.still dependable room within looked
  obtain ⟨word, board, answered, _⟩ := dependable.read reads working
  have same : word = value := (ram.read cell answered).trans (pushed depth value found)
  rw [same] at answered
  exact ⟨board, answered, looked.read answered⟩

/-- One more word can be pushed, whatever was read before. -/
theorem writes (framing : Framing ram up start values pc r5 machine) (within : values.length < count)
    (looked : Inspected machine.board seen) (value : Word) :
    ∃ board, Board.writeWord (start.sp - 2 * BitVec.ofNat 16 (values.length + 1)).even value seen = (.ok (), board) ∧
      ram.Pushed start.sp (values ++ [value]) board ∧ up board := by
  have fits := room.fits
  obtain ⟨_, _, writes⟩ := room.memory _ ⟨values.length, within, rfl⟩
  obtain ⟨pushed, working⟩ := framing.still dependable room (by omega) looked
  obtain ⟨board, answered, working⟩ := dependable.write value writes working
  refine ⟨board, answered, pushed.push answered ?_ (by omega), working⟩
  intro address stacked
  exact (room.memory address (stacked.wider within)).1

theorem push {source : Operand} (framing : Framing ram up start values pc r5 machine)
    (within : values.length < count) (supplied : Supplies (pushing source value :: rest) machine) :
    ∃ following after, Completes (.mov .word source ⟨.autoDecrement, .sp⟩) machine after ∧
      Framing ram up start (values ++ [value]) following r5 after ∧ Supplies rest after := by
  obtain ⟨⟨fetched, takes, location, located, following, read, kept⟩, onward⟩ := supplied
  obtain ⟨found, lowered, ready⟩ := framing.found takes kept
  have looked : Inspected machine.board located.board :=
    takes.inspected.trans (OnlyInspects.readOperand source fetched located _ read)
  obtain ⟨board, answered, pushed, working⟩ := framing.writes dependable room within looked value
  rw [← lowered] at answered
  obtain ⟨status, done⟩ := execute_push takes.ready read answered
  obtain ⟨after, completes, registers, lines, same⟩ := takes.completes done
  refine ⟨following, after, completes, ⟨?_, lines ▸ ready, same ▸ pushed, same ▸ working⟩, onward after completes⟩
  rw [registers, List.length_append, List.length_singleton, ← lowered]
  change located.processor.registers.setSp _ = _
  rw [found, RegisterFile.framed_setSp]

theorem pushAll {words : List (Operand × Word)} (framing : Framing ram up start values pc r5 machine)
    (within : values.length + words.length ≤ count)
    (supplied : Supplies (words.map (fun word => pushing word.1 word.2) ++ rest) machine) :
    ∃ following after, Runs (words.map fun word => .mov .word word.1 ⟨.autoDecrement, .sp⟩) machine after ∧
      Framing ram up start (values ++ words.map (·.2)) following r5 after ∧ Supplies rest after := by
  induction words generalizing values pc machine with
  | nil =>
    rw [List.map_nil, List.map_nil, List.append_nil]
    exact ⟨pc, machine, .none machine, framing, supplied⟩
  | cons word others ih =>
    rw [List.length_cons] at within
    obtain ⟨_, middle, completes, pushed, onward⟩ := framing.push dependable room (by omega) supplied
    have inside : (values ++ [word.2]).length + others.length ≤ count := by
      rw [List.length_append, List.length_singleton]
      omega
    obtain ⟨following, after, runs, all, last⟩ := ih pushed inside onward
    rw [List.append_assoc] at all
    exact ⟨following, after, .next completes runs, all, last⟩

/-- JSR PC, wherever it goes. -/
theorem call {target : Operand} {following : Word} (framing : Framing ram up start values pc r5 machine)
    (within : values.length < count) (supplied : Supplies (calling target following :: rest) machine) :
    ∃ address after, Completes (.jsr .pc target) machine after ∧
      Framing ram up start (values ++ [following]) address r5 after ∧ Supplies rest after := by
  obtain ⟨⟨fetched, takes, address, located, resolved, kept⟩, onward⟩ := supplied
  obtain ⟨found, lowered, ready⟩ := framing.found takes kept
  have counter : located.processor.registers.get .pc = following := by
    rw [found]
    exact start.get_framed ..
  have looked : Inspected machine.board located.board :=
    takes.inspected.trans (OnlyInspects.resolve .word target fetched located _ resolved)
  obtain ⟨board, answered, pushed, working⟩ := framing.writes dependable room within looked following
  rw [← lowered, ← counter] at answered
  have done := execute_jsr takes.ready resolved answered
  obtain ⟨after, completes, registers, lines, same⟩ := takes.completes done
  refine ⟨address, after, completes, ⟨?_, lines ▸ ready, same ▸ pushed, same ▸ working⟩, onward after completes⟩
  rw [registers, List.length_append, List.length_singleton, ← lower]
  exact Processor.called_framed found address

/-- MOV SP,R5. -/
theorem copy {meets : Machine β → Prop} (framing : Framing ram up start values pc r5 machine)
    (within : values.length ≤ count)
    (supplied : Supplies ((.mov .word ⟨.register, .sp⟩ ⟨.register, .r5⟩, meets) :: rest) machine) :
    ∃ following after, Completes (.mov .word ⟨.register, .sp⟩ ⟨.register, .r5⟩) machine after ∧
      Framing ram up start values following (start.sp - 2 * BitVec.ofNat 16 values.length) after ∧ Supplies rest after := by
  obtain ⟨⟨fetched, takes, _⟩, onward⟩ := supplied
  have found := framing.taken takes
  obtain ⟨pushed, working⟩ := framing.still dependable room within takes.inspected
  obtain ⟨status, done⟩ := execute_copy fetched .sp .r5
  obtain ⟨after, completes, registers, lines, same⟩ := takes.completes done
  refine ⟨pc.even + 2, after, completes, ⟨?_, lines ▸ takes.ready, same ▸ pushed, same ▸ working⟩, onward after completes⟩
  rw [registers]
  change fetched.processor.registers.set .r5 (fetched.processor.registers.get .sp) = _
  rw [found, RegisterFile.framed_setR5, start.get_framed]

/-- RTS R5. It goes where R5 points to, and takes R5 from the stack. -/
theorem leave {meets : Machine β → Prop} (framing : Framing ram up start (values ++ [value]) pc r5 machine)
    (within : values.length < count) (supplied : Supplies ((.rts .r5, meets) :: rest) machine) :
    ∃ after, Completes (.rts .r5) machine after ∧ Framing ram up start values r5 value after ∧ Supplies rest after := by
  obtain ⟨⟨fetched, takes, _⟩, onward⟩ := supplied
  have length : (values ++ [value]).length = values.length + 1 := by rw [List.length_append, List.length_singleton]
  have found := framing.taken takes
  rw [length] at found
  have stackPointer : fetched.processor.sp = start.sp - 2 * BitVec.ofNat 16 (values.length + 1) :=
    (congrArg RegisterFile.sp found).trans (start.get_framed ..)
  obtain ⟨board, answered, looked⟩ :=
    framing.reads dependable room (length ▸ within) takes.inspected List.getElem?_concat_length
  obtain ⟨pushed, working⟩ := framing.still dependable room (length ▸ within) looked
  rw [← stackPointer] at answered
  have done : execute (.rts .r5) fetched = .ok .completed ⟨fetched.processor.returned .r5 value, board⟩ :=
    execute_rts takes.ready answered
  obtain ⟨after, completes, registers, lines, same⟩ := takes.completes done
  refine ⟨after, completes, ⟨?_, lines ▸ takes.ready, same ▸ pushed.older, same ▸ working⟩, onward after completes⟩
  rw [registers, ← raise]
  exact Processor.returned_framed found value

end Framing

/-- The words are pushed, R5 is pointed to the last of them, the callee is called, and returns
through R5. -/
def markedCall (words : List (Operand × Word)) (target : Operand) (following : Word) : List (Stage β) :=
  words.map (fun word => pushing word.1 word.2) ++
    [(.mov .word ⟨.register, .sp⟩ ⟨.register, .r5⟩, fun _ => True), calling target following, (.rts .r5, fun _ => True)]

section

variable {cells readable writable : Word → Prop} {up : β → Prop} {machine : Machine β}
  {words parameters : List (Operand × Word)} {marker target : Operand} {following : Word} {count : BitVec 6}

/-- Until the callee has returned, the stack holds what the caller has pushed. Then the program
counter is where R5 pointed to, at the last word, and R5 is where the caller goes on. -/
theorem Framing.returns {ram : Ram β cells} {pc r5 : Word} {start : RegisterFile}
    (framing : Framing ram up start [] pc r5 machine) (dependable : Dependable β readable writable up)
    (room : StackRoom cells readable writable (words.length + 1) start.sp)
    (supplied : Supplies (markedCall words target following) machine) :
    ∃ after, Runs ((markedCall words target following : List (Stage β)).map (·.1)) machine after ∧
      Framing ram up start (words.map (·.2)) (start.sp - 2 * BitVec.ofNat 16 words.length) following after := by
  have length : (words.map (·.2)).length = words.length := List.length_map _
  obtain ⟨_, stacked, pushes, framing, onward⟩ := framing.pushAll dependable room (by simp) supplied
  rw [List.nil_append] at framing
  obtain ⟨_, copied, copies, framing, onward⟩ := framing.copy dependable room (by omega) onward
  obtain ⟨_, called, calls, framing, onward⟩ := framing.call dependable room (by omega) onward
  obtain ⟨after, leaves, framing, _⟩ := framing.leave dependable room (by omega) onward
  rw [length] at framing
  refine ⟨after, ?_, framing⟩
  have program : (markedCall words target following : List (Stage β)).map (·.1) =
      (words.map fun word => .mov .word word.1 ⟨.autoDecrement, .sp⟩) ++
        [.mov .word ⟨.register, .sp⟩ ⟨.register, .r5⟩, .jsr .pc target, .rts .r5] := by
    rw [markedCall, List.map_append, List.map_map]
    rfl
  rw [program]
  exact pushes.append (.next copies (.next calls (.next leaves (.none after))))

end

/-- A stage for which it has been seen what comes next. -/
theorem Supplies.next {instruction : Instruction} {meets : Machine β → Prop} {rest : List (Stage β)}
    {machine fetched following : Machine β} (taken : Takes instruction machine fetched) (found : meets fetched)
    (reached : ended (instructionCycle machine.processor.cycles machine) = following) (others : Supplies rest following) :
    Supplies ((instruction, meets) :: rest) machine := by
  refine ⟨⟨fetched, taken, found⟩, ?_⟩
  intro after completes
  obtain ⟨_, _, done⟩ := completes
  rw [done] at reached
  rw [show after = following from reached]
  exact others

/-- A call with two parameters, one of them in a register and the other in the program. -/
def passing : Machine FlatBoard :=
  ⟨{ Processor.create { model := .t11 } with
      registers := (((({} : RegisterFile).set .r1 0o222).set .r5 0o5555).setSp 0o30).setPc 0o30 },
    (FlatBoard.load {} 0o30 [0o10546, 0o12746, 0o111, 0o10146, 0o12746, 0o6402, 0o10605, 0o4737, 0o60]).load 0o60 [0o205]⟩

def passed : Nat → Machine FlatBoard
  | 0 => passing
  | steps + 1 => ended (instructionCycle (passed steps).processor.cycles (passed steps))

end Pdp11
