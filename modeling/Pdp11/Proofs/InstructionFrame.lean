import Pdp11.Board.Flat
import Pdp11.Proofs.OperandRules
import Pdp11.Proofs.OperandStage

/-! What an instruction leaves alone. Each instruction has a field of the status word and a set of
registers, and changes nothing outside them. The rules for its parts do not depend on which field
and which registers these are; an instruction puts them together for its own. -/

namespace Pdp11

open Microcode StatusWord

/-- An instruction hands over if it gives the processor another context: it halts, or takes the
context back from the stack or from the shadow. -/
def Instruction.handsOver : Instruction → Bool
  | .control .halt | .control .rti | .control .rtt | .control .start => true
  | _ => false

/-- The trap that an instruction asks for. -/
def Instruction.vector? : Instruction → Option Word
  | .control .bpt => some TrapVector.breakpoint
  | .control .iot => some TrapVector.iot
  | .call op _ => some op.vector
  | _ => none

/-- Carry may change. -/
def Instruction.setsCarry : Instruction → Bool
  | .clr _ _ | .tst _ _ | .add _ _ | .sub _ _ | .cmp _ _ _ | .swab _ | .mtps _ | .codes _ _ => true
  | .unary op _ _ =>
    match op with
    | .com | .neg | .adc | .sbc | .ror | .rol | .asr | .asl => true
    | .inc | .dec => false
  | _ => false

/-- Nothing of the status word changes. -/
def Instruction.keepsStatus : Instruction → Bool
  | .branch _ _ | .jmp _ | .jsr _ _ | .rts _ | .sob _ _ | .mark _ => true
  | .control .wait | .control .reset | .control .mfpt => true
  | _ => false

/-- A byte in a register takes its sign along into the high half. -/
def Instruction.extendsSign : Instruction → Bool
  | .mov .byte _ _ | .mfps _ => true
  | _ => false

/-- The registers that an instruction may change: those that it names, and a few that go without
saying. -/
inductive Instruction.Moves : Instruction → Register → Prop where
  | counter (instruction : Instruction) : Moves instruction .pc
  | source {instruction : Instruction} {operand : Operand} (named : instruction.source? = some operand) :
      Moves instruction operand.register
  | destination {instruction : Instruction} {operand : Operand} (named : instruction.destination? = some operand) :
      Moves instruction operand.register
  | field {instruction : Instruction} {name : Register} (named : instruction.register? = some name) :
      Moves instruction name
  | jsrStack (link : Register) (target : Operand) : Moves (.jsr link target) .sp
  | rtsStack (link : Register) : Moves (.rts link) .sp
  | markStack (count : BitVec 6) : Moves (.mark count) .sp
  | markFrame (count : BitVec 6) : Moves (.mark count) .r5
  | processorType : Moves (.control .mfpt) .r0

/-- The bits of the status word that an instruction may change. -/
def Instruction.statusField : Instruction → Word
  | .codes _ mask => mask.setWidth 16
  | .mtps _ => mtpsMask
  | .swab _ | .clr _ _ | .tst _ _ | .add _ _ | .sub _ _ | .cmp _ _ _ => codeBits
  | .unary op _ _ => if op = .inc ∨ op = .dec then orderBits else codeBits
  | .sxt _ | .mfps _ | .mov _ _ _ | .bit _ _ _ | .bic _ _ _ | .bis _ _ _ | .xor _ _ => orderBits
  | .control _ | .jmp _ | .rts _ | .branch _ _ | .jsr _ _ | .mark _ | .call _ _ | .sob _ _ => 0

/-- Outside the field the status word is the same, and so are the registers that may not move. -/
structure Framed (field : Word) (moves : Register → Prop) (before after : Processor) : Prop where
  status : after.status.SameOutside field before.status
  registers : ∀ name, ¬moves name → after.registers.get name = before.registers.get name

namespace Framed

variable {field : Word} {moves : Register → Prop} {before middle after : Processor}

theorem refl (processor : Processor) : Framed field moves processor processor := ⟨rfl, fun _ _ => rfl⟩

theorem trans (first : Framed field moves before middle) (rest : Framed field moves middle after) :
    Framed field moves before after :=
  ⟨rest.status.trans first.status, fun name kept => (rest.registers name kept).trans (first.registers name kept)⟩

theorem setRegister {name : Register} (may : moves name) (processor : Processor) (value : Word) :
    Framed field moves processor (processor.setRegister name value) := by
  refine ⟨rfl, fun other kept => ?_⟩
  have apart : name ≠ other := fun same => kept (same ▸ may)
  exact (RegisterFile.get_set _ _ _ _).trans (if_neg apart)

end Framed

/-- A register that may move, or a place in memory. -/
def Location.Within (moves : Register → Prop) : Location → Prop
  | .register name => moves name
  | .memory _ => True

variable {β : Type} [Board β]

namespace Microcode

/-- Code that finishes stays in this frame. -/
def Confined (field : Word) (moves : Register → Prop) {α : Type} (code : Microcode β α) : Prop :=
  ∀ before after value, code before = .ok value after → Framed field moves before.processor after.processor

namespace Confined

variable {field : Word} {moves : Register → Prop} {α γ : Type}

omit [Board β] in
theorem pure (value : α) : Confined field moves (pure value : Microcode β α) := by
  intro before after answer done
  cases done
  exact .refl _

omit [Board β] in
theorem bind_of {good : α → Prop} {code : Microcode β α} {next : α → Microcode β γ}
    (first : Confined field moves code) (answers : Answers good code)
    (rest : ∀ value, good value → Confined field moves (next value)) : Confined field moves (code >>= next) := by
  intro before after answer done
  obtain ⟨part, middle, begun, finished⟩ := bind_eq_ok done
  have known : good part := answers before middle part begun
  exact (first before middle part begun).trans (rest part known middle after answer finished)

omit [Board β] in
theorem bind {code : Microcode β α} {next : α → Microcode β γ} (first : Confined field moves code)
    (rest : ∀ value, Confined field moves (next value)) : Confined field moves (code >>= next) :=
  first.bind_of (fun _ _ _ _ => trivial) fun value (_ : True) => rest value

omit [Board β] in
theorem processor : Confined field moves (processor : Microcode β Processor) := by
  intro before after value done
  cases done
  exact .refl _

omit [Board β] in
theorem register (name : Register) : Confined field moves (register name : Microcode β Word) :=
  processor.bind fun _ => .pure _

omit [Board β] in
theorem setRegister {name : Register} (may : moves name) (value : Word) :
    Confined field moves (setRegister name value : Microcode β Unit) := by
  intro before after answer done
  cases done
  exact .setRegister may _ _

omit [Board β] in
theorem cycle (request : β → Except BusError α × β) : Confined field moves (cycle request) := by
  intro before after value done
  rw [(cycle_ok done).2]
  exact .refl _

omit [Board β] in
theorem updateStatus {change : StatusWord → StatusWord}
    (within : ∀ status, SameOutside field (change status) status) :
    Confined field moves (updateStatus change : Microcode β Unit) := by
  intro before after answer done
  cases done
  exact ⟨within _, fun _ _ => rfl⟩

omit [Board β] in
theorem commit (width : Width) {result : AluResult} (codes : result.update.field = field) :
    Confined field moves (commit width result : Microcode β Word) := by
  subst codes
  exact (updateStatus fun _ => CodesUpdate.apply_sameOutside_field ..).bind fun _ => .pure _

theorem sequential : Sequential fun _ code => Confined (β := β) field moves code :=
  ⟨.pure, .bind, .register, fun _ => .cycle _⟩

variable (counter : moves .pc)

include counter

theorem resolve (width : Width) {operand : Operand} (may : moves operand.register) :
    Confined field moves (resolve width operand : Microcode β Location) :=
  sequential.resolve (setRegister counter) width (setRegister may)

theorem readOperand (width : Width) {operand : Operand} (may : moves operand.register) :
    Confined field moves (readOperand width operand : Microcode β (Location × Word)) :=
  sequential.readOperand (setRegister counter) (fun _ => cycle _) width (setRegister may)

theorem jumpTarget? {target : Operand} (may : moves target.register) :
    Confined field moves (jumpTarget? target : Microcode β (Option Word)) :=
  sequential.jumpTarget? (setRegister counter) (setRegister may)

omit counter

theorem store {location : Location} (within : location.Within moves) (width : Width) (value : Word) :
    Confined field moves (store width value location : Microcode β Unit) := by
  refine sequential.store (fun _ _ => cycle _) (fun _ _ => cycle _) width value fun name here => ?_
  subst here
  exact setRegister within

theorem storeSigned {location : Location} (within : location.Within moves) (value : Word) :
    Confined field moves (storeSigned value location : Microcode β Unit) := by
  cases location with
  | register name => exact setRegister within _
  | memory address => exact cycle _

theorem push (stack : moves .sp) (value : Word) : Confined field moves (push value : Microcode β Unit) :=
  (register _).bind fun _ => (setRegister stack _).bind fun _ => cycle _

theorem pop (stack : moves .sp) : Confined field moves (pop : Microcode β Word) :=
  (register _).bind fun _ => (cycle _).bind fun _ => (setRegister stack _).bind fun _ => .pure _

end Confined

theorem resolve_within {moves : Register → Prop} (width : Width) {operand : Operand}
    (may : moves operand.register) :
    Answers (Location.Within moves) (resolve width operand : Microcode β Location) := by
  unfold resolve
  cases operand.mode with
  | register => exact .pure may
  | registerDeferred => exact .last fun _ => .pure trivial
  | autoIncrement | autoDecrement => exact .last fun _ => .last fun _ => .pure trivial
  | autoIncrementDeferred | autoDecrementDeferred => exact .last fun _ => .last fun _ => .last fun _ => .pure trivial
  | index => exact .last fun _ => .last fun _ => .pure trivial
  | indexDeferred => exact .last fun _ => .last fun _ => .last fun _ => .pure trivial

theorem readOperand_within {moves : Register → Prop} (width : Width) {operand : Operand}
    (may : moves operand.register) :
    Answers (fun found => found.1.Within moves) (readOperand width operand : Microcode β (Location × Word)) :=
  (resolve_within width may).bind fun _ within => .last fun _ => .pure within

namespace Confined

variable {field : Word} {moves : Register → Prop} (counter : moves .pc)

include counter

theorem modifyOperand (width : Width) {operand : Operand} (may : moves operand.register)
    {compute : Word → Bool → AluResult}
    (codes : ∀ value carry, (compute value carry).update.field = field) :
    Confined field moves (modifyOperand width operand compute : Microcode β Retirement) :=
  (readOperand counter width may).bind_of (readOperand_within width may) fun _ inside =>
    processor.bind fun _ => (commit width (codes _ _)).bind fun _ => (store inside width _).bind fun _ => .pure _

theorem combineOperands (width : Width) {src dst : Operand} (compute : Word → Word → AluResult)
    (maySrc : moves src.register) (mayDst : moves dst.register)
    (codes : ∀ old value, (compute old value).update.field = field) :
    Confined field moves (combineOperands width src dst compute : Microcode β Retirement) :=
  (readOperand counter width maySrc).bind fun _ => modifyOperand counter width mayDst fun _ _ => codes _ _

theorem compareOperands (width : Width) {src dst : Operand} (compute : Word → Word → AluResult)
    (maySrc : moves src.register) (mayDst : moves dst.register)
    (codes : ∀ first second, (compute first second).update.field = field) :
    Confined field moves (compareOperands width src dst compute : Microcode β Retirement) :=
  (readOperand counter width maySrc).bind fun _ => (readOperand counter width mayDst).bind fun _ =>
    (commit width (codes _ _)).bind fun _ => .pure _

end Confined

theorem compute_field (op : UnaryOp) (width : Width) (value : Word) (carry : Bool) :
    (op.compute width value carry).update.field = if op = .inc ∨ op = .dec then orderBits else codeBits := by
  cases op <;> rfl

/-- A trap that is entered shows in the retirement. -/
theorem trapped_answers (cause : FaultCode) :
    Answers (fun retirement => retirement = .trapped cause) (trapped cause : Microcode β Retirement) :=
  .last fun _ => .pure rfl

theorem executeControl_framed {op : ControlOp} {before after : Machine β} {retirement : Retirement}
    (stays : (Instruction.control op).handsOver = false) (unasked : (Instruction.control op).vector? = none)
    (done : executeControl op before = .ok retirement after) (sound : ∀ cause, retirement ≠ .trapped cause) :
    Framed 0 (Instruction.control op).Moves before.processor after.processor := by
  cases op with
  | halt | rti | rtt | start => cases stays
  | bpt | iot => cases unasked
  | wait =>
    cases done
    exact .refl _
  | reset =>
    cases done
    exact ⟨rfl, fun _ _ => rfl⟩
  | mfpt =>
    obtain ⟨_, _, same, done⟩ := bind_eq_ok done
    cases same
    cases has : before.processor.model.processorType? with
    | some kind =>
      rw [has] at done
      cases done
      exact .setRegister .processorType _ _
    | none =>
      rw [has] at done
      exact absurd (trapped_answers _ _ _ _ done) (sound _)

namespace Confined

variable {instruction : Instruction} {before after : Machine β} {retirement : Retirement}

omit [Board β] in
theorem framed {field : Word} {moves : Register → Prop} {code : Microcode β Retirement}
    (done : code before = .ok retirement after) (confined : Confined field moves code) :
    Framed field moves before.processor after.processor :=
  confined before after retirement done

/-- An instruction stays in its frame, unless it hands over or enters a trap. -/
theorem execute_framed (stays : instruction.handsOver = false) (unasked : instruction.vector? = none)
    (fits : before.processor.status.Fits before.processor.model.implemented)
    (done : execute instruction before = .ok retirement after) (sound : ∀ cause, retirement ≠ .trapped cause) :
    Framed instruction.statusField instruction.Moves before.processor after.processor := by
  have counter := Instruction.Moves.counter instruction
  cases instruction with
  | control op => exact executeControl_framed stays unasked done sound
  | call => cases unasked
  | jmp target =>
    obtain ⟨address, located, found, done⟩ := bind_eq_ok done
    have first : Framed 0 _ _ _ := jumpTarget? counter (.destination rfl) before located address found
    cases address with
    | some address => exact first.trans (framed done ((setRegister counter _).bind fun _ => .pure _))
    | none => exact absurd (trapped_answers _ _ _ _ done) (sound _)
  | jsr link target =>
    obtain ⟨address, located, found, done⟩ := bind_eq_ok done
    have first : Framed 0 _ _ _ := jumpTarget? counter (.destination rfl) before located address found
    cases address with
    | some address =>
      refine first.trans (framed done ?_)
      exact (register _).bind fun _ => (push (.jsrStack link target) _).bind fun _ => (register _).bind fun _ =>
        (setRegister (.field rfl) _).bind fun _ => (setRegister counter _).bind fun _ => .pure _
    | none => exact absurd (trapped_answers _ _ _ _ done) (sound _)
  | rts link =>
    refine framed done ?_
    exact (register _).bind fun _ => (setRegister counter _).bind fun _ => (pop (.rtsStack link)).bind fun _ =>
      (setRegister (.field rfl) _).bind fun _ => .pure _
  | codes set mask =>
    refine framed done ?_
    exact (updateStatus fun status => set_sameOutside BitVec.and_self status set).bind fun _ => .pure _
  | branch condition offset =>
    refine framed done (processor.bind fun processor => ?_)
    split
    · exact (register _).bind fun _ => (setRegister counter _).bind fun _ => .pure _
    · exact .pure _
  | sob name offset =>
    refine framed done ((register _).bind fun _ => (setRegister (.field rfl) _).bind fun _ => ?_)
    split
    · exact (register _).bind fun _ => (setRegister counter _).bind fun _ => .pure _
    · exact .pure _
  | mark count =>
    refine framed done ?_
    exact (register _).bind fun _ => (setRegister (.markStack count) _).bind fun _ => (register _).bind fun _ =>
      (setRegister counter _).bind fun _ => (pop (.markStack count)).bind fun _ =>
      (setRegister (.markFrame count) _).bind fun _ => .pure _
  | swab dst =>
    refine framed done ?_
    exact (readOperand counter .word (.destination rfl)).bind_of
      (readOperand_within .word (.destination rfl)) fun _ inside =>
      (updateStatus fun status => CodesUpdate.apply_sameOutside_field _ .byte _ status).bind fun _ =>
      (store inside .word _).bind fun _ => .pure _
  | sxt dst =>
    have codes (status : StatusWord) (zero : Bool) :
        SameOutside orderBits ((status.set zeroBit zero).set overflowBit false) status :=
      (set_sameOutside (by decide) _ _).trans (set_sameOutside (by decide) status zero)
    refine framed done ?_
    exact processor.bind fun _ =>
      (resolve counter .word (.destination rfl)).bind_of (resolve_within .word (.destination rfl)) fun _ inside =>
      (store inside .word _).bind fun _ => (updateStatus fun status => codes status _).bind fun _ => .pure _
  | mtps src =>
    obtain ⟨value, located, read, done⟩ := bind_eq_ok done
    cases done
    have first : Framed mtpsMask (Instruction.mtps src).Moves before.processor located.processor :=
      readOperand counter .byte (.destination rfl) before located value read
    obtain ⟨registers, moved⟩ := OnlyMoves.readOperand .byte src before located value read
    have written := mtps_sameOutside fits value.2
    refine ⟨?_, first.registers⟩
    simpa only [Machine.update_processor, moved] using! written
  | mfps dst =>
    refine framed done ?_
    exact processor.bind fun _ =>
      (resolve counter .byte (.destination rfl)).bind_of (resolve_within .byte (.destination rfl)) fun _ inside =>
      (commit .byte rfl).bind fun _ => (storeSigned inside _).bind fun _ => .pure _
  | clr width dst =>
    refine framed done ?_
    exact (resolve counter width (.destination rfl)).bind_of (resolve_within width (.destination rfl)) fun _ inside =>
      (commit width rfl).bind fun _ => (store inside width _).bind fun _ => .pure _
  | tst width src =>
    refine framed done ?_
    exact (readOperand counter width (.destination rfl)).bind fun _ => (commit width rfl).bind fun _ => .pure _
  | unary op width dst =>
    exact framed done (modifyOperand counter width (.destination rfl) (compute_field op width))
  | mov width src dst =>
    have may : (Instruction.mov width src dst).Moves dst.register := .destination rfl
    refine framed done ((readOperand counter width (.source rfl)).bind fun _ =>
      (resolve counter width may).bind_of (resolve_within width may) fun _ inside =>
      (commit width rfl).bind fun _ => ?_)
    cases width with
    | word => exact (store inside .word _).bind fun _ => .pure _
    | byte => exact (storeSigned inside _).bind fun _ => .pure _
  | cmp width src dst =>
    exact framed done (compareOperands counter width (Alu.sub width) (.source rfl) (.destination rfl) fun _ _ => rfl)
  | bit width src dst =>
    let both (first second : Word) := Alu.logic width (first &&& second)
    exact framed done (compareOperands counter width both (.source rfl) (.destination rfl) fun _ _ => rfl)
  | bic width src dst =>
    let cleared (old value : Word) := Alu.logic width (old &&& ~~~value)
    exact framed done (combineOperands counter width cleared (.source rfl) (.destination rfl) fun _ _ => rfl)
  | bis width src dst =>
    let either (old value : Word) := Alu.logic width (old ||| value)
    exact framed done (combineOperands counter width either (.source rfl) (.destination rfl) fun _ _ => rfl)
  | add src dst =>
    exact framed done (combineOperands counter .word (Alu.add .word) (.source rfl) (.destination rfl) fun _ _ => rfl)
  | sub src dst =>
    exact framed done (combineOperands counter .word (Alu.sub .word) (.source rfl) (.destination rfl) fun _ _ => rfl)
  | xor src dst =>
    exact framed done ((register _).bind fun _ => modifyOperand counter .word (.destination rfl) fun _ _ => rfl)

end Confined

/-- Code that finishes leaves the high half of this register alone. -/
def KeepsHighByte (name : Register) {α : Type} (code : Microcode β α) : Prop :=
  ∀ before after value, code before = .ok value after →
    (after.processor.registers.get name).high = (before.processor.registers.get name).high

section

variable {name : Register} {before middle after : Machine β} {located : Located} {rest : Microcode β Retirement}

theorem modifyAt_keepsHighByte (name : Register) (compute : Word → Bool → AluResult) :
    KeepsHighByte name (modifyAt .byte compute (.register name) : Microcode β Retirement) := by
  intro before after retirement done
  cases done
  exact RegisterFile.high_setByte _ _ _

theorem compareAt_keepsHighByte (name : Register) (compute : Word → AluResult) :
    KeepsHighByte name (compareAt .byte compute (.register name) : Microcode β Retirement) := by
  intro before after retirement done
  cases done
  rfl

theorem locateDestination_register {width : Width} {next : Location → Microcode β Retirement}
    (staged : locateDestination width ⟨.register, name⟩ next before = .ok (located, rest) middle) :
    located.destination = some (.register name) ∧ rest = next (.register name) := by
  cases staged
  exact ⟨rfl, rfl⟩

theorem locateBoth_register {width : Width} {src : Operand} {next : Word → Location → Microcode β Retirement}
    (staged : locateBoth width src ⟨.register, name⟩ next before = .ok (located, rest) middle) :
    located.destination = some (.register name) ∧ ∃ value, rest = next value (.register name) := by
  obtain ⟨⟨first, value⟩, read, _, staged⟩ := bind_eq_ok staged
  cases staged
  exact ⟨rfl, value, rfl⟩

/-- A byte instruction that does not extend the sign stores no more than a byte in a register. -/
theorem operandStage_keepsHighByte {instruction : Instruction} (byte : instruction.opcode.width = .byte)
    (plain : instruction.extendsSign = false) (stores : instruction.destination? = some ⟨.register, name⟩)
    (staged : operandStage instruction before = .ok (located, rest) middle) :
    located.destination = some (.register name) ∧ KeepsHighByte name rest := by
  cases instruction with
  | control | rts | codes | branch | sob | mark | call => cases stores
  | jmp | jsr | swab | sxt | add | sub | xor => cases byte
  | mfps => cases plain
  | mtps src =>
    cases stores
    obtain ⟨found, rfl⟩ := locateDestination_register staged
    refine ⟨found, fun before after retirement done => ?_⟩
    cases done
    rfl
  | clr width dst =>
    cases byte
    cases stores
    obtain ⟨found, rfl⟩ := locateDestination_register staged
    refine ⟨found, fun before after retirement done => ?_⟩
    cases done
    exact RegisterFile.high_setByte _ _ _
  | tst width src =>
    cases byte
    cases stores
    obtain ⟨found, rfl⟩ := locateDestination_register staged
    exact ⟨found, compareAt_keepsHighByte _ _⟩
  | unary op width dst =>
    cases byte
    cases stores
    obtain ⟨found, rfl⟩ := locateDestination_register staged
    exact ⟨found, modifyAt_keepsHighByte _ _⟩
  | mov width =>
    cases byte
    cases plain
  | cmp width src dst | bit width src dst =>
    cases byte
    cases stores
    rw [operandStage] at staged
    obtain ⟨found, value, rfl⟩ := locateBoth_register staged
    exact ⟨found, compareAt_keepsHighByte _ _⟩
  | bic width src dst | bis width src dst =>
    cases byte
    cases stores
    rw [operandStage] at staged
    obtain ⟨found, value, rfl⟩ := locateBoth_register staged
    exact ⟨found, modifyAt_keepsHighByte _ _⟩

end

end Microcode

namespace Instruction

/-- The field of an instruction lies within a mask that has the codes it sets. -/
theorem statusField_within (instruction : Instruction) {mask : Word} (order : orderBits &&& mask = orderBits)
    (codes : instruction.setsCarry = true → codeBits &&& mask = codeBits)
    (priority : (∃ src, instruction = .mtps src) → mtpsMask &&& mask = mtpsMask) :
    instruction.statusField &&& mask = instruction.statusField := by
  cases instruction with
  | control | jmp | rts | branch | jsr | mark | call | sob => exact BitVec.zero_and
  | sxt | mfps | mov | bit | bic | bis | xor => exact order
  | swab | clr | tst | add | sub | cmp => exact codes rfl
  | mtps src => exact priority ⟨src, rfl⟩
  | codes set field =>
    have within : ∀ field : BitVec 4, field.setWidth 16 &&& codeBits = field.setWidth 16 := by decide
    change field.setWidth 16 &&& mask = field.setWidth 16
    rw [← within field, BitVec.and_assoc, codes rfl]
  | unary op =>
    cases op with
    | inc | dec => exact order
    | com | neg | adc | sbc | ror | rol | asr | asl => exact codes rfl

theorem statusField_eq_zero {instruction : Instruction} (kept : instruction.keepsStatus = true) :
    instruction.statusField = 0 := by
  cases instruction with
  | branch | jmp | jsr | rts | sob | mark | control => rfl
  | _ => cases kept

end Instruction

/-- What an instruction leaves alone, of the status word and of the registers. -/
structure InstructionFrame (instruction : Instruction) (before after : Machine β) : Prop where
  trace : after.processor.status.trace = before.processor.status.trace
  haltMode : after.processor.status.haltMode = before.processor.status.haltMode
  priority : (∀ src, instruction ≠ .mtps src) → after.processor.status.priority = before.processor.status.priority
  carry : instruction.setsCarry = false → after.processor.status.carry = before.processor.status.carry
  status : instruction.keepsStatus = true → after.processor.status = before.processor.status
  registers : ∀ name, ¬instruction.Moves name →
    after.processor.registers.get name = before.processor.registers.get name
  /-- A byte goes to the low half of a register. The high half is what it was when the operands
  were located. -/
  highByte : instruction.opcode.width = .byte → instruction.extendsSign = false →
    ∀ name, instruction.destination? = some ⟨.register, name⟩ →
      ∃ located rest middle retirement, operandStage instruction before = .ok (located, rest) middle ∧
        located.destination = some (.register name) ∧ rest middle = .ok retirement after ∧
        (after.processor.registers.get name).high = (middle.processor.registers.get name).high

/-- An instruction that finishes changes no more than its frame: the trace bit, the HALT mode bit
and the priority stay, carry and the other codes change with the instructions that set them, and
of the registers only those move that the instruction names or implies. -/
theorem instruction_frame {instruction : Instruction} {before after : Machine β} {retirement : Retirement}
    (stays : instruction.handsOver = false) (unasked : instruction.vector? = none)
    (fits : before.processor.status.Fits before.processor.model.implemented)
    (done : execute instruction before = .ok retirement after) (sound : ∀ cause, retirement ≠ .trapped cause) :
    InstructionFrame instruction before after := by
  have frame := Confined.execute_framed stays unasked fits done sound
  have writable : SameOutside mtpsMask after.processor.status before.processor.status :=
    frame.status.mono (instruction.statusField_within (by decide) (fun _ => by decide) fun _ => by decide)
  exact {
    trace := writable.isSet (by decide)
    haltMode := writable.isSet (by decide)
    priority := fun other =>
      have codes := frame.status.mono (instruction.statusField_within (by decide) (fun _ => by decide)
        fun ⟨src, same⟩ => absurd same (other src))
      codes.priority (by decide : priorityMask &&& codeBits = 0)
    carry := by
      intro kept
      have unwritten : ¬∃ src, instruction = .mtps src := by
        rintro ⟨src, rfl⟩
        cases kept
      have order : SameOutside orderBits after.processor.status before.processor.status :=
        frame.status.mono (instruction.statusField_within BitVec.and_self
          (fun sets => absurd sets (kept ▸ Bool.false_ne_true)) fun writes => absurd writes unwritten)
      exact order.isSet (by decide)
    status := fun kept => (instruction.statusField_eq_zero kept ▸ frame.status).eq
    registers := frame.registers
    highByte := by
      intro byte plain name stores
      rw [execute_eq_stages] at done
      obtain ⟨⟨located, rest⟩, middle, staged, finished⟩ := bind_eq_ok done
      obtain ⟨found, keeps⟩ := operandStage_keepsHighByte byte plain stores staged
      exact ⟨located, rest, middle, retirement, staged, found, finished, keeps middle after retirement finished⟩ }

/-- A register that points at the last byte of a page, under a status word that lacks only the codes
for sign, zero and overflow. -/
def merging : Machine FlatBoard :=
  let processor := (Processor.create { model := .vm2 }).setRegister .r1 0o1377
  ⟨{ processor with status := ⟨0o761⟩ }, FlatBoard.load {} 0o1376 [0o100000]⟩

/-- The source moves the register on to the next page, and that page is what the byte leaves. -/
theorem instruction_frame_merging :
    let merge := Instruction.bis .byte ⟨.autoIncrement, .r1⟩ ⟨.register, .r1⟩
    ∃ after, execute merge merging = .ok .completed after ∧ InstructionFrame merge merging after ∧
      after.processor.registers.get .r1 = 0o1600 ∧ after.processor.status = ⟨0o771⟩ := by
  intro merge
  have done : execute merge merging = .ok .completed _ := eq_ok_of_answer (by decide +kernel)
  refine ⟨_, done, ?_, by decide +kernel, by decide +kernel⟩
  exact instruction_frame rfl rfl (by decide) done fun _ => Retirement.noConfusion

end Pdp11
