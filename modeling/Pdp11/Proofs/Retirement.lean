import Pdp11.Microcode.InstructionCycle
import Pdp11.Proofs.Contract

/-! How an instruction cycle ends when no cycle failed in it: the only faults that
an instruction retires with are those of its own word. -/

namespace Pdp11

variable {β : Type} [Board β]

def Retirement.Decoded : Retirement → Prop
  | .trapped cause => cause.faultClass = .decode
  | _ => True

/-- How this instruction can retire. Two instructions have a way of their own. -/
def Retirement.Of (instruction : Instruction) : Retirement → Prop
  | .completed => True
  | .waiting => instruction = .control .wait
  | .halting => instruction = .control .halt
  | .trapped cause => cause.faultClass = .decode

theorem Retirement.Of.decoded {instruction : Instruction} {retirement : Retirement} (own : retirement.Of instruction) :
    retirement.Decoded := by
  cases retirement with
  | completed | waiting | halting => trivial
  | trapped cause => exact own

/-- The outcome of a step that was cut short by a failed cycle. -/
def Outcome.CutShort : Outcome → Prop
  | .faulted cause _ => cause.faultClass ≠ .decode
  | .stopped _ => True
  | _ => False

/-- The outcome of a step whose instruction has retired. A fault of its own word is one
way to retire. -/
def Outcome.Retires : Outcome → Prop
  | .retired _ => True
  | .faulted cause _ => cause.faultClass = .decode
  | _ => False

theorem Outcome.Retires.whole {outcome : Outcome} (retires : outcome.Retires) : ¬outcome.CutShort := by
  intro cut
  cases outcome with
  | faulted cause cycles => exact cut retires
  | retired => exact cut
  | interrupted | waiting | stopped | suspended => exact retires

namespace Microcode

open Retirement

theorem trapped_retires {instruction : Instruction} {cause : FaultCode} (decode : cause.faultClass = .decode) :
    Answers (Of instruction) (trapped cause : Microcode β Retirement) :=
  .last fun _ => .pure decode

theorem modifyOperand_retires {instruction : Instruction} (width : Width) (operand : Operand)
    (compute : Word → Bool → AluResult) : Answers (Of instruction) (modifyOperand width operand compute : Microcode β Retirement) :=
  .last fun _ => .last fun _ => .last fun _ => .last fun _ => .pure trivial

theorem executeControl_retires (op : ControlOp) :
    Answers (Of (.control op)) (executeControl op : Microcode β Retirement) := by
  cases op with
  | halt | wait => exact .pure rfl
  | rti | bpt | iot => exact .last fun _ => .pure trivial
  | rtt | reset => exact .last fun _ => .last fun _ => .pure trivial
  | mfpt =>
    refine .last fun processor => ?_
    cases processor.model.processorType? with
    | some kind => exact .last fun _ => .pure trivial
    | none => exact trapped_retires rfl
  | start =>
    refine .last fun processor => ?_
    split
    · exact .last fun _ => .last fun _ => .pure trivial
    · exact trapped_retires rfl

/-- No instruction retires with a bus error: that would have cut it short. -/
theorem execute_retires (instruction : Instruction) :
    Answers (Of instruction) (execute instruction : Microcode β Retirement) := by
  unfold execute
  cases instruction with
  | control op => exact executeControl_retires op
  | jmp target =>
    refine .last fun address => ?_
    cases address with
    | some address => exact .last fun _ => .pure trivial
    | none => exact trapped_retires rfl
  | jsr link target =>
    refine .last fun address => ?_
    cases address with
    | some address => exact .last fun _ => .last fun _ => .last fun _ => .last fun _ => .last fun _ => .pure trivial
    | none => exact trapped_retires rfl
  | rts link => exact .last fun _ => .last fun _ => .last fun _ => .last fun _ => .pure trivial
  | codes set mask => exact .last fun _ => .pure trivial
  | branch condition offset =>
    refine .last fun processor => ?_
    split
    · exact .last fun _ => .last fun _ => .pure trivial
    · exact .pure trivial
  | sob counter offset =>
    refine .last fun _ => .last fun _ => ?_
    split
    · exact .last fun _ => .last fun _ => .pure trivial
    · exact .pure trivial
  | mark count =>
    exact .last fun _ => .last fun _ => .last fun _ => .last fun _ => .last fun _ => .last fun _ => .pure trivial
  | call op code => exact .last fun _ => .pure trivial
  | swab dst => exact .last fun _ => .last fun _ => .last fun _ => .pure trivial
  | sxt dst => exact .last fun _ => .last fun _ => .last fun _ => .last fun _ => .pure trivial
  | mtps src => exact .last fun _ => .last fun _ => .pure trivial
  | mfps dst => exact .last fun _ => .last fun _ => .last fun _ => .last fun _ => .pure trivial
  | clr width dst => exact .last fun _ => .last fun _ => .last fun _ => .pure trivial
  | tst width src => exact .last fun _ => .last fun _ => .pure trivial
  | unary op width dst => exact modifyOperand_retires width dst _
  | mov width src dst =>
    refine .last fun _ => .last fun _ => .last fun _ => ?_
    cases width with
    | word | byte => exact .last fun _ => .pure trivial
  | cmp width src dst | bit width src dst => exact .last fun _ => .last fun _ => .last fun _ => .pure trivial
  | bic width src dst | bis width src dst => exact .last fun _ => modifyOperand_retires width dst _
  | add src dst | sub src dst => exact .last fun _ => modifyOperand_retires .word dst _
  | xor src dst => exact .last fun _ => modifyOperand_retires .word dst _

theorem executeCharged_retires (instruction : Instruction) :
    Answers (Of instruction) (executeCharged instruction : Microcode β Retirement) := by
  refine (execute_retires instruction).bind fun retirement own => ?_
  cases retirement with
  | completed | waiting | halting | trapped cause => exact .last fun _ => .pure own

theorem executeWord_decoded (word : Word) : Answers Decoded (executeWord word : Microcode β Retirement) := by
  unfold executeWord
  cases Instruction.ofWord? word with
  | none =>
    have trapped : Answers Decoded (trapped .reservedInstruction : Microcode β Retirement) := .last fun _ => .pure rfl
    exact trapped.bind fun _ decoded => .last fun _ => .pure decoded
  | some instruction =>
    refine (executeCharged_retires instruction).bind fun retirement own => ?_
    cases retirement with
    | waiting | halting => exact .last fun _ => .pure own.decoded
    | completed | trapped _ => exact .pure own.decoded

theorem instructionCycle_retires (start : UInt64) :
    Answers Outcome.Retires (instructionCycle start : Microcode β Outcome) := by
  refine .last fun _ => .last fun _ => .last fun _ => .last fun word =>
    (executeWord_decoded word).bind fun retirement decoded =>
    .last fun _ => .last fun _ => .last fun _ => .last fun _ => ?_
  cases retirement with
  | completed | waiting | halting => exact .pure trivial
  | trapped cause => exact .pure decoded

theorem instructionCycle_whole (start : UInt64) :
    Answers (fun outcome => ¬outcome.CutShort) (instructionCycle start : Microcode β Outcome) :=
  fun before after outcome done => (instructionCycle_retires start before after outcome done).whole

end Microcode
end Pdp11
