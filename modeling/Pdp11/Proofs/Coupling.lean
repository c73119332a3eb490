import Pdp11.Proofs.Contract
import Pdp11.Proofs.MachineState
import Pdp11.Proofs.OperandRules
import Pdp11.Proofs.StatusBits

/-! Two machines at the same work. What a relation between them has to survive is said once,
for the few things that instructions do; that it survives every instruction is then proved
once for all relations. -/

namespace Pdp11

section

variable {ε σ α γ δ ζ : Type}

/-- Two runs end alike: both finish, or both break off. -/
inductive Together (finished : α → γ → σ → σ → Prop) (broken : ε → ε → σ → σ → Prop) :
    EStateM.Result ε σ α → EStateM.Result ε σ γ → Prop where
  | ok {one : α} {other : γ} {left right : σ} (holds : finished one other left right) :
      Together finished broken (.ok one left) (.ok other right)
  | error {one other : ε} {left right : σ} (holds : broken one other left right) :
      Together finished broken (.error one left) (.error other right)

theorem Together.ended {finished : α → γ → σ → σ → Prop} {broken : ε → ε → σ → σ → Prop}
    {one : EStateM.Result ε σ α} {other : EStateM.Result ε σ γ} (together : Together finished broken one other) :
    (∃ value answer left right, one = .ok value left ∧ other = .ok answer right ∧
        finished value answer left right) ∨
      ∃ failure abort left right, one = .error failure left ∧ other = .error abort right ∧
        broken failure abort left right := by
  cases together with
  | ok holds => exact .inl ⟨_, _, _, _, rfl, rfl, holds⟩
  | error holds => exact .inr ⟨_, _, _, _, rfl, rfl, holds⟩

/-- Two programs, started from related states, end alike. -/
def Couples (start : σ → σ → Prop) (first : EStateM ε σ α) (second : EStateM ε σ γ)
    (finished : α → γ → σ → σ → Prop) (broken : ε → ε → σ → σ → Prop) : Prop :=
  ∀ left right, start left right → Together finished broken (first left) (second right)

namespace Couples

variable {start : σ → σ → Prop} {first : EStateM ε σ α} {second : EStateM ε σ γ}
  {finished : α → γ → σ → σ → Prop} {broken : ε → ε → σ → σ → Prop}

theorem pure {one : α} {other : γ} (implies : ∀ left right, start left right → finished one other left right) :
    Couples start (pure one) (pure other) finished broken :=
  fun left right related => .ok (implies left right related)

theorem modify {change other : σ → σ} {finished : PUnit → PUnit → σ → σ → Prop}
    (implies : ∀ left right, start left right → finished ⟨⟩ ⟨⟩ (change left) (other right)) :
    Couples start (modify change : EStateM ε σ PUnit) (modify other) finished broken :=
  fun left right related => .ok (implies left right related)

theorem bind {middle : α → γ → σ → σ → Prop} {next : α → EStateM ε σ δ} {later : γ → EStateM ε σ ζ}
    {finished : δ → ζ → σ → σ → Prop} (begun : Couples start first second middle broken)
    (rest : ∀ one other, Couples (middle one other) (next one) (later other) finished broken) :
    Couples start (first >>= next) (second >>= later) finished broken := by
  intro left right related
  have reached := begun left right related
  simp only [Bind.bind, EStateM.bind]
  generalize first left = result at reached ⊢
  generalize second right = answer at reached ⊢
  cases reached with
  | ok holds => exact rest _ _ _ _ holds
  | error holds => exact .error holds

end Couples

end

variable {β α γ : Type} {before middle after lost : Machine β → Machine β → Prop}

/-- Both machines answer the same here, and then `after` relates them; or a cycle fails in
both, and `lost` does. -/
def InStep (before after lost : Machine β → Machine β → Prop) (code : Microcode β α) : Prop :=
  Couples before code code (fun one other left right => one = other ∧ after left right)
    fun one other left right => (one = .failedCycle ∧ other = .failedCycle) ∧ lost left right

namespace InStep

theorem pure {value : α} (entails : ∀ {left right}, before left right → after left right) :
    InStep before after lost (pure value : Microcode β α) :=
  Couples.pure fun _ _ related => ⟨rfl, entails related⟩

theorem modify {change : Machine β → Machine β}
    (entails : ∀ {left right}, before left right → after (change left) (change right)) :
    InStep before after lost (modify change : Microcode β PUnit) :=
  Couples.modify fun _ _ related => ⟨rfl, entails related⟩

theorem bind {code : Microcode β α} {next : α → Microcode β γ} (first : InStep before middle lost code)
    (rest : ∀ value, InStep middle after lost (next value)) : InStep before after lost (code >>= next) := by
  refine Couples.bind first fun one other => ?_
  rintro left right ⟨rfl, related⟩
  exact rest one left right related

theorem bind_of {good : α → Prop} {code : Microcode β α} {next : α → Microcode β γ}
    (first : InStep before middle lost code) (answers : Answers good code)
    (rest : ∀ value, good value → InStep middle after lost (next value)) : InStep before after lost (code >>= next) := by
  intro left right related
  have reached := first left right related
  simp only [Bind.bind, EStateM.bind]
  cases result : code left with
  | ok value reachedLeft =>
    have known := answers left reachedLeft value result
    rw [result] at reached
    generalize code right = answer at reached ⊢
    cases reached with
    | ok holds =>
      obtain ⟨rfl, related⟩ := holds
      exact rest value known _ _ related
  | error abort reachedLeft =>
    rw [result] at reached
    generalize code right = answer at reached ⊢
    cases reached with
    | error holds => exact .error holds

/-- Code may look at the processor, as far as both machines show it the same registers and
the same status word. -/
theorem read {next : Processor → Microcode β γ}
    (seen : ∀ {left right : Machine β}, before left right → left.processor.registers = right.processor.registers ∧
      left.processor.status = right.processor.status)
    (rest : ∀ one other : Processor, one.registers = other.registers → one.status = other.status →
      Couples before (next one) (next other) (fun one other left right => one = other ∧ after left right)
        fun one other left right => (one = .failedCycle ∧ other = .failedCycle) ∧ lost left right) :
    InStep before after lost (Microcode.processor >>= next) := by
  intro left right related
  obtain ⟨registers, status⟩ := seen related
  exact rest left.processor right.processor registers status left right related

end InStep

/-- A machine beside itself. -/
def Beside (holds : Machine β → Prop) (left right : Machine β) : Prop := left = right ∧ holds left

/-- What holds of a machine beside itself is said of the machine alone. -/
theorem InStep.ensures {pre post broken : Machine β → Prop} {code : Microcode β α}
    (inStep : InStep (Beside pre) (Beside post) (Beside broken) code) :
    Ensures pre code (fun _ => post) (fun _ => broken) := by
  intro machine holds
  have together := inStep machine machine ⟨rfl, holds⟩
  cases result : code machine with
  | ok value after =>
    rw [result] at together
    cases together with
    | ok ended => exact ended.2.2
  | error abort after =>
    rw [result] at together
    cases together with
    | error ended => exact ended.2.2

/-- The end of a trap entry, behind its last cycle. -/
def Machine.intoTrap [Board β] (machine : Machine β) (bits vector interrupted : Word) : Machine β :=
  ((machine.installStatus bits).update fun processor => { processor.wake with tracePending := false }).update
    (·.emit (.trapTaken vector interrupted))

/-- What a relation between two machines has to survive: `inside` while an instruction is
under way, `outside` from where a status word has been taken from memory. -/
structure Coupling [Board β] (inside outside : Machine β → Machine β → Prop) : Prop where
  registers : ∀ {left right}, inside left right → left.processor.registers = right.processor.registers
  status : ∀ {left right}, inside left right → left.processor.status = right.processor.status
  move : ∀ {left right} (change : RegisterFile → RegisterFile), inside left right →
    inside (left.update fun processor => { processor with registers := change processor.registers })
      (right.update fun processor => { processor with registers := change processor.registers })
  codes : ∀ {left right} {change : StatusWord → StatusWord}, (∀ status, (change status).SameOutside codeBits status) →
    inside left right →
    inside (left.update fun processor => { processor with status := change processor.status })
      (right.update fun processor => { processor with status := change processor.status })
  priority : ∀ {left right} (value : Word), inside left right →
    let change (processor : Processor) : Processor :=
      { processor with
        status := StatusWord.masked ⟨(processor.status.bits &&& ~~~mtpsMask) ||| (value &&& mtpsMask)⟩
          processor.model.implemented }
    inside (left.update change) (right.update change)
  cycle : ∀ {α : Type} (request : β → Except BusError α × β), InStep inside inside inside (Microcode.cycle request)
  pulse : ∀ {left right}, inside left right →
    inside ⟨{ left.processor with lines := left.processor.lines.clearEvent }, Board.resetDevices left.board⟩
      ⟨{ right.processor with lines := right.processor.lines.clearEvent }, Board.resetDevices right.board⟩
  leave : ∀ {left right}, inside left right → outside left right
  install : ∀ {left right} (bits : Word), inside left right → outside (left.installStatus bits) (right.installStatus bits)
  trap : ∀ {left right} (bits vector interrupted : Word), inside left right →
    outside (left.intoTrap bits vector interrupted) (right.intoTrap bits vector interrupted)
  inhibit : ∀ {left right}, outside left right →
    outside (left.update ({ · with traceInhibited := true })) (right.update ({ · with traceInhibited := true }))

/-- Both put a fault of an instruction on record alike. They have to agree for this on
where the instruction began, which nothing else asks for. -/
def FaultsAlike (inside : Machine β → Machine β → Prop) : Prop :=
  ∀ left right (code : FaultCode), code.faultClass = .decode → inside left right →
    inside (left.update fun processor => processor.recordFault code processor.previousPc)
      (right.update fun processor => processor.recordFault code processor.previousPc)

namespace Coupling

open Microcode

variable [Board β] {inside outside : Machine β → Machine β → Prop} (coupling : Coupling inside outside)

include coupling

theorem seen {left right : Machine β} (related : inside left right) :
    left.processor.registers = right.processor.registers ∧ left.processor.status = right.processor.status :=
  ⟨coupling.registers related, coupling.status related⟩

theorem register (name : Register) : InStep inside inside inside (register name : Microcode β Word) := by
  refine .read coupling.seen fun one other registers _ => ?_
  rw [registers]
  exact .pure fun _ _ related => ⟨rfl, related⟩

theorem setRegister (name : Register) (value : Word) :
    InStep inside inside inside (setRegister name value : Microcode β Unit) :=
  .modify (coupling.move (·.set name value))

theorem setPc (value : Word) : InStep inside inside inside (setPc value : Microcode β Unit) :=
  coupling.setRegister .pc value

theorem sequential : Sequential fun _ code => InStep (β := β) inside inside inside code :=
  ⟨fun _ => .pure id, .bind, coupling.register, fun _ => coupling.cycle _⟩

theorem fetchWord : InStep inside inside inside (fetchWord : Microcode β Word) :=
  coupling.sequential.fetchWord coupling.setPc

theorem push (value : Word) : InStep inside inside inside (push value : Microcode β Unit) :=
  (coupling.register _).bind fun _ => (coupling.setRegister _ _).bind fun _ => coupling.cycle _

theorem pop : InStep inside inside inside (pop : Microcode β Word) :=
  (coupling.register _).bind fun _ => (coupling.cycle _).bind fun _ => (coupling.setRegister _ _).bind fun _ => .pure id

theorem resolve (width : Width) (operand : Operand) :
    InStep inside inside inside (resolve width operand : Microcode β Location) :=
  coupling.sequential.resolve coupling.setPc width (coupling.setRegister _)

theorem store (width : Width) (value : Word) (location : Location) :
    InStep inside inside inside (store width value location : Microcode β Unit) :=
  coupling.sequential.store (fun _ _ => coupling.cycle _) (fun _ _ => coupling.cycle _) width value
    fun name _ => coupling.setRegister name

theorem readOperand (width : Width) (operand : Operand) :
    InStep inside inside inside (readOperand width operand : Microcode β (Location × Word)) :=
  coupling.sequential.readOperand coupling.setPc (fun _ => coupling.cycle _) width (coupling.setRegister _)

theorem jumpTarget? (operand : Operand) : InStep inside inside inside (jumpTarget? operand : Microcode β (Option Word)) :=
  coupling.sequential.jumpTarget? coupling.setPc (coupling.setRegister _)

theorem updateCodes {change : StatusWord → StatusWord} (kept : ∀ status, (change status).SameOutside codeBits status) :
    InStep inside inside inside (updateStatus change : Microcode β Unit) :=
  .modify (coupling.codes kept)

theorem commit (width : Width) (result : AluResult) : InStep inside inside inside (commit width result : Microcode β Word) :=
  (coupling.updateCodes fun status => result.update.apply_sameOutside width result.value status).bind fun _ => .pure id

theorem storeSigned (value : Word) (location : Location) :
    InStep inside inside inside (storeSigned value location : Microcode β Unit) := by
  cases location with
  | register name => exact coupling.setRegister name _
  | memory address => exact coupling.cycle _

/-- An instruction that takes no status word from memory ends where it began. -/
theorem completed {retirement : Retirement} : InStep inside outside inside (pure retirement : Microcode β Retirement) :=
  .pure coupling.leave

theorem modifyOperand (width : Width) (operand : Operand) (compute : Word → Bool → AluResult) :
    InStep inside outside inside (modifyOperand width operand compute : Microcode β Retirement) := by
  refine (coupling.readOperand width operand).bind fun _ => .read coupling.seen fun one other _ status => ?_
  rw [status]
  exact (coupling.commit width _).bind fun _ => (coupling.store width _ _).bind fun _ => coupling.completed

theorem combineOperands (width : Width) (src dst : Operand) (compute : Word → Word → AluResult) :
    InStep inside outside inside (combineOperands width src dst compute : Microcode β Retirement) :=
  (coupling.readOperand width src).bind fun _ => coupling.modifyOperand width dst _

theorem compareOperands (width : Width) (src dst : Operand) (compute : Word → Word → AluResult) :
    InStep inside outside inside (compareOperands width src dst compute : Microcode β Retirement) :=
  (coupling.readOperand width src).bind fun _ => (coupling.readOperand width dst).bind fun _ =>
    (coupling.commit width _).bind fun _ => coupling.completed

/-- The status word comes last: no cycle is left that could fail behind it. -/
theorem enterTrap {vector : Word} (aligned : vector &&& 3 = 0) :
    InStep inside outside inside (enterTrap vector : Microcode β Unit) := by
  unfold Microcode.enterTrap
  rw [if_neg (by rw [aligned]; decide)]
  refine (coupling.cycle _).bind fun _ => (coupling.cycle _).bind fun newStatus =>
    .read coupling.seen fun one other registers status => ?_
  have same : one.context = other.context := by
    simp only [Processor.context, Processor.pc, registers, status]
  have finished (interrupted : Word) : InStep inside outside inside (do
      Microcode.installStatus newStatus
      Microcode.update fun processor => { processor.wake with tracePending := false }
      Microcode.emit (.trapTaken vector interrupted) : Microcode β Unit) := .modify (coupling.trap newStatus vector interrupted)
  rw [same]
  exact (coupling.push _).bind fun _ => (coupling.push _).bind fun _ => (coupling.setPc _).bind fun _ => finished _

theorem trapped (alike : FaultsAlike inside) {cause : FaultCode} (decode : cause.faultClass = .decode) :
    InStep inside outside inside (trapped cause : Microcode β Retirement) := by
  have noted : InStep inside inside inside
      (Microcode.update (fun processor => processor.recordFault cause processor.previousPc) : Microcode β Unit) :=
    .modify (alike _ _ cause decode)
  have faulted : InStep inside outside inside (faultTrap cause : Microcode β Unit) := by
    refine noted.bind fun _ => ?_
    cases cause with
    | illegalInstruction | reservedInstruction => exact coupling.enterTrap (by decide)
    | busError | doubleFault => cases decode
  exact faulted.bind fun _ => .pure id

theorem softwareTrap {vector : Word} (aligned : vector &&& 3 = 0) :
    InStep inside outside inside (softwareTrap vector : Microcode β Retirement) :=
  (coupling.enterTrap aligned).bind fun _ => .pure id

theorem returnFromTrap : InStep inside outside inside (returnFromTrap : Microcode β Unit) :=
  coupling.pop.bind fun _ => coupling.pop.bind fun status => (coupling.setPc _).bind fun _ =>
    .modify (coupling.install status)

/-- The two instructions left out ask which processor it is. -/
theorem executeControl {op : ControlOp} (type : op ≠ .mfpt) (start : op ≠ .start) :
    InStep inside outside inside (executeControl op : Microcode β Retirement) := by
  cases op with
  | halt | wait => exact coupling.completed
  | rti => exact coupling.returnFromTrap.bind fun _ => .pure id
  | bpt | iot => exact coupling.softwareTrap (by decide)
  | reset =>
    have pulsed : InStep inside inside inside (do
        consult fun board => ((), Board.resetDevices board)
        Microcode.update fun processor => { processor with lines := processor.lines.clearEvent } : Microcode β Unit) :=
      .modify coupling.pulse
    exact pulsed.bind fun _ => coupling.completed
  | rtt =>
    exact coupling.returnFromTrap.bind fun _ => InStep.bind (.modify coupling.inhibit) fun _ => .pure id
  | mfpt => exact absurd rfl type
  | start => exact absurd rfl start

theorem execute (alike : FaultsAlike inside) {instruction : Instruction} (type : instruction ≠ .control .mfpt)
    (start : instruction ≠ .control .start) :
    InStep inside outside inside (execute instruction : Microcode β Retirement) := by
  unfold Microcode.execute
  cases instruction with
  | control op => exact coupling.executeControl (fun same => type (same ▸ rfl)) fun same => start (same ▸ rfl)
  | jmp target =>
    refine (coupling.jumpTarget? target).bind fun address => ?_
    cases address with
    | some address => exact (coupling.setPc address).bind fun _ => coupling.completed
    | none => exact coupling.trapped alike rfl
  | jsr link target =>
    refine (coupling.jumpTarget? target).bind fun address => ?_
    cases address with
    | some address =>
      exact (coupling.register _).bind fun _ => (coupling.push _).bind fun _ => (coupling.register _).bind fun _ =>
        (coupling.setRegister _ _).bind fun _ => (coupling.setPc address).bind fun _ => coupling.completed
    | none => exact coupling.trapped alike rfl
  | rts link =>
    exact (coupling.register _).bind fun _ => (coupling.setPc _).bind fun _ => coupling.pop.bind fun _ =>
      (coupling.setRegister _ _).bind fun _ => coupling.completed
  | codes set mask =>
    have within : ∀ mask : BitVec 4, mask.setWidth 16 &&& codeBits = mask.setWidth 16 := by decide
    exact (coupling.updateCodes fun status => StatusWord.set_sameOutside (within mask) status set).bind
      fun _ => coupling.completed
  | branch condition offset =>
    refine .read coupling.seen fun one other _ status => ?_
    rw [status]
    split
    · exact (coupling.register _).bind fun _ => (coupling.setPc _).bind fun _ => coupling.completed
    · exact coupling.completed
  | sob counter offset =>
    refine (coupling.register _).bind fun _ => (coupling.setRegister _ _).bind fun _ => ?_
    split
    · exact (coupling.register _).bind fun _ => (coupling.setPc _).bind fun _ => coupling.completed
    · exact coupling.completed
  | mark count =>
    exact (coupling.register _).bind fun _ => (coupling.setRegister _ _).bind fun _ =>
      (coupling.register _).bind fun _ => (coupling.setPc _).bind fun _ => coupling.pop.bind fun _ =>
      (coupling.setRegister _ _).bind fun _ => coupling.completed
  | call op code =>
    cases op with
    | emt | trap => exact coupling.softwareTrap (by decide)
  | swab dst =>
    exact (coupling.readOperand .word dst).bind fun _ =>
      (coupling.updateCodes fun status => CodesUpdate.apply_sameOutside _ .byte _ status).bind
        fun _ => (coupling.store .word _ _).bind fun _ => coupling.completed
  | sxt dst =>
    have coded (negative : Bool) : InStep inside inside inside (updateStatus fun status =>
        (status.set StatusWord.zeroBit !negative).set StatusWord.overflowBit false : Microcode β Unit) :=
      coupling.updateCodes fun status => (StatusWord.set_sameOutside (by decide) _ _).trans
        (StatusWord.set_sameOutside (by decide) _ _)
    refine .read coupling.seen fun one other _ status => ?_
    rw [status]
    exact (coupling.resolve .word dst).bind fun _ => (coupling.store .word _ _).bind fun _ =>
      (coded _).bind fun _ => coupling.completed
  | mtps src =>
    have written (value : Word) : InStep inside inside inside (update fun processor =>
        let bits := (processor.status.bits &&& ~~~mtpsMask) ||| (value &&& mtpsMask)
        { processor with status := StatusWord.masked ⟨bits⟩ processor.model.implemented } :
          Microcode β Unit) :=
      .modify (coupling.priority value)
    exact (coupling.readOperand .byte src).bind fun _ => (written _).bind fun _ => coupling.completed
  | mfps dst =>
    refine .read coupling.seen fun one other _ status => ?_
    rw [status]
    exact (coupling.resolve .byte dst).bind fun _ => (coupling.commit .byte _).bind fun _ =>
      (coupling.storeSigned _ _).bind fun _ => coupling.completed
  | clr width dst =>
    exact (coupling.resolve width dst).bind fun _ => (coupling.commit width _).bind fun _ =>
      (coupling.store width _ _).bind fun _ => coupling.completed
  | tst width src =>
    exact (coupling.readOperand width src).bind fun _ => (coupling.commit width _).bind fun _ => coupling.completed
  | unary op width dst => exact coupling.modifyOperand width dst _
  | mov width src dst =>
    cases width with
    | word =>
      exact (coupling.readOperand .word src).bind fun _ => (coupling.resolve .word dst).bind fun _ =>
        (coupling.commit .word _).bind fun _ => (coupling.store .word _ _).bind fun _ => coupling.completed
    | byte =>
      exact (coupling.readOperand .byte src).bind fun _ => (coupling.resolve .byte dst).bind fun _ =>
        (coupling.commit .byte _).bind fun _ => (coupling.storeSigned _ _).bind fun _ => coupling.completed
  | cmp width src dst | bit width src dst => exact coupling.compareOperands width src dst _
  | bic width src dst | bis width src dst => exact coupling.combineOperands width src dst _
  | add src dst | sub src dst => exact coupling.combineOperands .word src dst _
  | xor src dst => exact (coupling.register _).bind fun _ => coupling.modifyOperand .word dst _

omit coupling in
/-- On one machine alone it does not matter what an instruction asks about its processor. -/
theorem execute_ensures {inside outside : Machine β → Prop} (coupling : Coupling (Beside inside) (Beside outside))
    (alike : FaultsAlike (Beside inside)) (instruction : Instruction) :
    Ensures inside (Microcode.execute instruction) (fun _ => outside) (fun _ => inside) := by
  have asking : Ensures inside (Microcode.processor : Microcode β Processor) (fun _ => inside) (fun _ => inside) :=
    fun _ holds => holds
  have leaving : Ensures inside (pure .completed : Microcode β Retirement) (fun _ => outside) (fun _ => inside) :=
    coupling.completed.ensures
  by_cases type : instruction = .control .mfpt
  · subst type
    refine asking.bind fun processor => ?_
    cases processor.model.processorType? with
    | some kind => exact (coupling.setRegister .r0 kind).ensures.bind fun _ => leaving
    | none => exact (coupling.trapped alike rfl).ensures
  by_cases start : instruction = .control .start
  · subst start
    refine asking.bind fun processor => ?_
    split
    · exact (coupling.setPc _).ensures.bind fun _ => InStep.ensures (.bind (.modify (coupling.install _)) fun _ => .pure id)
    · exact (coupling.trapped alike rfl).ensures
  · exact (coupling.execute alike type start).ensures

end Coupling

end Pdp11
