import Pdp11.Proofs.Actions
import Pdp11.Proofs.OperandRules

/-! The routines above single cycles as successions of actions: operands, the
execution of every instruction, HALT mode, the arbiter and the instruction cycle.
Execution alone never enters HALT mode. -/

namespace Pdp11

/-- Code of this scope may do what only this instruction does. -/
structure Scope.Executes (allowed : Scope) (instruction : Instruction) : Prop where
  inhibits : instruction = .control .rtt → allowed .inhibit
  resets : instruction = .control .reset → allowed .resetDevices ∧ allowed .lines

theorem Scope.any_executes (instruction : Instruction) : any.Executes instruction :=
  ⟨fun _ => trivial, fun _ => ⟨trivial, trivial⟩⟩

namespace Microcode

variable {β : Type} [Board β] {allowed : Scope}

theorem acts_sequential : Sequential fun _ code => Acts (β := β) allowed code :=
  ⟨.pure, .bind, acts_register, acts_readWord⟩

theorem acts_resolve (width : Width) (operand : Operand) :
    Acts allowed (resolve width operand : Microcode β Location) :=
  acts_sequential.resolve acts_setPc width (acts_setRegister _)

theorem acts_store (width : Width) (value : Word) (location : Location) :
    Acts allowed (store width value location : Microcode β Unit) :=
  acts_sequential.store acts_writeWord acts_writeByte width value fun name _ => acts_setRegister name

theorem acts_readOperand (width : Width) (operand : Operand) :
    Acts allowed (readOperand width operand : Microcode β (Location × Word)) :=
  acts_sequential.readOperand acts_setPc acts_readByte width (acts_setRegister _)

theorem acts_jumpTarget? (operand : Operand) :
    Acts allowed (jumpTarget? operand : Microcode β (Option Word)) :=
  acts_sequential.jumpTarget? acts_setPc (acts_setRegister _)

theorem acts_updateCodes {change : StatusWord → StatusWord}
    (kept : ∀ status, (change status).SameOutside codeBits status) :
    Acts allowed (updateStatus change : Microcode β Unit) :=
  .update fun machine => .single (.codes machine _ (kept _))

theorem acts_commit (width : Width) (result : AluResult) :
    Acts allowed (commit width result : Microcode β Word) :=
  (acts_updateCodes fun status => result.update.apply_sameOutside width result.value status).bind fun _ => .pure _

theorem acts_trapped (cause : FaultCode) : Acts allowed (trapped cause : Microcode β Retirement) :=
  (acts_faultTrap cause).bind fun _ => .pure _

theorem acts_softwareTrap (vector : Word) :
    Acts allowed (softwareTrap vector : Microcode β Retirement) :=
  (acts_enterTrap vector).bind fun _ => .pure _

theorem acts_returnFromTrap : Acts allowed (returnFromTrap : Microcode β Unit) :=
  acts_pop.bind fun _ => acts_pop.bind fun _ => (acts_setPc _).bind fun _ => acts_installStatus _

theorem acts_modifyOperand (width : Width) (operand : Operand) (compute : Word → Bool → AluResult) :
    Acts allowed (modifyOperand width operand compute : Microcode β Retirement) :=
  (acts_readOperand width operand).bind fun _ => acts_processor.bind fun _ =>
    (acts_commit width _).bind fun _ => (acts_store width _ _).bind fun _ => .pure _

theorem acts_combineOperands (width : Width) (src dst : Operand) (compute : Word → Word → AluResult) :
    Acts allowed (combineOperands width src dst compute : Microcode β Retirement) :=
  (acts_readOperand width src).bind fun _ => acts_modifyOperand width dst _

theorem acts_compareOperands (width : Width) (src dst : Operand) (compute : Word → Word → AluResult) :
    Acts allowed (compareOperands width src dst compute : Microcode β Retirement) :=
  (acts_readOperand width src).bind fun _ => (acts_readOperand width dst).bind fun _ =>
    (acts_commit width _).bind fun _ => .pure _

theorem acts_storeSigned (value : Word) (location : Location) :
    Acts allowed (storeSigned value location : Microcode β Unit) := by
  cases location with
  | register name => exact acts_setRegister name _
  | memory address => exact acts_writeByte address _

theorem acts_executeControl {op : ControlOp} (executes : allowed.Executes (.control op)) :
    Acts allowed (executeControl op : Microcode β Retirement) := by
  cases op with
  | halt => exact .pure _
  | wait => exact .pure _
  | rti => exact acts_returnFromTrap.bind fun _ => .pure _
  | bpt => exact acts_softwareTrap _
  | iot => exact acts_softwareTrap _
  | reset =>
    obtain ⟨mayReset, mayDrop⟩ := executes.resets rfl
    have dropped : Acts allowed
        (update (fun processor => { processor with lines := processor.lines.clearEvent }) : Microcode β Unit) :=
      .update fun machine => .single (.lines machine mayDrop machine.processor.lines.clearEvent rfl)
    exact (acts_consult fun board => .resetDevices mayReset board).bind fun _ => dropped.bind fun _ => .pure _
  | rtt =>
    have inhibited : Acts allowed (update ({ · with traceInhibited := true }) : Microcode β Unit) :=
      .update fun machine => .single (.trace machine machine.processor.tracePending true fun _ => .inr (executes.inhibits rfl))
    exact acts_returnFromTrap.bind fun _ => inhibited.bind fun _ => .pure _
  | mfpt =>
    refine acts_processor.bind fun processor => ?_
    cases processor.model.processorType? with
    | some kind => exact (acts_setRegister _ kind).bind fun _ => .pure _
    | none => exact acts_trapped _
  | start =>
    refine acts_processor.bind fun processor => ?_
    split
    · exact (acts_setPc _).bind fun _ => (acts_installStatus _).bind fun _ => .pure _
    · exact acts_trapped _

theorem acts_execute {instruction : Instruction} (executes : allowed.Executes instruction) :
    Acts allowed (execute instruction : Microcode β Retirement) := by
  unfold execute
  cases instruction with
  | control op => exact acts_executeControl executes
  | jmp target =>
    refine (acts_jumpTarget? target).bind fun address => ?_
    cases address with
    | some address => exact (acts_setPc address).bind fun _ => .pure _
    | none => exact acts_trapped _
  | jsr link target =>
    refine (acts_jumpTarget? target).bind fun address => ?_
    cases address with
    | some address =>
      exact (acts_register _).bind fun _ => (acts_push _).bind fun _ => (acts_register _).bind fun _ =>
        (acts_setRegister _ _).bind fun _ => (acts_setPc address).bind fun _ => .pure _
    | none => exact acts_trapped _
  | rts link =>
    exact (acts_register _).bind fun _ => (acts_setPc _).bind fun _ => acts_pop.bind fun _ =>
      (acts_setRegister _ _).bind fun _ => .pure _
  | codes set mask =>
    have within : ∀ mask : BitVec 4, mask.setWidth 16 &&& codeBits = mask.setWidth 16 := by decide
    exact (acts_updateCodes fun status => StatusWord.set_sameOutside (within mask) status set).bind fun _ => .pure _
  | branch condition offset =>
    refine acts_processor.bind fun processor => ?_
    split
    · exact (acts_register _).bind fun _ => (acts_setPc _).bind fun _ => .pure _
    · exact .pure _
  | sob counter offset =>
    refine (acts_register _).bind fun _ => (acts_setRegister _ _).bind fun _ => ?_
    split
    · exact (acts_register _).bind fun _ => (acts_setPc _).bind fun _ => .pure _
    · exact .pure _
  | mark count =>
    exact (acts_register _).bind fun _ => (acts_setRegister _ _).bind fun _ =>
      (acts_register _).bind fun _ => (acts_setPc _).bind fun _ => acts_pop.bind fun _ =>
      (acts_setRegister _ _).bind fun _ => .pure _
  | call op code => exact acts_softwareTrap _
  | swab dst =>
    exact (acts_readOperand .word dst).bind fun _ =>
      (acts_updateCodes fun status => CodesUpdate.apply_sameOutside _ .byte _ status).bind
        fun _ => (acts_store .word _ _).bind fun _ => .pure _
  | sxt dst =>
    have coded (negative : Bool) : Acts allowed (updateStatus fun status =>
        (status.set StatusWord.zeroBit !negative).set StatusWord.overflowBit false : Microcode β Unit) :=
      acts_updateCodes fun status => (StatusWord.set_sameOutside (by decide) _ _).trans
        (StatusWord.set_sameOutside (by decide) _ _)
    exact acts_processor.bind fun processor => (acts_resolve .word dst).bind fun _ =>
      (acts_store .word _ _).bind fun _ => (coded _).bind fun _ => .pure _
  | mtps src =>
    have written (value : Word) : Acts allowed (update fun processor =>
        let bits := (processor.status.bits &&& ~~~mtpsMask) ||| (value &&& mtpsMask)
        { processor with status := StatusWord.masked ⟨bits⟩ processor.model.implemented } :
          Microcode β Unit) :=
      .update fun machine => .single (.priority machine value)
    exact (acts_readOperand .byte src).bind fun _ => (written _).bind fun _ => .pure _
  | mfps dst =>
    exact acts_processor.bind fun _ => (acts_resolve .byte dst).bind fun _ =>
      (acts_commit .byte _).bind fun _ => (acts_storeSigned _ _).bind fun _ => .pure _
  | clr width dst =>
    exact (acts_resolve width dst).bind fun _ => (acts_commit width _).bind fun _ =>
      (acts_store width _ _).bind fun _ => .pure _
  | tst width src =>
    exact (acts_readOperand width src).bind fun _ => (acts_commit width _).bind fun _ => .pure _
  | unary op width dst => exact acts_modifyOperand width dst _
  | mov width src dst =>
    cases width with
    | word =>
      exact (acts_readOperand .word src).bind fun _ => (acts_resolve .word dst).bind fun _ =>
        (acts_commit .word _).bind fun _ => (acts_store .word _ _).bind fun _ => .pure _
    | byte =>
      exact (acts_readOperand .byte src).bind fun _ => (acts_resolve .byte dst).bind fun _ =>
        (acts_commit .byte _).bind fun _ => (acts_storeSigned _ _).bind fun _ => .pure _
  | cmp width src dst | bit width src dst => exact acts_compareOperands width src dst _
  | bic width src dst | bis width src dst => exact acts_combineOperands width src dst _
  | add src dst | sub src dst => exact acts_combineOperands .word src dst _
  | xor src dst => exact (acts_register _).bind fun _ => acts_modifyOperand .word dst _

theorem acts_takeBlock (interrupted : Processor) : Acts allowed (takeBlock interrupted : Microcode β Unit) :=
  (acts_readWord _).bind fun _ => (acts_readWord _).bind fun _ => (acts_setPc _).bind fun _ =>
    (acts_installStatus _).bind fun _ => acts_wake.bind fun _ => (acts_charge _).bind fun _ => acts_emit _

theorem acts_haltBanked {machine : Machine β} (has : machine.processor.model = .vm2) (halts : allowed.Halts .vm2) :
    Actions allowed machine machine.haltBanked := by
  obtain ⟨mayBank, mayShadow⟩ := halts rfl
  have synced : Actions allowed machine (machine.update (·.syncShadow)) := .single (.shadow machine mayShadow)
  unfold Machine.haltBanked
  by_cases on : machine.processor.bank = .halt
  · simp only [on, if_true]
    exact synced
  · simp only [on, if_false]
    refine synced.tail (.haltBank _ mayBank ?_ ?_)
    · exact synced.sameSetting.model.trans has
    · rw [Machine.update_processor, Processor.syncShadow_eq]
      exact on

theorem acts_enterHaltMode {machine : Machine β} (has : machine.processor.model = .vm2) (halts : allowed.Halts .vm2) :
    ActsFrom allowed machine enterHaltMode := by
  have banked := acts_haltBanked has halts
  intro state same
  rw [same, enterHaltMode_eq]
  exact (acts_takeBlock machine.processor _).weaken (fun _ same => same) (fun _ _ path => banked.trans path)
    (fun _ _ left => banked.broken left) machine.haltBanked rfl

theorem acts_restart {machine : Machine β} (without : machine.processor.model = .t11) :
    ActsFrom allowed machine restart := by
  refine (acts_processor machine).bind fun interrupted _ read => ?_
  cases read
  refine (acts_push _ machine).bind fun _ first pushed => ?_
  refine (acts_push _ first).bind fun _ second saved => ?_
  refine (acts_setPc _ second).bind fun _ third moved => ?_
  have path : Actions allowed machine third :=
    (((acts_push _).ok pushed).trans ((acts_push _).ok saved)).trans ((acts_setPc _).ok moved)
  rintro _ rfl
  exact .single (.restart _ (path.sameSetting.model.trans without))

theorem acts_halt {machine : Machine β} (halts : allowed.Halts machine.processor.model) :
    ActsFrom allowed machine halt := by
  refine (acts_processor machine).bind fun interrupted _ read => ?_
  cases read
  cases has : machine.processor.model with
  | t11 => exact acts_restart has
  | vm2 => exact acts_enterHaltMode has (has ▸ halts)

theorem acts_executeCharged {instruction : Instruction} (executes : allowed.Executes instruction) :
    Acts allowed (executeCharged instruction : Microcode β Retirement) := by
  refine (acts_execute executes).bind fun retirement => ?_
  have charged : Acts allowed (update (·.charge instruction.cycles) : Microcode β Unit) :=
    .update fun machine => .single (.charge machine _)
  cases retirement with
  | trapped cause => exact (acts_charge _).bind fun _ => .pure _
  | completed | waiting | halting => exact charged.bind fun _ => .pure _

theorem acts_wait : Acts allowed (update ({ · with runState := .waiting }) : Microcode β Unit) :=
  .update fun machine => .single (.wait machine)

theorem acts_syncShadow (may : allowed .shadow) : Acts allowed (update (·.syncShadow) : Microcode β Unit) :=
  .update fun machine => .single (.shadow machine may)

theorem acts_reserved : Acts allowed (do
    let retirement ← trapped .reservedInstruction
    charge .faultTrapEntry
    return retirement : Microcode β Retirement) :=
  (acts_trapped _).bind fun _ => (acts_charge _).bind fun _ => .pure _

theorem acts_executeWord {machine : Machine β} (word : Word) (halts : allowed.Halts machine.processor.model)
    (executes : ∀ instruction, Instruction.ofWord? word = some instruction → allowed.Executes instruction) :
    ActsFrom allowed machine (executeWord word) := by
  unfold executeWord
  cases found : Instruction.ofWord? word with
  | none => exact acts_reserved machine
  | some instruction =>
    have executed : Acts allowed (executeCharged instruction : Microcode β Retirement) :=
      acts_executeCharged (executes instruction found)
    refine (executed machine).bind fun retirement after done => ?_
    cases retirement with
    | waiting => exact acts_wait.bind (fun _ => .pure _) after
    | halting =>
      have same : after.processor.model = machine.processor.model := (executed.ok done).sameSetting.model
      exact (acts_halt (same ▸ halts)).bind fun _ after _ => Acts.pure _ after
    | completed | trapped _ => exact Acts.pure _ after

theorem acts_begin (address : Word) : Acts allowed
    (update (fun processor => { processor.setPc address.even with previousPc := address.even }) : Microcode β Unit) :=
  .update fun machine => .tail (.single (.registers machine _)) (.previousPc _ address)

theorem acts_retire (may : allowed .shadow) (pc word : Word) (start : UInt64) (retirement : Retirement) :
    Acts allowed (do
    update fun processor =>
      { processor with
        tracePending := processor.status.trace && !processor.traceInhibited
        traceInhibited := false
        statistics := processor.statistics.countInstruction }
    let cycles := (← processor).elapsed start
    emit (.instructionRetired pc word cycles)
    update (·.syncShadow)
    match retirement with
    | .trapped cause => return .faulted cause cycles
    | _ => return .retired cycles : Microcode β Outcome) := by
  have counted : Acts allowed (update (fun processor =>
      { processor with
        tracePending := processor.status.trace && !processor.traceInhibited
        traceInhibited := false
        statistics := processor.statistics.countInstruction }) : Microcode β Unit) :=
    .update fun machine => .tail (.single (.trace machine _ false nofun)) (.count _ _)
  refine counted.bind fun _ => acts_processor.bind fun _ => (acts_emit _).bind fun _ =>
    (acts_syncShadow may).bind fun _ => ?_
  cases retirement with
  | completed | waiting | halting | trapped _ => exact .pure _

theorem acts_instruction (halts : ∀ model, allowed.Halts model) (executes : ∀ instruction, allowed.Executes instruction)
    (may : allowed .shadow) (start : UInt64) : Acts allowed (instructionCycle start : Microcode β Outcome) :=
  acts_processor.bind fun _ => (acts_begin _).bind fun _ => (acts_emit _).bind fun _ =>
    acts_fetchWord.bind fun word =>
    Acts.bind (fun _ => acts_executeWord word (halts _) fun instruction _ => executes instruction) fun retirement =>
    acts_retire may _ word start retirement

theorem acts_instructionCycle (start : UInt64) :
    Acts .any (instructionCycle start : Microcode β Outcome) :=
  acts_instruction Scope.any_halts Scope.any_executes trivial start

theorem acts_updateLines (may : allowed .lines) {change : InputLines → InputLines}
    (counted : ∀ lines, (change lines).busErrors = lines.busErrors) :
    Acts allowed (updateLines change : Microcode β Unit) :=
  .update fun machine => .single (.lines machine may _ (counted _))

theorem acts_takeInterrupt (vector : Word) : Acts allowed (takeInterrupt vector : Microcode β Unit) :=
  (acts_enterTrap vector).bind fun _ => (acts_charge _).bind fun _ =>
    .update fun machine => .single (.count machine _)

theorem acts_leaveHaltMode : Acts allowed (leaveHaltMode : Microcode β Unit) :=
  acts_processor.bind fun _ => acts_installStatus _

theorem acts_clearEvent (may : allowed .lines) : Acts allowed (updateLines (·.clearEvent) : Microcode β Unit) :=
  acts_updateLines may fun _ => rfl

/-- What the arbiter does with the answer of the chain. -/
def answerChain (answer : Option Word) : Microcode β Bool := do
  match answer.filter (· != 0) with
  | none =>
    updateLines (·.setLevel .virq false)
    return false
  | some vector =>
    leaveHaltMode
    updateLines (·.clearEvent)
    takeInterrupt vector
    return true

theorem acts_answerChain (lowers : allowed .lines) (answer : Option Word) :
    Acts allowed (answerChain answer : Microcode β Bool) := by
  unfold answerChain
  cases answer.filter (· != 0) with
  | none => exact (acts_updateLines lowers fun lines => InputLines.busErrors_setLevel lines .virq false).bind fun _ => .pure _
  | some vector =>
    exact acts_leaveHaltMode.bind fun _ => (acts_clearEvent lowers).bind fun _ =>
      (acts_takeInterrupt vector).bind fun _ => .pure _

theorem acts_serve {service : Service} (acknowledges : allowed .acknowledge) (lowers : allowed .lines)
    (apart : service ≠ .haltPin) : Acts allowed (serve service : Microcode β Bool) := by
  cases service with
  | trace => exact (acts_takeInterrupt _).bind fun _ => .pure _
  | request number =>
    exact (acts_consult fun board => .acknowledge acknowledges _ board).bind fun _ =>
      (acts_takeInterrupt _).bind fun _ => .pure _
  | haltPin => exact absurd rfl apart
  | powerFail =>
    exact (acts_takeInterrupt _).bind fun _ =>
      (acts_updateLines lowers fun lines => InputLines.busErrors_setLevel lines .aclo false).bind fun _ => .pure _
  | event =>
    exact (acts_takeInterrupt _).bind fun _ => (acts_clearEvent lowers).bind fun _ => .pure _
  | chain => exact (acts_consult fun board => .acknowledgeChain acknowledges board).bind (acts_answerChain lowers)

theorem model_of_haltPin {processor : Processor} (chosen : processor.service? = some .haltPin) :
    processor.model = .vm2 := by
  cases has : processor.model with
  | vm2 => rfl
  | t11 =>
    simp only [Processor.service?, has, Processor.t11Service?] at chosen
    split at chosen
    · cases chosen
    · split at chosen <;> cases chosen

theorem acts_arbiterPass {machine : Machine β} (arbitrates : allowed.Arbitrates machine.processor.model) :
    ActsFrom allowed machine arbiterPass := by
  refine (acts_processor machine).bind fun processor _ read => ?_
  cases read
  cases chosen : machine.processor.service? with
  | none => exact Acts.pure false machine
  | some service =>
    by_cases pin : service = .haltPin
    · subst pin
      have has := model_of_haltPin chosen
      exact (acts_enterHaltMode has (has ▸ arbitrates.halts)).bind fun _ after _ => Acts.pure true after
    · exact acts_serve arbitrates.acknowledge arbitrates.lines pin machine

theorem acts_arbiterPasses {machine : Machine β} (arbitrates : allowed.Arbitrates machine.processor.model) (limit : Nat) :
    ActsFrom allowed machine (arbiterPasses limit) := by
  induction limit generalizing machine with
  | zero => exact Acts.pure false machine
  | succ limit ih =>
    have pass := acts_arbiterPass arbitrates
    refine pass.bind fun taken after done => ?_
    have same : after.processor.model = machine.processor.model := (pass.ok rfl done).sameSetting.model
    cases taken with
    | false => exact Acts.pure false after
    | true => exact (ih (same ▸ arbitrates)).bind fun _ after _ => Acts.pure true after

theorem acts_arbitrate : Acts .any (arbitrate : Microcode β Bool) :=
  fun _ => acts_arbiterPasses (Scope.any_arbitrates _) _

end Microcode
end Pdp11
