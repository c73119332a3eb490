import Pdp11.Operation
import Pdp11.Proofs.Contract

/-! Operations as scripts: the same parts in the same order, but as data, so one can
speak of what comes after a part. A script performs what the operation does. -/

namespace Pdp11

/-- The parts of an operation. Each is one change of the processor or its board, one
look at the processor, or one stretch of microcode. -/
inductive Script (β α : Type) : Type 1 where
  | done (value : α) : Script β α
  | act {γ : Type} (code : Dispatch β γ) (next : γ → Script β α) : Script β α

namespace Script

variable {α β γ : Type}

def perform : Script β α → Dispatch β α
  | done value => pure value
  | act code next => code >>= fun answer => (next answer).perform

def bind : Script β α → (α → Script β γ) → Script β γ
  | done value, rest => rest value
  | act code next, rest => act code fun answer => (next answer).bind rest

instance : Monad (Script β) where
  pure := done
  bind := bind

def part (code : Dispatch β α) : Script β α := act code done

theorem perform_pure (value : α) : (pure value : Script β α).perform = pure value := rfl

theorem perform_bind (script : Script β α) (rest : α → Script β γ) :
    (script >>= rest).perform = script.perform >>= fun value => (rest value).perform := by
  induction script with
  | done value => rfl
  | act code next ih =>
    calc (act code next >>= rest).perform
      _ = code >>= fun answer => (next answer >>= rest).perform := rfl
      _ = code >>= fun answer => (next answer).perform >>= fun value => (rest value).perform :=
        congrArg (code >>= ·) (funext ih)
      _ = (act code next).perform >>= fun value => (rest value).perform := (bind_assoc ..).symm

theorem perform_part (code : Dispatch β α) : (part code).perform = code := bind_pure code

end Script

namespace Script

variable {β : Type} [Board β]

def resetVm2 : Script β Unit := do
  part <| modify (·.selectBank .user)
  part <| modify (·.selectBank .halt)
  part <| modify fun machine =>
    let switches := (Board.startSwitches machine.board).setWidth 16 &&& Vm2.switchMask
    machine.update fun processor =>
      { processor.setSp resetSp with
        status := ⟨StatusWord.haltBit⟩
        mode := processor.mode ||| switches }
  match ← part <| Dispatch.attempt Microcode.loadStartBlock with
  | some () => return
  | none =>
    part Dispatch.clearBusErrors
    part <| Dispatch.update fun processor => (processor.recordFault .doubleFault processor.pc).latch .doubleFault

def reset : Script β Unit := do
  part <| Dispatch.update (·.cleared)
  match (← part Dispatch.processor).model with
  | .t11 => part Dispatch.resetT11
  | .vm2 => resetVm2
  part Dispatch.syncShadow

def recoverDoubleFault : Script β Bool := do
  match (← part Dispatch.processor).model with
  | .t11 => return false
  | .vm2 =>
    let boundary := (← part Dispatch.processor).checkpoint
    match ← part <| Dispatch.attempt Microcode.enterHaltMode with
    | some () => return true
    | none =>
      part <| Dispatch.restore boundary
      part Dispatch.clearBusErrors
      return false

def doubleFault (start : UInt64) : Script β Outcome := do
  let pc := (← part Dispatch.processor).pc
  part <| Dispatch.update fun processor => (processor.recordFault .doubleFault pc).emit (.doubleFault pc)
  if ← recoverDoubleFault then
    part Dispatch.syncShadow
    return .faulted .doubleFault (← part (Dispatch.elapsed start))
  else
    part <| Dispatch.update (·.latch .doubleFault)
    return .stopped .doubleFault

def serviceBusFault (start : UInt64) : Script β Outcome := do
  let pc := (← part Dispatch.processor).pc
  part <| Dispatch.update fun processor => (processor.recordFault .busError pc).emit (.busFault pc)
  part Dispatch.clearBusErrors
  let boundary := (← part Dispatch.processor).checkpoint
  match ← part <| Dispatch.attempt (Microcode.enterTrap TrapVector.busError) with
  | some () =>
    part <| Dispatch.update (·.charge CostKind.faultTrapEntry.cycles)
    part Dispatch.syncShadow
    return .faulted .busError (← part (Dispatch.elapsed start))
  | none =>
    part <| Dispatch.restore boundary
    part Dispatch.clearBusErrors
    doubleFault start

def boundaryStep : Script β Outcome := do
  let before ← part Dispatch.processor
  let start := before.cycles
  if before.lines.hasBusError then serviceBusFault start
  else
    match ← part <| Dispatch.attempt Microcode.arbitrate with
    | none =>
      part <| Dispatch.restore before.checkpoint
      serviceBusFault start
    | some true =>
      part Dispatch.syncShadow
      return .interrupted (← part (Dispatch.elapsed start))
    | some false =>
      if (← part Dispatch.processor).runState = .waiting then return .waiting
      else
        match ← part <| Dispatch.attempt (Microcode.instructionCycle start) with
        | some outcome => return outcome
        | none =>
          part <| Dispatch.restore before.checkpoint
          serviceBusFault start

def step : Script β Outcome := do
  let before ← part Dispatch.processor
  match before.runState with
  | .suspended => return .suspended
  | .latched cause => return .stopped cause
  | .running | .waiting =>
    if before.resetOnResume then reset
    boundaryStep

def checkInterrupts : Script β Bool := do
  let before ← part Dispatch.processor
  match before.runState with
  | .suspended | .latched _ => return false
  | .running | .waiting =>
    match ← part <| Dispatch.attempt Microcode.arbitrate with
    | some taken =>
      if taken then part Dispatch.syncShadow
      return taken
    | none =>
      part <| Dispatch.restore before.checkpoint
      let start := (← part Dispatch.processor).cycles
      let _ ← serviceBusFault start
      return true

def runFrom (budget : UInt32) (consumed : Nat) : Script β Nat := do
  if _ : consumed < budget.toNat then
    match (← step).cycles? with
    | some cycles => runFrom budget (min (consumed + max cycles 1) 0xFFFFFFFF)
    | none => return budget.toNat
  else return consumed
termination_by budget.toNat - consumed
decreasing_by
  have bounded := budget.toNat_lt
  omega

theorem perform_resetVm2 : (resetVm2 : Script β Unit).perform = Dispatch.resetVm2 := by
  simp only [resetVm2, Dispatch.resetVm2, perform_bind, perform_part]
  refine bind_congr fun _ => bind_congr fun _ => bind_congr fun _ => bind_congr fun loaded => ?_
  cases loaded with
  | some done => rfl
  | none => simp only [perform_bind, perform_part]

theorem perform_reset : (reset : Script β Unit).perform = Dispatch.reset := by
  simp only [reset, Dispatch.reset, perform_bind, perform_part]
  refine bind_congr fun _ => bind_congr fun processor => ?_
  cases processor.model with
  | t11 => simp only [perform_bind, perform_part]
  | vm2 => simp only [perform_bind, perform_part, perform_resetVm2]

theorem perform_recoverDoubleFault : (recoverDoubleFault : Script β Bool).perform = Dispatch.recoverDoubleFault := by
  simp only [recoverDoubleFault, Dispatch.recoverDoubleFault, perform_bind, perform_part]
  refine bind_congr fun processor => ?_
  cases processor.model with
  | t11 => rfl
  | vm2 =>
    simp only [perform_bind, perform_part]
    refine bind_congr fun _ => bind_congr fun entered => ?_
    cases entered with
    | some done => rfl
    | none => simp only [perform_bind, perform_part, perform_pure]

theorem perform_doubleFault (start : UInt64) :
    (doubleFault start : Script β Outcome).perform = Dispatch.doubleFault start := by
  simp only [doubleFault, Dispatch.doubleFault, perform_bind, perform_part, perform_recoverDoubleFault]
  refine bind_congr fun _ => bind_congr fun _ => bind_congr fun recovered => ?_
  cases recovered with
  | true => simp only [if_true, perform_bind, perform_part, perform_pure]
  | false => simp only [Bool.false_eq_true, if_false, perform_bind, perform_part, perform_pure]

theorem perform_serviceBusFault (start : UInt64) :
    (serviceBusFault start : Script β Outcome).perform = Dispatch.serviceBusFault start := by
  simp only [serviceBusFault, Dispatch.serviceBusFault, perform_bind, perform_part]
  refine bind_congr fun _ => bind_congr fun _ => bind_congr fun _ => bind_congr fun _ =>
    bind_congr fun entered => ?_
  cases entered with
  | some done => simp only [perform_bind, perform_part, perform_pure]
  | none => simp only [perform_bind, perform_part, perform_doubleFault]

theorem perform_boundaryStep : (boundaryStep : Script β Outcome).perform = Dispatch.boundaryStep := by
  simp only [boundaryStep, Dispatch.boundaryStep, perform_bind, perform_part]
  refine bind_congr fun before => ?_
  by_cases pending : before.lines.hasBusError
  · simp only [pending, if_true, perform_serviceBusFault]
  simp only [pending, Bool.false_eq_true, if_false, perform_bind, perform_part]
  refine bind_congr fun arbitrated => ?_
  rcases arbitrated with _ | _ | _
  · simp only [perform_bind, perform_part, perform_serviceBusFault, Dispatch.abandon]
  · simp only [perform_bind, perform_part]
    refine bind_congr fun settled => ?_
    by_cases idle : settled.runState = .waiting
    · simp only [idle, if_true, perform_pure]
    simp only [idle, if_false, perform_bind, perform_part]
    refine bind_congr fun executed => ?_
    cases executed with
    | some outcome => rfl
    | none => simp only [perform_bind, perform_part, perform_serviceBusFault, Dispatch.abandon]
  · simp only [perform_bind, perform_part, perform_pure]

theorem perform_step : (step : Script β Outcome).perform = Dispatch.step := by
  simp only [step, Dispatch.step, perform_bind, perform_part]
  refine bind_congr fun before => ?_
  cases before.runState with
  | suspended | latched cause => rfl
  | running | waiting =>
    by_cases due : before.resetOnResume
    · simp only [due, if_true, perform_bind, perform_reset, perform_boundaryStep]
    · simp only [due, Bool.false_eq_true, if_false, perform_boundaryStep]

theorem perform_checkInterrupts : (checkInterrupts : Script β Bool).perform = Dispatch.checkInterrupts := by
  simp only [checkInterrupts, Dispatch.checkInterrupts, perform_bind, perform_part]
  refine bind_congr fun before => ?_
  cases before.runState with
  | suspended | latched cause => rfl
  | running | waiting =>
    simp only [perform_bind, perform_part]
    refine bind_congr fun arbitrated => ?_
    rcases arbitrated with _ | _ | _
    · simp only [perform_bind, perform_part, perform_pure, perform_serviceBusFault]
    · simp only [Bool.false_eq_true, if_false, perform_pure]
    · simp only [if_true, perform_bind, perform_part, perform_pure]

theorem perform_runFrom (budget : UInt32) (consumed : Nat) :
    (runFrom budget consumed : Script β Nat).perform = Dispatch.runFrom budget consumed := by
  induction consumed using Dispatch.runFrom.induct budget with
  | case1 consumed within ih =>
    rw [runFrom, Dispatch.runFrom, dif_pos within, dif_pos within]
    simp only [perform_bind, perform_step]
    refine bind_congr fun outcome => ?_
    cases outcome.cycles? with
    | some cycles => exact ih cycles
    | none => rfl
  | case2 consumed spent =>
    rw [runFrom, Dispatch.runFrom, dif_neg spent, dif_neg spent]
    rfl

end Script

variable {β : Type} [Board β]

/-- The parts of an operation. What only touches the processor's bookkeeping is one
part. -/
def Operation.script : Operation → Script β Response
  | reset => do
    Script.reset
    return .done
  | step => return .outcome (← Script.step)
  | run budget => return .consumed (← Script.runFrom budget 0)
  | checkInterrupts => return .taken (← Script.checkInterrupts)
  | operation => Script.part operation.perform

theorem Operation.perform_script (operation : Operation) :
    (operation.script : Script β Response).perform = operation.perform := by
  have answered {α : Type} (answer : α → Response) {script : Script β α} {code : Dispatch β α}
      (same : script.perform = code) :
      (do return answer (← script) : Script β Response).perform = (do return answer (← code) : Dispatch β Response) := by
    rw [← same]
    exact Script.perform_bind script _
  cases operation with
  | reset => exact answered (fun _ => .done) Script.perform_reset
  | step => exact answered .outcome Script.perform_step
  | run budget => exact answered .consumed (Script.perform_runFrom budget 0)
  | checkInterrupts => exact answered .taken Script.perform_checkInterrupts
  | drive line asserted | suspend | resume | observe on => exact Script.perform_part _

end Pdp11
