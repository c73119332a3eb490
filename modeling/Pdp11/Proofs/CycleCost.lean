import Pdp11.Proofs.ArbiterCases
import Pdp11.Proofs.BlindViews
import Pdp11.Proofs.BoundaryCases
import Pdp11.Proofs.InstructionCases
import Pdp11.Proofs.Retirement

/-! What a step costs. Most microcode charges nothing, and what charges comes late: an
instruction once it is executed, an entry once it is complete. So whatever breaks off has
charged little, but that little is never given back. -/

namespace Pdp11

/-- The cycle counter has gone on from an earlier reading by so many cycles. It wraps. -/
def Spent (start : UInt64) (least most : Nat) (cycles : UInt64) : Prop :=
  ∃ spent, least ≤ spent ∧ spent ≤ most ∧ cycles = start + UInt64.ofNat spent

namespace Spent

variable {start cycles : UInt64} {least most : Nat}

theorem none (start : UInt64) : Spent start 0 0 start := ⟨0, Nat.le_refl 0, Nat.le_refl 0, (UInt64.add_zero start).symm⟩

theorem wider {fewer more : Nat} (spent : Spent start least most cycles) (lower : fewer ≤ least) (upper : most ≤ more) :
    Spent start fewer more cycles := by
  obtain ⟨exact, above, below, counted⟩ := spent
  exact ⟨exact, Nat.le_trans lower above, Nat.le_trans below upper, counted⟩

theorem charge (spent : Spent start least most cycles) (cost : Nat) :
    Spent start (least + cost) (most + cost) (cycles + UInt64.ofNat cost) := by
  obtain ⟨exact, above, below, counted⟩ := spent
  refine ⟨exact + cost, Nat.add_le_add_right above cost, Nat.add_le_add_right below cost, ?_⟩
  rw [counted, UInt64.ofNat_add, UInt64.add_assoc]

theorem emit {processor : Processor} (spent : Spent start least most processor.cycles) (event : TraceEvent) :
    Spent start least most (processor.emit event).cycles := by
  rwa [Processor.emit_eq]

/-- Short of a wrap the processor can tell how much was spent. -/
theorem elapsed {processor : Processor} (spent : Spent start least most processor.cycles) (small : most < UInt32.size) :
    least ≤ processor.elapsed start ∧ processor.elapsed start ≤ most ∧
      processor.cycles = start + UInt64.ofNat (processor.elapsed start) := by
  obtain ⟨exact, above, below, counted⟩ := spent
  have fits : exact < UInt64.size := Nat.lt_of_le_of_lt below (Nat.lt_trans small (by decide))
  have told : processor.elapsed start = exact := by
    rw [Processor.elapsed, counted, UInt64.add_comm, UInt64.add_sub_cancel, UInt64.toNat_ofNat_of_lt' fits]
    rw [UInt32.size] at small
    omega
  rw [told]
  exact ⟨above, below, counted⟩

end Spent

variable {β : Type}

abbrev HasSpent (start : UInt64) (least most : Nat) (machine : Machine β) : Prop :=
  Spent start least most machine.processor.cycles

/-- A bound on what broken code has spent may be raised. -/
theorem Ensures.late {α : Type} {start : UInt64} {least most : Nat} {pre : Machine β → Prop} {code : Microcode β α}
    {post : α → Machine β → Prop} (spends : Ensures pre code post fun _ => HasSpent start least most)
    (more : Nat) : Ensures pre code post fun _ => HasSpent start least (most + more) :=
  spends.weaken (fun _ holds => holds) (fun _ _ ended => ended)
    fun _ _ spent => Spent.wider spent (Nat.le_refl _) (Nat.le_add_right _ _)

/-- Code that charges nothing, also where it breaks off. -/
abbrev Uncharged {α : Type} (code : Microcode β α) : Prop := Leaves (·.cycles) code

theorem blind_cycles : Blind (·.cycles) := fun _ _ _ _ _ _ _ _ _ _ => rfl

variable [Board β]

theorem Machine.installStatus_cycles (machine : Machine β) (bits : Word) :
    (machine.installStatus bits).processor.cycles = machine.processor.cycles := blind_cycles.installStatus machine bits

/-- No instruction looks at the cycle counter while it is executed, or moves it. -/
theorem beside_coupling (holds : UInt64 → Prop) :
    Coupling (Beside fun machine : Machine β => holds machine.processor.cycles)
      (Beside fun machine => holds machine.processor.cycles) := by
  refine blind_cycles.coupling holds holds (fun _ spent => spent) fun processor vector interrupted spent => ?_
  rwa [Processor.emit_eq]

omit [Board β] in
theorem beside_faultsAlike (holds : UInt64 → Prop) :
    FaultsAlike (Beside fun machine : Machine β => holds machine.processor.cycles) := by
  rintro machine _ code _ ⟨rfl, spent⟩
  exact ⟨rfl, spent⟩

namespace Microcode

theorem enterTrap_uncharged (vector : Word) : Uncharged (enterTrap vector : Microcode β Unit) := by
  refine fun holds => blind_cycles.enterTrap holds holds (fun _ spent => spent) (fun processor _ _ spent => ?_) vector
  rwa [Processor.emit_eq]

theorem trapped_uncharged {cause : FaultCode} (decode : cause.faultClass = .decode) :
    Uncharged (trapped cause : Microcode β Retirement) :=
  fun holds => ((beside_coupling holds).trapped (beside_faultsAlike holds) decode).ensures

theorem fetchInstruction_uncharged : Uncharged (fetchInstruction : Microcode β Word) :=
  Leaves.processor.bind fun _ => Leaves.bind (.modify fun _ => rfl) fun _ =>
    Leaves.bind (.modify fun machine => by rw [Machine.update_processor, Processor.emit_eq]) fun _ => blind_cycles.fetchWord

theorem execute_uncharged (instruction : Instruction) : Uncharged (execute instruction : Microcode β Retirement) :=
  fun holds => (beside_coupling holds).execute_ensures (beside_faultsAlike holds) instruction

variable {start : UInt64} {least most : Nat}

/-- A trap entry is charged when it is complete. -/
theorem takeInterrupt_spent (vector : Word) :
    Ensures (HasSpent start least most : Machine β → Prop) (takeInterrupt vector)
      (fun _ => HasSpent start (least + 114) (most + 114))
      (fun _ => HasSpent start least most) :=
  (enterTrap_uncharged vector _).bind fun _ => Ensures.bind (.modify fun _ spent => spent.charge 114) fun _ =>
    .modify fun _ spent => spent

theorem enterHaltMode_spent :
    Ensures (HasSpent start least most : Machine β → Prop) enterHaltMode
      (fun _ => HasSpent start (least + 48) (most + 48))
      (fun _ => HasSpent start least most) := by
  intro machine spent
  have banked : Spent start least most machine.haltBanked.processor.cycles := by
    rw [Machine.haltBanked_processor, Processor.syncShadow_eq]
    exact spent
  have taken : Ensures (HasSpent start least most : Machine β → Prop)
      (takeBlock machine.processor) (fun _ => HasSpent start (least + 48) (most + 48))
      (fun _ => HasSpent start least most) := by
    have installed (bits : Word) : Uncharged (installStatus bits : Microcode β Unit) :=
      .modify fun machine => machine.installStatus_cycles bits
    have woken : Uncharged (update fun processor => { processor.wake with tracePending := false } : Microcode β Unit) :=
      .modify fun machine => by rw [Machine.update_processor, Processor.wake_eq]
    have charged : Ensures (HasSpent start least most : Machine β → Prop) (charge .haltEntry)
        (fun _ => HasSpent start (least + 48) (most + 48)) (fun _ => HasSpent start least most) :=
      .modify fun _ spent => spent.charge 48
    exact (blind_cycles.cycle _ _).bind fun _ => (blind_cycles.cycle _ _).bind fun _ =>
      Ensures.bind (.modify fun _ spent => spent) fun _ => (installed _ _).bind fun _ => (woken _).bind fun _ =>
      charged.bind fun _ => .modify fun machine spent => spent.emit _
  rw [enterHaltMode_eq]
  exact taken machine.haltBanked banked

/-- What arbitration has spent when it ends: something for each entry. -/
def SpentTaken (start : UInt64) (least most cost : Nat) (taken : Bool) (machine : Machine β) : Prop :=
  if taken then HasSpent start (least + 48) (most + cost) machine else HasSpent start least most machine

theorem arbiterPass_spent :
    Ensures (HasSpent start least most : Machine β → Prop) arbiterPass (SpentTaken start least most 114)
      (fun _ => HasSpent start least most) := by
  refine blind_cycles.arbiterPass _ (Spent start (least + 48) (most + 114)) (fun vector => ?_) ?_
  · exact (takeInterrupt_spent vector).weaken (fun _ spent => spent)
      (fun _ _ spent => spent.wider (Nat.add_le_add_left (by decide) _) (Nat.le_refl _)) fun _ _ spent => spent
  · exact enterHaltMode_spent.weaken (fun _ spent => spent)
      (fun _ _ spent => spent.wider (Nat.le_refl _) (Nat.add_le_add_left (by decide) _)) fun _ _ spent => spent

/-- Every pass but a failed one can have been charged. -/
theorem arbiterPasses_spent (limit : Nat) :
    Ensures (HasSpent start least most : Machine β → Prop) (arbiterPasses limit) (SpentTaken start least most (114 * limit))
      (fun _ => HasSpent start least (most + 114 * (limit - 1))) := by
  induction limit generalizing least most with
  | zero => exact .pure fun _ spent => spent
  | succ limit ih =>
    have pass : Ensures (HasSpent start least most : Machine β → Prop) arbiterPass (SpentTaken start least most 114)
        (fun _ => HasSpent start least (most + 114 * limit)) := arbiterPass_spent.late _
    refine pass.bind fun taken => ?_
    cases taken with
    | false => exact .pure fun _ spent => spent
    | true =>
      -- Only another pass can fail, and there is none if this one was the last.
      have rest : Ensures (HasSpent start (least + 48) (most + 114) : Machine β → Prop) (arbiterPasses limit)
          (fun _ => HasSpent start (least + 48) (most + 114 * (limit + 1)))
          (fun _ => HasSpent start least (most + 114 * limit)) := by
        cases limit with
        | zero => exact .pure fun _ spent => spent
        | succ limit =>
          refine ih.weaken (fun _ spent => spent) (fun taken _ spent => ?_) fun _ _ spent => ?_
          · cases taken with
            | false => exact Spent.wider spent (Nat.le_refl _) (by omega)
            | true => exact Spent.wider spent (by omega) (by omega)
          · exact Spent.wider spent (by omega) (by omega)
      exact rest.bind fun _ => .pure fun _ spent => spent

theorem arbitrate_spent : Ensures (HasSpent start least most : Machine β → Prop) arbitrate (SpentTaken start least most 912)
    (fun _ => HasSpent start least (most + 798)) :=
  arbiterPasses_spent maxNestedTraps

end Microcode

theorem AddressingMode.cycles_le (mode : AddressingMode) : mode.cycles ≤ 18 := by
  cases mode <;> decide

/-- WAIT is the cheapest instruction and RESET the dearest. -/
theorem Instruction.cycles_between (instruction : Instruction) : 6 ≤ instruction.cycles ∧ instruction.cycles ≤ 110 := by
  have operand (operand : Operand) : operand.mode.cycles ≤ 18 := operand.mode.cycles_le
  cases instruction with
  | control op => cases op <;> decide
  | rts | codes | branch | mark | call | sob => simp [cycles, opcode, Opcode.costKind, CostKind.cycles, source?, destination?]
  | jmp dst | swab dst | jsr _ dst | sxt dst | mtps dst | mfps dst | clr _ dst | tst _ dst | unary _ _ dst | xor _ dst =>
    have one := operand dst
    simp only [cycles, opcode, Opcode.costKind, CostKind.cycles, source?, destination?]
    omega
  | mov _ src dst | cmp _ src dst | bit _ src dst | bic _ src dst | bis _ src dst | add src dst | sub src dst =>
    have one := operand src
    have other := operand dst
    simp only [cycles, opcode, Opcode.costKind, CostKind.cycles, source?, destination?]
    omega

/-- What an instruction has been charged: one that traps, for the trap alone. -/
def SpentCharged (start : UInt64) (least most : Nat) (instruction : Instruction) (retirement : Retirement)
    (machine : Machine β) : Prop :=
  match retirement with
  | .trapped _ => HasSpent start (least + 48) (most + 48) machine
  | _ => HasSpent start (least + instruction.cycles) (most + instruction.cycles) machine

/-- What any instruction has spent when it retires. -/
def SpentRetiring (start : UInt64) (least most : Nat) (retirement : Retirement) (machine : Machine β) : Prop :=
  match retirement with
  | .trapped _ => HasSpent start (least + 48) (most + 48) machine
  | _ => HasSpent start (least + 6) (most + 110) machine

namespace Microcode

variable {start : UInt64} {least most : Nat}

theorem executeCharged_spent (instruction : Instruction) :
    Ensures (HasSpent start least most : Machine β → Prop) (executeCharged instruction)
      (fun retirement machine => retirement.Of instruction ∧ SpentCharged start least most instruction retirement machine)
      (fun _ => HasSpent start least most) := by
  refine Ensures.answering ?_ (executeCharged_retires instruction)
  refine (execute_uncharged instruction _).bind fun retirement => ?_
  cases retirement with
  | completed | waiting | halting | trapped =>
    exact Ensures.bind (.modify fun _ spent => Spent.charge spent _) fun _ => .pure fun _ spent => spent

/-- A HALT that fails has been charged already. -/
theorem halt_spent : Ensures (HasSpent start least most : Machine β → Prop) halt
    (fun _ => HasSpent start least (most + 48)) (fun _ => HasSpent start least most) := by
  refine (Leaves.processor _).bind fun processor => ?_
  cases processor.model with
  | t11 =>
    exact (blind_cycles.restart _).weaken (fun _ spent => spent)
      (fun _ _ spent => Spent.wider spent (Nat.le_refl _) (Nat.le_add_right _ _)) fun _ _ spent => spent
  | vm2 =>
    exact enterHaltMode_spent.weaken (fun _ spent => spent)
      (fun _ _ spent => Spent.wider spent (Nat.le_add_right _ _) (Nat.le_refl _)) fun _ _ spent => spent

theorem executeWord_spent (word : Word) : Ensures (HasSpent start least most : Machine β → Prop) (executeWord word)
    (SpentRetiring start least most) (fun _ => HasSpent start least (most + 48)) := by
  unfold executeWord
  cases Instruction.ofWord? word with
  | none =>
    have traps : Answers (· = .trapped .reservedInstruction) (trapped .reservedInstruction : Microcode β Retirement) :=
      .last fun _ => .pure rfl
    have trapping := (trapped_uncharged rfl (Spent start least most)).answering traps
    refine (trapping.late 48).bind fun retirement => ?_
    refine Ensures.bind (.modify ?_) fun _ => .pure fun _ spent => spent
    rintro machine ⟨rfl, spent⟩
    exact Spent.charge spent 48
  | some instruction =>
    obtain ⟨above, below⟩ := instruction.cycles_between
    have within {machine : Machine β}
        (spent : HasSpent start (least + instruction.cycles) (most + instruction.cycles) machine) :
        HasSpent start (least + 6) (most + 110) machine :=
      Spent.wider spent (Nat.add_le_add_left above _) (Nat.add_le_add_left below _)
    refine ((executeCharged_spent instruction).late 48).bind fun retirement => ?_
    cases retirement with
    | completed => exact .pure fun _ ⟨_, spent⟩ => within spent
    | trapped cause => exact .pure fun _ ⟨_, spent⟩ => spent
    | waiting =>
      refine Ensures.bind (.modify ?_) fun _ => .pure fun _ spent => spent
      rintro machine ⟨_, spent⟩
      exact within spent
    | halting =>
      refine Ensures.bind ?_ fun _ => .pure fun _ spent => spent
      rintro machine ⟨own, spent⟩
      cases own
      have halted : Ensures (HasSpent start (least + 48) (most + 48) : Machine β → Prop) halt
          (fun _ => HasSpent start (least + 6) (most + 110)) (fun _ => HasSpent start least (most + 48)) :=
        halt_spent.weaken (fun _ spent => spent) (fun _ _ spent => Spent.wider spent (by omega) (by omega))
          fun _ _ spent => Spent.wider spent (Nat.le_add_right _ _) (Nat.le_refl _)
      exact halted machine spent

end Microcode

/-- The ranges of what a step answers, and its cycles are those that the counter shows. -/
def SpentOutcome (start : UInt64) (outcome : Outcome) (cycles : UInt64) : Prop :=
  match outcome with
  | .retired spent => 6 ≤ spent ∧ spent ≤ 110 ∧ cycles = start + UInt64.ofNat spent
  | .interrupted spent => 48 ≤ spent ∧ spent ≤ 912 ∧ cycles = start + UInt64.ofNat spent
  | .faulted _ spent => 48 ≤ spent ∧ spent ≤ 846 ∧ cycles = start + UInt64.ofNat spent
  | .waiting | .stopped _ | .suspended => True

namespace Machine

variable (machine : Machine β)

omit [Board β] in
theorem syncShadow_cycles : (machine.update (·.syncShadow)).processor.cycles = machine.processor.cycles := by
  rw [update_processor, Processor.syncShadow_eq]

omit [Board β] in
theorem busFaultNoted_cycles : machine.busFaultNoted.processor.cycles = machine.processor.cycles := by
  rw [busFaultNoted, update_processor, Processor.emit_eq]
  rfl

omit [Board β] in
theorem doubleFaultNoted_cycles : machine.doubleFaultNoted.processor.cycles = machine.processor.cycles := by
  rw [doubleFaultNoted, update_processor, Processor.emit_eq]
  rfl

omit [Board β] in
theorem retired_cycles (start : UInt64) (pc word : Word) :
    (machine.retired start pc word).processor.cycles = machine.processor.cycles := by
  obtain ⟨_, _, _, kept⟩ := machine.retired_processor start pc word
  rw [kept]

theorem restore_cycles (boundary : Checkpoint) : (machine.restore boundary).processor.cycles = machine.processor.cycles := by
  exact blind_cycles.restore machine boundary

end Machine

variable {machine after : Machine β} {start : UInt64}

omit [Board β] in
/-- Retiring charges nothing any more. -/
theorem SpentRetiring.outcome {retirement : Retirement} (spent : SpentRetiring start 0 0 retirement machine)
    (pc word : Word) : SpentOutcome start (retirement.outcome (machine.processor.elapsed start))
      (machine.retired start pc word).processor.cycles := by
  rw [machine.retired_cycles]
  cases retirement with
  | trapped cause =>
    obtain ⟨above, below, counted⟩ := Spent.elapsed spent (by decide)
    exact ⟨above, Nat.le_trans below (by decide), counted⟩
  | completed | waiting | halting => exact Spent.elapsed spent (by decide)

theorem Microcode.instructionCycle_spent (start : UInt64) :
    Ensures (HasSpent start 0 0 : Machine β → Prop) (instructionCycle start)
      (fun outcome machine => SpentOutcome start outcome machine.processor.cycles) (fun _ => HasSpent start 0 48) := by
  intro machine spent
  have fetching : Ensures (HasSpent start 0 0 : Machine β → Prop) fetchInstruction _ _ := fetchInstruction_uncharged _
  rw [instructionCycle_eq]
  cases fetched : fetchInstruction machine with
  | error abort broken => exact Spent.wider (fetching.error spent fetched) (Nat.le_refl _) (by decide)
  | ok word reached =>
    have begun := fetching.ok spent fetched
    simp only
    cases executed : executeWord word reached with
    | error abort broken => exact (executeWord_spent word).error begun executed
    | ok retirement done =>
      have retiring : SpentRetiring start 0 0 retirement done := (executeWord_spent word).ok begun executed
      exact retiring.outcome machine.processor.pc.even word

namespace Dispatch

variable {outcome : Outcome}

theorem doubleFault_spent (spent : HasSpent start 0 798 machine) (done : doubleFault start machine = .ok outcome after) :
    SpentOutcome start outcome after.processor.cycles := by
  cases doubleFault_ended done with
  | stopped | failed => trivial
  | @halted halted _ entered =>
    rw [HasSpent, ← machine.doubleFaultNoted_cycles] at spent
    have spent := Microcode.enterHaltMode_spent.ok spent entered
    rw [HasSpent, ← halted.syncShadow_cycles] at spent
    exact spent.elapsed (by decide)

/-- A bus error costs its trap, and what had been charged before it, which at most is a
nested arbitration. -/
theorem serviceBusFault_spent (spent : HasSpent start 0 798 machine)
    (done : serviceBusFault start machine = .ok outcome after) : SpentOutcome start outcome after.processor.cycles := by
  have entry : Ensures (HasSpent start 0 798 : Machine β → Prop) (Microcode.enterTrap TrapVector.busError) _ _ :=
    Microcode.enterTrap_uncharged TrapVector.busError _
  rw [HasSpent, ← machine.busFaultNoted_cycles] at spent
  cases serviceBusFault_ended done with
  | @trapped taken entered =>
    let charged := taken.update (·.charge CostKind.faultTrapEntry.cycles)
    have spent : HasSpent start 48 846 charged := Spent.charge (entry.ok spent entered) 48
    rw [HasSpent, ← charged.syncShadow_cycles] at spent
    exact spent.elapsed (by decide)
  | @again broken _ _ failed done =>
    have left : HasSpent start 0 798 broken := entry.error spent failed
    rw [HasSpent, ← broken.restore_cycles machine.busFaultNoted.processor.checkpoint] at left
    have cleared : HasSpent start 0 798 (broken.restore machine.busFaultNoted.processor.checkpoint).busErrorsCleared := left
    exact doubleFault_spent cleared done

/-- The cycles that a step answers are those by which it moved the cycle counter. -/
theorem boundaryStep_spent (done : boundaryStep machine = .ok outcome after) :
    SpentOutcome machine.processor.cycles outcome after.processor.cycles := by
  have none : HasSpent machine.processor.cycles 0 0 machine := .none _
  have abandoned {broken : Machine β} (spent : HasSpent machine.processor.cycles 0 798 broken)
      (served : serviceBusFault machine.processor.cycles (broken.restore machine.processor.checkpoint) = .ok outcome after) :
      SpentOutcome machine.processor.cycles outcome after.processor.cycles := by
    rw [HasSpent, ← broken.restore_cycles machine.processor.checkpoint] at spent
    exact serviceBusFault_spent spent served
  cases boundaryStep_ended done with
  | pending _ served => exact serviceBusFault_spent (none.wider (Nat.le_refl _) (by decide)) served
  | arbiterFailed _ failed served => exact abandoned (Microcode.arbitrate_spent.error none failed) served
  | @interrupted settled _ arbitrated =>
    have spent : HasSpent machine.processor.cycles 48 912 settled := Microcode.arbitrate_spent.ok none arbitrated
    rw [HasSpent, ← settled.syncShadow_cycles] at spent
    exact spent.elapsed (by decide)
  | waiting => trivial
  | @instructionFailed settled broken _ _ _ arbitrated _ failed served =>
    have idle : HasSpent machine.processor.cycles 0 0 settled := Microcode.arbitrate_spent.ok none arbitrated
    have spent := (Microcode.instructionCycle_spent _).error idle failed
    exact abandoned (spent.wider (Nat.le_refl _) (by decide)) served
  | @executed settled _ _ _ arbitrated _ executed =>
    have idle : HasSpent machine.processor.cycles 0 0 settled := Microcode.arbitrate_spent.ok none arbitrated
    exact (Microcode.instructionCycle_spent _).ok idle executed

/-- Eight nested entries are the most that one step can cost. -/
theorem step_cycles_le {cycles : Nat} (done : step machine = .ok outcome after) (told : outcome.cycles? = some cycles) :
    cycles ≤ 912 := by
  have bounded {boundary : Machine β} (stepped : boundaryStep boundary = .ok outcome after) : cycles ≤ 912 := by
    have spent := boundaryStep_spent stepped
    cases outcome with
    | waiting | stopped | suspended => cases told
    | retired | interrupted | faulted =>
      cases told
      exact Nat.le_trans spent.2.1 (by decide)
  cases step_ended done with
  | released _ _ _ stepped => exact bounded stepped
  | settled _ _ stepped => exact bounded stepped
  | held _ idle =>
    rw [idle] at told
    cases told

end Dispatch

end Pdp11
