import Pdp11.Proofs.RunBounds
import Pdp11.Proofs.Script

/-! Where an operation can be stopped. Only arbitration asks devices for vectors and only a
vector can stop an operation, so every other part of its script comes to its end, and
leaves the requests of the devices to them. -/

namespace Pdp11

section Boards

variable {β : Type} [Board β]

/-- On the way from one machine to another no device has been asked, and the processor is
the same. -/
structure Unheard (before after : Machine β) : Prop where
  devices : ∀ lasting : β → Prop, PersistentIn (.without .acknowledge) lasting → lasting before.board → lasting after.board
  configuration : after.processor.configuration = before.processor.configuration

variable {α : Type} {machine : Machine β}

theorem Unheard.refl (machine : Machine β) : Unheard machine machine := ⟨fun _ _ holds => holds, rfl⟩

theorem ActsFrom.configuration {allowed : Scope} {code : Microcode β α} (acts : ActsFrom allowed machine code) :
    (ended (code machine)).processor.configuration = machine.processor.configuration := by
  cases result : code machine with
  | ok value after =>
    have path : Actions allowed machine after := acts.ok rfl result
    exact path.sameSetting.configuration
  | error abort broken => exact (acts.error rfl result).path.sameSetting.configuration

theorem Unheard.acts {code : Microcode β α} (acts : ActsFrom (.without .acknowledge) machine code) :
    Unheard machine (ended (code machine)) :=
  ⟨fun _ persistent holds => (acts.keepsBoard persistent holds).ended, acts.configuration⟩

theorem Unheard.loadStartBlock (machine : Machine β) : Unheard machine (ended (Microcode.loadStartBlock machine)) := by
  refine ⟨fun _ persistent holds => ((Microcode.loadStartBlock_keepsBoard persistent).startingAt holds).ended, ?_⟩
  cases result : Microcode.loadStartBlock machine with
  | ok value after =>
    obtain ⟨pc, status, board, _, rfl⟩ := Microcode.loadStartBlock_ok result
    simp only [ended, Machine.started, Machine.update_processor, Machine.installStatus_processor]
    rfl
  | error abort broken =>
    obtain ⟨_, lines, _, kept⟩ := Microcode.loadStartBlock_error result
    simp only [ended, kept]

/-- The part comes to its end, and no device is asked in it. -/
def Discreet (code : Dispatch β α) (machine : Machine β) : Prop :=
  ∃ answer after, code machine = .ok answer after ∧ Unheard machine after

namespace Discreet

theorem processor : Discreet Dispatch.processor machine := ⟨_, _, rfl, .refl _⟩

theorem update {change : Processor → Processor}
    (kept : (change machine.processor).configuration = machine.processor.configuration) :
    Discreet (Dispatch.update change) machine := ⟨_, _, rfl, fun _ _ holds => holds, kept⟩

theorem syncShadow : Discreet Dispatch.syncShadow machine := update (by rw [Processor.syncShadow_eq])

theorem note (code : FaultCode) (pc : Word) (event : TraceEvent) :
    Discreet (Dispatch.update fun processor => (processor.recordFault code pc).emit event) machine :=
  update (by rw [Processor.emit_eq]; rfl)

theorem elapsed (start : UInt64) : Discreet (Dispatch.elapsed start) machine := ⟨_, _, rfl, .refl _⟩

theorem selectBank (bank : Bank) : Discreet (modify (·.selectBank bank)) machine :=
  ⟨_, _, rfl, fun _ persistent holds => persistent.selected bank holds, rfl⟩

theorem restore (boundary : Checkpoint) : Discreet (Dispatch.restore boundary) machine := by
  refine ⟨_, _, rfl, fun _ persistent holds => persistent.restore boundary holds, ?_⟩
  change (machine.restore boundary).processor.configuration = _
  rw [Machine.restore, Machine.installStatus_processor]
  rfl

theorem attempt {code : Microcode β α}
    (cycles : ∀ abort broken, code machine = .error abort broken → abort = .failedCycle)
    (unheard : Unheard machine (ended (code machine))) : Discreet (Dispatch.attempt code) machine := by
  unfold Discreet Dispatch.attempt
  cases result : code machine with
  | ok value after =>
    rw [result] at unheard
    exact ⟨some value, after, rfl, unheard⟩
  | error abort broken =>
    cases cycles abort broken result
    rw [result] at unheard
    exact ⟨none, broken, rfl, unheard⟩

theorem attempt_acts {code : Microcode β α} (cycles : Microcode.OnlyCyclesFail code)
    (acts : ActsFrom (.without .acknowledge) machine code) : Discreet (Dispatch.attempt code) machine :=
  attempt (fun abort broken failed => cycles machine broken abort failed) (.acts acts)

theorem loadStartBlock : Discreet (Dispatch.attempt Microcode.loadStartBlock) machine :=
  attempt (fun _ _ failed => (Microcode.loadStartBlock_error failed).1) (.loadStartBlock machine)

theorem instructionCycle (start : UInt64) : Discreet (Dispatch.attempt (Microcode.instructionCycle start)) machine := by
  have halts (model : Model) : (Scope.without .acknowledge).Halts model := Scope.without_halts (by decide) (by decide) model
  have executes (instruction : Instruction) : (Scope.without .acknowledge).Executes instruction := ⟨nofun, fun _ => ⟨nofun, nofun⟩⟩
  exact attempt_acts (.instructionCycle start) (Microcode.acts_instruction halts executes nofun start machine)

end Discreet

end Boards

namespace Script

variable {α β γ : Type}

/-- The script, from the first machine, arbitrates at the second one. -/
inductive Arbitrates [Board β] : Script β α → Machine β → Machine β → Prop where
  | now {next : Option Bool → Script β α} {machine : Machine β} :
      Arbitrates (act (Dispatch.attempt Microcode.arbitrate) next) machine machine
  | later {γ : Type} {code : Dispatch β γ} {next : γ → Script β α} {machine after boundary : Machine β} {answer : γ}
      (done : code machine = .ok answer after) (rest : Arbitrates (next answer) after boundary) :
      Arbitrates (act code next) machine boundary

/-- A script in which only arbitration asks devices, and nothing else can be stopped. It
arbitrates at most so many times. -/
inductive Orderly [Board β] : Nat → Script β α → Machine β → Prop where
  | done (most : Nat) (value : α) (machine : Machine β) : Orderly most (done value) machine
  | discreet {γ : Type} {most : Nat} {code : Dispatch β γ} {next : γ → Script β α} {machine after : Machine β} {answer : γ}
      (done : code machine = .ok answer after) (unheard : Unheard machine after)
      (rest : Orderly most (next answer) after) : Orderly most (act code next) machine
  | arbitrates {most : Nat} {next : Option Bool → Script β α} {machine : Machine β}
      (rest : ∀ answer after, Dispatch.attempt Microcode.arbitrate machine = .ok answer after →
        Orderly most (next answer) after) :
      Orderly (most + 1) (act (Dispatch.attempt Microcode.arbitrate) next) machine

variable [Board β] {machine : Machine β}

theorem ended_attempt_arbitrate (machine : Machine β) :
    ended (Dispatch.attempt Microcode.arbitrate machine) = ended (Microcode.arbitrate machine) := by
  unfold Dispatch.attempt
  cases Microcode.arbitrate machine with
  | ok => rfl
  | error abort broken =>
    cases abort with
    | failedCycle | misaligned => rfl

theorem Arbitrates.stops {script : Script β α} {boundary broken : Machine β} {stop : MisalignedVector}
    (arbitrates : script.Arbitrates machine boundary)
    (stopped : Microcode.arbitrate boundary = .error (.misaligned stop) broken) :
    script.perform machine = .error stop broken := by
  induction arbitrates with
  | now =>
    refine bind_of_error ?_ _
    unfold Dispatch.attempt
    rw [stopped]
  | later done _ ih =>
    rw [perform, bind_of_ok done]
    exact ih stopped

namespace Orderly

variable {most : Nat}

theorem finished (value : α) : Orderly most (pure value : Script β α) machine := .done most value machine

theorem after {code : Dispatch β γ} {next : γ → Script β α} (free : Discreet code machine)
    (rest : ∀ answer after, code machine = .ok answer after → Orderly most (next answer) after) :
    Orderly most (part code >>= next) machine := by
  obtain ⟨answer, after, done, unheard⟩ := free
  exact .discreet done unheard (rest answer after done)

theorem alone {code : Dispatch β α} (free : Discreet code machine) : Orderly most (part code) machine :=
  after free fun value _ _ => .finished value

theorem arbitrated {next : Option Bool → Script β α}
    (rest : ∀ answer after, Dispatch.attempt Microcode.arbitrate machine = .ok answer after →
      Orderly most (next answer) after) :
    Orderly (most + 1) (part (Dispatch.attempt Microcode.arbitrate) >>= next) machine := .arbitrates rest

theorem mono {script : Script β α} {more : Nat} (orderly : Orderly most script machine) (within : most ≤ more) :
    Orderly more script machine := by
  induction orderly generalizing more with
  | done _ value machine => exact .done more value machine
  | discreet done unheard _ ih => exact .discreet done unheard (ih within)
  | arbitrates _ ih =>
    obtain ⟨more, rfl⟩ : ∃ rest, more = rest + 1 := ⟨more - 1, by omega⟩
    exact .arbitrates fun answer after done => ih answer after done (Nat.le_of_succ_le_succ within)

theorem bind {later : Nat} {script : Script β γ} {next : γ → Script β α} (first : Orderly most script machine)
    (rest : ∀ answer after, script.perform machine = .ok answer after → Orderly later (next answer) after) :
    Orderly (most + later) (script >>= next) machine := by
  induction first with
  | done most value machine => exact (rest value machine rfl).mono (Nat.le_add_left later most)
  | discreet done unheard _ ih =>
    refine .discreet done unheard (ih fun answer after performed => rest answer after ?_)
    rw [perform, bind_of_ok done]
    exact performed
  | @arbitrates most _ _ _ ih =>
    rw [Nat.add_right_comm]
    refine .arbitrates fun answer after done => ih answer after done fun value last performed => rest value last ?_
    rw [perform, bind_of_ok done]
    exact performed

/-- A script that goes on where another one arbitrates no more. -/
theorem map {script : Script β γ} {next : γ → Script β α} (first : Orderly most script machine)
    (rest : ∀ answer after, script.perform machine = .ok answer after → Orderly 0 (next answer) after) :
    Orderly most (script >>= next) machine := first.bind rest

theorem boundary {script : Script β α} {boundary : Machine β} (orderly : Orderly most script machine)
    (arbitrates : script.Arbitrates machine boundary) :
    boundary.processor.configuration = machine.processor.configuration := by
  induction arbitrates generalizing most with
  | now => rfl
  | @later _ code next machine after boundary answer done _ ih =>
    cases orderly with
    | discreet finished unheard rest =>
      rw [done] at finished
      cases finished
      exact (ih rest).trans unheard.configuration
    | arbitrates rest =>
      have kept := (Microcode.acts_arbitrate machine).configuration
      rw [← ended_attempt_arbitrate, done] at kept
      exact (ih (rest _ _ done)).trans kept

end Orderly

variable (machine) {most : Nat}

open Orderly

theorem resetVm2_orderly : Orderly most (resetVm2 : Script β Unit) machine := by
  refine .after (.selectBank _) fun _ _ _ => .after (.selectBank _) fun _ _ _ => ?_
  refine .after ⟨_, _, rfl, fun _ _ holds => holds, rfl⟩ fun _ _ _ => .after .loadStartBlock fun loaded _ _ => ?_
  cases loaded with
  | some done => exact .finished _
  | none => exact .after (.update rfl) fun _ _ _ => .alone (.update rfl)

theorem reset_orderly : Orderly most (reset : Script β Unit) machine := by
  refine .after (.update rfl) fun _ cleared _ => .after .processor fun processor _ _ => ?_
  cases processor.model with
  | t11 => exact .after (.update rfl) fun _ _ _ => .alone .syncShadow
  | vm2 => exact (resetVm2_orderly _).map fun _ _ _ => .alone .syncShadow

theorem recoverDoubleFault_orderly : Orderly most (recoverDoubleFault : Script β Bool) machine := by
  refine .after .processor fun _ _ read => ?_
  cases read
  cases has : machine.processor.model with
  | t11 => exact .finished _
  | vm2 =>
    refine .after .processor fun _ _ read => ?_
    cases read
    have halts : (Scope.without .acknowledge).Halts .vm2 := Scope.without_halts (by decide) (by decide) .vm2
    refine .after (.attempt_acts .enterHaltMode (Microcode.acts_enterHaltMode has halts)) fun entered _ _ => ?_
    cases entered with
    | some done => exact .finished _
    | none => exact .after (.restore _) fun _ _ _ => .after (.update rfl) fun _ _ _ => .finished _

theorem doubleFault_orderly (start : UInt64) : Orderly most (doubleFault start : Script β Outcome) machine := by
  refine .after .processor fun _ _ _ => .after (.note _ _ _) fun _ noted _ => ?_
  refine (recoverDoubleFault_orderly noted).map fun recovered _ _ => ?_
  cases recovered with
  | true => exact .after .syncShadow fun _ _ _ => .after (.elapsed start) fun _ _ _ => .finished _
  | false => exact .after (.update rfl) fun _ _ _ => .finished _

theorem serviceBusFault_orderly (start : UInt64) : Orderly most (serviceBusFault start : Script β Outcome) machine := by
  refine .after .processor fun _ _ _ => .after (.note _ _ _) fun _ _ _ => .after (.update rfl) fun _ _ _ => ?_
  refine .after .processor fun _ _ _ => ?_
  refine .after (.attempt_acts (.enterTrap (by decide)) (Microcode.acts_enterTrap _ _)) fun entered _ _ => ?_
  cases entered with
  | some done =>
    exact .after (.update rfl) fun _ _ _ => .after .syncShadow fun _ _ _ =>
      .after (.elapsed start) fun _ _ _ => .finished _
  | none => exact .after (.restore _) fun _ _ _ => .after (.update rfl) fun _ _ _ => doubleFault_orderly _ start

theorem boundaryStep_orderly : Orderly 1 (boundaryStep : Script β Outcome) machine := by
  refine .after .processor fun before _ _ => ?_
  by_cases pending : before.lines.hasBusError
  · simp only [pending, if_true]
    exact serviceBusFault_orderly _ _
  simp only [pending, Bool.false_eq_true, if_false]
  refine .arbitrated fun arbitrated _ _ => ?_
  match arbitrated with
  | none => exact .after (.restore _) fun _ _ _ => serviceBusFault_orderly _ _
  | some true => exact .after .syncShadow fun _ _ _ => .after (.elapsed _) fun _ _ _ => .finished _
  | some false =>
    refine .after .processor fun settled _ _ => ?_
    by_cases idle : settled.runState = .waiting
    · simp only [idle, if_true]
      exact .finished _
    simp only [idle, if_false]
    refine .after (.instructionCycle _) fun executed _ _ => ?_
    cases executed with
    | some outcome => exact .finished _
    | none => exact .after (.restore _) fun _ _ _ => serviceBusFault_orderly _ _

theorem step_orderly : Orderly 1 (step : Script β Outcome) machine := by
  refine .after .processor fun before _ _ => ?_
  cases before.runState with
  | suspended | latched cause => exact .finished _
  | running | waiting =>
    by_cases due : before.resetOnResume
    · simp only [due, if_true]
      have begun (before : Machine β) : Orderly (0 + 1) (do reset; boundaryStep : Script β Outcome) before :=
        (reset_orderly before).bind fun _ fresh _ => boundaryStep_orderly fresh
      exact begun _
    · simp only [due, Bool.false_eq_true, if_false]
      exact boundaryStep_orderly _

theorem checkInterrupts_orderly : Orderly 1 (checkInterrupts : Script β Bool) machine := by
  refine .after .processor fun before _ _ => ?_
  cases before.runState with
  | suspended | latched cause => exact .finished _
  | running | waiting =>
    refine .arbitrated fun arbitrated _ _ => ?_
    match arbitrated with
    | some true => exact .after .syncShadow fun _ _ _ => .finished _
    | some false => exact .finished _
    | none =>
      exact .after (.restore _) fun _ _ _ => .after .processor fun _ _ _ =>
        (serviceBusFault_orderly _ _).map fun _ _ _ => .finished _

/-- A run arbitrates once in each of its steps, and has no more of them than cycles. -/
theorem runFrom_orderly (budget : UInt32) (consumed : Nat) :
    Orderly (budget.toNat - consumed) (runFrom budget consumed : Script β Nat) machine := by
  induction consumed using Dispatch.runFrom.induct budget generalizing machine with
  | case1 consumed within ih =>
    rw [runFrom, dif_pos within]
    have limited := budget.toNat_lt
    have spent : 1 + (budget.toNat - (consumed + 1)) ≤ budget.toNat - consumed := by omega
    refine ((step_orderly machine).bind fun outcome after _ => ?_).mono spent
    cases outcome.cycles? with
    | some cycles => exact (ih cycles after).mono (by omega)
    | none => exact .finished _
  | case2 consumed spent =>
    rw [runFrom, dif_neg spent]
    exact .finished _

end Script

namespace Operation

/-- How often an operation arbitrates at most. -/
def arbitrations : Operation → Nat
  | step | checkInterrupts => 1
  | run budget => budget.toNat
  | reset | drive .. | suspend | resume | observe _ => 0

theorem orderly {β : Type} [Board β] (operation : Operation) (machine : Machine β) :
    Script.Orderly operation.arbitrations (operation.script : Script β Response) machine := by
  have updated {change : Processor → Processor}
      (kept : (change machine.processor).configuration = machine.processor.configuration) :
      Discreet (do Dispatch.update change; return .done : Dispatch β Response) machine :=
    ⟨_, _, rfl, fun _ _ holds => holds, kept⟩
  cases operation with
  | reset => exact (Script.reset_orderly machine).map fun _ _ _ => .finished _
  | step => exact (Script.step_orderly machine).map fun _ _ _ => .finished _
  | run budget => exact (Script.runFrom_orderly machine budget 0).map fun _ _ _ => .finished _
  | checkInterrupts => exact (Script.checkInterrupts_orderly machine).map fun _ _ _ => .finished _
  | drive line asserted | suspend | observe on => exact .alone (updated rfl)
  | resume =>
    refine .alone (updated ?_)
    split <;> rfl

end Operation
end Pdp11
