import Pdp11.Proofs.BoardRecord
import Pdp11.Proofs.RoutineActions

/-! An instruction cycle in its three parts. The word is fetched, the word is executed,
and what retires it then asks for no cycles, so it cannot fail. -/

namespace Pdp11

variable {β : Type}

namespace Machine

/-- Where the word is about to be fetched. -/
def begun (machine : Machine β) : Machine β :=
  let pc := machine.processor.pc.even
  (machine.update fun processor => { processor.setPc pc with previousPc := pc }).update (·.emit (.instructionStart pc))

/-- What retiring an instruction leaves. -/
def retired (machine : Machine β) (start : UInt64) (pc word : Word) : Machine β :=
  let counted := machine.update fun processor =>
    { processor with
      tracePending := processor.status.trace && !processor.traceInhibited
      traceInhibited := false
      statistics := processor.statistics.countInstruction }
  (counted.update (·.emit (.instructionRetired pc word (counted.processor.elapsed start)))).update (·.syncShadow)

theorem retired_processor (machine : Machine β) (start : UInt64) (pc word : Word) :
    ∃ tracePending statistics observed, (machine.retired start pc word).processor =
      { machine.processor with
        tracePending
        traceInhibited := false
        statistics
        observed
        shadow := if machine.processor.status.haltMode then machine.processor.shadow
          else machine.processor.context } := by
  simp only [retired, update_processor, Processor.emit_eq, Processor.syncShadow_eq]
  exact ⟨_, _, _, rfl⟩

theorem retired_context (machine : Machine β) (start : UInt64) (pc word : Word) :
    (machine.retired start pc word).processor.context = machine.processor.context ∧
      (machine.retired start pc word).processor.bank = machine.processor.bank := by
  obtain ⟨_, _, _, kept⟩ := machine.retired_processor start pc word
  rw [kept]
  exact ⟨rfl, rfl⟩

theorem retired_elapsed (machine : Machine β) (start earlier : UInt64) (pc word : Word) :
    (machine.retired start pc word).processor.elapsed earlier = machine.processor.elapsed earlier := by
  obtain ⟨_, _, _, kept⟩ := machine.retired_processor start pc word
  rw [kept]
  rfl

end Machine

def Retirement.outcome (cycles : Nat) : Retirement → Outcome
  | .trapped cause => .faulted cause cycles
  | _ => .retired cycles

namespace Microcode

variable [Board β]

/-- Takes the instruction word, and leaves the program counter past it. -/
def fetchInstruction : Microcode β Word := do
  let pc := (← processor).pc.even
  update fun processor => { processor.setPc pc with previousPc := pc }
  emit (.instructionStart pc)
  fetchWord

theorem fetchInstruction_ok {word : Word} {machine fetched : Machine β} (done : fetchInstruction machine = .ok word fetched) :
    ∃ observed, fetched.processor =
      { machine.processor.setPc (machine.processor.pc.even + 2) with
        previousPc := machine.processor.pc.even
        observed } := by
  change fetchWord machine.begun = .ok word fetched at done
  obtain ⟨_, _, located, done⟩ := bind_eq_ok done
  cases located
  obtain ⟨_, reached, read, done⟩ := bind_eq_ok done
  cases done
  obtain ⟨_, kept⟩ := cycle_ok read
  have begun : machine.begun.processor.registers = machine.processor.registers.setPc machine.processor.pc.even := by
    simp only [Machine.begun, Machine.update_processor, Processor.emit_eq]
    rfl
  have pc : machine.begun.processor.registers.get .pc = machine.processor.pc.even := by
    rw [begun]
    exact RegisterFile.pc_setPc _ _
  refine ⟨machine.begun.processor.observed, ?_⟩
  change reached.processor.setPc (Word.even (machine.begun.processor.registers.get .pc) + 2) = _
  rw [kept, pc, Word.even_even]
  simp only [Processor.setPc, Processor.setRegister, begun, RegisterFile.setPc, RegisterFile.set_set]
  simp only [Machine.begun, Machine.update_processor, Processor.emit_eq]
  rfl

theorem fetchInstruction_ready {word : Word} {machine fetched : Machine β} (done : fetchInstruction machine = .ok word fetched) :
    fetched.processor.lines.hasBusError = false := by
  change fetchWord machine.begun = .ok word fetched at done
  obtain ⟨_, _, located, done⟩ := bind_eq_ok done
  cases located
  obtain ⟨_, reached, read, done⟩ := bind_eq_ok done
  cases done
  obtain ⟨ready, _, kept⟩ := cycle_eq_ok read
  change reached.processor.lines.hasBusError = false
  rw [kept]
  exact ready

theorem instructionCycle_eq (start : UInt64) (machine : Machine β) : instructionCycle start machine =
    match fetchInstruction machine with
    | .error abort broken => .error abort broken
    | .ok word fetched =>
      match executeWord word fetched with
      | .error abort broken => .error abort broken
      | .ok retirement executed =>
        let retired := executed.retired start machine.processor.pc.even word
        .ok (retirement.outcome (executed.processor.elapsed start)) retired := by
  have fetching : fetchInstruction machine = fetchWord machine.begun := rfl
  have unfolded : instructionCycle start machine = (do
      let word ← fetchWord
      let retirement ← executeWord word
      update fun processor =>
        { processor with
          tracePending := processor.status.trace && !processor.traceInhibited
          traceInhibited := false
          statistics := processor.statistics.countInstruction }
      let cycles := (← processor).elapsed start
      emit (.instructionRetired machine.processor.pc.even word cycles)
      update (·.syncShadow)
      match retirement with
      | .trapped cause => return .faulted cause cycles
      | _ => return .retired cycles : Microcode β Outcome) machine.begun := rfl
  rw [unfolded, fetching]
  simp only [Bind.bind]
  rw [EStateM.bind]
  cases fetchWord machine.begun with
  | error abort broken => rfl
  | ok word fetched =>
    simp only
    rw [EStateM.bind]
    cases executeWord word fetched with
    | error abort broken => rfl
    | ok retirement executed => cases retirement <;> rfl

variable {allowed : Scope} {machine broken after : Machine β} {start : UInt64}

theorem acts_fetchInstruction : Acts allowed (fetchInstruction : Microcode β Word) :=
  acts_processor.bind fun _ => (acts_begin _).bind fun _ => (acts_emit _).bind fun _ => acts_fetchWord

theorem instructionCycle_ok {outcome : Outcome} (done : instructionCycle start machine = .ok outcome after) :
    ∃ word fetched retirement executed, fetchInstruction machine = .ok word fetched ∧
      executeWord word fetched = .ok retirement executed ∧
      after = executed.retired start machine.processor.pc.even word := by
  rw [instructionCycle_eq] at done
  cases fetch : fetchInstruction machine with
  | error abort broken =>
    rw [fetch] at done
    cases done
  | ok word fetched =>
    cases execution : executeWord word fetched with
    | error abort broken =>
      simp only [fetch, execution] at done
      cases done
    | ok retirement executed =>
      simp only [fetch, execution] at done
      cases done
      exact ⟨word, fetched, retirement, executed, rfl, execution, rfl⟩

/-- An instruction that breaks off has not come to its retirement. -/
theorem instructionCycle_error {abort : Abort} (failed : instructionCycle start machine = .error abort broken) :
    fetchInstruction machine = .error abort broken ∨
      ∃ word fetched, fetchInstruction machine = .ok word fetched ∧ executeWord word fetched = .error abort broken := by
  rw [instructionCycle_eq] at failed
  cases fetch : fetchInstruction machine with
  | error cause left =>
    rw [fetch] at failed
    cases failed
    exact .inl rfl
  | ok word fetched =>
    cases execution : executeWord word fetched with
    | error cause left =>
      simp only [fetch, execution] at failed
      cases failed
      exact .inr ⟨word, fetched, rfl, execution⟩
    | ok retirement executed =>
      simp only [fetch, execution] at failed
      cases failed

theorem rtt_error {word : Word} {abort : Abort} (found : Instruction.ofWord? word = some (.control .rtt))
    (failed : executeWord word machine = .error abort broken) : returnFromTrap machine = .error abort broken := by
  simp only [executeWord, found, executeCharged, execute, executeControl, Bind.bind, EStateM.bind] at failed
  cases returned : returnFromTrap machine with
  | error cause left =>
    rw [returned] at failed
    cases failed
    rfl
  | ok _ after =>
    rw [returned] at failed
    cases failed

theorem reset_answers (machine : Machine β) {word : Word} (found : Instruction.ofWord? word = some (.control .reset)) :
    ∃ after, executeWord word machine = .ok .completed after := by
  simp only [executeWord, found]
  exact ⟨_, rfl⟩

/-- No trace is inhibited and no line is dropped before the last cycle that can fail. -/
theorem executeWord_broken {word : Word} {abort : Abort} (halts : allowed.Halts machine.processor.model)
    (failed : executeWord word machine = .error abort broken) : Broken allowed machine abort broken := by
  by_cases inhibits : Instruction.ofWord? word = some (.control .rtt)
  · exact acts_returnFromTrap.error (rtt_error inhibits failed)
  by_cases lowers : Instruction.ofWord? word = some (.control .reset)
  · obtain ⟨after, done⟩ := reset_answers machine lowers
    rw [failed] at done
    cases done
  · refine (acts_executeWord word halts fun instruction found => ⟨fun rtt => ?_, fun reset => ?_⟩).error rfl failed
    · exact absurd (rtt ▸ found) inhibits
    · exact absurd (reset ▸ found) lowers

theorem instructionCycle_broken {abort : Abort} (halts : allowed.Halts machine.processor.model)
    (failed : instructionCycle start machine = .error abort broken) : Broken allowed machine abort broken := by
  rcases instructionCycle_error failed with unread | ⟨word, fetched, fetch, execution⟩
  · exact acts_fetchInstruction.error unread
  · have path : Actions allowed machine fetched := acts_fetchInstruction.ok fetch
    exact path.broken (executeWord_broken (path.sameSetting.model ▸ halts) execution)

end Microcode
end Pdp11
