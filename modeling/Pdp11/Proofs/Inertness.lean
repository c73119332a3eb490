import Pdp11.Proofs.CycleCount
import Pdp11.Proofs.History
import Pdp11.Proofs.Latching

/-! A processor that a double fault has stopped does nothing more until it is reset.
There are two gaps: the reset owed after a resumption may latch, and the step goes on;
and a check of interrupts does not wait for that reset. -/

namespace Pdp11

open Microcode

/-- Only pins and the driver's own bookkeeping differ, and no cycle was asked for. -/
structure Inert {β : Type} (before after : Machine (Recorded β)) : Prop where
  processor : ∃ lines runState resetOnResume observed,
    after.processor = { before.processor with lines, runState, resetOnResume, observed }
  cycles : after.board.cycles = before.board.cycles

/-- Nothing but a reset will make it go on. -/
def Processor.Held (processor : Processor) : Prop := processor.Live → processor.resetOnResume = true

theorem Processor.Latched.held {processor : Processor} (latched : processor.Latched) : processor.Held :=
  fun live => absurd latched live.not_latched

theorem Inert.refl {β : Type} (machine : Machine (Recorded β)) : Inert machine machine := ⟨⟨_, _, _, _, rfl⟩, rfl⟩

theorem Inert.update {β : Type} {machine : Machine (Recorded β)} {change : Processor → Processor}
    (kept : ∃ lines runState resetOnResume observed,
      change machine.processor = { machine.processor with lines, runState, resetOnResume, observed }) :
    Inert machine (machine.update change) := ⟨kept, rfl⟩

theorem Inert.not_counts {β : Type} {machine after : Machine (Recorded β)} (inert : Inert machine after) :
    ¬after.board.Counts (machine.board.cycles.length + 1) := by
  intro counts
  have many := counts.many
  rw [inert.cycles] at many
  omega

variable {β : Type} [Board β] {machine after : Machine (Recorded β)}

namespace Dispatch

theorem checkInterrupts_live (done : checkInterrupts machine = .ok true after) : machine.processor.Live := by
  cases checkInterrupts_ended done with
  | taken live | failed live => exact live

/-- A check that took something asked for a cycle, also one that it could not have. -/
theorem checkInterrupts_counts {least : Nat} (done : checkInterrupts machine = .ok true after)
    (counts : machine.board.Counts least) : after.board.Counts (least + 1) := by
  cases checkInterrupts_ended done with
  | @taken settled _ arbitrated =>
    have counted : settled.board.Counts (least + 1) := arbitrate_counts arbitrated counts
    exact counted
  | failed _ failed served =>
    have steady := Recorded.counts_persistent (β := β) (least + 1)
    have restored := steady.restore machine.processor.checkpoint ((acts_arbitrate.error failed).counts counts)
    exact (steady.enduring.serviceBusFault _).ok restored served

theorem checkInterrupts_inert (done : checkInterrupts machine = .ok false after) :
    ∃ lines, after.processor = { machine.processor with lines } ∧ after.board.cycles = machine.board.cycles := by
  cases checkInterrupts_ended done with
  | held => exact ⟨_, rfl, rfl⟩
  | quiet _ arbitrated =>
    obtain ⟨lines, kept, same | asked⟩ := arbiterPass_idle (arbitrate_idle arbitrated)
    · exact ⟨lines, kept, by rw [same]⟩
    · refine ⟨lines, kept, ?_⟩
      rw [asked]
      exact Recorded.acknowledgeChain_cycles machine.board

end Dispatch

/-- The reset that ends a latch, by itself or at the start of a step. -/
def Episode.Resets (episode : Episode β) : Prop :=
  episode.operation = .reset ∨ episode.operation.Steps ∧ episode.before.processor.Released

/-- A check of interrupts that took something although a reset was owed. -/
def Episode.ActsEarly (episode : Episode β) : Prop :=
  episode.operation = .checkInterrupts ∧ episode.before.processor.Released ∧ episode.response = .taken true

theorem Operation.held_inert {operation : Operation} {response : Response}
    (performed : operation.perform machine = .ok response after) (held : machine.processor.Held)
    (kept : operation ≠ .reset) (stopped : operation.Steps → ¬machine.processor.Live)
    (quiet : operation = .checkInterrupts → response ≠ .taken true) : Inert machine after ∧ after.processor.Held := by
  cases operation with
  | reset => exact absurd rfl kept
  | step =>
    rw [Operation.stopped_stays performed trivial (stopped trivial)]
    exact ⟨.refl machine, held⟩
  | run budget =>
    have idle : after = machine := by
      by_cases within : 0 < budget.toNat
      · exact Operation.stopped_stays performed trivial (stopped within)
      · obtain ⟨_, _, done, answered⟩ := bind_eq_ok performed
        cases answered
        rw [Dispatch.run_spent within] at done
        cases done
        rfl
    rw [idle]
    exact ⟨.refl machine, held⟩
  | checkInterrupts =>
    obtain ⟨taken, _, done, answered⟩ := bind_eq_ok performed
    cases answered
    cases taken with
    | true => exact absurd rfl (quiet rfl)
    | false =>
      obtain ⟨lines, same, cycles⟩ := Dispatch.checkInterrupts_inert done
      refine ⟨⟨⟨lines, _, _, _, same⟩, cycles⟩, ?_⟩
      rw [same]
      exact held
  | drive line asserted =>
    cases performed
    exact ⟨.update ⟨_, _, _, _, rfl⟩, held⟩
  | suspend =>
    cases performed
    refine ⟨.update ⟨_, _, _, _, rfl⟩, fun live => ?_⟩
    rcases live with running | waiting
    · cases running
    · cases waiting
  | resume =>
    cases performed
    by_cases suspended : machine.processor.runState = .suspended
    · simp only [Machine.update, suspended, if_true]
      exact ⟨⟨⟨_, _, _, _, rfl⟩, rfl⟩, fun _ => rfl⟩
    · simp only [Machine.update, suspended, if_false]
      exact ⟨.refl machine, held⟩
  | observe on =>
    cases performed
    exact ⟨.update ⟨_, _, _, _, rfl⟩, held⟩

theorem Episode.inert_or_early {episode : Episode (Recorded β)} (recording : episode.before.board.recording = true)
    (held : episode.before.processor.Held) (kept : ¬episode.Resets) :
    Inert episode.before episode.after ∧ episode.after.processor.Held ∧ ¬episode.ActsEarly ∨
      ¬Inert episode.before episode.after ∧ episode.ActsEarly := by
  obtain ⟨operation, before, response, after, performed⟩ := episode
  by_cases early : operation = .checkInterrupts ∧ response = .taken true
  · obtain ⟨rfl, rfl⟩ := early
    obtain ⟨taken, _, done, answered⟩ := bind_eq_ok performed
    cases answered
    have live := Dispatch.checkInterrupts_live done
    refine .inr ⟨fun inert => ?_, rfl, ⟨live, held live⟩, rfl⟩
    exact inert.not_counts (Dispatch.checkInterrupts_counts done ⟨recording, Nat.le_refl _⟩)
  · obtain ⟨inert, remains⟩ := Operation.held_inert performed held (fun reset => kept (.inl reset))
      (fun steps live => kept (.inr ⟨steps, live, held live⟩)) fun check taken => early ⟨check, taken⟩
    exact .inl ⟨inert, remains, fun acts => early ⟨acts.1, acts.2.2⟩⟩

theorem Episodes.inert_iff {processor last : Processor} {later : List (Episode (Recorded β))}
    (episodes : Episodes processor later last) (held : processor.Held)
    (kept : ∀ episode ∈ later, episode.before.board.recording = true ∧ ¬episode.Resets) :
    (∀ episode ∈ later, Inert episode.before episode.after) ↔ ∀ episode ∈ later, ¬episode.ActsEarly := by
  induction episodes with
  | none => simp
  | next episode rest ih =>
    rw [List.forall_mem_cons] at kept
    rw [List.forall_mem_cons, List.forall_mem_cons]
    obtain ⟨⟨recording, unreset⟩, kept⟩ := kept
    rcases episode.inert_or_early recording held unreset with ⟨inert, held, patient⟩ | ⟨active, early⟩
    · rw [ih held kept]
      exact and_congr_left' (iff_of_true inert patient)
    · exact iff_of_false (fun both => active both.1) (fun both => both.1 early)

namespace Dispatch

theorem boundaryStep_counts {least : Nat} {outcome : Outcome} (fresh : Fresh machine.processor)
    (done : boundaryStep machine = .ok outcome after) (counts : machine.board.Counts least) :
    after.board.Counts (least + 1) := by
  rw [boundaryStep_fresh fresh] at done
  cases ended : instructionCycle machine.processor.cycles machine with
  | ok answer reached =>
    rw [ended] at done
    cases done
    exact instructionCycle_counts ended counts
  | error abort broken =>
    rw [ended] at done
    cases abort with
    | misaligned stop => cases done
    | failedCycle =>
      have steady := Recorded.counts_persistent (β := β) (least + 1)
      have counted := ((acts_instructionCycle _).error ended).counts counts
      exact (steady.enduring.serviceBusFault _).ok (steady.restore machine.processor.checkpoint counted) done

end Dispatch

/-- A step that carries on past its latch asks for at least one more cycle. -/
theorem Operation.CarriesOn.not_inert {operation : Operation} {response : Response}
    (carries : operation.CarriesOn machine) (recording : machine.board.recording = true)
    (performed : operation.perform machine = .ok response after) :
    ∃ moment, Dispatch.reset machine = .ok () moment ∧ operation.script.Latches machine moment ∧
      ¬Inert moment after := by
  obtain ⟨moment, done, fresh, latches⟩ := carries.latches
  obtain ⟨steps, released, _⟩ := carries
  refine ⟨moment, done, latches, fun inert => inert.not_counts ?_⟩
  have noted : moment.board.recording = true := Recorded.recording_persistent.enduring.reset.ok recording done
  have counts : moment.board.Counts moment.board.cycles.length := ⟨noted, Nat.le_refl _⟩
  have first {outcome : Outcome} {stepped : Machine (Recorded β)} (ended : Dispatch.step machine = .ok outcome stepped) :
      stepped.board.Counts (moment.board.cycles.length + 1) := by
    rw [Dispatch.step_eq released.live, if_pos released.due, bind_of_ok done] at ended
    exact Dispatch.boundaryStep_counts fresh ended counts
  cases operation with
  | step =>
    obtain ⟨_, _, ended, answered⟩ := bind_eq_ok performed
    cases answered
    exact first ended
  | run budget =>
    have within : 0 < budget.toNat := steps
    obtain ⟨_, _, ended, answered⟩ := bind_eq_ok performed
    cases answered
    rw [Dispatch.run, Dispatch.runFrom, dif_pos within] at ended
    obtain ⟨outcome, stepped, begun, rest⟩ := bind_eq_ok ended
    have steady := Recorded.counts_persistent (β := β) (moment.board.cycles.length + 1)
    cases active : outcome.cycles? with
    | none =>
      simp only [active] at rest
      cases rest
      exact first begun
    | some cycles =>
      simp only [active] at rest
      exact (Dispatch.runFrom_keeps steady.enduring.step budget _).ok (first begun) rest
  | reset | checkInterrupts | drive line asserted | suspend | resume | observe on => exact steps.elim

/-- From where an operation latches, the processor is inert through the rest of it and
through all that follows, up to the next reset, exactly if the operation did not begin
with the reset that latched, and no check of interrupts takes something while a reset
is owed. -/
theorem latch_inert_iff {operation : Operation} {response : Response} {moment : Machine (Recorded β)}
    {last : Processor} {later : List (Episode (Recorded β))} (recording : machine.board.recording = true)
    (performed : operation.perform machine = .ok response after) (latches : operation.script.Latches machine moment)
    (episodes : Episodes after.processor later last)
    (kept : ∀ episode ∈ later, episode.before.board.recording = true ∧ ¬episode.Resets) :
    ((∀ moment, operation.script.Latches machine moment → Inert moment after) ∧
        ∀ episode ∈ later, Inert episode.before episode.after) ↔
      ¬operation.CarriesOn machine ∧ ∀ episode ∈ later, ¬episode.ActsEarly := by
  by_cases carries : operation.CarriesOn machine
  · obtain ⟨began, _, first, active⟩ := carries.not_inert recording performed
    exact iff_of_false (fun both => active (both.1 began first)) fun both => both.1 carries
  · have ends {moment : Machine (Recorded β)} (latches : operation.script.Latches machine moment) : moment = after := by
      obtain ⟨_, _, finished⟩ := Operation.endsLatched carries moment latches
      rw [Operation.perform_script, performed] at finished
      cases finished
      rfl
    have latched : after.processor.Latched := ends latches ▸ latches.latched
    rw [episodes.inert_iff latched.held kept]
    refine and_congr_left' (iff_of_true (fun moment latches => ?_) carries)
    rw [ends latches]
    exact .refl after

def unreadableStart : Machine (Recorded (Faulty FlatBoard)) where
  processor := .create { model := .vm2 }
  board := { board := { board := FlatBoard.load {} 0 [0o240], refused := [0, 1] } }

def stoppedByReset : Machine (Recorded (Faulty FlatBoard)) := ended (Dispatch.reset unreadableStart)

def stoppedStep : Episode (Recorded (Faulty FlatBoard)) where
  operation := .step
  before := stoppedByReset
  response := .outcome (.stopped .doubleFault)
  after := stoppedByReset
  performed := rfl

theorem latch_inert_stoppedByReset :
    stoppedByReset.processor.Latched ∧
      (∀ moment, Operation.reset.script.Latches unreadableStart moment → Inert moment stoppedByReset) ∧
      Inert stoppedStep.before stoppedStep.after := by
  have performed : Operation.reset.perform unreadableStart = .ok .done stoppedByReset := eq_ok_of_answer (by decide +kernel)
  have latched : stoppedByReset.processor.Latched := by decide +kernel
  have finished := performed
  rw [← Operation.perform_script] at finished
  obtain ⟨moment, latches⟩ := Script.exists_latches (by decide) finished latched
  have episodes : Episodes stoppedByReset.processor [stoppedStep] stoppedByReset.processor :=
    .next stoppedStep (.none stoppedByReset.processor)
  have kept : ∀ episode ∈ [stoppedStep], episode.before.board.recording = true ∧ ¬episode.Resets := by
    intro episode member
    cases List.mem_singleton.mp member
    refine ⟨by decide +kernel, ?_⟩
    rintro (reset | ⟨_, released⟩)
    · cases reset
    · exact released.live.not_latched latched
  have patient : ∀ episode ∈ [stoppedStep], ¬episode.ActsEarly := by
    intro episode member early
    cases List.mem_singleton.mp member
    cases early.1
  have sound : ¬Operation.reset.CarriesOn unreadableStart := fun carries => carries.1
  obtain ⟨rest, later⟩ := (latch_inert_iff rfl performed latches episodes kept).mpr ⟨sound, patient⟩
  exact ⟨latched, rest, later stoppedStep List.mem_cons_self⟩

def resumedUnreadable : Machine (Recorded (Faulty FlatBoard)) :=
  ended (Dispatch.resume (ended (Dispatch.suspend stoppedByReset)))

def resumedWithTimer : Machine (Recorded (Faulty FlatBoard)) := ended (Dispatch.drive .event true resumedUnreadable)

theorem resumedUnreadable_carriesOn : Operation.step.CarriesOn resumedUnreadable := by
  have reset : Dispatch.reset resumedUnreadable = .ok () _ := eq_ok_of_answer (by decide +kernel)
  exact ⟨trivial, ⟨.inl (by decide +kernel), by decide +kernel⟩, _, reset, by decide +kernel⟩

/-- After the latch a step still executes the word at zero, and a check of interrupts
still answers the timer. -/
theorem latch_not_inert_resumed :
    stoppedByReset.processor.Latched ∧
      (∃ moment after, Operation.step.script.Latches resumedUnreadable moment ∧
        Operation.step.perform resumedUnreadable = .ok (.outcome (.retired 12)) after ∧ ¬Inert moment after) ∧
      ∃ after, Operation.checkInterrupts.perform resumedWithTimer = .ok (.taken true) after ∧ ¬Inert resumedWithTimer after := by
  have stepped : Operation.step.perform resumedUnreadable = .ok (.outcome (.retired 12)) _ := eq_ok_of_answer (by decide +kernel)
  have checked : Dispatch.checkInterrupts resumedWithTimer = .ok true _ := eq_ok_of_answer (by decide +kernel)
  obtain ⟨moment, _, latches, active⟩ := resumedUnreadable_carriesOn.not_inert (by decide +kernel) stepped
  have counts : resumedWithTimer.board.Counts resumedWithTimer.board.cycles.length := ⟨by decide +kernel, Nat.le_refl _⟩
  have answered : Operation.checkInterrupts.perform resumedWithTimer = .ok (.taken true) _ := bind_of_ok checked _
  refine ⟨by decide +kernel, ⟨moment, _, latches, stepped, active⟩, _, answered, fun inert => ?_⟩
  exact inert.not_counts (Dispatch.checkInterrupts_counts checked counts)

end Pdp11
