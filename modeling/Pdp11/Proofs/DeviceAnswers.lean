import Mathlib.Data.List.Infix
import Pdp11.Proofs.CycleCount
import Pdp11.Proofs.OrderlyScripts

/-! Questions to devices, as the record of the board has them. Each has been put by a pass of
the arbiter, where an operation arbitrates, and it is the first thing of that pass on
record. Behind it stands what the arbiter does with the answer. -/

namespace Pdp11

/-- Calls by which a device is asked for its vector. -/
def BusCall.asks : BusCall → Bool
  | acknowledge .. | acknowledgeChain .. => true
  | readWord .. | readByte .. | writeWord .. | writeByte .. | selectBank .. | resetDevices => false

/-- The question that a service begins with, by the answer that it gets. -/
def Service.question? : Service → Option (Option Word → BusCall)
  | request number => some (.acknowledge (number.setWidth 8))
  | chain => some .acknowledgeChain
  | trace | haltPin | powerFail | event => none

theorem Service.question_of_asks {service : Service} (asks : service.asks = true) :
    ∃ question, service.question? = some question := by
  cases service with
  | request | chain => exact ⟨_, rfl⟩
  | trace | haltPin | powerFail | event => cases asks

theorem Service.asks_question {service : Service} {question : Option Word → BusCall}
    (found : service.question? = some question) (vector : Option Word) : (question vector).asks = true := by
  cases service with
  | request | chain =>
    cases found
    rfl
  | trace | haltPin | powerFail | event => cases found

namespace Recorded

variable {β : Type} {before middle after : Recorded β} {earlier later : List BusCall} {call : BusCall}

/-- This call has been put on record between two times, with these before and behind it. -/
structure Notes (before after : Recorded β) (earlier : List BusCall) (call : BusCall) (later : List BusCall) : Prop where
  since : before.calls.toList <+: earlier
  calls : after.calls.toList = earlier ++ call :: later

theorem Since.kept {holds : List BusCall → Prop} (since : before.Since earlier holds) : earlier <+: before.calls.toList := by
  obtain ⟨_, calls, same, _⟩ := since
  exact ⟨calls, same.symm⟩

/-- What was put on record on the way came before some time in between, or after it. -/
theorem Notes.split (notes : Notes before after earlier call later) (kept : middle.calls.toList <+: after.calls.toList) :
    (∃ behind, Notes before middle earlier call behind ∧ behind <+: later) ∨ Notes middle after earlier call later := by
  have upTo : earlier ++ [call] <+: after.calls.toList := ⟨later, by simp [notes.calls]⟩
  have known {behind : List BusCall} (same : middle.calls.toList = earlier ++ call :: behind) :
      ∃ behind, Notes before middle earlier call behind ∧ behind <+: later := by
    refine ⟨behind, ⟨notes.since, same⟩, ?_⟩
    rw [same, notes.calls, List.prefix_append_right_inj, List.cons_prefix_cons] at kept
    exact kept.2
  rcases List.prefix_or_prefix_of_prefix kept upTo with short | ⟨behind, same⟩
  · rcases List.prefix_concat_iff.mp short with same | short
    · exact .inl (known same)
    · exact .inr ⟨short, notes.calls⟩
  · have located : middle.calls.toList = earlier ++ call :: behind := by
      rw [← same, List.append_assoc]
      rfl
    exact .inl (known located)

/-- A call that the record did not have has been put there since. -/
theorem Notes.of_fresh (kept : before.calls.toList <+: after.calls.toList) (fresh : call ∉ before.calls.toList)
    (calls : after.calls.toList = earlier ++ call :: later) : Notes before after earlier call later := by
  have upTo : earlier ++ [call] <+: after.calls.toList := ⟨later, by simp [calls]⟩
  have last : call ∈ earlier ++ [call] := List.mem_append_right _ List.mem_cons_self
  rcases List.prefix_or_prefix_of_prefix kept upTo with short | long
  · rcases List.prefix_concat_iff.mp short with same | short
    · exact absurd (same ▸ last) fresh
    · exact ⟨short, calls⟩
  · exact absurd (long.subset last) fresh

/-- The record goes on, with at most so many questions since an earlier time. -/
abbrev AsksAtMost (count : Nat) (earlier : List BusCall) (board : Recorded β) : Prop :=
  board.Since earlier fun later => later.countP BusCall.asks ≤ count

namespace AsksAtMost

variable {count more : Nat}

theorem start (recording : before.recording = true) : before.AsksAtMost 0 before.calls.toList :=
  Since.start recording (Nat.le_refl 0)

theorem weaken (few : before.AsksAtMost count earlier) (within : count ≤ more) : before.AsksAtMost more earlier := by
  obtain ⟨recording, later, calls, few⟩ := few
  exact ⟨recording, later, calls, Nat.le_trans few within⟩

theorem trans (first : middle.AsksAtMost count before.calls.toList) (rest : after.AsksAtMost more middle.calls.toList) :
    after.AsksAtMost (count + more) before.calls.toList := by
  obtain ⟨_, calls, same, few⟩ := first
  obtain ⟨recording, later, whole, further⟩ := rest
  refine ⟨recording, calls ++ later, by rw [whole, same, List.append_assoc], ?_⟩
  simp only [List.countP_append]
  exact Nat.add_le_add few further

end AsksAtMost

/-- If only what stands first asks a device, a question is what stands first. -/
theorem Notes.first {head : BusCall} {silent : List BusCall} (notes : Notes before after earlier call later)
    (asks : call.asks = true) (calls : after.calls.toList = before.calls.toList ++ head :: silent)
    (quiet : silent.countP BusCall.asks = 0) : earlier = before.calls.toList ∧ call = head := by
  obtain ⟨gap, same⟩ := notes.since
  have whole := notes.calls
  rw [calls, ← same, List.append_assoc, List.append_cancel_left_eq] at whole
  cases gap with
  | nil =>
    rw [List.nil_append, List.cons.injEq] at whole
    exact ⟨by rw [← same, List.append_nil], whole.1.symm⟩
  | cons skipped gap =>
    rw [List.cons_append, List.cons.injEq] at whole
    have inside : call ∈ silent := by
      rw [whole.2]
      exact List.mem_append_right _ List.mem_cons_self
    exact absurd asks (List.countP_eq_zero.mp quiet call inside)

variable [Board β]

theorem called_silent (called : Called (.without .acknowledge) before after) :
    ∃ call board, call.asks = false ∧ after = note before.recording before.calls call board := by
  cases called with
  | cycle cycled =>
    cases cycled with
    | readWord | readByte | writeWord | writeByte => exact ⟨_, _, rfl, rfl⟩
  | acknowledge may | acknowledgeChain may => exact absurd rfl may
  | resetDevices => exact ⟨.resetDevices, _, rfl, rfl⟩

theorem asksAtMost_persistentIn (count : Nat) (earlier : List BusCall) :
    PersistentIn (.without .acknowledge) (AsksAtMost count earlier : Recorded β → Prop) := by
  have grows {last : BusCall} (quiet : last.asks = false) (later : List BusCall) (few : later.countP BusCall.asks ≤ count) :
      (later ++ [last]).countP BusCall.asks ≤ count := by
    rwa [List.countP_append, List.countP_singleton, quiet, if_neg Bool.false_ne_true]
  constructor
  · intro before after called since
    obtain ⟨call, board, quiet, rfl⟩ := called_silent called
    exact since.note (grows quiet) board
  · intro bank board since
    have quiet : (BusCall.selectBank bank).asks = false := rfl
    exact since.note (grows quiet) (Board.selectBank bank board.board)

end Recorded

namespace Microcode

variable {β : Type} [Board β] {allowed : Scope}

/-- What the arbiter does behind its question. -/
def respond : BusCall → Microcode β Bool
  | .acknowledge request vector => do
    takeInterrupt (vector.getD (T11.request (request.setWidth 4)).vector)
    return true
  | .acknowledgeChain vector => answerChain vector
  | _ => return false

theorem acts_respond (lowers : allowed .lines) (call : BusCall) : Acts allowed (respond call : Microcode β Bool) := by
  cases call with
  | acknowledge request vector => exact (acts_takeInterrupt _).bind fun _ => .pure _
  | acknowledgeChain vector => exact acts_answerChain lowers vector
  | readWord | readByte | writeWord | writeByte | selectBank | resetDevices => exact .pure _

/-- A service that asks nobody leaves the devices alone. -/
theorem acts_serve_silent {machine : Machine β} {service : Service} (halts : allowed.Halts machine.processor.model)
    (lowers : allowed .lines) (chosen : machine.processor.service? = some service) (silent : service.asks = false) :
    ActsFrom allowed machine (serve service) := by
  cases service with
  | request | chain => cases silent
  | trace => exact (acts_takeInterrupt _).bind (fun _ => .pure _) machine
  | haltPin =>
    have has := model_of_haltPin chosen
    exact (acts_enterHaltMode has (has ▸ halts)).bind fun _ after _ => Acts.pure true after
  | powerFail =>
    refine (acts_takeInterrupt _).bind (fun _ => ?_) machine
    exact (acts_updateLines lowers fun lines => InputLines.busErrors_setLevel lines .aclo false).bind fun _ => .pure _
  | event => exact (acts_takeInterrupt _).bind (fun _ => (acts_clearEvent lowers).bind fun _ => .pure _) machine

end Microcode

/-- The machine with this call on record and this board behind it. -/
def Machine.noting {β : Type} (machine : Machine (Recorded β)) (call : BusCall) (board : β) : Machine (Recorded β) :=
  ⟨machine.processor, .note machine.board.recording machine.board.calls call board⟩

theorem Machine.noting_calls {β : Type} {machine : Machine (Recorded β)} (recording : machine.board.recording = true)
    (call : BusCall) (board : β) :
    (machine.noting call board).board.calls.toList = machine.board.calls.toList ++ [call] := by
  simp only [noting, Recorded.note, recording, if_true, Array.toList_push]

section

open Microcode

variable {β : Type} [Board β] {machine : Machine (Recorded β)} {earlier later : List BusCall} {call : BusCall}

theorem Unheard.asksNone {after : Machine (Recorded β)} (unheard : Unheard machine after)
    (recording : machine.board.recording = true) : after.board.AsksAtMost 0 machine.board.calls.toList :=
  unheard.devices _ (Recorded.asksAtMost_persistentIn 0 _) (.start recording)

theorem Recorded.Notes.not_unheard {after : Machine (Recorded β)} (notes : Notes machine.board after.board earlier call later)
    (asks : call.asks = true) (recording : machine.board.recording = true) : ¬Unheard machine after := by
  intro unheard
  obtain ⟨_, silent, calls, quiet⟩ := unheard.asksNone recording
  obtain ⟨gap, same⟩ := notes.since
  have inside : call ∈ silent := by
    have whole := notes.calls
    rw [calls, ← same, List.append_assoc, List.append_cancel_left_eq] at whole
    rw [whole]
    exact List.mem_append_right _ List.mem_cons_self
  exact absurd asks (List.countP_eq_zero.mp (Nat.le_zero.mp quiet) call inside)

theorem arbiterPass_question {service : Service} {question : Option Word → BusCall}
    (chosen : machine.processor.service? = some service) (asks : service.question? = some question) :
    ∃ vector board, arbiterPass machine = respond (question vector) (machine.noting (question vector) board) := by
  rw [arbiterPass_eq_serve chosen]
  cases service with
  | request number =>
    cases asks
    refine ⟨(Board.acknowledge (number.setWidth 8) machine.board.board).1,
      (Board.acknowledge (number.setWidth 8) machine.board.board).2, ?_⟩
    have same : (number.setWidth 8).setWidth 4 = number := by simp
    simp only [respond, same]
    rfl
  | chain =>
    cases asks
    exact ⟨(Board.acknowledgeChain machine.board.board).1, (Board.acknowledgeChain machine.board.board).2, rfl⟩
  | trace | haltPin | powerFail | event => cases asks

theorem arbiterPass_unheard (silent : ¬machine.processor.AsksNext) : Unheard machine (ended (arbiterPass machine)) := by
  cases chosen : machine.processor.service? with
  | none =>
    rw [arbiterPass_quiet chosen]
    exact .refl _
  | some service =>
    have halts : (Scope.without .acknowledge).Halts machine.processor.model := Scope.without_halts (by decide) (by decide) _
    rw [arbiterPass_eq_serve chosen]
    refine .acts (acts_serve_silent halts nofun chosen ?_)
    exact Bool.eq_false_iff.mpr fun asks => silent ⟨service, chosen, asks⟩

theorem respond_silent (machine : Machine (Recorded β)) (recording : machine.board.recording = true) (call : BusCall) :
    (ended (respond call machine)).board.AsksAtMost 0 machine.board.calls.toList :=
  (Unheard.acts (acts_respond nofun call machine)).asksNone recording

/-- The arbiter has put this question, from this machine, to a device. -/
structure Asked (asker : Machine (Recorded β)) (earlier : List BusCall) (call : BusCall) (later : List BusCall) : Prop where
  recording : asker.board.recording = true
  moment : asker.board.calls.toList = earlier
  question : ∃ service question vector board, asker.processor.service? = some service ∧
    service.question? = some question ∧ call = question vector ∧
    arbiterPass asker = respond call (asker.noting call board)
  behind : ∃ follow, (ended (arbiterPass asker)).board.calls.toList = earlier ++ call :: follow ∧ follow <+: later

theorem Asked.extend {more : List BusCall} (asked : Asked machine earlier call later) (within : later <+: more) :
    Asked machine earlier call more := by
  obtain ⟨follow, calls, short⟩ := asked.behind
  exact { asked with behind := ⟨follow, calls, short.trans within⟩ }

theorem arbiterPass_asks_once (recording : machine.board.recording = true) (asks : machine.processor.AsksNext) :
    ∃ call silent, Asked machine machine.board.calls.toList call silent ∧ call.asks = true ∧
      (ended (arbiterPass machine)).board.recording = true ∧
      (ended (arbiterPass machine)).board.calls.toList = machine.board.calls.toList ++ call :: silent ∧
      silent.countP BusCall.asks = 0 := by
  obtain ⟨service, chosen, begins⟩ := asks
  obtain ⟨question, found⟩ := service.question_of_asks begins
  obtain ⟨vector, board, pass⟩ := arbiterPass_question chosen found
  obtain ⟨on, silent, calls, quiet⟩ := respond_silent (machine.noting (question vector) board) recording (question vector)
  rw [Machine.noting_calls recording, List.append_assoc, ← pass] at calls
  rw [← pass] at on
  exact ⟨_, silent, ⟨recording, rfl, ⟨service, question, vector, board, chosen, found, rfl, pass⟩, silent, calls, List.prefix_rfl⟩,
    Service.asks_question found vector, on, calls, Nat.le_zero.mp quiet⟩

theorem arbiterPass_asked (recording : machine.board.recording = true) (asks : call.asks = true)
    (notes : Recorded.Notes machine.board (ended (arbiterPass machine)).board earlier call later) :
    Asked machine earlier call later := by
  by_cases asksNext : machine.processor.AsksNext
  · obtain ⟨head, silent, asked, _, _, calls, quiet⟩ := arbiterPass_asks_once recording asksNext
    obtain ⟨rfl, rfl⟩ := notes.first asks calls quiet
    have same := notes.calls
    rw [calls, List.append_cancel_left_eq, List.cons.injEq] at same
    exact same.2 ▸ asked
  · exact absurd (arbiterPass_unheard asksNext) (notes.not_unheard asks recording)

/-- A pass asks at most once. -/
theorem arbiterPass_asksAtMost (recording : machine.board.recording = true) :
    (ended (arbiterPass machine)).board.AsksAtMost 1 machine.board.calls.toList := by
  by_cases asks : machine.processor.AsksNext
  · obtain ⟨call, silent, _, asks, on, calls, quiet⟩ := arbiterPass_asks_once recording asks
    refine ⟨on, call :: silent, calls, ?_⟩
    simp only [List.countP_cons_of_pos asks, quiet, Nat.zero_add, Nat.le_refl]
  · exact ((arbiterPass_unheard asks).asksNone recording).weaken (Nat.zero_le 1)

theorem arbiterPasses_ended_taken {limit : Nat} {next : Machine (Recorded β)} (pass : arbiterPass machine = .ok true next) :
    ended (arbiterPasses (limit + 1) machine) = ended (arbiterPasses limit next) := by
  rw [arbiterPasses, bind_of_ok pass]
  simp only [if_true, Bind.bind, EStateM.bind]
  cases arbiterPasses limit next with
  | ok | error => rfl

/-- Arbitration is over after a pass that has taken nothing, also where it was cut short. -/
theorem arbiterPasses_ended_last {limit : Nat} (last : ∀ next, arbiterPass machine ≠ .ok true next) :
    ended (arbiterPasses (limit + 1) machine) = ended (arbiterPass machine) := by
  cases pass : arbiterPass machine with
  | error abort broken => rw [arbiterPasses, bind_of_error pass]
  | ok taken next =>
    cases taken with
    | true => exact absurd pass (last next)
    | false =>
      rw [arbiterPasses, bind_of_ok pass]
      rfl

theorem arbiterPasses_asksAtMost (limit : Nat) (recording : machine.board.recording = true) :
    (ended (arbiterPasses limit machine)).board.AsksAtMost limit machine.board.calls.toList := by
  induction limit generalizing machine with
  | zero => exact .start recording
  | succ limit ih =>
    have passed := arbiterPass_asksAtMost recording
    by_cases last : ∀ next, arbiterPass machine ≠ .ok true next
    · rw [arbiterPasses_ended_last last]
      exact passed.weaken (Nat.succ_le_succ (Nat.zero_le limit))
    · obtain ⟨next, pass⟩ := not_forall_not.mp last
      rw [pass] at passed
      rw [arbiterPasses_ended_taken pass, Nat.add_comm]
      exact passed.trans (ih passed.1)

theorem Entries.recording {count : Nat} {asker : Machine (Recorded β)} (entries : Entries count machine asker)
    (recording : machine.board.recording = true) : asker.board.recording = true := by
  induction entries with
  | none => exact recording
  | taken entry _ ih =>
    have passed := arbiterPass_asksAtMost recording
    rw [entry] at passed
    exact ih passed.1

theorem arbiterPasses_asked (limit : Nat) (recording : machine.board.recording = true) (asks : call.asks = true)
    (notes : Recorded.Notes machine.board (ended (arbiterPasses limit machine)).board earlier call later) :
    ∃ count asker, count < limit ∧ Entries count machine asker ∧ Asked asker earlier call later := by
  induction limit generalizing machine with
  | zero => exact absurd (.refl _) (notes.not_unheard asks recording)
  | succ limit ih =>
    by_cases last : ∀ next, arbiterPass machine ≠ .ok true next
    · rw [arbiterPasses_ended_last last] at notes
      exact ⟨0, machine, Nat.succ_pos limit, .none machine, arbiterPass_asked recording asks notes⟩
    · obtain ⟨next, pass⟩ := not_forall_not.mp last
      have passed := arbiterPass_asksAtMost recording
      rw [pass] at passed
      rw [arbiterPasses_ended_taken pass] at notes
      rcases notes.split (arbiterPasses_asksAtMost limit passed.1).kept with ⟨behind, notes, short⟩ | notes
      · have asked : Asked machine earlier call behind := by
          refine arbiterPass_asked recording asks ?_
          rw [pass]
          exact notes
        exact ⟨0, machine, Nat.succ_pos limit, .none machine, asked.extend short⟩
      · obtain ⟨count, asker, within, entries, asked⟩ := ih passed.1 notes
        exact ⟨count + 1, asker, Nat.succ_lt_succ within, .taken pass entries, asked⟩

namespace Script

variable {α : Type} {most : Nat} {script : Script (Recorded β) α}

theorem arbitrate_asksAtMost (recording : machine.board.recording = true) :
    (ended (Dispatch.attempt arbitrate machine)).board.AsksAtMost maxNestedTraps machine.board.calls.toList := by
  rw [ended_attempt_arbitrate]
  exact arbiterPasses_asksAtMost maxNestedTraps recording

namespace Orderly

/-- A script asks at most as often as it can enter a trap where it arbitrates. -/
theorem asksAtMost (orderly : Orderly most script machine) (recording : machine.board.recording = true) :
    (ended (script.perform machine)).board.AsksAtMost (maxNestedTraps * most) machine.board.calls.toList := by
  induction orderly with
  | done => exact Recorded.AsksAtMost.weaken (.start recording) (Nat.zero_le _)
  | discreet done unheard _ ih =>
    have silent := unheard.asksNone recording
    rw [perform, bind_of_ok done]
    exact (silent.trans (ih silent.1)).weaken (Nat.le_of_eq (Nat.zero_add _))
  | @arbitrates most next machine _ ih =>
    have asked := arbitrate_asksAtMost recording
    rw [Nat.mul_succ, Nat.add_comm]
    cases result : Dispatch.attempt arbitrate machine with
    | error stop broken =>
      rw [result] at asked
      rw [perform, bind_of_error result]
      exact asked.weaken (Nat.le_add_right _ _)
    | ok answer after =>
      rw [result] at asked
      rw [perform, bind_of_ok result]
      exact asked.trans (ih answer after result asked.1)

/-- Every question on record has been put where the script arbitrates. -/
theorem asked (orderly : Orderly most script machine) (recording : machine.board.recording = true) (asks : call.asks = true)
    (notes : Recorded.Notes machine.board (ended (script.perform machine)).board earlier call later) :
    ∃ boundary count asker, script.Arbitrates machine boundary ∧ count < maxNestedTraps ∧ Entries count boundary asker ∧
      Asked asker earlier call later := by
  induction orderly with
  | done => exact absurd (.refl _) (notes.not_unheard asks recording)
  | @discreet _ most code next machine after answer done unheard orderly ih =>
    have on := (unheard.asksNone recording).1
    rw [perform, bind_of_ok done] at notes
    rcases notes.split (orderly.asksAtMost on).kept with ⟨behind, notes, _⟩ | notes
    · exact absurd unheard (notes.not_unheard asks recording)
    · obtain ⟨boundary, count, asker, arbitrates, found⟩ := ih on notes
      exact ⟨boundary, count, asker, .later done arbitrates, found⟩
  | @arbitrates most next machine orderly ih =>
    have here {behind : List BusCall} (short : behind <+: later)
        (notes : Recorded.Notes machine.board (ended (Dispatch.attempt arbitrate machine)).board earlier call behind) :
        ∃ boundary count asker, (act (Dispatch.attempt arbitrate) next).Arbitrates machine boundary ∧ count < maxNestedTraps ∧
          Entries count boundary asker ∧ Asked asker earlier call later := by
      rw [ended_attempt_arbitrate] at notes
      obtain ⟨count, asker, few, entries, asked⟩ := arbiterPasses_asked _ recording asks notes
      exact ⟨machine, count, asker, .now, few, entries, asked.extend short⟩
    cases result : Dispatch.attempt arbitrate machine with
    | error stop broken =>
      rw [perform, bind_of_error result] at notes
      exact here List.prefix_rfl (by rwa [result])
    | ok answer after =>
      have passed := arbitrate_asksAtMost recording
      rw [result] at passed
      rw [perform, bind_of_ok result] at notes
      rcases notes.split ((orderly answer after result).asksAtMost passed.1).kept with ⟨behind, notes, short⟩ | notes
      · exact here short (by rwa [result])
      · obtain ⟨boundary, count, asker, arbitrates, found⟩ := ih answer after result passed.1 notes
        exact ⟨boundary, count, asker, .later result arbitrates, found⟩

/-- A script is stopped only where it arbitrates. -/
theorem stopped {broken : Machine (Recorded β)} {stop : MisalignedVector} (orderly : Orderly most script machine)
    (recording : machine.board.recording = true) (stopped : script.perform machine = .error stop broken) :
    ∃ boundary, boundary.board.recording = true ∧ arbitrate boundary = .error (.misaligned stop) broken := by
  induction orderly with
  | done => cases stopped
  | discreet done unheard _ ih =>
    rw [perform, bind_of_ok done] at stopped
    exact ih (unheard.asksNone recording).1 stopped
  | @arbitrates most next machine _ ih =>
    rcases bind_eq_error stopped with failed | ⟨answer, after, done, stopped⟩
    · refine ⟨machine, recording, ?_⟩
      unfold Dispatch.attempt at failed
      cases result : arbitrate machine with
      | ok taken after =>
        rw [result] at failed
        cases failed
      | error abort left =>
        rw [result] at failed
        cases abort with
        | failedCycle => cases failed
        | misaligned vector =>
          cases failed
          rfl
    · have passed := arbitrate_asksAtMost recording
      rw [done] at passed
      exact ih answer after done passed.1 stopped

end Orderly
end Script
end
end Pdp11
