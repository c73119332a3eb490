import Mathlib.Data.List.Basic
import Pdp11.Proofs.ArbiterCases
import Pdp11.Proofs.BoardRecord

/-! How many cycles are on record. Nothing takes one off the record, and every trap
entry and every instruction puts one there. -/

namespace Pdp11

deriving instance DecidableEq for BusCall

/-- Everything but the hooks. -/
def BusCall.isCycle : BusCall → Bool
  | readWord .. | readByte .. | writeWord .. | writeByte .. => true
  | acknowledge .. | acknowledgeChain .. | selectBank .. | resetDevices => false

/-- Calls that take requests away from devices. -/
def BusCall.takesRequest : BusCall → Bool
  | acknowledge .. | acknowledgeChain .. | resetDevices => true
  | readWord .. | readByte .. | writeWord .. | writeByte .. | selectBank .. => false

variable {β : Type}

namespace Recorded

def cycles (board : Recorded β) : List BusCall := board.calls.toList.filter BusCall.isCycle

/-- At least this many cycles are on a record that goes on. -/
structure Counts (least : Nat) (board : Recorded β) : Prop where
  recording : board.recording = true
  many : least ≤ board.cycles.length

namespace Counts

variable {least : Nat} {before after : Recorded β}

theorem weaken {fewer : Nat} (counts : before.Counts least) (within : fewer ≤ least) : before.Counts fewer :=
  ⟨counts.recording, Nat.le_trans within counts.many⟩

theorem append {calls : Array BusCall} (counts : before.Counts least) (recording : after.recording = true)
    (appended : after.calls = before.calls ++ calls) :
    after.Counts (least + (calls.toList.filter BusCall.isCycle).length) := by
  refine ⟨recording, ?_⟩
  rw [cycles, appended, Array.toList_append, List.filter_append, List.length_append]
  exact Nat.add_le_add_right counts.many _

theorem note (counts : before.Counts least) (call : BusCall) (board : β) :
    (note before.recording before.calls call board).Counts (least + ([call].filter BusCall.isCycle).length) := by
  rw [counts.recording]
  have appended : (Recorded.note true before.calls call board).calls = before.calls ++ #[call] := Array.push_eq_append
  exact counts.append rfl appended

end Counts

/-- What has been put on a record since an earlier time is like this. -/
def Since (earlier : List BusCall) (holds : List BusCall → Prop) (board : Recorded β) : Prop :=
  board.recording = true ∧ ∃ later, board.calls.toList = earlier ++ later ∧ holds later

theorem Since.start {before : Recorded β} {holds : List BusCall → Prop} (recording : before.recording = true)
    (none : holds []) : before.Since before.calls.toList holds :=
  ⟨recording, [], (List.append_nil _).symm, none⟩

theorem Since.note {before : Recorded β} {earlier : List BusCall} {holds becomes : List BusCall → Prop} {call : BusCall}
    (since : before.Since earlier holds) (grows : ∀ later, holds later → becomes (later ++ [call])) (board : β) :
    (Recorded.note before.recording before.calls call board).Since earlier becomes := by
  obtain ⟨recording, later, calls, like⟩ := since
  refine ⟨recording, later ++ [call], ?_, grows later like⟩
  change (if before.recording then before.calls.push call else before.calls).toList = _
  rw [if_pos recording, Array.toList_push, calls, List.append_assoc]

variable [Board β] {least : Nat} {before after : Recorded β}

theorem cycled_note (cycled : Cycled before after) :
    ∃ call board, call.isCycle = true ∧ after = note before.recording before.calls call board := by
  cases cycled with
  | readWord | readByte | writeWord | writeByte => exact ⟨_, _, rfl, rfl⟩

/-- Banks are selected apart from these calls. -/
theorem called_note {allowed : Scope} (called : Called allowed before after) :
    ∃ call board, (∀ bank, call ≠ .selectBank bank) ∧
      (call.takesRequest = true → allowed .acknowledge ∨ allowed .resetDevices) ∧
      after = note before.recording before.calls call board := by
  cases called with
  | cycle cycled =>
    obtain ⟨call, board, isCycle, noted⟩ := cycled_note cycled
    refine ⟨call, board, ?_, fun takes => ?_, noted⟩
    · rintro bank rfl
      cases isCycle
    · cases call <;> cases isCycle <;> cases takes
  | acknowledge may | acknowledgeChain may =>
    refine ⟨_, _, ?_, fun _ => .inl may, rfl⟩
    exact fun _ => nofun
  | resetDevices may =>
    refine ⟨_, _, ?_, fun _ => .inr may, rfl⟩
    exact fun _ => nofun

theorem since_persistentIn {allowed : Scope} (earlier : List BusCall) {holds : List BusCall → Prop}
    (grows : ∀ later call, (call.takesRequest = true → allowed .acknowledge ∨ allowed .resetDevices) →
      holds later → holds (later ++ [call])) : PersistentIn allowed (Since earlier holds : Recorded β → Prop) := by
  constructor
  · intro before after called since
    obtain ⟨call, board, _, takes, rfl⟩ := called_note called
    exact since.note (fun later => grows later call takes) board
  · intro bank board since
    exact since.note (fun later => grows later (.selectBank bank) nofun) (Board.selectBank bank board.board)

theorem since_persistent (earlier : List BusCall) {holds : List BusCall → Prop}
    (grows : ∀ later call, holds later → holds (later ++ [call])) :
    Persistent (Since earlier holds : Recorded β → Prop) :=
  since_persistentIn earlier fun later call _ => grows later call

theorem cycled_counts (cycled : Cycled before after) (counts : before.Counts least) : after.Counts (least + 1) := by
  obtain ⟨call, board, isCycle, rfl⟩ := cycled_note cycled
  have noted := counts.note call board
  rwa [List.filter_cons_of_pos isCycle] at noted

theorem acknowledgeChain_cycles (board : Recorded β) : (Board.acknowledgeChain board).2.cycles = board.cycles := by
  obtain ⟨board, recording, calls⟩ := board
  cases recording with
  | false => rfl
  | true =>
    change (calls.push _).toList.filter BusCall.isCycle = calls.toList.filter BusCall.isCycle
    rw [Array.toList_push, List.filter_append, List.filter_cons_of_neg (by exact Bool.false_ne_true), List.filter_nil,
      List.append_nil]

theorem counts_persistent (least : Nat) : Persistent (Counts least : Recorded β → Prop) := by
  constructor
  · intro before after called counts
    obtain ⟨call, board, _, _, rfl⟩ := called_note called
    exact (counts.note call board).weaken (Nat.le_add_right _ _)
  · intro bank board counts
    exact (counts.note (.selectBank bank) (Board.selectBank bank board.board)).weaken (Nat.le_add_right _ _)

end Recorded

variable [Board β] {least : Nat} {machine after : Machine (Recorded β)}

theorem Broken.counts {allowed : Scope} (broken : Broken allowed machine .failedCycle after)
    (counts : machine.board.Counts least) : after.board.Counts (least + 1) := by
  obtain ⟨last, path, failed⟩ := broken.last
  exact Recorded.cycled_counts failed.cycled ((Recorded.counts_persistent least).actions path counts)

namespace Microcode

theorem readWord_counts {address value : Word} (done : readWord address machine = .ok value after)
    (counts : machine.board.Counts least) : after.board.Counts (least + 1) := by
  obtain ⟨answered, _⟩ := cycle_ok done
  have cycled : Cycled machine.board (Board.readWord address.even machine.board).2 := .readWord address machine.board
  rw [answered] at cycled
  exact Recorded.cycled_counts cycled counts

theorem enterTrap_counts {vector : Word} (done : enterTrap vector machine = .ok () after)
    (counts : machine.board.Counts least) : after.board.Counts (least + 1) := by
  obtain ⟨_, pc, status, board, answered, rfl⟩ := enterTrap_ok done
  obtain ⟨recording, calls, _⟩ := answered.recorded counts.recording
  have four : ((trapCalls vector machine.processor pc status).toList.filter BusCall.isCycle).length = 4 := rfl
  have counted : board.Counts (least + 1) := (counts.append recording calls).weaken (by omega)
  exact (Recorded.counts_persistent _).installStatus status counted

theorem enterHaltMode_counts (done : enterHaltMode machine = .ok () after)
    (counts : machine.board.Counts least) : after.board.Counts (least + 1) := by
  obtain ⟨_, pc, status, board, answered, rfl⟩ := enterHaltMode_ok done
  have banked : machine.haltBoard.Counts least := by
    unfold Machine.haltBoard
    split
    · exact counts
    · exact (Recorded.counts_persistent least).selected .halt counts
  obtain ⟨recording, calls, _⟩ := answered.recorded banked.recording
  have two : ((haltCalls (Vm2.startBlock machine.processor.mode) pc status).toList.filter BusCall.isCycle).length = 2 :=
    rfl
  have counted : board.Counts (least + 1) := (banked.append recording calls).weaken (by omega)
  exact (Recorded.counts_persistent _).installStatus (status ||| StatusWord.haltBit) counted

theorem entered_counts (entered : Entered machine after) (counts : machine.board.Counts least) :
    after.board.Counts (least + 1) := by
  cases entered with
  | trap before taken later =>
    have counted := enterTrap_counts taken ((Recorded.counts_persistent least).actions before.path counts)
    exact (Recorded.counts_persistent _).actions later.path counted
  | halt _ taken => exact enterHaltMode_counts taken counts

theorem arbitrate_counts (taken : arbitrate machine = .ok true after) (counts : machine.board.Counts least) :
    after.board.Counts (least + 1) := by
  obtain ⟨first, entered, rest⟩ := arbitrate_taken taken
  exact (Recorded.counts_persistent _).actions rest (entered_counts entered counts)

theorem instructionCycle_counts {start : UInt64} {outcome : Outcome}
    (done : instructionCycle start machine = .ok outcome after) (counts : machine.board.Counts least) :
    after.board.Counts (least + 1) := by
  obtain ⟨_, _, read, done⟩ := bind_eq_ok done
  cases read
  obtain ⟨_, _, begun, done⟩ := bind_eq_ok done
  cases begun
  obtain ⟨_, _, emitted, done⟩ := bind_eq_ok done
  cases emitted
  obtain ⟨word, fetched, fetch, done⟩ := bind_eq_ok done
  obtain ⟨pc, _, located, fetch⟩ := bind_eq_ok fetch
  cases located
  obtain ⟨_, _, answered, advanced⟩ := bind_eq_ok fetch
  cases advanced
  have counted := readWord_counts answered counts
  obtain ⟨retirement, _, executed, retired⟩ := bind_eq_ok done
  have executing : Actions .any _ _ := (acts_executeWord word (Scope.any_halts _) fun _ _ => Scope.any_executes _).ok rfl executed
  have path := executing.trans ((acts_retire trivial _ word start retirement).ok retired)
  exact (Recorded.counts_persistent _).actions path counted

end Microcode
end Pdp11
