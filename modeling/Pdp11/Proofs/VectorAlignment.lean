import Pdp11.Proofs.CycleCost
import Pdp11.Proofs.DeviceAnswers

/-! What can stop a session. A board that answers the arbiter with a misaligned vector does,
before the first cycle of the entry, and nothing else does: all other vectors are fixed and
aligned, no sum or product of the processor leaves its width, and every table is looked up
within its bounds. -/

namespace Pdp11

open Microcode

/-- The vector that a device has given. A chain that answers zero gives none. -/
def BusCall.supplied? : BusCall → Option Word
  | acknowledge _ vector => vector
  | acknowledgeChain vector => vector.filter (· != 0)
  | readWord .. | readByte .. | writeWord .. | writeByte .. | selectBank .. | resetDevices => none

theorem BusCall.asks_of_supplied {call : BusCall} {vector : Word} (supplied : call.supplied? = some vector) :
    call.asks = true := by
  cases call with
  | acknowledge | acknowledgeChain => rfl
  | readWord | readByte | writeWord | writeByte | selectBank | resetDevices => cases supplied

/-- A device has given a vector that no trap can use. -/
def BusCall.Misaligned (call : BusCall) : Prop := ∃ vector, call.supplied? = some vector ∧ vector &&& 3 ≠ 0

theorem T11.request_aligned (number : BitVec 4) : (T11.request number).vector &&& 3 = 0 := by
  revert number
  decide

namespace Microcode

variable {β : Type} [Board β]

theorem takeInterrupt_misaligned {vector : Word} (misaligned : vector &&& 3 ≠ 0) (machine : Machine β) :
    takeInterrupt vector machine = .error (.misaligned ⟨vector⟩) machine :=
  bind_of_error (enterTrap_misaligned misaligned machine) _

theorem OnlyCyclesFail.takeInterrupt {vector : Word} (aligned : vector &&& 3 = 0) :
    OnlyCyclesFail (takeInterrupt vector : Microcode β Unit) :=
  (OnlyCyclesFail.enterTrap aligned).bind fun _ => (OnlyCyclesFail.modify _).bind fun _ => .modify _

/-- With any other answer only a cycle can fail. -/
theorem OnlyCyclesFail.respond {call : BusCall} (aligned : ¬call.Misaligned) :
    OnlyCyclesFail (respond call : Microcode β Bool) := by
  have usable {vector : Word} (supplied : call.supplied? = some vector) : vector &&& 3 = 0 :=
    Decidable.byContradiction fun misaligned => aligned ⟨vector, supplied, misaligned⟩
  cases call with
  | acknowledge request answer =>
    have vector : answer.getD (T11.request (request.setWidth 4)).vector &&& 3 = 0 := by
      cases answer with
      | none => exact T11.request_aligned _
      | some vector => exact usable rfl
    exact (OnlyCyclesFail.takeInterrupt vector).bind fun _ => .pure _
  | acknowledgeChain answer =>
    change OnlyCyclesFail (answerChain answer)
    unfold answerChain
    cases found : answer.filter (· != 0) with
    | none => exact (OnlyCyclesFail.modify _).bind fun _ => .pure _
    | some vector =>
      have left : OnlyCyclesFail (leaveHaltMode : Microcode β Unit) := OnlyCyclesFail.processor.bind fun _ => .modify _
      exact left.bind fun _ => (OnlyCyclesFail.modify _).bind fun _ =>
        (OnlyCyclesFail.takeInterrupt (usable found)).bind fun _ => .pure _
  | readWord | readByte | writeWord | writeByte | selectBank | resetDevices => exact .pure _

end Microcode

section

variable {β : Type} [Board β] {machine broken : Machine (Recorded β)} {stop : MisalignedVector} {call : BusCall}
  {earlier later : List BusCall}

def SelectsBanks (calls : List BusCall) : Prop := ∀ call ∈ calls, ∃ bank, call = .selectBank bank

theorem Machine.installStatus_selects (recording : machine.board.recording = true) (bits : Word) :
    ∃ banks, (machine.installStatus bits).board.calls.toList = machine.board.calls.toList ++ banks ∧ SelectsBanks banks := by
  rw [Machine.installStatus_board]
  split
  · let bank := Bank.ofHaltMode (machine.installed bits).haltMode
    refine ⟨[.selectBank bank], ?_, List.forall_mem_singleton.mpr ⟨bank, rfl⟩⟩
    exact Machine.noting_calls recording (.selectBank bank) (Board.selectBank bank machine.board.board)
  · exact ⟨[], (List.append_nil _).symm, nofun⟩

/-- The chain leaves HALT mode before its vector is looked at, so a bank may be selected
behind the answer. No cycle is made. -/
theorem respond_misaligned {vector : Word} (recording : machine.board.recording = true)
    (supplied : call.supplied? = some vector) (misaligned : vector &&& 3 ≠ 0) :
    ∃ broken banks, respond call machine = .error (.misaligned ⟨vector⟩) broken ∧
      broken.board.calls.toList = machine.board.calls.toList ++ banks ∧ SelectsBanks banks := by
  cases call with
  | acknowledge request answer =>
    cases supplied
    exact ⟨machine, [], bind_of_error (takeInterrupt_misaligned misaligned machine) _, (List.append_nil _).symm, nofun⟩
  | acknowledgeChain answer =>
    have found : answer.filter (· != 0) = some vector := supplied
    let lowered := machine.installStatus (machine.processor.status.bits &&& ~~~StatusWord.haltBit)
    obtain ⟨banks, calls, selects⟩ :=
      machine.installStatus_selects recording (machine.processor.status.bits &&& ~~~StatusWord.haltBit)
    refine ⟨lowered.update fun processor => { processor with lines := processor.lines.clearEvent }, banks, ?_, calls, selects⟩
    simp only [respond, answerChain, found]
    have stopped := takeInterrupt_misaligned misaligned
      (lowered.update fun processor => { processor with lines := processor.lines.clearEvent })
    exact bind_of_error stopped _
  | readWord | readByte | writeWord | writeByte | selectBank | resetDevices => cases supplied

/-- The arbiter has stopped at the vector that this call was answered with. It has made no
cycle since, and the record had no such vector before. -/
structure StoppedAt (stop : MisalignedVector) (broken : Machine (Recorded β)) (asker : Machine (Recorded β))
    (earlier : List BusCall) (call : BusCall) (banks : List BusCall) : Prop where
  asked : Asked asker earlier call banks
  stops : arbiterPass asker = .error (.misaligned stop) broken
  supplied : call.supplied? = some stop.vector
  misaligned : stop.vector &&& 3 ≠ 0
  calls : broken.board.calls.toList = earlier ++ call :: banks
  selects : SelectsBanks banks

theorem Asked.stops {vector : Word} (asked : Asked machine earlier call later) (supplied : call.supplied? = some vector)
    (misaligned : vector &&& 3 ≠ 0) : ∃ broken banks, StoppedAt ⟨vector⟩ broken machine earlier call banks := by
  obtain ⟨service, question, answer, board, chosen, found, same, pass⟩ := asked.question
  have recording : (machine.noting call board).board.recording = true := asked.recording
  obtain ⟨broken, banks, stopped, calls, selects⟩ := respond_misaligned recording supplied misaligned
  rw [Machine.noting_calls asked.recording, asked.moment, List.append_assoc] at calls
  rw [← pass] at stopped
  refine ⟨broken, banks, ⟨asked.recording, asked.moment, ⟨service, question, answer, board, chosen, found, same, pass⟩, ?_⟩,
    stopped, supplied, misaligned, calls, selects⟩
  exact ⟨banks, by rw [stopped]; exact calls, List.prefix_rfl⟩

/-- A pass that stops has been answered so. -/
theorem arbiterPass_stops (recording : machine.board.recording = true)
    (stopped : arbiterPass machine = .error (.misaligned stop) broken) :
    ∃ call banks, StoppedAt stop broken machine machine.board.calls.toList call banks := by
  cases chosen : machine.processor.service? with
  | none =>
    rw [arbiterPass_quiet chosen] at stopped
    cases stopped
  | some service =>
    cases begins : service.asks with
    | false =>
      rw [arbiterPass_eq_serve chosen] at stopped
      cases (serve_broken (Scope.any_halts _) chosen begins stopped).1
    | true =>
      obtain ⟨call, silent, asked, _⟩ := arbiterPass_asks_once recording ⟨service, chosen, begins⟩
      by_cases misaligned : call.Misaligned
      · obtain ⟨vector, supplied, misaligned⟩ := misaligned
        obtain ⟨left, banks, stops⟩ := asked.stops supplied misaligned
        have same := stops.stops
        rw [stopped] at same
        cases same
        exact ⟨call, banks, stops⟩
      · obtain ⟨_, _, _, _, _, _, _, pass⟩ := asked.question
        rw [pass] at stopped
        cases OnlyCyclesFail.respond misaligned _ _ _ stopped

/-- The record goes on, and has no misaligned vector so far. -/
def RecordsAligned (machine : Machine (Recorded β)) : Prop :=
  machine.board.recording = true ∧ ∀ call ∈ machine.board.calls.toList, ¬call.Misaligned

/-- The arbiter has stopped at the first misaligned vector on record. -/
def StoppedByVector (stop : MisalignedVector) (broken : Machine (Recorded β)) : Prop :=
  ∃ asker earlier call banks, StoppedAt stop broken asker earlier call banks ∧ ∀ call ∈ earlier, ¬call.Misaligned

namespace Operation

/-- Whatever an operation puts on record that is misaligned has stopped it. -/
theorem stopped_of_misaligned {operation : Operation} (recording : machine.board.recording = true)
    (fresh : call ∉ machine.board.calls.toList) (misaligned : call.Misaligned)
    (calls : (ended (operation.perform machine)).board.calls.toList = earlier ++ call :: later) :
    ∃ vector broken asker banks, operation.perform machine = .error ⟨vector⟩ broken ∧
      StoppedAt ⟨vector⟩ broken asker earlier call banks := by
  obtain ⟨vector, supplied, misaligned⟩ := misaligned
  have orderly := operation.orderly machine
  have kept := (orderly.asksAtMost recording).kept
  rw [operation.perform_script] at kept
  have notes := Recorded.Notes.of_fresh kept fresh calls
  rw [← operation.perform_script] at notes
  obtain ⟨boundary, count, asker, arbitrates, few, entries, asked⟩ :=
    orderly.asked recording (BusCall.asks_of_supplied supplied) notes
  obtain ⟨broken, banks, stops⟩ := asked.stops supplied misaligned
  have stopped := arbitrates.stops (entries.arbiterPasses few stops.stops)
  rw [operation.perform_script] at stopped
  exact ⟨vector, broken, asker, banks, stopped, stops⟩

theorem perform_aligned (operation : Operation) :
    Ensures RecordsAligned (operation.perform : Dispatch (Recorded β) Response) (fun _ => RecordsAligned) StoppedByVector := by
  rintro machine ⟨recording, clean⟩
  have asked := (operation.orderly machine).asksAtMost recording
  rw [operation.perform_script] at asked
  have located {call : BusCall} (misaligned : call.Misaligned) {earlier later : List BusCall}
      (calls : (ended (operation.perform machine)).board.calls.toList = earlier ++ call :: later) :=
    stopped_of_misaligned recording (fun known => clean call known misaligned) misaligned calls
  cases result : operation.perform machine with
  | ok response after =>
    rw [result] at asked
    refine ⟨asked.1, fun call member misaligned => ?_⟩
    obtain ⟨earlier, later, calls⟩ := List.append_of_mem member
    obtain ⟨_, _, _, _, stopped, _⟩ := located misaligned (by rw [result]; exact calls)
    rw [result] at stopped
    cases stopped
  | error stop broken =>
    rw [← operation.perform_script] at result
    obtain ⟨boundary, on, failed⟩ := (operation.orderly machine).stopped recording result
    rw [operation.perform_script] at result
    obtain ⟨count, asker, _, entries, failed⟩ := arbitrate_aborted failed
    obtain ⟨call, banks, stops⟩ := arbiterPass_stops (entries.recording on) failed
    refine ⟨asker, _, call, banks, stops, fun other member misaligned => ?_⟩
    -- An earlier one would have been the last question on record, and it is not.
    obtain ⟨before, behind, same⟩ := List.append_of_mem member
    have calls : broken.board.calls.toList = before ++ other :: (behind ++ call :: banks) := by
      rw [stops.calls, same, List.append_assoc, List.cons_append]
    obtain ⟨vector, left, _, rest, stopped, last⟩ := located misaligned (by rw [result]; exact calls)
    rw [result] at stopped
    cases stopped
    have whole := last.calls
    rw [calls, List.append_cancel_left_eq, List.cons.injEq] at whole
    have inside : call ∈ rest := whole.2 ▸ List.mem_append_right _ List.mem_cons_self
    obtain ⟨bank, rfl⟩ := last.selects call inside
    cases stops.supplied

end Operation

/-- What happens in a session: the driver performs an operation, or something changes the
board. -/
inductive Move (β : Type) where
  | perform (operation : Operation)
  | rewire (change : β → β)

def Move.make : Move β → Dispatch (Recorded β) Unit
  | perform operation => do let _ ← operation.perform
  | rewire change => modify fun machine =>
      ⟨machine.processor, { machine.board with board := change machine.board.board }⟩

/-- A session, from one machine on. -/
def conduct : List (Move β) → Dispatch (Recorded β) Unit
  | [] => return
  | move :: rest => do
    move.make
    conduct rest

theorem conduct_aligned (moves : List (Move β)) :
    Ensures RecordsAligned (conduct moves) (fun _ => RecordsAligned) StoppedByVector := by
  induction moves with
  | nil => exact .pure fun _ clean => clean
  | cons move rest ih =>
    have made : Ensures RecordsAligned move.make (fun _ => RecordsAligned) StoppedByVector := by
      cases move with
      | perform operation => exact operation.perform_aligned.bind fun _ => .pure fun _ clean => clean
      | rewire change => exact .modify fun _ clean => clean
    exact made.bind fun _ => ih

end

/-- Sums and products of the processor that do not wrap, and the entries that its tables have. -/
structure WithinRange : Prop where
  cost : ∀ instruction : Instruction, instruction.cycles < UInt16.size
  branch : ∀ offset : BitVec 8, (branchDistance offset).toInt = 2 * offset.toInt
  loop : ∀ offset : BitVec 6, (loopDistance offset).toNat = 2 * offset.toNat
  parameters : ∀ count : BitVec 6, (2 * count.setWidth 16 : Word).toNat = 2 * count.toNat
  sum : ∀ (width : Width) (dst src : Word), (dst &&& width.mask).toNat + (src &&& width.mask).toNat < UInt32.size
  positive : ∀ width : Width, width.maxPositive.toNat + 1 = width.signBit.toNat
  costs : ∀ kind : CostKind, CostKind.all[kind.ctorIdx]? = some kind
  starts : ∀ mode : Word, T11.startAddresses.toList[mode.toNat >>> 13]? = some (T11.startAddress mode)
  requests : ∀ lines : InputLines, T11.requests.toList[lines.request.toNat]? = some (T11.request lines.request)
  registers : ∀ (file : RegisterFile) (register : Register),
    file.toList[register.index.val]? = some (file.get register)

theorem withinRange : WithinRange where
  cost instruction := Nat.lt_of_le_of_lt instruction.cycles_between.2 (by decide)
  branch := by decide
  loop := by decide
  parameters := by decide
  sum _ _ _ := by
    have wide : 0x20000 ≤ UInt32.size := by decide
    omega
  positive width := by cases width <;> decide
  costs kind := by cases kind <;> rfl
  starts mode := by
    have index : mode.toNat >>> 13 = (mode.extractLsb' 13 3).toNat := by
      rw [BitVec.extractLsb'_toNat, Nat.mod_eq_of_lt]
      have bounded := mode.isLt
      omega
    rw [index]
    simp [T11.startAddress]
  requests lines := by simp [T11.request]
  registers file register := by simp [RegisterFile.toList, RegisterFile.get]

/-- A session from power-on comes to its end unless a device answers the arbiter with a
misaligned vector. If one does, the session stops at once: that answer is the first of its
kind, and behind it the board has heard of a bank at most, but of no cycle. Nothing else
can stop a session, since no sum is too wide and no entry is missing. -/
theorem conduct_stops_iff {β : Type} [Board β] (configuration : Configuration) (board : β) (moves : List (Move β)) :
    let result := conduct moves ⟨.create configuration, { board }⟩
    ((∃ stop broken, result = .error stop broken) ↔ ∃ call ∈ (ended result).board.calls.toList, call.Misaligned) ∧
    (∀ stop broken, result = .error stop broken → StoppedByVector stop broken) ∧
    WithinRange := by
  intro result
  have powered : RecordsAligned (⟨.create configuration, { board }⟩ : Machine (Recorded β)) := ⟨rfl, nofun⟩
  have finished := conduct_aligned moves _ powered
  have stops (stop : MisalignedVector) (broken : Machine (Recorded β)) (stopped : result = .error stop broken) :
      StoppedByVector stop broken := (conduct_aligned moves).error powered stopped
  refine ⟨⟨fun ⟨stop, broken, stopped⟩ => ?_, fun ⟨call, member, misaligned⟩ => ?_⟩, stops, withinRange⟩
  · obtain ⟨_, earlier, call, banks, last, _⟩ := stops stop broken stopped
    refine ⟨call, ?_, stop.vector, last.supplied, last.misaligned⟩
    rw [stopped]
    exact last.calls ▸ List.mem_append_right _ List.mem_cons_self
  · cases ended : result with
    | error stop broken => exact ⟨stop, broken, rfl⟩
    | ok value after =>
      rw [ended] at member
      exact absurd misaligned (((conduct_aligned moves).ok powered ended).2 call member)

/-- A device that answers its request with an odd vector. -/
def oddVector : FlatBoard := { vectors := (Vector.replicate 16 none).set 1 (some 0o61) }

theorem conduct_stops_oddVector :
    let result := conduct [.perform (.drive .irq0 true), .perform .step] ⟨.create { model := .t11 }, { board := oddVector }⟩
    (∃ call ∈ (ended result).board.calls.toList, call.Misaligned) ∧
      ∃ stop broken, result = .error stop broken ∧ StoppedByVector stop broken ∧
        broken.board.calls.toList = [.acknowledge 1 (some 0o61)] := by
  intro result
  have stopped : result = .error ⟨0o61⟩ (ended result) := eq_error_of_failure (by decide +kernel)
  have calls : (ended result).board.calls.toList = [.acknowledge 1 (some 0o61)] := by decide +kernel
  obtain ⟨iff, located, _⟩ := conduct_stops_iff { model := .t11 } oddVector [.perform (.drive .irq0 true), .perform .step]
  exact ⟨iff.mp ⟨_, _, stopped⟩, _, _, stopped, located _ _ stopped, calls⟩

end Pdp11
