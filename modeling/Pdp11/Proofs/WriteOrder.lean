import Pdp11.Proofs.RunBounds
import Pdp11.Proofs.TrapReturn

/-! The order of bus cycles within an instruction. It reads all that it needs before it writes
anything, and what it writes is one word or byte. An instruction that saves its context writes
two words, the status word first. So whoever rolls an aborted instruction back finds no write of
it on the board, or at most that status word below the stack. -/

namespace Pdp11

namespace BusCall

def isRead : BusCall → Bool
  | readWord .. | readByte .. => true
  | _ => false

def isWrite : BusCall → Bool
  | writeWord .. | writeByte .. => true
  | _ => false

/-- A write that the board has accepted. -/
def isDone : BusCall → Bool
  | writeWord _ _ (.ok _) | writeByte _ _ (.ok _) => true
  | _ => false

/-- Words are read and written at even addresses. -/
def Aligned : BusCall → Prop
  | readWord address _ | writeWord address _ _ => address.even = address
  | _ => True

theorem isWrite_of_isDone {call : BusCall} (done : call.isDone = true) : call.isWrite = true := by
  cases call with
  | writeWord | writeByte => rfl
  | readWord | readByte | acknowledge | acknowledgeChain | selectBank | resetDevices => cases done

end BusCall

/-- No read comes after a write among these calls, and just these are the writes. -/
structure WritesLast (writes calls : List BusCall) : Prop where
  ordered : calls.Pairwise fun earlier later => earlier.isWrite = true → later.isRead = false
  written : calls.filter BusCall.isWrite = writes
  aligned : ∀ call ∈ calls, call.Aligned

namespace WritesLast

variable {writes calls : List BusCall}

theorem nil : WritesLast [] [] := ⟨.nil, rfl, nofun⟩

/-- Anything may come next, but a read only where nothing is written yet. -/
theorem append (last : WritesLast writes calls) {call : BusCall} (aligned : call.Aligned)
    (early : call.isRead = true → writes = []) :
    WritesLast (writes ++ [call].filter BusCall.isWrite) (calls ++ [call]) where
  ordered := by
    refine List.pairwise_append.mpr ⟨last.ordered, List.pairwise_singleton _ _, fun earlier inside later latest written => ?_⟩
    rw [List.mem_singleton.mp latest]
    cases read : call.isRead with
    | false => rfl
    | true =>
      have none := List.filter_eq_nil_iff.mp (last.written.trans (early read))
      exact absurd written (none earlier inside)
  written := by rw [List.filter_append, last.written]
  aligned := by
    intro other inside
    rcases List.mem_append.mp inside with earlier | latest
    · exact last.aligned other earlier
    · exact List.mem_singleton.mp latest ▸ aligned

theorem append_unwritten (last : WritesLast writes calls) {call : BusCall} (unwritten : call.isWrite = false)
    (aligned : call.Aligned) (early : call.isRead = true → writes = []) : WritesLast writes (calls ++ [call]) := by
  have longer := last.append aligned early
  rwa [List.filter_cons_of_neg (by simp [unwritten]), List.filter_nil, List.append_nil] at longer

theorem done (last : WritesLast writes calls) : calls.filter BusCall.isDone = writes.filter BusCall.isDone := by
  rw [← last.written, List.filter_filter]
  refine List.filter_congr fun call _ => ?_
  cases done : call.isDone with
  | false => rfl
  | true => rw [BusCall.isWrite_of_isDone done, Bool.and_self]

end WritesLast

variable {β α γ : Type}

/-- In the course of an instruction: no bus error is pending, and since an earlier time these
writes have been made. -/
structure Underway (earlier writes : List BusCall) (machine : Machine (Recorded β)) : Prop where
  ready : machine.processor.lines.hasBusError = false
  since : machine.board.Since earlier (WritesLast writes)

/-- Code that asks for no cycle, whatever it does apart from that. -/
def Silent (code : Microcode (Recorded β) α) : Prop :=
  ∀ earlier writes, Ensures (Underway earlier writes) code (fun _ => Underway earlier writes) fun _ _ => False

/-- Code that writes nothing. -/
def OnlyReads (code : Microcode (Recorded β) α) : Prop :=
  ∀ earlier, Ensures (Underway earlier []) code (fun _ => Underway earlier []) fun _ broken =>
    broken.board.Since earlier (WritesLast [])

/-- Code that reads first and then writes, once more than there are writes to be left over when
it breaks off. -/
def WritesOver (start : Processor → Prop) (left : List BusCall) (code : Microcode (Recorded β) α) : Prop :=
  ∀ earlier, Ensures (fun machine => Underway earlier [] machine ∧ start machine.processor) code
    (fun _ after => ∃ writes, writes.length ≤ left.length + 1 ∧ Underway earlier writes after)
    fun _ broken => ∃ writes, writes.length ≤ left.length + 1 ∧ (writes.filter BusCall.isDone).Sublist left ∧
      broken.board.Since earlier (WritesLast writes)

/-- Code that reads first and then writes once at most. -/
abbrev WritesOnce (code : Microcode (Recorded β) α) : Prop := WritesOver (fun _ => True) [] code

namespace Silent

theorem pure (value : α) : Silent (pure value : Microcode (Recorded β) α) :=
  fun _ _ => .pure fun _ underway => underway

theorem bind {code : Microcode (Recorded β) α} {next : α → Microcode (Recorded β) γ} (first : Silent code)
    (rest : ∀ value, Silent (next value)) : Silent (code >>= next) :=
  fun earlier writes => (first earlier writes).bind fun value => rest value earlier writes

/-- A change of the processor is silent. It leaves pending what is pending. -/
theorem update {change : Processor → Processor}
    (kept : ∀ processor, (change processor).lines.hasBusError = processor.lines.hasBusError) :
    Silent (Microcode.update change : Microcode (Recorded β) Unit) :=
  fun _ _ => .modify fun machine underway => ⟨(kept machine.processor).trans underway.ready, underway.since⟩

theorem processor : Silent (Microcode.processor : Microcode (Recorded β) Processor) :=
  fun _ _ _ underway => underway

theorem register (name : Register) : Silent (Microcode.register name : Microcode (Recorded β) Word) :=
  processor.bind fun _ => .pure _

theorem setRegister (name : Register) (value : Word) :
    Silent (Microcode.setRegister name value : Microcode (Recorded β) Unit) :=
  update fun _ => rfl

theorem emit (event : TraceEvent) : Silent (Microcode.emit event : Microcode (Recorded β) Unit) :=
  update fun processor => by rw [Processor.emit_eq]

theorem charge (kind : CostKind) : Silent (Microcode.charge kind : Microcode (Recorded β) Unit) :=
  update fun _ => rfl

theorem woken :
    Silent (Microcode.update fun processor => { processor.wake with tracePending := false } : Microcode (Recorded β) Unit) :=
  update fun processor => by rw [Processor.wake_eq]

theorem updateStatus (change : StatusWord → StatusWord) :
    Silent (Microcode.updateStatus change : Microcode (Recorded β) Unit) :=
  update fun _ => rfl

theorem commit (width : Width) (result : AluResult) :
    Silent (Microcode.commit width result : Microcode (Recorded β) Word) :=
  (updateStatus _).bind fun _ => .pure _

theorem onlyReads {code : Microcode (Recorded β) α} (silent : Silent code) : OnlyReads code :=
  fun earlier => (silent earlier []).weaken (fun _ underway => underway) (fun _ _ underway => underway) fun _ _ => False.elim

variable [Board β]

theorem selectBank (bank : Bank) : Silent (modify (·.selectBank bank) : Microcode (Recorded β) PUnit) := by
  refine fun _ writes => .modify fun machine underway => ⟨underway.ready, ?_⟩
  have noted (calls : List BusCall) (last : WritesLast writes calls) : WritesLast writes (calls ++ [.selectBank bank]) :=
    last.append_unwritten rfl trivial nofun
  exact underway.since.note noted (Board.selectBank bank machine.board.board)

theorem installStatus (bits : Word) : Silent (Microcode.installStatus bits : Microcode (Recorded β) Unit) := by
  refine fun earlier writes => .modify fun machine underway => ?_
  rw [Machine.installStatus_eq]
  have installed : Underway earlier writes (machine.update ({ · with status := machine.installed bits })) :=
    ⟨underway.ready, underway.since⟩
  cases machine.switches bits with
  | false => exact installed
  | true => exact selectBank _ earlier writes _ installed

theorem resetDevices :
    Silent (Microcode.consult fun board => ((), Board.resetDevices board) : Microcode (Recorded β) Unit) := by
  refine fun _ writes machine underway => ⟨underway.ready, ?_⟩
  have noted (calls : List BusCall) (last : WritesLast writes calls) : WritesLast writes (calls ++ [.resetDevices]) :=
    last.append_unwritten rfl trivial nofun
  exact underway.since.note noted (Board.resetDevices machine.board.board)

end Silent

variable {earlier writes : List BusCall} {start : Processor → Prop} {left : List BusCall}

/-- A cycle that reads. If it is answered there was no bus error pending. -/
theorem Microcode.cycle_reads {request : Recorded β → Except BusError α × Recorded β} {call : Except BusError α → BusCall}
    (noted : ∀ board, ∃ answer inner, request board = (answer, .note board.recording board.calls (call answer) inner))
    (unwritten : ∀ answer, (call answer).isWrite = false) (aligned : ∀ answer, (call answer).Aligned) :
    Ensures (fun machine => machine.board.Since earlier (WritesLast [])) (cycle request) (fun _ => Underway earlier [])
      fun _ broken => broken.board.Since earlier (WritesLast []) := by
  rintro ⟨processor, board⟩ since
  obtain ⟨answer, inner, answered⟩ := noted board
  have later := since.note (fun _ last => last.append_unwritten (unwritten answer) (aligned answer) fun _ => rfl) inner
  simp only [cycle, answered]
  cases answer with
  | error failure => exact later
  | ok value =>
    cases pending : processor.lines.hasBusError with
    | true => exact later
    | false => exact ⟨pending, later⟩

/-- A cycle that writes. Where no bus error is pending, it only fails if it is refused. -/
theorem Microcode.cycle_writes {request : Recorded β → Except BusError Unit × Recorded β}
    {call : Except BusError Unit → BusCall}
    (noted : ∀ board, ∃ answer inner, request board = (answer, .note board.recording board.calls (call answer) inner))
    (written : ∀ answer, (call answer).isWrite = true) (unread : ∀ answer, (call answer).isRead = false)
    (aligned : ∀ answer, (call answer).Aligned) :
    Ensures (Underway earlier writes) (cycle request) (fun _ => Underway earlier (writes ++ [call (.ok ())]))
      fun _ broken => ∃ failure, broken.board.Since earlier (WritesLast (writes ++ [call (.error failure)])) := by
  intro machine underway
  obtain ⟨answer, inner, answered⟩ := noted machine.board
  have appended (calls : List BusCall) (last : WritesLast writes calls) :
      WritesLast (writes ++ [call answer]) (calls ++ [call answer]) := by
    have longer := last.append (aligned answer) (by simp [unread])
    rwa [List.filter_cons_of_pos (written answer)] at longer
  have later := underway.since.note appended inner
  cases answer with
  | error failure =>
    simp only [cycle, answered]
    exact ⟨failure, later⟩
  | ok value =>
    rw [cycle_of_ok underway.ready answered]
    exact ⟨underway.ready, later⟩

theorem Microcode.readWord_begins [Board β] (address : Word) :
    Ensures (fun machine => machine.board.Since earlier (WritesLast []))
      (readWord address : Microcode (Recorded β) Word) (fun _ => Underway earlier [])
      fun _ broken => broken.board.Since earlier (WritesLast []) :=
  cycle_reads (fun _ => ⟨_, _, rfl⟩) (fun _ => rfl) fun _ => Word.even_even address

namespace OnlyReads

theorem bind {code : Microcode (Recorded β) α} {next : α → Microcode (Recorded β) γ} (first : OnlyReads code)
    (rest : ∀ value, OnlyReads (next value)) : OnlyReads (code >>= next) :=
  fun earlier => (first earlier).bind fun value => rest value earlier

theorem setRegister (name : Register) (value : Word) :
    OnlyReads (Microcode.setRegister name value : Microcode (Recorded β) Unit) :=
  (Silent.setRegister _ _).onlyReads

variable [Board β]

theorem readWord (address : Word) : OnlyReads (Microcode.readWord address : Microcode (Recorded β) Word) :=
  fun _ => (Microcode.readWord_begins address).weaken (fun _ underway => underway.since) (fun _ _ underway => underway)
    fun _ _ since => since

theorem readByte (address : Word) : OnlyReads (Microcode.readByte address : Microcode (Recorded β) Byte) := by
  intro earlier
  have cycled : Ensures (fun machine => machine.board.Since earlier (WritesLast []))
      (Microcode.readByte address : Microcode (Recorded β) Byte) (fun _ => Underway earlier [])
      fun _ broken => broken.board.Since earlier (WritesLast []) :=
    Microcode.cycle_reads (fun _ => ⟨_, _, rfl⟩) (fun _ => rfl) fun _ => trivial
  exact cycled.weaken (fun _ underway => underway.since) (fun _ _ underway => underway) fun _ _ since => since

theorem sequential : Microcode.Sequential fun _ code => OnlyReads (β := β) code :=
  ⟨fun _ => (Silent.pure _).onlyReads, .bind, fun _ => (Silent.register _).onlyReads, .readWord⟩

theorem resolve (width : Width) (operand : Operand) :
    OnlyReads (Microcode.resolve width operand : Microcode (Recorded β) Location) :=
  sequential.resolve (setRegister _) width (setRegister _)

theorem readOperand (width : Width) (operand : Operand) :
    OnlyReads (Microcode.readOperand width operand : Microcode (Recorded β) (Location × Word)) :=
  sequential.readOperand (setRegister _) readByte width (setRegister _)

theorem jumpTarget? (operand : Operand) :
    OnlyReads (Microcode.jumpTarget? operand : Microcode (Recorded β) (Option Word)) :=
  sequential.jumpTarget? (setRegister _) (setRegister _)

theorem pop : OnlyReads (Microcode.pop : Microcode (Recorded β) Word) :=
  (Silent.register _).onlyReads.bind fun _ => (readWord _).bind fun _ =>
    ((Silent.setRegister _ _).bind fun _ => .pure _).onlyReads

theorem returnFromTrap : OnlyReads (Microcode.returnFromTrap : Microcode (Recorded β) Unit) :=
  pop.bind fun _ => pop.bind fun _ => ((Silent.setRegister _ _).bind fun _ => .installStatus _).onlyReads

theorem enterHaltMode : OnlyReads (Microcode.enterHaltMode : Microcode (Recorded β) Unit) := by
  have synced : Silent (Microcode.update (·.syncShadow) : Microcode (Recorded β) Unit) :=
    .update fun processor => by rw [Processor.syncShadow_eq]
  refine Silent.processor.onlyReads.bind fun interrupted => synced.onlyReads.bind fun _ => ?_
  have taken : OnlyReads (Microcode.takeBlock interrupted : Microcode (Recorded β) Unit) :=
    (readWord _).bind fun _ => (readWord _).bind fun _ => (Silent.onlyReads <|
      (Silent.setRegister _ _).bind fun _ => (Silent.installStatus _).bind fun _ => Silent.woken.bind fun _ =>
        (Silent.charge _).bind fun _ => .emit _)
  split
  · exact (Silent.selectBank .halt).onlyReads.bind fun _ => taken
  · exact taken

end OnlyReads

namespace WritesOver

variable {code : Microcode (Recorded β) α} {next : α → Microcode (Recorded β) γ}

theorem weaken {other : Processor → Prop} (writes : WritesOver other left code)
    (entails : ∀ processor, start processor → other processor) :
    WritesOver start left code :=
  fun earlier => (writes earlier).weaken (fun _ ⟨underway, holds⟩ => ⟨underway, entails _ holds⟩) (fun _ _ ended => ended)
    fun _ _ broken => broken

theorem of_onlyReads (reads : OnlyReads code) : WritesOver start left code :=
  fun earlier => (reads earlier).weaken (fun _ underway => underway.1)
    (fun _ _ underway => ⟨[], Nat.zero_le _, underway⟩)
    fun _ _ since => ⟨[], Nat.zero_le _, List.nil_sublist _, since⟩

/-- What is known of the processor is carried over what only reads. -/
theorem after_reads {middle : α → Processor → Prop} (reads : OnlyReads code)
    (carried : ∀ {before value after}, code before = .ok value after → start before.processor → middle value after.processor)
    (rest : ∀ value, WritesOver (middle value) left (next value)) : WritesOver start left (code >>= next) := by
  intro earlier
  have known : Ensures (fun machine => start machine.processor) code (fun value after => middle value after.processor)
      fun _ _ => True := .of_ok fun holds done => carried done holds
  refine ((reads earlier).and known |>.weaken (fun _ holds => holds) (fun _ _ ended => ended) ?_).bind fun value =>
    rest value earlier
  exact fun _ _ ⟨since, _⟩ => ⟨[], Nat.zero_le _, List.nil_sublist _, since⟩

theorem after_processor {next : Processor → Microcode (Recorded β) γ}
    (rest : ∀ processor, start processor → WritesOver start left (next processor)) :
    WritesOver start left (Microcode.processor >>= next) :=
  fun earlier machine ⟨underway, holds⟩ => rest machine.processor holds earlier machine ⟨underway, holds⟩

/-- A change of the processor that leaves what is known of it. -/
theorem after_update {change : Processor → Processor} {next : Unit → Microcode (Recorded β) γ}
    (lines : ∀ processor, (change processor).lines.hasBusError = processor.lines.hasBusError)
    (kept : ∀ processor, start processor → start (change processor)) (rest : WritesOver start left (next ())) :
    WritesOver start left (Microcode.update change >>= next) := by
  refine after_reads (Silent.update lines).onlyReads (fun done holds => ?_) fun _ => rest
  cases done
  exact kept _ holds

theorem before_silent_answering {good : α → Prop} (writes : WritesOver start left code) (answers : Answers good code)
    (rest : ∀ value, good value → Silent (next value)) : WritesOver start left (code >>= next) := by
  refine fun earlier => ((writes earlier).answering answers).bind fun value machine ⟨known, made, few, underway⟩ => ?_
  have kept := rest value known earlier made machine underway
  cases result : next value machine with
  | ok answer after =>
    rw [result] at kept
    exact ⟨made, few, kept⟩
  | error abort broken =>
    rw [result] at kept
    exact kept.elim

theorem before_silent (writes : WritesOver start left code) (rest : ∀ value, Silent (next value)) :
    WritesOver start left (code >>= next) := by
  have any : Answers (fun _ => True) code := fun _ _ _ _ => trivial
  exact writes.before_silent_answering any fun value _ => rest value

end WritesOver

namespace WritesOnce

variable {code : Microcode (Recorded β) α} {next : α → Microcode (Recorded β) γ}

theorem writesOver (once : WritesOnce code) : WritesOver start [] code := once.weaken fun _ _ => trivial

theorem after_reads (reads : OnlyReads code) (rest : ∀ value, WritesOnce (next value)) : WritesOnce (code >>= next) :=
  WritesOver.after_reads reads (fun _ _ => trivial) rest

theorem after_silent (silent : Silent code) (rest : ∀ value, WritesOnce (next value)) : WritesOnce (code >>= next) :=
  after_reads silent.onlyReads rest

end WritesOnce

section

open Microcode

variable [Board β]

theorem Microcode.writeWord_underway (address value : Word) :
    Ensures (Underway earlier writes) (Microcode.writeWord address value : Microcode (Recorded β) Unit)
      (fun _ => Underway earlier (writes ++ [.writeWord address.even value (.ok ())]))
      fun _ broken => ∃ failure,
        broken.board.Since earlier (WritesLast (writes ++ [.writeWord address.even value (.error failure)])) :=
  cycle_writes (fun _ => ⟨_, _, rfl⟩) (fun _ => rfl) (fun _ => rfl) fun _ => Word.even_even address

theorem Microcode.push_underway {sp : Word} (value : Word) :
    Ensures (fun machine => Underway earlier writes machine ∧ machine.processor.sp = sp)
      (push value : Microcode (Recorded β) Unit)
      (fun _ => Underway earlier (writes ++ [.writeWord (sp - 2).even value (.ok ())]))
      fun _ broken => ∃ failure,
        broken.board.Since earlier (WritesLast (writes ++ [.writeWord (sp - 2).even value (.error failure)])) := by
  rintro machine ⟨underway, rfl⟩
  exact writeWord_underway (machine.processor.sp - 2) value (machine.update (·.setRegister .sp (machine.processor.sp - 2)))
    ⟨underway.ready, underway.since⟩

namespace WritesOnce

omit [Board β] in
/-- The write may be made, or be refused. Either way it is one. -/
theorem of_cycle {code : Microcode (Recorded β) Unit} (call : Except BusError Unit → BusCall)
    (refused : ∀ failure, (call (.error failure)).isDone = false)
    (cycled : ∀ earlier, Ensures (Underway earlier []) code (fun _ => Underway earlier [call (.ok ())])
      fun _ broken => ∃ failure, broken.board.Since earlier (WritesLast [call (.error failure)])) : WritesOnce code := by
  refine fun earlier => (cycled earlier).weaken (fun _ underway => underway.1)
    (fun _ _ underway => ⟨_, Nat.le_refl _, underway⟩) fun _ _ ⟨failure, since⟩ => ⟨_, Nat.le_refl _, ?_, since⟩
  rw [List.filter_cons_of_neg (by simp [refused])]
  exact List.nil_sublist _

theorem writeWord (address value : Word) : WritesOnce (Microcode.writeWord address value : Microcode (Recorded β) Unit) :=
  of_cycle (.writeWord address.even value) (fun _ => rfl) fun _ => writeWord_underway address value

theorem writeByte (address : Word) (value : Byte) :
    WritesOnce (Microcode.writeByte address value : Microcode (Recorded β) Unit) :=
  of_cycle (.writeByte address value) (fun _ => rfl) fun _ =>
    cycle_writes (fun _ => ⟨_, _, rfl⟩) (fun _ => rfl) (fun _ => rfl) fun _ => trivial

theorem push (value : Word) : WritesOnce (Microcode.push value : Microcode (Recorded β) Unit) :=
  after_silent (.register _) fun _ => after_silent (.setRegister _ _) fun _ => writeWord _ _

theorem store (width : Width) (value : Word) (location : Location) :
    WritesOnce (Microcode.store width value location : Microcode (Recorded β) Unit) := by
  cases location with
  | register name =>
    cases width with
    | word => exact .of_onlyReads (Silent.setRegister _ _).onlyReads
    | byte =>
      refine .of_onlyReads (Silent.update ?_).onlyReads
      exact fun _ => rfl
  | memory address =>
    cases width with
    | word => exact writeWord _ _
    | byte => exact writeByte _ _

theorem storeSigned (value : Word) (location : Location) :
    WritesOnce (Microcode.storeSigned value location : Microcode (Recorded β) Unit) := by
  cases location with
  | register name => exact .of_onlyReads (Silent.setRegister _ _).onlyReads
  | memory address => exact writeByte _ _

theorem modifyOperand (width : Width) (operand : Operand) (compute : Word → Bool → AluResult) :
    WritesOnce (Microcode.modifyOperand width operand compute : Microcode (Recorded β) Retirement) :=
  after_reads (.readOperand _ _) fun _ => after_silent .processor fun _ => after_silent (.commit _ _) fun _ =>
    (store _ _ _).before_silent fun _ => .pure _

theorem compareOperands (width : Width) (src dst : Operand) (compute : Word → Word → AluResult) :
    WritesOnce (Microcode.compareOperands width src dst compute : Microcode (Recorded β) Retirement) :=
  .of_onlyReads <| (OnlyReads.readOperand _ _).bind fun _ => (OnlyReads.readOperand _ _).bind fun _ =>
    ((Silent.commit _ _).bind fun _ => .pure _).onlyReads

theorem combineOperands (width : Width) (src dst : Operand) (compute : Word → Word → AluResult) :
    WritesOnce (Microcode.combineOperands width src dst compute : Microcode (Recorded β) Retirement) :=
  after_reads (.readOperand _ _) fun _ => modifyOperand _ _ _

end WritesOnce

/-- The part of a processor that decides what an instruction saves. -/
structure Alike (first later : Processor) : Prop where
  model : later.model = first.model
  status : later.status = first.status
  sp : later.sp = first.sp

/-- The first write of whoever saves the context of this processor: the status word goes just
below the stack. -/
def Processor.savedStatus (processor : Processor) : BusCall :=
  .writeWord (processor.sp - 2).even processor.status.bits (.ok ())

theorem saves_context (first : Processor) (pc : Word) :
    WritesOver (fun later => later.sp = first.sp) [first.savedStatus] (do
      Microcode.push first.status.bits
      Microcode.push pc : Microcode (Recorded β) Unit) := by
  intro earlier
  have saved : Ensures (fun machine => Underway earlier [] machine ∧ machine.processor.sp = first.sp)
      (Microcode.push first.status.bits : Microcode (Recorded β) Unit) (fun _ => Underway earlier [first.savedStatus])
      fun _ broken => ∃ writes, writes.length ≤ 2 ∧ (writes.filter BusCall.isDone).Sublist [first.savedStatus] ∧
        broken.board.Since earlier (WritesLast writes) :=
    (push_underway first.status.bits).weaken (fun _ holds => holds) (fun _ _ underway => underway)
      fun _ _ ⟨failure, since⟩ =>
        ⟨[.writeWord (first.sp - 2).even first.status.bits (.error failure)], Nat.le_succ _, List.nil_sublist _, since⟩
  refine saved.bind fun _ machine underway => ?_
  exact (push_underway pc).weaken (fun _ same => same) (fun _ _ underway => ⟨_, Nat.le_refl _, underway⟩)
    (fun _ _ ⟨failure, since⟩ => ⟨_, Nat.le_refl _, List.Sublist.refl _, since⟩) machine ⟨underway, rfl⟩

theorem saves_context_then {first interrupted : Processor} (alike : Alike first interrupted) (pc : Word)
    {next : Microcode (Recorded β) γ} (silent : Silent next) :
    WritesOver (Alike first) [first.savedStatus] (do
      Microcode.push interrupted.status.bits
      Microcode.push pc
      next) := by
  have saved := (saves_context first pc).before_silent fun _ => silent
  rw [bind_assoc, ← alike.status] at saved
  exact saved.weaken fun _ later => later.sp

theorem enterTrap_saves (first : Processor) {vector : Word} (aligned : vector &&& 3 = 0) :
    WritesOver (Alike first) [first.savedStatus] (enterTrap vector : Microcode (Recorded β) Unit) := by
  have carried {address value : Word} {before after : Machine (Recorded β)}
      (done : readWord address before = .ok value after) (alike : Alike first before.processor) :
      Alike first after.processor := by
    rwa [(cycle_ok done).2]
  unfold enterTrap
  rw [if_neg (by rw [aligned]; decide)]
  refine .after_reads (.readWord _) carried fun newPc => .after_reads (.readWord _) carried fun newStatus =>
    .after_processor fun interrupted alike => ?_
  exact saves_context_then alike _ <| (Silent.setRegister _ _).bind fun _ => (Silent.installStatus _).bind fun _ =>
    Silent.woken.bind fun _ => .emit _

theorem trapped_saves (first : Processor) {cause : FaultCode} {vector : Word} (vectored : cause.vector? = some vector)
    (aligned : vector &&& 3 = 0) :
    WritesOver (Alike first) [first.savedStatus] (trapped cause : Microcode (Recorded β) Retirement) := by
  have entered : WritesOver (Alike first) [first.savedStatus] (faultTrap cause : Microcode (Recorded β) Unit) := by
    refine .after_update (fun _ => rfl) (fun _ alike => ⟨alike.model, alike.status, alike.sp⟩) ?_
    rw [vectored]
    exact enterTrap_saves first aligned
  exact entered.before_silent fun _ => .pure _

theorem restart_saves (first : Processor) :
    WritesOver (Alike first) [first.savedStatus] (restart : Microcode (Recorded β) Unit) :=
  .after_processor fun _ alike => saves_context_then alike _ <| (Silent.setRegister _ _).bind fun _ => .update fun _ => rfl

/-- An instruction enters a trap if it asks for one, if this processor has no such instruction,
or if it is a jump and a register is no place to go to. -/
def Instruction.entersTrap (processor : Processor) : Instruction → Bool
  | .control .bpt | .control .iot | .call _ _ => true
  | .control .mfpt => processor.model.processorType?.isNone
  | .control .start => !(processor.model.hasHaltMode && processor.status.haltMode)
  | .jmp target | .jsr _ target => target.mode == .register
  | _ => false

theorem jumpTarget?_register {target : Operand} (register : target.mode = .register) :
    (jumpTarget? target : Microcode (Recorded β) (Option Word)) = return none := by
  simp only [jumpTarget?, resolve, register, pure_bind]

theorem jumpTarget?_isSome {target : Operand} (memory : target.mode ≠ .register) :
    Answers (fun address => address.isSome = true) (jumpTarget? target : Microcode (Recorded β) (Option Word)) := by
  have located : Answers (fun location => ∃ address, location = .memory address)
      (resolve .word target : Microcode (Recorded β) Location) := by
    unfold resolve
    cases mode : target.mode with
    | register => exact absurd mode memory
    | registerDeferred => exact .last fun _ => .pure ⟨_, rfl⟩
    | autoIncrement | autoDecrement => exact .last fun _ => .last fun _ => .pure ⟨_, rfl⟩
    | autoIncrementDeferred | autoDecrementDeferred => exact .last fun _ => .last fun _ => .last fun _ => .pure ⟨_, rfl⟩
    | index => exact .last fun _ => .last fun _ => .pure ⟨_, rfl⟩
    | indexDeferred => exact .last fun _ => .last fun _ => .last fun _ => .pure ⟨_, rfl⟩
  refine located.bind fun location ⟨address, found⟩ => ?_
  subst found
  exact .pure rfl

theorem execute_saves (first : Processor) {instruction : Instruction} (enters : instruction.entersTrap first = true) :
    WritesOver (Alike first) [first.savedStatus] (execute instruction : Microcode (Recorded β) Retirement) := by
  have illegal : WritesOver (Alike first) [first.savedStatus]
      (trapped .illegalInstruction : Microcode (Recorded β) Retirement) :=
    trapped_saves first rfl (by decide)
  have reserved : WritesOver (Alike first) [first.savedStatus]
      (trapped .reservedInstruction : Microcode (Recorded β) Retirement) :=
    trapped_saves first rfl (by decide)
  cases instruction with
  | control op =>
    cases op with
    | bpt | iot => exact (enterTrap_saves first (by decide)).before_silent fun _ => .pure _
    | mfpt =>
      refine .after_processor fun processor alike => ?_
      cases type : processor.model.processorType? with
      | none => exact reserved
      | some kind =>
        rw [Instruction.entersTrap, ← alike.model, type] at enters
        cases enters
    | start =>
      refine .after_processor fun processor alike => ?_
      rw [Instruction.entersTrap, ← alike.model, ← alike.status, Bool.not_eq_true'] at enters
      rw [enters]
      exact reserved
    | halt | wait | rti | rtt | reset => cases enters
  | jmp target | jsr link target =>
    rw [execute, jumpTarget?_register (beq_iff_eq.mp enters), pure_bind]
    exact illegal
  | call op => cases op with
    | emt | trap => exact (enterTrap_saves first (by decide)).before_silent fun _ => .pure _
  | _ => cases enters

/-- The other way to go on is not taken where the target is in memory. -/
theorem after_jumpTarget? {target : Operand} (memory : target.mode ≠ .register)
    {next : Option Word → Microcode (Recorded β) γ} (jump : ∀ address, WritesOnce (next (some address))) :
    WritesOnce (jumpTarget? target >>= next) := by
  let reached (address : Option Word) (_ : Processor) : Prop := address.isSome = true
  have carried {before after : Machine (Recorded β)} {address : Option Word}
      (done : jumpTarget? target before = .ok address after) (_ : True) : reached address after.processor :=
    jumpTarget?_isSome memory before after address done
  refine WritesOver.after_reads (.jumpTarget? _) carried fun address => ?_
  cases address with
  | some address => exact (jump address).writesOver
  | none =>
    intro earlier machine ⟨_, reached⟩
    cases reached

theorem executeControl_writesOnce (first : Processor) {op : ControlOp}
    (enters : Instruction.entersTrap first (.control op) = false) :
    WritesOver (Alike first) [] (executeControl op : Microcode (Recorded β) Retirement) := by
  cases op with
  | halt | wait => exact .of_onlyReads (Silent.pure _).onlyReads
  | rti => exact .of_onlyReads <| OnlyReads.returnFromTrap.bind fun _ => (Silent.pure _).onlyReads
  | rtt =>
    have inhibited : Silent (update ({ · with traceInhibited := true }) : Microcode (Recorded β) Unit) :=
      .update fun _ => rfl
    exact .of_onlyReads <| OnlyReads.returnFromTrap.bind fun _ => (inhibited.bind fun _ => .pure _).onlyReads
  | reset =>
    have cleared : Silent (update fun processor => { processor with lines := processor.lines.clearEvent } :
        Microcode (Recorded β) Unit) := .update fun _ => rfl
    exact .of_onlyReads (Silent.resetDevices.bind fun _ => cleared.bind fun _ => .pure _).onlyReads
  | mfpt =>
    refine .after_processor fun processor alike => ?_
    cases type : processor.model.processorType? with
    | some kind => exact .of_onlyReads ((Silent.setRegister _ _).bind fun _ => .pure _).onlyReads
    | none =>
      rw [Instruction.entersTrap, ← alike.model, type] at enters
      cases enters
  | start =>
    refine .after_processor fun processor alike => ?_
    rw [Instruction.entersTrap, ← alike.model, ← alike.status, Bool.not_eq_false'] at enters
    rw [enters]
    exact .of_onlyReads ((Silent.setRegister _ _).bind fun _ => (Silent.installStatus _).bind fun _ => .pure _).onlyReads
  | bpt | iot => cases enters

theorem execute_writesOnce (first : Processor) {instruction : Instruction}
    (enters : instruction.entersTrap first = false) :
    WritesOver (Alike first) [] (execute instruction : Microcode (Recorded β) Retirement) := by
  unfold execute
  cases instruction with
  | control => exact executeControl_writesOnce first enters
  | jmp target =>
    exact WritesOnce.writesOver <| after_jumpTarget? (beq_eq_false_iff_ne.mp enters) fun _ =>
      .of_onlyReads ((Silent.setRegister _ _).bind fun _ => .pure _).onlyReads
  | jsr link target =>
    exact WritesOnce.writesOver <| after_jumpTarget? (beq_eq_false_iff_ne.mp enters) fun _ =>
      .after_silent (.register _) fun _ => (WritesOnce.push _).before_silent fun _ => (Silent.register _).bind fun _ =>
        (Silent.setRegister _ _).bind fun _ => (Silent.setRegister _ _).bind fun _ => .pure _
  | call => cases enters
  | rts link =>
    exact .of_onlyReads <| (Silent.register _).onlyReads.bind fun _ => (Silent.setRegister _ _).onlyReads.bind fun _ =>
      OnlyReads.pop.bind fun _ => ((Silent.setRegister _ _).bind fun _ => .pure _).onlyReads
  | codes => exact .of_onlyReads ((Silent.updateStatus _).bind fun _ => .pure _).onlyReads
  | branch condition offset =>
    refine .of_onlyReads (Silent.processor.bind fun processor => ?_).onlyReads
    split
    · exact (Silent.register _).bind fun _ => (Silent.setRegister _ _).bind fun _ => .pure _
    · exact .pure _
  | sob counter offset =>
    refine .of_onlyReads ((Silent.register _).bind fun _ => (Silent.setRegister _ _).bind fun _ => ?_).onlyReads
    split
    · exact (Silent.register _).bind fun _ => (Silent.setRegister _ _).bind fun _ => .pure _
    · exact .pure _
  | mark count =>
    exact .of_onlyReads <| (Silent.register _).onlyReads.bind fun _ => (Silent.setRegister _ _).onlyReads.bind fun _ =>
      (Silent.register _).onlyReads.bind fun _ => (Silent.setRegister _ _).onlyReads.bind fun _ =>
        OnlyReads.pop.bind fun _ => ((Silent.setRegister _ _).bind fun _ => .pure _).onlyReads
  | swab dst =>
    exact WritesOnce.writesOver <| .after_reads (.readOperand _ _) fun _ => .after_silent (.updateStatus _) fun _ =>
      (WritesOnce.store _ _ _).before_silent fun _ => .pure _
  | sxt dst =>
    exact WritesOnce.writesOver <| .after_silent .processor fun _ => .after_reads (.resolve _ _) fun _ =>
      (WritesOnce.store _ _ _).before_silent fun _ => (Silent.updateStatus _).bind fun _ => .pure _
  | mtps src =>
    refine .of_onlyReads <| (OnlyReads.readOperand _ _).bind fun (_, value) => Silent.onlyReads <|
      (Silent.update ?_).bind fun _ => .pure _
    exact fun _ => rfl
  | mfps dst =>
    exact WritesOnce.writesOver <| .after_silent .processor fun _ => .after_reads (.resolve _ _) fun _ =>
      .after_silent (.commit _ _) fun _ => (WritesOnce.storeSigned _ _).before_silent fun _ => .pure _
  | clr width dst =>
    exact WritesOnce.writesOver <| .after_reads (.resolve _ _) fun _ => .after_silent (.commit _ _) fun _ =>
      (WritesOnce.store _ _ _).before_silent fun _ => .pure _
  | tst width src =>
    exact .of_onlyReads <| (OnlyReads.readOperand _ _).bind fun _ => ((Silent.commit _ _).bind fun _ => .pure _).onlyReads
  | unary op width dst => exact WritesOnce.writesOver (.modifyOperand _ _ _)
  | mov width src dst =>
    refine WritesOnce.writesOver <| .after_reads (.readOperand _ _) fun _ => .after_reads (.resolve _ _) fun _ =>
      .after_silent (.commit _ _) fun _ => ?_
    cases width with
    | word => exact (WritesOnce.store _ _ _).before_silent fun _ => .pure _
    | byte => exact (WritesOnce.storeSigned _ _).before_silent fun _ => .pure _
  | cmp width src dst | bit width src dst => exact WritesOnce.writesOver (.compareOperands _ _ _ _)
  | bic width src dst | bis width src dst => exact WritesOnce.writesOver (.combineOperands _ _ _ _)
  | add src dst | sub src dst => exact WritesOnce.writesOver (.combineOperands _ _ _ _)
  | xor src dst => exact WritesOnce.writesOver <| .after_silent (.register _) fun _ => .modifyOperand _ _ _

/-- A word saves the context if it enters a trap, or if it halts a processor that only restarts. -/
def Processor.savesContext (processor : Processor) (word : Word) : Bool :=
  match Instruction.ofWord? word with
  | none => true
  | some instruction => instruction.entersTrap processor || instruction == .control .halt && processor.model == .t11

/-- What a word that is broken off may have written by then. -/
def Processor.leftOver (processor : Processor) (word : Word) : List BusCall :=
  if processor.savesContext word then [processor.savedStatus] else []

theorem execute_leaves (first : Processor) {word : Word} {instruction : Instruction}
    (found : Instruction.ofWord? word = some instruction) (runs : instruction ≠ .control .halt) :
    WritesOver (Alike first) (first.leftOver word) (execute instruction : Microcode (Recorded β) Retirement) := by
  have saves : first.savesContext word = instruction.entersTrap first := by
    simp only [Processor.savesContext, found, beq_false_of_ne runs, Bool.false_and, Bool.or_false]
  rw [Processor.leftOver, saves]
  cases enters : instruction.entersTrap first with
  | true => exact execute_saves first enters
  | false => exact execute_writesOnce first enters

theorem halt_leaves (first : Processor) {word : Word} (found : Instruction.ofWord? word = some (.control .halt)) :
    WritesOver (Alike first) (first.leftOver word) (halt : Microcode (Recorded β) Unit) := by
  have saves : first.savesContext word = (first.model == .t11) := by
    simp only [Processor.savesContext, found, Instruction.entersTrap, Bool.false_or, beq_self_eq_true, Bool.true_and]
  rw [Processor.leftOver, saves]
  refine .after_processor fun processor alike => ?_
  rw [← alike.model]
  cases processor.model with
  | t11 => exact restart_saves first
  | vm2 => exact .of_onlyReads .enterHaltMode

theorem executeWord_leaves (first : Processor) (word : Word) :
    WritesOver (Alike first) (first.leftOver word) (executeWord word : Microcode (Recorded β) Retirement) := by
  unfold executeWord
  cases found : Instruction.ofWord? word with
  | none =>
    rw [Processor.leftOver, Processor.savesContext, found]
    exact (trapped_saves first rfl (by decide)).before_silent fun _ => (Silent.charge _).bind fun _ => .pure _
  | some instruction =>
    have spent : Silent (update (·.charge instruction.cycles) : Microcode (Recorded β) Unit) := .update fun _ => rfl
    by_cases runs : instruction = .control .halt
    · subst runs
      -- A HALT instruction is charged before it does anything.
      change WritesOver _ _ (do
        update (·.charge (Instruction.control .halt).cycles)
        halt
        return .halting : Microcode (Recorded β) Retirement)
      exact .after_update (fun _ => rfl) (fun _ alike => ⟨alike.model, alike.status, alike.sp⟩)
        ((halt_leaves first found).before_silent fun _ => .pure _)
    · have charged : WritesOver (Alike first) (first.leftOver word)
          (executeCharged instruction : Microcode (Recorded β) Retirement) := by
        refine (execute_leaves first found runs).before_silent fun retirement => ?_
        cases retirement with
        | trapped cause => exact (Silent.charge _).bind fun _ => .pure _
        | completed | waiting | halting => exact spent.bind fun _ => .pure _
      refine charged.before_silent_answering (executeCharged_retires instruction) fun retirement own => ?_
      cases retirement with
      | waiting =>
        have waits : Silent (update ({ · with runState := .waiting }) : Microcode (Recorded β) Unit) := .update fun _ => rfl
        exact waits.bind fun _ => .pure _
      | halting => exact absurd own runs
      | completed | trapped => exact .pure _

theorem fetchInstruction_begins :
    Ensures (fun machine => machine.board.Since earlier (WritesLast []))
      (fetchInstruction : Microcode (Recorded β) Word) (fun _ => Underway earlier [])
      fun _ broken => broken.board.Since earlier (WritesLast []) := by
  intro machine since
  have rest (word : Word) : OnlyReads (do
      setPc (machine.begun.processor.pc.even + 2)
      return word : Microcode (Recorded β) Word) := ((Silent.setRegister _ _).bind fun _ => .pure _).onlyReads
  exact (readWord_begins machine.begun.processor.pc.even).bind (fun word => rest word earlier) machine.begun since

theorem fetchInstruction_alike {word : Word} {machine fetched : Machine (Recorded β)}
    (fetch : fetchInstruction machine = .ok word fetched) : Alike machine.processor fetched.processor := by
  obtain ⟨observed, same⟩ := fetchInstruction_ok fetch
  rw [same]
  exact ⟨rfl, rfl, RegisterFile.sp_setPc _ _⟩

/-- The instruction at the program counter saves the context. -/
def Machine.savesContext (machine : Machine (Recorded β)) : Bool :=
  match fetchInstruction machine with
  | .ok word _ => machine.processor.savesContext word
  | .error _ _ => false

theorem instructionCycle_leaves (start : UInt64) {machine : Machine (Recorded β)}
    (since : machine.board.Since earlier (WritesLast [])) :
    ∃ writes, writes.length ≤ (if machine.savesContext then 2 else 1) ∧
      (ended (instructionCycle start machine)).board.Since earlier (WritesLast writes) ∧
      ∀ abort broken, instructionCycle start machine = .error abort broken →
        (writes.filter BusCall.isDone).Sublist (if machine.savesContext then [machine.processor.savedStatus] else []) := by
  have begun := fetchInstruction_begins machine since
  rw [instructionCycle_eq, Machine.savesContext]
  cases fetch : fetchInstruction machine with
  | error abort broken =>
    rw [fetch] at begun
    exact ⟨[], Nat.zero_le _, begun, fun _ _ _ => List.nil_sublist _⟩
  | ok word fetched =>
    rw [fetch] at begun
    have executed := executeWord_leaves machine.processor word earlier fetched ⟨begun, fetchInstruction_alike fetch⟩
    have limit : (machine.processor.leftOver word).length + 1 = if machine.processor.savesContext word then 2 else 1 := by
      rw [Processor.leftOver]
      split
      · rfl
      · rfl
    rw [limit] at executed
    cases execution : executeWord word fetched with
    | error abort broken =>
      rw [execution] at executed
      obtain ⟨writes, few, done, since⟩ := executed
      simp only [execution]
      exact ⟨writes, few, since, fun _ _ _ => done⟩
    | ok retirement after =>
      rw [execution] at executed
      obtain ⟨writes, few, underway⟩ := executed
      simp only [execution]
      refine ⟨writes, few, underway.since, fun abort broken failed => ?_⟩
      cases failed

/-- Writes come last in an instruction, whatever it is and wherever it breaks off. No read
follows a write, all words are at even addresses, and there is one write at most, or two if the
instruction saves its context. Only a failed cycle breaks it off, and then nothing of it has been
written, or in the second case at most the status word. -/
theorem instructionCycle_writes_last (start : UInt64) (processor : Processor) (board : β) :
    let machine : Machine (Recorded β) := ⟨processor, { board }⟩
    let calls := (ended (instructionCycle start machine)).board.calls.toList
    calls.Pairwise (fun earlier later => earlier.isWrite = true → later.isRead = false) ∧
      (∀ call ∈ calls, call.Aligned) ∧
      calls.countP BusCall.isWrite ≤ (if machine.savesContext then 2 else 1) ∧
      ∀ abort broken, instructionCycle start machine = .error abort broken → abort = .failedCycle ∧
        (calls.filter BusCall.isDone).Sublist
          (if machine.savesContext then [.writeWord (processor.sp - 2).even processor.status.bits (.ok ())] else []) := by
  intro machine calls
  have fresh : machine.board.Since [] (WritesLast []) := ⟨rfl, [], rfl, .nil⟩
  obtain ⟨writes, few, ⟨_, later, recorded, last⟩, left⟩ := instructionCycle_leaves start fresh
  rw [List.nil_append] at recorded
  rw [← recorded] at last
  refine ⟨last.ordered, last.aligned, ?_, fun abort broken failed => ⟨?_, ?_⟩⟩
  · rw [List.countP_eq_length_filter, last.written]
    exact few
  · exact OnlyCyclesFail.instructionCycle start _ _ _ failed
  · rw [last.done]
    exact left abort broken failed

end

/-- A breakpoint on a stack whose second word takes no write. -/
def shallowStack : Machine (Recorded FlatBoard) :=
  ⟨((Processor.create { model := .t11 }).setPc 0o200).setSp 0o1000,
    { board := ((FlatBoard.load {} 0o200 [0o3]).load 0o14 [0o4000, 0o340]).protect ⟨0o774, 0o774⟩ }⟩

theorem instructionCycle_writes_last_breakpoint :
    ∃ broken, Microcode.instructionCycle 0 shallowStack = .error .failedCycle broken ∧
      broken.board.calls.toList.filter BusCall.isWrite =
        [.writeWord 0o776 0 (.ok ()), .writeWord 0o774 0o202 (.error (.rejected 0o774))] ∧
      (broken.board.calls.toList.filter BusCall.isDone).Sublist [.writeWord 0o776 0 (.ok ())] := by
  obtain ⟨aborted, saves, written⟩ : failure? (Microcode.instructionCycle 0 shallowStack) = some .failedCycle ∧
      shallowStack.savesContext = true ∧
      (ended (Microcode.instructionCycle 0 shallowStack)).board.calls.toList.filter BusCall.isWrite =
        [.writeWord 0o776 0 (.ok ()), .writeWord 0o774 0o202 (.error (.rejected 0o774))] := by decide +kernel
  have failed := eq_error_of_failure aborted
  obtain ⟨_, _, _, left⟩ := instructionCycle_writes_last 0 shallowStack.processor shallowStack.board.board
  have done : List.Sublist _ (if shallowStack.savesContext then _ else _) := (left _ _ failed).2
  rw [if_pos saves] at done
  exact ⟨_, failed, written, done⟩

end Pdp11
