import Pdp11.Operation
import Pdp11.Proofs.Contract
import Pdp11.Proofs.MachineState
import Pdp11.Proofs.StatusBits
import Mathlib.Logic.Relation

/-! What microcode can do, action by action. Every routine of the processor is a
succession of these actions, also one that breaks off, so a fact about all
microcode needs a look at each action once and at no routine. -/

namespace Pdp11

variable {β : Type} [Board β]

/-- A board before and after one of the four cycles, whatever it answered. -/
inductive Cycled : β → β → Prop where
  | readWord (address : Word) (board : β) : Cycled board (Board.readWord address.even board).2
  | readByte (address : Word) (board : β) : Cycled board (Board.readByte address board).2
  | writeWord (address value : Word) (board : β) : Cycled board (Board.writeWord address.even value board).2
  | writeByte (address : Word) (value : Byte) (board : β) : Cycled board (Board.writeByte address value board).2

/-- What not all microcode may do. -/
inductive Special where
  /-- Select the HALT bank ahead of the status word that asks for it. -/
  | haltBank
  /-- Bring the shadow up to date. -/
  | shadow
  /-- Keep the next instruction from being traced. -/
  | inhibit
  /-- Go on behind a refused cycle, which no code does by itself. -/
  | refusal
  /-- Ask a device for its vector, which takes its request away. -/
  | acknowledge
  | resetDevices
  /-- Drop a level or the event latch. -/
  | lines
deriving DecidableEq

abbrev Scope := Special → Prop

namespace Scope

def any : Scope := fun _ => True

def outsideHalt : Scope := (· ≠ .haltBank)

/-- Code of this scope may enter HALT mode, on a model that has one. -/
def Halts (allowed : Scope) (model : Model) : Prop := model = .vm2 → allowed .haltBank ∧ allowed .shadow

/-- Code of this scope may do what the arbiter does. -/
structure Arbitrates (allowed : Scope) (model : Model) : Prop where
  halts : allowed.Halts model
  acknowledge : allowed .acknowledge
  lines : allowed .lines

theorem any_halts (model : Model) : any.Halts model := fun _ => ⟨trivial, trivial⟩

theorem any_arbitrates (model : Model) : any.Arbitrates model := ⟨any_halts model, trivial, trivial⟩

end Scope

/-- A board before and after a call. Banks are selected apart from this, by the
actions that do so. -/
inductive Called (allowed : Scope) : β → β → Prop where
  | cycle {before after : β} (cycled : Cycled before after) : Called allowed before after
  | acknowledge (may : allowed .acknowledge) (request : Byte) (board : β) :
      Called allowed board (Board.acknowledge request board).2
  | acknowledgeChain (may : allowed .acknowledge) (board : β) : Called allowed board (Board.acknowledgeChain board).2
  | resetDevices (may : allowed .resetDevices) (board : β) : Called allowed board (Board.resetDevices board)

theorem Called.mono {fewer more : Scope} (within : ∀ special, fewer special → more special) {before after : β}
    (called : Called fewer before after) : Called more before after := by
  cases called with
  | cycle cycled => exact .cycle cycled
  | acknowledge may request => exact .acknowledge (within _ may) request _
  | acknowledgeChain may => exact .acknowledgeChain (within _ may) _
  | resetDevices may => exact .resetDevices (within _ may) _

/-- One action of microcode. -/
inductive Action (allowed : Scope) : Machine β → Machine β → Prop where
  | registers (machine) (registers : RegisterFile) :
      Action allowed machine (machine.update ({ · with registers }))
  | codes (machine) (status : StatusWord) (kept : status.SameOutside codeBits machine.processor.status) :
      Action allowed machine (machine.update ({ · with status }))
  | priority (machine) (value : Word) :
      Action allowed machine (machine.update fun processor =>
        { processor with
          status := StatusWord.masked ⟨(processor.status.bits &&& ~~~mtpsMask) ||| (value &&& mtpsMask)⟩
            processor.model.implemented })
  /-- Restart of the model without a HALT mode. -/
  | restart (machine) (without : machine.processor.model = .t11) :
      Action allowed machine (machine.update ({ · with status := T11.resetStatus }))
  | install (machine) (bits : Word) : Action allowed machine (machine.installStatus bits)
  | haltBank (machine) (may : allowed .haltBank) (has : machine.processor.model = .vm2)
      (apart : machine.processor.bank ≠ .halt) : Action allowed machine (machine.selectBank .halt)
  /-- Levels and the event latch; bus errors are only ever counted. -/
  | lines (machine) (may : allowed .lines) (lines : InputLines) (counted : lines.busErrors = machine.processor.lines.busErrors) :
      Action allowed machine (machine.update ({ · with lines }))
  | trace (machine) (tracePending traceInhibited : Bool)
      (kept : traceInhibited = true → machine.processor.traceInhibited = true ∨ allowed .inhibit) :
      Action allowed machine (machine.update ({ · with tracePending, traceInhibited }))
  | wait (machine) : Action allowed machine (machine.update ({ · with runState := .waiting }))
  | wake (machine) : Action allowed machine (machine.update (·.wake))
  | shadow (machine) (may : allowed .shadow) : Action allowed machine (machine.update (·.syncShadow))
  | previousPc (machine) (address : Word) :
      Action allowed machine (machine.update ({ · with previousPc := address.even }))
  | emit (machine) (event : TraceEvent) : Action allowed machine (machine.update (·.emit event))
  | charge (machine) (cycles : Nat) : Action allowed machine (machine.update (·.charge cycles))
  | count (machine) (statistics : Statistics) :
      Action allowed machine (machine.update ({ · with statistics }))
  | call (processor) {before after : β} (called : Called allowed before after) :
      Action allowed ⟨processor, before⟩ ⟨processor, after⟩
  | refused (processor) {before after : β} (may : allowed .refusal) (cycled : Cycled before after) :
      Action allowed ⟨processor, before⟩
        ⟨{ processor with lines := processor.lines.raiseBusError }, after⟩

abbrev Actions (allowed : Scope) : Machine β → Machine β → Prop :=
  Relation.ReflTransGen (Action allowed)

theorem Action.mono {fewer more : Scope} (within : ∀ special, fewer special → more special)
    {before after : Machine β} (action : Action fewer before after) : Action more before after := by
  cases action with
  | registers _ registers => exact .registers _ registers
  | codes _ status kept => exact .codes _ status kept
  | priority _ value => exact .priority _ value
  | restart _ without => exact .restart _ without
  | install _ bits => exact .install _ bits
  | haltBank _ may has apart => exact .haltBank _ (within _ may) has apart
  | lines _ may lines counted => exact .lines _ (within _ may) lines counted
  | trace _ tracePending traceInhibited kept =>
    exact .trace _ tracePending traceInhibited fun on => (kept on).imp_right (within _)
  | wait => exact .wait _
  | wake => exact .wake _
  | shadow _ may => exact .shadow _ (within _ may)
  | previousPc _ address => exact .previousPc _ address
  | emit _ event => exact .emit _ event
  | charge _ cycles => exact .charge _ cycles
  | count _ statistics => exact .count _ statistics
  | call _ called => exact .call _ (called.mono within)
  | refused _ may cycled => exact .refused _ (within _ may) cycled

theorem Actions.any {allowed : Scope} {before after : Machine β} (actions : Actions allowed before after) :
    Actions .any before after :=
  Relation.ReflTransGen.mono (fun _ _ => Action.mono fun _ _ => trivial) _ _ actions

/-- What microcode never changes: these are for the driver. -/
structure SameSetting (before after : Processor) : Prop where
  configuration : after.configuration = before.configuration
  mode : after.mode = before.mode
  resetOnResume : after.resetOnResume = before.resetOnResume
  latched : ∀ cause, after.runState = .latched cause → before.runState = .latched cause

namespace SameSetting

theorem refl (processor : Processor) : SameSetting processor processor :=
  ⟨rfl, rfl, rfl, fun _ held => held⟩

theorem trans {first second third : Processor} (left : SameSetting first second)
    (right : SameSetting second third) : SameSetting first third :=
  ⟨right.configuration.trans left.configuration, right.mode.trans left.mode,
    right.resetOnResume.trans left.resetOnResume, fun cause held => left.latched cause (right.latched cause held)⟩

theorem model {before after : Processor} (same : SameSetting before after) : after.model = before.model :=
  congrArg Configuration.model same.configuration

end SameSetting

theorem Action.sameSetting {allowed : Scope} {before after : Machine β}
    (action : Action allowed before after) : SameSetting before.processor after.processor := by
  cases action with
  | registers | codes | priority | restart | lines | trace | previousPc | charge | count | call | refused
  | haltBank => exact ⟨rfl, rfl, rfl, fun _ held => held⟩
  | install bits =>
    rw [Machine.installStatus_processor]
    exact ⟨rfl, rfl, rfl, fun _ held => held⟩
  | wait => exact ⟨rfl, rfl, rfl, fun _ held => by cases held⟩
  | wake =>
    rw [Machine.update_processor, Processor.wake_eq]
    refine ⟨rfl, rfl, rfl, fun cause held => ?_⟩
    simp only at held
    split at held
    · cases held
    · exact held
  | shadow =>
    rw [Machine.update_processor, Processor.syncShadow_eq]
    exact ⟨rfl, rfl, rfl, fun _ held => held⟩
  | emit event =>
    rw [Machine.update_processor, Processor.emit_eq]
    exact ⟨rfl, rfl, rfl, fun _ held => held⟩

theorem Actions.sameSetting {allowed : Scope} {before after : Machine β}
    (actions : Actions allowed before after) : SameSetting before.processor after.processor := by
  induction actions with
  | refl => exact .refl _
  | tail _ last ih => exact ih.trans last.sameSetting

theorem Actions.keeps {allowed : Scope} {invariant : Machine β → Prop} {before after : Machine β}
    (actions : Actions allowed before after)
    (step : ∀ {before after}, Action allowed before after → invariant before → invariant after)
    (holds : invariant before) : invariant after := by
  induction actions with
  | refl => exact holds
  | tail _ last ih => exact step last ih

/-- A property of boards that no call of this scope ends. -/
structure PersistentIn (allowed : Scope) (lasting : β → Prop) : Prop where
  called : ∀ {before after}, Called allowed before after → lasting before → lasting after
  selected : ∀ bank {board}, lasting board → lasting (Board.selectBank bank board)

abbrev Persistent (lasting : β → Prop) : Prop := PersistentIn .any lasting

namespace PersistentIn

variable {allowed : Scope} {lasting : β → Prop}

theorem installStatus (persistent : PersistentIn allowed lasting) {machine : Machine β} (bits : Word)
    (holds : lasting machine.board) : lasting (machine.installStatus bits).board := by
  rw [Machine.installStatus_board]
  split
  · exact persistent.selected _ holds
  · exact holds

theorem restore (persistent : PersistentIn allowed lasting) {machine : Machine β} (boundary : Checkpoint)
    (holds : lasting machine.board) : lasting (machine.restore boundary).board :=
  persistent.installStatus boundary.status.bits holds

theorem action (persistent : PersistentIn allowed lasting) {before after : Machine β}
    (action : Action allowed before after) (holds : lasting before.board) : lasting after.board := by
  cases action with
  | registers | codes | priority | restart | lines | trace | wait | wake | shadow | previousPc | emit | charge
  | count => exact holds
  | install _ bits => exact persistent.installStatus bits holds
  | haltBank => exact persistent.selected _ holds
  | call _ called => exact persistent.called called holds
  | refused _ _ cycled => exact persistent.called (.cycle cycled) holds

end PersistentIn

namespace Persistent

variable {lasting : β → Prop}

theorem action (persistent : Persistent lasting) {allowed : Scope} {before after : Machine β}
    (action : Action allowed before after) (holds : lasting before.board) : lasting after.board :=
  PersistentIn.action persistent (action.mono fun _ _ => trivial) holds

theorem actions (persistent : Persistent lasting) {allowed : Scope} {before after : Machine β}
    (actions : Actions allowed before after) (holds : lasting before.board) : lasting after.board := by
  have step {before after : Machine β} : Action allowed before after → lasting before.board → lasting after.board :=
    persistent.action
  exact actions.keeps step holds

end Persistent

/-- A cycle that the board refused, or answered while a bus error was pending. -/
structure FailedCycle (before after : Machine β) : Prop where
  cycled : Cycled before.board after.board
  processor : after.processor = before.processor ∨
    after.processor = { before.processor with lines := before.processor.lines.raiseBusError }

theorem FailedCycle.action {before after : Machine β} (failed : FailedCycle before after) :
    Action .any before after := by
  obtain ⟨processor, board⟩ := before
  obtain ⟨same, left⟩ := after
  obtain ⟨cycled, kept | raised⟩ := failed
  · cases kept
    exact .call processor (.cycle cycled)
  · cases raised
    exact .refused processor trivial cycled

/-- How code breaks off: if a cycle failed, that is the last thing it did. -/
def Broken (allowed : Scope) (before : Machine β) (abort : Abort) (after : Machine β) : Prop :=
  ∃ middle, Actions allowed before middle ∧ (FailedCycle middle after ∨ abort ≠ .failedCycle ∧ after = middle)

namespace Broken

variable {allowed : Scope} {before after : Machine β} {abort : Abort}

theorem last (broken : Broken allowed before .failedCycle after) :
    ∃ middle, Actions allowed before middle ∧ FailedCycle middle after := by
  obtain ⟨middle, path, failed | ⟨other, _⟩⟩ := broken
  · exact ⟨middle, path, failed⟩
  · exact absurd rfl other

theorem path (broken : Broken allowed before abort after) : Actions .any before after := by
  obtain ⟨middle, path, failed | ⟨_, rfl⟩⟩ := broken
  · exact path.any.tail failed.action
  · exact path.any

theorem keeps {invariant : Machine β → Prop} (broken : Broken allowed before abort after)
    (step : ∀ {before after}, Action allowed before after → invariant before → invariant after)
    (failed : ∀ {before after}, FailedCycle before after → invariant before → invariant after)
    (holds : invariant before) : invariant after := by
  obtain ⟨middle, path, cycle | ⟨_, rfl⟩⟩ := broken
  · exact failed cycle (path.keeps step holds)
  · exact path.keeps step holds

end Broken

/-- However the code ends from here, it has gone from action to action. -/
def ActsFrom (allowed : Scope) {α : Type} (before : Machine β) (code : Microcode β α) : Prop :=
  Ensures (· = before) code (fun _ => Actions allowed before) (Broken allowed before)

def Acts (allowed : Scope) {α : Type} (code : Microcode β α) : Prop :=
  ∀ before, ActsFrom allowed before code

theorem Actions.broken {allowed : Scope} {before middle after : Machine β} {abort : Abort}
    (actions : Actions allowed before middle) (left : Broken allowed middle abort after) :
    Broken allowed before abort after := by
  obtain ⟨last, path, failed⟩ := left
  exact ⟨last, actions.trans path, failed⟩

theorem ActsFrom.bind {allowed : Scope} {α γ : Type} {before : Machine β} {code : Microcode β α}
    {next : α → Microcode β γ} (first : ActsFrom allowed before code)
    (rest : ∀ value after, code before = .ok value after → ActsFrom allowed after (next value)) :
    ActsFrom allowed before (code >>= next) := by
  intro state same
  subst state
  have ended := first before rfl
  simp only [Bind.bind, EStateM.bind]
  cases result : code before with
  | ok value after =>
    rw [result] at ended
    have path : Actions allowed before after := ended
    exact (rest value after result).weaken (fun _ same => same) (fun _ _ later => path.trans later)
      (fun _ _ left => path.broken left) after rfl
  | error abort after => rwa [result] at ended

theorem ActsFrom.keepsBoard {allowed : Scope} {α : Type} {code : Microcode β α} {before : Machine β} {lasting : β → Prop}
    (acts : ActsFrom allowed before code) (persistent : PersistentIn allowed lasting) (holds : lasting before.board) :
    Ensures (· = before) code (fun _ after => lasting after.board) (fun _ after => lasting after.board) :=
  acts.weaken (fun _ same => same) (fun _ _ path => path.keeps persistent.action holds)
    (fun _ _ left => left.keeps persistent.action (fun failed holds => persistent.called (.cycle failed.cycled) holds) holds)

namespace Acts

variable {allowed : Scope} {α γ : Type} {code : Microcode β α}

theorem ok (acts : Acts allowed code) {before after : Machine β} {value : α}
    (done : code before = .ok value after) : Actions allowed before after :=
  (acts before).ok rfl done

theorem error (acts : Acts allowed code) {before after : Machine β} {abort : Abort}
    (failed : code before = .error abort after) : Broken allowed before abort after :=
  (acts before).error rfl failed

theorem keeps (acts : Acts allowed code) {invariant : Machine β → Prop}
    (step : ∀ {before after}, Action .any before after → invariant before → invariant after) :
    Keeps invariant code := by
  intro before holds
  exact (acts before).weaken (fun _ same => same) (fun _ _ path => path.any.keeps step holds)
    (fun _ _ left => left.path.keeps step holds) before rfl

theorem keepsBoard (acts : Acts allowed code) {lasting : β → Prop} (persistent : PersistentIn allowed lasting) :
    Keeps (fun machine => lasting machine.board) code :=
  fun before holds => (acts before).keepsBoard persistent holds before rfl

theorem pure (value : α) : Acts allowed (pure value : Microcode β α) :=
  fun _ => Ensures.pure fun _ same => same ▸ .refl

theorem throw (stop : MisalignedVector) : Acts allowed (throw (.misaligned stop) : Microcode β α) :=
  fun _ => Ensures.throw fun _ same => same ▸ ⟨_, .refl, .inr ⟨nofun, rfl⟩⟩

theorem bind {next : α → Microcode β γ} (first : Acts allowed code)
    (rest : ∀ value, Acts allowed (next value)) : Acts allowed (code >>= next) := by
  exact fun before => (first before).bind fun value after _ => rest value after

theorem modify {change : Machine β → Machine β}
    (acts : ∀ machine, Actions allowed machine (change machine)) :
    Acts allowed (modify change : Microcode β PUnit) :=
  fun _ => Ensures.modify fun state same => same ▸ acts state

theorem update {change : Processor → Processor}
    (acts : ∀ machine : Machine β, Actions allowed machine (machine.update change)) :
    Acts allowed (Microcode.update change : Microcode β Unit) :=
  .modify acts

end Acts

namespace Microcode

variable {allowed : Scope} {α : Type}

theorem acts_processor : Acts allowed (processor : Microcode β Processor) :=
  fun _ _ same => same ▸ .refl

theorem acts_register (name : Register) : Acts allowed (register name : Microcode β Word) :=
  acts_processor.bind fun _ => .pure _

theorem acts_setRegister (name : Register) (value : Word) :
    Acts allowed (setRegister name value : Microcode β Unit) :=
  .update fun machine => .single (.registers machine _)

theorem acts_setPc (value : Word) : Acts allowed (setPc value : Microcode β Unit) :=
  acts_setRegister .pc value

theorem acts_emit (event : TraceEvent) : Acts allowed (emit event : Microcode β Unit) :=
  .update fun machine => .single (.emit machine event)

theorem acts_charge (kind : CostKind) : Acts allowed (charge kind : Microcode β Unit) :=
  .update fun machine => .single (.charge machine _)

theorem acts_consult {hook : β → α × β} (called : ∀ board, Called allowed board (hook board).2) :
    Acts allowed (consult hook) := by
  intro before state same
  subst same
  exact .single (.call _ (called _))

theorem acts_cycle {request : β → Except BusError α × β} (cycled : ∀ board, Cycled board (request board).2) :
    Acts allowed (cycle request) := by
  rintro before ⟨processor, board⟩ rfl
  have reached := cycled board
  simp only [cycle]
  generalize request board = answered at reached ⊢
  obtain ⟨answer | value, after⟩ := answered
  · have failed : FailedCycle ⟨processor, board⟩
        ⟨{ processor with lines := processor.lines.raiseBusError }, after⟩ := ⟨reached, .inr rfl⟩
    exact ⟨_, .refl, .inl failed⟩
  · by_cases pending : processor.lines.hasBusError
    · simp only [pending]
      have failed : FailedCycle ⟨processor, board⟩ ⟨processor, after⟩ := ⟨reached, .inl rfl⟩
      exact ⟨_, .refl, .inl failed⟩
    · simp only [pending]
      exact Relation.ReflTransGen.single (.call processor (.cycle reached))

theorem acts_readWord (address : Word) : Acts allowed (readWord address : Microcode β Word) :=
  acts_cycle fun board => .readWord address board

theorem acts_readByte (address : Word) : Acts allowed (readByte address : Microcode β Byte) :=
  acts_cycle fun board => .readByte address board

theorem acts_writeWord (address value : Word) :
    Acts allowed (writeWord address value : Microcode β Unit) :=
  acts_cycle fun board => .writeWord address value board

theorem acts_writeByte (address : Word) (value : Byte) :
    Acts allowed (writeByte address value : Microcode β Unit) :=
  acts_cycle fun board => .writeByte address value board

theorem acts_installStatus (bits : Word) : Acts allowed (installStatus bits : Microcode β Unit) :=
  .modify fun machine => .single (.install machine bits)

theorem acts_fetchWord : Acts allowed (fetchWord : Microcode β Word) :=
  (acts_register _).bind fun _ => (acts_readWord _).bind fun _ => (acts_setPc _).bind fun _ => .pure _

theorem acts_push (value : Word) : Acts allowed (push value : Microcode β Unit) :=
  (acts_register _).bind fun _ => (acts_setRegister _ _).bind fun _ => acts_writeWord _ _

theorem acts_pop : Acts allowed (pop : Microcode β Word) :=
  (acts_register _).bind fun _ => (acts_readWord _).bind fun _ => (acts_setRegister _ _).bind fun _ => .pure _

/-- The end of a trap entry: a waiting processor goes on, and no trace trap is due. -/
theorem acts_wake : Acts allowed
    (update (fun processor => { processor.wake with tracePending := false }) : Microcode β Unit) :=
  .update fun machine => .tail (.single (.wake machine)) (.trace _ false _ .inl)

theorem acts_enterTrap (vector : Word) : Acts allowed (enterTrap vector : Microcode β Unit) := by
  have entry : Acts allowed (do
      let newPc ← readWord vector
      let newStatus ← readWord (vector + 2)
      let interrupted := (← processor).context
      push interrupted.status.bits
      push interrupted.pc
      setPc newPc
      installStatus newStatus
      update fun processor => { processor.wake with tracePending := false }
      emit (.trapTaken vector interrupted.pc) : Microcode β Unit) :=
    (acts_readWord _).bind fun _ => (acts_readWord _).bind fun _ => acts_processor.bind fun _ =>
      (acts_push _).bind fun _ => (acts_push _).bind fun _ => (acts_setPc _).bind fun _ =>
      (acts_installStatus _).bind fun _ => acts_wake.bind fun _ => acts_emit _
  unfold enterTrap
  split
  · exact (Acts.throw _).bind fun _ => entry
  · exact entry

theorem acts_faultTrap (code : FaultCode) : Acts allowed (faultTrap code : Microcode β Unit) := by
  have recorded : Acts allowed
      (update (fun processor => processor.recordFault code processor.previousPc) : Microcode β Unit) :=
    .update fun machine => .single (.count machine _)
  refine recorded.bind fun _ => ?_
  split
  · exact acts_enterTrap _
  · exact .pure _

end Microcode
end Pdp11
