import Pdp11.Proofs.BoundaryInvariant
import Pdp11.Proofs.Coupling

/-! Machines of both models that nothing tells apart. They are one machine under two
settings, and whatever an instruction does to the one, it does to the other, up to a
status word that only one of them implements. -/

namespace Pdp11

open Microcode

variable {β : Type}

/-- In what two processors can differ although they do the same. -/
structure Setting where
  configuration : Configuration
  mode : Word
  bank : Bank
  previousPc : Word

def Processor.under (setting : Setting) (processor : Processor) : Processor :=
  { processor with
    configuration := setting.configuration
    mode := setting.mode
    bank := setting.bank
    previousPc := setting.previousPc }

def Machine.under (setting : Setting) (machine : Machine β) : Machine β := machine.update (·.under setting)

/-- No line is asserted, though a bus error may be pending. -/
def Processor.Quiet (processor : Processor) : Prop := processor.lines.clearBusErrors = {}

/-- A processor of the model with a HALT mode, in which nothing shows that it has one. -/
structure Plain (processor : Processor) : Prop where
  model : processor.model = .vm2
  fits : processor.status.Fits Model.t11.implemented
  bank : processor.bank = .user
  settled : processor.resetOnResume = false
  quiet : processor.Quiet

/-- Two machines alike but for their setting. Where `begun` holds, an instruction has
begun, and its address is the same in both. -/
inductive Twins (begun : Prop) : Machine β → Machine β → Prop where
  | intro (setting : Setting) (machine : Machine β) (without : setting.configuration.model = .t11)
      (observed : setting.configuration.traceEnabled = machine.processor.configuration.traceEnabled)
      (plain : Plain machine.processor) (address : begun → setting.previousPc = machine.processor.previousPc) :
      Twins begun (machine.under setting) machine

/-- Two machines that were alike until the second one entered HALT mode, if it did. -/
def Parted (begun : Prop) (left right : Machine β) : Prop :=
  Twins begun left right ∨ right.processor.status.haltMode = true ∧ left.processor.Quiet ∧ right.processor.Quiet

namespace StatusWord

/-- A status word that both models implement alike. -/
theorem masked_of_user {bits : Word} (user : (StatusWord.masked ⟨bits⟩ Model.vm2.implemented).haltMode = false) :
    StatusWord.masked ⟨bits⟩ Model.vm2.implemented = StatusWord.masked ⟨bits⟩ Model.t11.implemented := by
  have cleared := clearHalt_of_user user
  have narrower : Model.vm2.implemented &&& ~~~haltBit = Model.t11.implemented := by decide
  rw [← cleared]
  change StatusWord.mk (bits &&& Model.vm2.implemented &&& ~~~haltBit) = ⟨bits &&& Model.t11.implemented⟩
  rw [BitVec.and_assoc, narrower]

theorem Fits.wider {status : StatusWord} (fits : status.Fits Model.t11.implemented) :
    status.Fits Model.vm2.implemented := by
  have whole : status.bits &&& Model.t11.implemented = status.bits := fits
  have within : Model.t11.implemented &&& Model.vm2.implemented = Model.t11.implemented := by decide
  change status.bits &&& Model.vm2.implemented = status.bits
  rw [← whole, BitVec.and_assoc, within]

theorem Fits.mtps {status : StatusWord} (fits : status.Fits Model.t11.implemented) (value : Word) :
    StatusWord.Fits Model.t11.implemented ⟨(status.bits &&& ~~~mtpsMask) ||| (value &&& mtpsMask)⟩ := by
  have whole : status.bits &&& Model.t11.implemented = status.bits := fits
  have within : mtpsMask &&& Model.t11.implemented = mtpsMask := by decide
  change ((status.bits &&& ~~~mtpsMask) ||| (value &&& mtpsMask)) &&& Model.t11.implemented = _
  rw [BitVec.and_or_distrib_right, BitVec.and_assoc, BitVec.and_comm (~~~mtpsMask), ← BitVec.and_assoc, whole,
    BitVec.and_assoc, within]

end StatusWord

theorem SameHardware.trans {first second third : Processor} (earlier : SameHardware first second)
    (later : SameHardware second third) : SameHardware first third :=
  ⟨later.configuration.trans earlier.configuration, later.status.trans earlier.status, later.bank.trans earlier.bank⟩

theorem Plain.user {processor : Processor} (plain : Plain processor) : processor.status.haltMode = false :=
  plain.fits.haltMode (by decide)

/-- A change of the processor that does not ask for its setting. -/
structure Impartial (change : Processor → Processor) : Prop where
  alike : ∀ {processor : Processor} {setting : Setting},
    setting.configuration.traceEnabled = processor.configuration.traceEnabled →
    change (processor.under setting) = (change processor).under setting
  hardware : ∀ processor, SameHardware processor (change processor)
  address : ∀ processor, (change processor).previousPc = processor.previousPc
  settled : ∀ processor, (change processor).resetOnResume = processor.resetOnResume
  lines : ∀ processor, (change processor).lines.clearBusErrors = processor.lines.clearBusErrors

namespace Impartial

/-- A change of fields that are no part of the setting. -/
theorem fields {change : Processor → Processor}
    (alike : ∀ (processor : Processor) (setting : Setting),
      change (processor.under setting) = (change processor).under setting := by exact fun _ _ => rfl)
    (hardware : ∀ processor, SameHardware processor (change processor) := by exact fun _ => ⟨rfl, rfl, rfl⟩)
    (address : ∀ processor, (change processor).previousPc = processor.previousPc := by exact fun _ => rfl)
    (settled : ∀ processor, (change processor).resetOnResume = processor.resetOnResume := by exact fun _ => rfl)
    (lines : ∀ processor, (change processor).lines.clearBusErrors = processor.lines.clearBusErrors := by
      exact fun _ => rfl) : Impartial change :=
  ⟨fun _ => alike _ _, hardware, address, settled, lines⟩

theorem wake : Impartial (·.wake) := by
  have kept : (·.wake : Processor → Processor) = fun processor =>
      { processor with runState := if processor.runState = .waiting then .running else processor.runState } :=
    funext Processor.wake_eq
  rw [kept]
  exact .fields

theorem syncShadow : Impartial (·.syncShadow) := by
  have kept : (·.syncShadow : Processor → Processor) = fun processor =>
      { processor with shadow := if processor.status.haltMode then processor.shadow else processor.context } :=
    funext Processor.syncShadow_eq
  rw [kept]
  exact .fields

theorem emit (event : TraceEvent) : Impartial (·.emit event) where
  alike {processor setting} observed := by
    have same : (processor.under setting).configuration.traceEnabled = processor.configuration.traceEnabled := observed
    simp only [Processor.emit_eq, same]
    rfl
  hardware processor := by
    rw [Processor.emit_eq]
    exact ⟨rfl, rfl, rfl⟩
  address processor := by rw [Processor.emit_eq]
  settled processor := by rw [Processor.emit_eq]
  lines processor := by rw [Processor.emit_eq]

theorem comp {first second : Processor → Processor} (later : Impartial second) (earlier : Impartial first) :
    Impartial fun processor => second (first processor) where
  alike {processor setting} observed := by
    have kept : setting.configuration.traceEnabled = (first processor).configuration.traceEnabled := by
      rw [(earlier.hardware processor).configuration]
      exact observed
    rw [earlier.alike observed, later.alike kept]
  hardware processor := (earlier.hardware processor).trans (later.hardware _)
  address processor := (later.address _).trans (earlier.address processor)
  settled processor := (later.settled _).trans (earlier.settled processor)
  lines processor := (later.lines _).trans (earlier.lines processor)

variable {change : Processor → Processor} {begun : Prop} {left right : Machine β}

theorem plain {processor : Processor} (impartial : Impartial change) (plain : Plain processor) :
    Plain (change processor) where
  model := (congrArg Configuration.model (impartial.hardware processor).configuration).trans plain.model
  fits := (impartial.hardware processor).status ▸ plain.fits
  bank := (impartial.hardware processor).bank.trans plain.bank
  settled := (impartial.settled processor).trans plain.settled
  quiet := (impartial.lines processor).trans plain.quiet

theorem twins (impartial : Impartial change) (twins : Twins begun left right) :
    Twins begun (left.update change) (right.update change) := by
  obtain ⟨setting, _, without, observed, plain, address⟩ := twins
  have moved : (right.under setting).update change = (right.update change).under setting :=
    congrArg (Machine.mk · right.board) (impartial.alike observed)
  rw [moved]
  refine .intro setting (right.update change) without ?_ (impartial.plain plain) fun began => ?_
  · rw [observed, Machine.update_processor, (impartial.hardware right.processor).configuration]
  · rw [address began, Machine.update_processor, impartial.address]

theorem parted (impartial : Impartial change) (parted : Parted begun left right) :
    Parted begun (left.update change) (right.update change) := by
  refine parted.imp impartial.twins fun ⟨halted, one, other⟩ =>
    ⟨?_, (impartial.lines _).trans one, (impartial.lines _).trans other⟩
  rw [Machine.update_processor, (impartial.hardware right.processor).status]
  exact halted

end Impartial

namespace Twins

variable {begun : Prop} {left right : Machine β}

theorem forget (twins : Twins begun left right) : Twins False left right := by
  obtain ⟨setting, _, without, observed, plain, _⟩ := twins
  exact .intro setting right without observed plain False.elim

/-- Both show the same, where the setting does not show. -/
theorem alike {α : Type} (twins : Twins begun left right) (view : Processor → α)
    (blind : ∀ (setting : Setting) processor, view (processor.under setting) = view processor := by exact fun _ _ => rfl) :
    view left.processor = view right.processor := by
  cases twins
  exact blind _ _

theorem without (twins : Twins begun left right) : left.processor.model = .t11 := by
  obtain ⟨setting, _, without, _, _, _⟩ := twins
  exact without

theorem plain (twins : Twins begun left right) : Plain right.processor := by
  cases twins
  assumption

theorem quiet (twins : Twins begun left right) : left.processor.Quiet := by
  obtain ⟨setting, _, without, observed, plain, address⟩ := twins
  exact plain.quiet

theorem cycle {α : Type} (request : β → Except BusError α × β) :
    InStep (Twins begun) (Twins begun) (Twins begun) (Microcode.cycle request) := by
  rintro _ _ ⟨setting, ⟨processor, board⟩, without, observed, plain, address⟩
  simp only [Microcode.cycle, Machine.under, Machine.update]
  obtain ⟨failure | value, after⟩ := request board
  · refine .error ⟨⟨rfl, rfl⟩, ?_⟩
    exact .intro setting ⟨{ processor with lines := processor.lines.raiseBusError }, after⟩ without observed
      ⟨plain.model, plain.fits, plain.bank, plain.settled, plain.quiet⟩ address
  · have kept : Twins begun ((⟨processor, after⟩ : Machine β).under setting) ⟨processor, after⟩ :=
      .intro setting _ without observed plain address
    change Together _ _ (if processor.lines.hasBusError then _ else _) _
    by_cases pending : processor.lines.hasBusError
    · simp only [pending, if_true]
      exact .error ⟨⟨rfl, rfl⟩, kept⟩
    · simp only [pending]
      exact .ok ⟨rfl, kept⟩

/-- A status word set in both, without anything else. -/
theorem setStatus (twins : Twins begun left right) {status : StatusWord} (fits : status.Fits Model.t11.implemented) :
    Twins begun (left.update ({ · with status })) (right.update ({ · with status })) := by
  obtain ⟨setting, _, without, observed, plain, address⟩ := twins
  exact .intro setting (right.update ({ · with status })) without observed
    ⟨plain.model, fits, plain.bank, plain.settled, plain.quiet⟩ address

variable [Board β]

/-- Where both implement the status word, neither tells the board of a bank. -/
theorem installStatus_user (twins : Twins begun left right) {bits : Word} (user : (right.installed bits).haltMode = false) :
    Twins begun (left.installStatus bits) (right.installStatus bits) := by
  have related := twins
  obtain ⟨setting, _, without, observed, plain, address⟩ := twins
  have masked : right.installed bits = StatusWord.masked ⟨bits⟩ Model.t11.implemented := by
    rw [Machine.installed, plain.model] at user ⊢
    exact StatusWord.masked_of_user user
  have own : (right.under setting).installed bits = StatusWord.masked ⟨bits⟩ Model.t11.implemented := by
    change StatusWord.masked ⟨bits⟩ setting.configuration.model.implemented = _
    rw [without]
  have quiet : right.switches bits = false := by
    rw [Machine.switches, user, plain.bank]
    exact Bool.and_false _
  have none : (right.under setting).switches bits = false := by
    change (setting.configuration.model.hasHaltMode && _) = false
    rw [without]
    rfl
  rw [Machine.installStatus_eq, Machine.installStatus_eq, quiet, none, own, masked]
  exact related.setStatus (StatusWord.masked_fits _ _)

theorem installStatus (twins : Twins begun left right) (bits : Word) :
    Parted begun (left.installStatus bits) (right.installStatus bits) := by
  cases user : (right.installed bits).haltMode with
  | false => exact .inl (twins.installStatus_user user)
  | true =>
    refine .inr ⟨?_, ?_, ?_⟩
    · rw [Machine.installStatus_processor]
      exact user
    · rw [Machine.installStatus_processor]
      exact twins.quiet
    · rw [Machine.installStatus_processor]
      exact twins.plain.quiet

/-- Back at a boundary of theirs they are alike as before. -/
theorem restore (twins : Twins begun left right) {boundary : Checkpoint}
    (fits : boundary.status.Fits Model.t11.implemented) : Twins begun (left.restore boundary) (right.restore boundary) := by
  have moved : Twins begun (left.update ({ · with registers := boundary.registers }))
      (right.update ({ · with registers := boundary.registers })) := by
    have fields : Impartial ({ · with registers := boundary.registers }) := .fields
    exact fields.twins twins
  refine moved.installStatus_user ?_
  rw [Machine.installed, moved.plain.model, fits.wider.masked]
  exact fits.haltMode (by decide)

theorem pulse (twins : Twins begun left right) :
    Twins begun ⟨{ left.processor with lines := left.processor.lines.clearEvent }, Board.resetDevices left.board⟩
      ⟨{ right.processor with lines := right.processor.lines.clearEvent }, Board.resetDevices right.board⟩ := by
  obtain ⟨setting, _, without, observed, plain, address⟩ := twins
  refine .intro setting
    ⟨{ right.processor with lines := right.processor.lines.clearEvent }, Board.resetDevices right.board⟩ without observed
    ⟨plain.model, plain.fits, plain.bank, plain.settled, ?_⟩ address
  change right.processor.lines.clearBusErrors.clearEvent = {}
  rw [show right.processor.lines.clearBusErrors = {} from plain.quiet]
  rfl

end Twins

theorem twins_faultsAlike : FaultsAlike (Twins True : Machine β → Machine β → Prop) := by
  intro left right code _ twins
  have same : left.processor.previousPc = right.processor.previousPc := by
    obtain ⟨setting, _, without, observed, plain, address⟩ := twins
    exact address trivial
  have noted : Impartial (·.recordFault code right.processor.previousPc) := .fields
  have recorded := noted.twins twins
  simp only [Machine.update, same] at recorded ⊢
  exact recorded

variable [Board β]

theorem twins_coupling (begun : Prop) : Coupling (Twins begun : Machine β → Machine β → Prop) (Parted begun) where
  registers twins := twins.alike (·.registers)
  status twins := twins.alike (·.status)
  move {left right} change twins := by
    have moved : Impartial fun processor => { processor with registers := change processor.registers } := .fields
    exact moved.twins twins
  codes {left right change} kept twins := by
    have fits := (kept right.processor.status).fits (Model.codeBits_implemented .t11) twins.plain.fits
    have coded := twins.setStatus fits
    have same := twins.alike (·.status)
    simp only [Machine.update] at coded ⊢
    rwa [same]
  priority {left right} value twins := by
    intro change
    let status : StatusWord := ⟨(right.processor.status.bits &&& ~~~mtpsMask) ||| (value &&& mtpsMask)⟩
    have fits : status.Fits Model.t11.implemented := twins.plain.fits.mtps value
    have set (machine : Machine β) (masked : (change machine.processor).status = status) :
        machine.update change = machine.update ({ · with status }) := by
      simp only [Machine.update, ← masked]
      rfl
    have narrow : (change left.processor).status = status := by
      simp only [change, twins.alike (·.status), twins.without]
      exact fits.masked
    have wide : (change right.processor).status = status := by
      simp only [change, twins.plain.model]
      exact fits.wider.masked
    rw [set left narrow, set right wide]
    exact twins.setStatus fits
  cycle := Twins.cycle
  pulse := Twins.pulse
  leave := .inl
  install bits twins := twins.installStatus bits
  trap bits vector interrupted twins := by
    have fields : Impartial ({ · with tracePending := false }) := .fields
    exact (Impartial.emit _).parted ((fields.comp .wake).parted (twins.installStatus bits))
  inhibit {left right} := by
    have fields : Impartial ({ · with traceInhibited := true }) := .fields
    exact fields.parted

end Pdp11
