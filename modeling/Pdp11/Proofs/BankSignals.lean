import Mathlib.Data.List.Chain
import Pdp11.Proofs.CycleCount
import Pdp11.Proofs.History
import Pdp11.Proofs.ScheduledReset

/-! The banks that a board hears of. It is told of every change and of nothing else,
so its record alone tells whether the processor is in HALT mode. A reset is the
exception: it names both banks in turn, whatever was on before. -/

namespace Pdp11

def BusCall.bank? : BusCall → Option Bank
  | selectBank bank => some bank
  | _ => none

theorem BusCall.bank?_eq_none {call : BusCall} (apart : ∀ bank, call ≠ .selectBank bank) : call.bank? = none := by
  cases call with
  | selectBank bank => exact absurd rfl (apart bank)
  | readWord | readByte | writeWord | writeByte | acknowledge | acknowledgeChain | resetDevices => rfl

/-- The banks that were named, in their order. -/
def selections (calls : List BusCall) : List Bank := calls.filterMap BusCall.bank?

theorem selections_append (earlier later : List BusCall) :
    selections (earlier ++ later) = selections earlier ++ selections later := List.filterMap_append

/-- Calls made on the way from one bank to another: each bank that is named differs
from the one before it. -/
structure Signals (model : Model) (first last : Bank) (calls : List BusCall) : Prop where
  apart : (first :: selections calls).IsChain (· ≠ ·)
  last : (selections calls).getLastD first = last
  without : model = .t11 → selections calls = []

namespace Signals

variable {model : Model} {first last bank : Bank} {calls : List BusCall}

theorem nil (model : Model) (bank : Bank) : Signals model bank bank [] := ⟨.singleton bank, rfl, fun _ => rfl⟩

theorem silent (signals : Signals model first last calls) {call : BusCall} (names : call.bank? = none) :
    Signals model first last (calls ++ [call]) := by
  have same : selections (calls ++ [call]) = selections calls := by
    simp [selections, names]
  exact ⟨same ▸ signals.apart, same ▸ signals.last, same ▸ signals.without⟩

theorem select (signals : Signals model first last calls) (has : model = .vm2) (other : last ≠ bank) :
    Signals model first bank (calls ++ [.selectBank bank]) := by
  have named : selections (calls ++ [.selectBank bank]) = selections calls ++ [bank] := selections_append ..
  refine ⟨?_, ?_, fun without => ?_⟩
  · rw [named, ← List.cons_append]
    refine List.isChain_append.mpr ⟨signals.apart, .singleton bank, fun left before right after => ?_⟩
    rw [List.getLast?_cons, ← List.getLastD_eq_getLast?, signals.last] at before
    cases before
    cases after
    exact other
  · rw [named]
    simp
  · rw [has] at without
    cases without

theorem last_append (signals : Signals model first last calls) {earlier : List BusCall}
    (before : (selections earlier).getLastD bank = first) : (selections (earlier ++ calls)).getLastD bank = last := by
  rw [selections_append, List.getLastD_eq_getLast?, List.getLast?_append, Option.getD_or, ← List.getLastD_eq_getLast?,
    ← List.getLastD_eq_getLast?, before, signals.last]

end Signals

variable {β : Type} {first : Bank} {earlier : List BusCall} {machine : Machine (Recorded β)}

/-- What is on record since an earlier time leads to the bank that is on. -/
abbrev Signalled (first : Bank) (earlier : List BusCall) (machine : Machine (Recorded β)) : Prop :=
  machine.board.Since earlier (Signals machine.processor.model first machine.processor.bank)

namespace Signalled

theorem start (recording : machine.board.recording = true) (bank : machine.processor.bank = first)
    (calls : machine.board.calls.toList = earlier) : Signalled first earlier machine := by
  subst calls bank
  exact .start recording (.nil _ _)

theorem transfer (signalled : Signalled first earlier machine) {processor : Processor}
    (model : processor.model = machine.processor.model) (bank : processor.bank = machine.processor.bank) :
    Signalled first earlier ⟨processor, machine.board⟩ := by
  unfold Signalled
  rw [model, bank]
  exact signalled

variable [Board β]

theorem called {processor : Processor} {before after : Recorded β}
    (signalled : Signalled first earlier ⟨processor, before⟩) (called : Called .any before after) :
    Signalled first earlier ⟨processor, after⟩ := by
  obtain ⟨call, board, apart, _, rfl⟩ := Recorded.called_note called
  exact Recorded.Since.note signalled (fun _ signals => signals.silent (BusCall.bank?_eq_none apart)) board

theorem selectBank {bank : Bank} (signalled : Signalled first earlier machine)
    (has : machine.processor.model = .vm2) (other : machine.processor.bank ≠ bank) :
    Signalled first earlier (machine.selectBank bank) :=
  Recorded.Since.note signalled (fun _ signals => signals.select has other) (Board.selectBank bank machine.board.board)

theorem installStatus (signalled : Signalled first earlier machine) (bits : Word) :
    Signalled first earlier (machine.installStatus bits) := by
  have installed : Signalled first earlier (machine.update ({ · with status := machine.installed bits })) :=
    signalled.transfer rfl rfl
  rw [Machine.installStatus_eq]
  by_cases switches : machine.switches bits
  · simp only [switches, if_true]
    simp only [Machine.switches, Bool.and_eq_true, bne_iff_ne] at switches
    obtain ⟨has, other⟩ := switches
    refine installed.selectBank ?_ other.symm
    cases model : machine.processor.model with
    | vm2 => exact model
    | t11 =>
      rw [model] at has
      cases has
  · simp only [switches, Bool.false_eq_true, if_false]
    exact installed

/-- Every action that names a bank changes the bank. -/
theorem action {before after : Machine (Recorded β)} (action : Action .any before after)
    (signalled : Signalled first earlier before) : Signalled first earlier after := by
  cases action with
  | registers | codes | priority | restart | lines | trace | wait | previousPc | charge | count =>
    exact signalled.transfer rfl rfl
  | wake =>
    simp only [Machine.update, Processor.wake_eq]
    exact signalled.transfer rfl rfl
  | shadow =>
    simp only [Machine.update, Processor.syncShadow_eq]
    exact signalled.transfer rfl rfl
  | emit event =>
    simp only [Machine.update, Processor.emit_eq]
    exact signalled.transfer rfl rfl
  | install _ bits => exact signalled.installStatus bits
  | haltBank _ _ has apart => exact signalled.selectBank has apart
  | call _ called => exact signalled.called called
  | refused _ _ cycled => exact (signalled.called (.cycle cycled)).transfer rfl rfl

theorem steady (first : Bank) (earlier : List BusCall) :
    Steady (Signalled first earlier : Machine (Recorded β) → Prop) (Signalled first earlier) := by
  have restored {machine : Machine (Recorded β)} (boundary : Checkpoint) (signalled : Signalled first earlier machine) :
      Signalled first earlier (machine.restore boundary) := by
    have moved : Signalled first earlier (machine.update ({ · with registers := boundary.registers })) :=
      signalled.transfer rfl rfl
    exact moved.installStatus boundary.status.bits
  refine .of_actions (fun same signalled => ?_) restored action
  exact signalled.transfer (congrArg Configuration.model (same _).configuration) (same _).bank

theorem startBlock_read (recording : machine.board.recording = true) :
    let block := Vm2.startBlock machine.atStartBlock.processor.mode
    ∃ answer, Signalled .halt
      (machine.board.calls.toList ++ [.selectBank .user, .selectBank .halt, .readWord block.even answer])
      (ended (Microcode.readWord block machine.atStartBlock)) := by
  intro block
  obtain ⟨lines, reached⟩ := Microcode.cycle_ended (Board.readWord block.even) machine.atStartBlock
  rw [Microcode.readWord, reached]
  obtain ⟨processor, inner, _, calls⟩ := machine
  cases recording
  refine ⟨(Board.readWord block.even (Board.selectBank .halt (Board.selectBank .user inner))).1, .start rfl rfl ?_⟩
  change (((calls.push _).push _).push _).toList = _
  rw [Array.toList_push, Array.toList_push, Array.toList_push, List.append_assoc, List.append_assoc]
  rfl

/-- A reset makes its two signals before it reads the start block. -/
theorem reset_vm2 {fresh : Machine (Recorded β)} (recording : machine.board.recording = true)
    (has : machine.processor.model = .vm2) (reset : Dispatch.reset machine = .ok () fresh) :
    ∃ answer, Signalled .halt (machine.board.calls.toList ++ [.selectBank .user, .selectBank .halt,
      .readWord (Vm2.startBlock machine.atStartBlock.processor.mode).even answer]) fresh := by
  obtain ⟨answer, read⟩ := startBlock_read recording
  refine ⟨answer, ?_⟩
  have loaded := Microcode.loadStartBlock_keeps_from action (fun signalled => signalled.transfer rfl rfl) read
    machine.atStartBlock rfl
  cases Dispatch.reset_ended reset with
  | strapped without =>
    rw [has] at without
    cases without
  | loaded _ ended =>
    rw [ended] at loaded
    exact (steady _ _).update (fun _ => .syncShadow _) loaded
  | failed _ ended =>
    rw [ended] at loaded
    exact (steady _ _).startBlockFailed loaded

theorem reset_t11 {fresh : Machine (Recorded β)} (signalled : Signalled first earlier machine)
    (without : machine.processor.model = .t11) (reset : Dispatch.reset machine = .ok () fresh) :
    Signalled first earlier fresh := by
  cases Dispatch.reset_ended reset with
  | strapped =>
    simp only [Machine.strapped, Machine.update, Processor.syncShadow_eq]
    exact signalled.transfer rfl rfl
  | loaded has | failed has =>
    rw [without] at has
    cases has

end Signalled

variable [Board β]

/-- Operations in a row on one processor since power-on, with one record for all of
them. The board behind the record may change in between. -/
inductive Session (configuration : Configuration) : Machine (Recorded β) → Prop where
  | powerOn (board : β) : Session configuration ⟨.create configuration, { board }⟩
  | perform {operation : Operation} {response : Response} {machine after : Machine (Recorded β)}
      (session : Session configuration machine) (performed : operation.perform machine = .ok response after) :
      Session configuration after
  | rewire {machine : Machine (Recorded β)} (session : Session configuration machine) (board : β) :
      Session configuration ⟨machine.processor, { machine.board with board }⟩

namespace Session

variable {configuration : Configuration} {operation : Operation}

theorem reachable (session : Session configuration machine) : Reachable configuration machine.processor := by
  induction session with
  | powerOn board => exact .powerOn
  | perform _ performed ih => exact .perform ih performed
  | rewire _ _ ih => exact ih

theorem recording (session : Session configuration machine) : machine.board.recording = true := by
  induction session with
  | powerOn board => rfl
  | perform _ performed ih => exact (Recorded.recording_persistent.enduring.perform _).ok ih performed
  | rewire _ _ ih => exact ih

theorem model_ended (session : Session configuration machine) (operation : Operation) :
    (ended (operation.perform machine)).processor.model = configuration.model := by
  have kept := consistent_enduring.perform operation machine session.reachable.consistent
  cases result : operation.perform machine with
  | ok response after =>
    rw [result] at kept
    exact kept.model
  | error stop broken =>
    rw [result] at kept
    exact kept.model

/-- An operation that resets says so first, and tells of changes from then on. -/
theorem reset_signals (session : Session configuration machine) (has : configuration.model = .vm2)
    (resets : operation.Resets machine.processor) :
    let after := ended (operation.perform machine)
    ∃ answer later, after.board.calls.toList = machine.board.calls.toList ++ [.selectBank .user, .selectBank .halt,
        .readWord (Vm2.startBlock machine.atStartBlock.processor.mode).even answer] ++ later ∧
      Signals configuration.model .halt after.processor.bank later := by
  obtain ⟨fresh, reset, _⟩ := Dispatch.reset_fresh machine
  have model := session.reachable.consistent.model.trans has
  obtain ⟨answer, started⟩ := Signalled.reset_vm2 session.recording model reset
  obtain ⟨_, later, calls, signals⟩ := ((Signalled.steady _ _).perform_reset resets reset started).ended
  exact ⟨answer, later, calls, session.model_ended operation ▸ signals⟩

theorem signals (session : Session configuration machine)
    (plain : ¬(configuration.model = .vm2 ∧ operation.Resets machine.processor)) :
    let after := ended (operation.perform machine)
    ∃ later, after.board.calls.toList = machine.board.calls.toList ++ later ∧
      Signals configuration.model machine.processor.bank after.processor.bank later := by
  have steady : Steady (Signalled machine.processor.bank machine.board.calls.toList : Machine (Recorded β) → Prop) _ :=
    Signalled.steady _ _
  have start : Signalled machine.processor.bank machine.board.calls.toList machine := .start session.recording rfl rfl
  have signalled : Signalled machine.processor.bank machine.board.calls.toList (ended (operation.perform machine)) := by
    by_cases resets : operation.Resets machine.processor
    · obtain ⟨fresh, reset, _⟩ := Dispatch.reset_fresh machine
      have without : configuration.model = .t11 := by
        cases has : configuration.model with
        | t11 => rfl
        | vm2 => exact absurd ⟨has, resets⟩ plain
      have model := session.reachable.consistent.model.trans without
      exact (steady.perform_reset resets reset (start.reset_t11 model reset)).ended
    · exact (steady.perform (fun signalled => signalled.transfer rfl rfl) resets start).ended
  obtain ⟨_, later, calls, signals⟩ := signalled
  exact ⟨later, calls, session.model_ended operation ▸ signals⟩

/-- The bank named last is the one that is on. -/
theorem last_selection (session : Session configuration machine) :
    (selections machine.board.calls.toList).getLastD .user = machine.processor.bank := by
  induction session with
  | powerOn board => rfl
  | @perform operation _ machine after session performed ih =>
    have finished : ended (operation.perform machine) = after := congrArg ended performed
    by_cases reset : configuration.model = .vm2 ∧ operation.Resets machine.processor
    · obtain ⟨answer, later, calls, signals⟩ := session.reset_signals reset.1 reset.2
      rw [finished] at calls signals
      rw [calls]
      refine signals.last_append ?_
      rw [selections_append, List.getLastD_eq_getLast?, List.getLast?_append]
      rfl
    · obtain ⟨later, calls, signals⟩ := session.signals reset
      rw [finished] at calls signals
      rw [calls]
      exact signals.last_append ih
  | rewire _ _ ih => exact ih

theorem no_selections (session : Session configuration machine) (without : configuration.model = .t11) :
    selections machine.board.calls.toList = [] := by
  induction session with
  | powerOn board => rfl
  | @perform operation _ machine after session performed ih =>
    have plain : ¬(configuration.model = .vm2 ∧ operation.Resets machine.processor) := by
      rw [without]
      exact fun reset => nomatch reset.1
    obtain ⟨later, calls, signals⟩ := session.signals plain
    rw [congrArg ended performed] at calls signals
    change after.board.calls.toList = _ at calls
    rw [calls, selections_append, ih, signals.without without, List.append_nil]
  | rewire _ _ ih => exact ih

end Session

/-- Status word and bank agree at every boundary, and the record of the board tells
which bank is on. An operation names no bank but to change it; only a reset names both,
and does so before its start block is read. -/
theorem bank_follows_haltMode {configuration : Configuration} (session : Session configuration machine) :
    (machine.processor.bank = .halt ↔ machine.processor.status.haltMode = true) ∧
    (configuration.model = .t11 → machine.processor.status.haltMode = false ∧ machine.processor.bank = .user ∧
      selections machine.board.calls.toList = []) ∧
    (selections machine.board.calls.toList).getLastD .user = machine.processor.bank ∧
    ∀ operation : Operation,
      let after := ended (operation.perform machine)
      (configuration.model = .vm2 → operation.Resets machine.processor →
        ∃ answer later, after.board.calls.toList = machine.board.calls.toList ++ [.selectBank .user, .selectBank .halt,
            .readWord (Vm2.startBlock machine.atStartBlock.processor.mode).even answer] ++ later ∧
          Signals configuration.model .halt after.processor.bank later) ∧
      (¬(configuration.model = .vm2 ∧ operation.Resets machine.processor) →
        ∃ later, after.board.calls.toList = machine.board.calls.toList ++ later ∧
          Signals configuration.model machine.processor.bank after.processor.bank later) := by
  have holds := session.reachable.consistent
  refine ⟨?_, fun without => ?_, session.last_selection, fun operation => ⟨fun has resets => ?_, fun plain => ?_⟩⟩
  · rw [holds.bank]
    cases machine.processor.status.haltMode with
    | true => exact iff_of_true rfl rfl
    | false => exact iff_of_false nofun nofun
  · exact ⟨holds.fits.user without, holds.recoverable.bank without, session.no_selections without⟩
  · exact session.reset_signals has resets
  · exact session.signals plain

/-- A step that the HALT pin takes into HALT mode. -/
def haltedByPin : Machine (Recorded FlatBoard) :=
  ended (Dispatch.step (ended (Dispatch.drive .halt true ⟨.create { model := .vm2 }, { board := {} }⟩)))

theorem bank_follows_haltMode_pin :
    haltedByPin.processor.status.haltMode = true ∧ haltedByPin.processor.bank = .halt ∧
      (selections haltedByPin.board.calls.toList).getLastD .user = .halt := by
  let pinned : Machine (Recorded FlatBoard) := ended (Dispatch.drive .halt true ⟨.create { model := .vm2 }, { board := {} }⟩)
  have driven : (Operation.drive .halt true).perform ⟨.create { model := .vm2 }, { board := {} }⟩ = .ok .done pinned := rfl
  have stepped : Dispatch.step pinned = .ok (.interrupted 48) haltedByPin := eq_ok_of_answer (by decide +kernel)
  have answered : Operation.step.perform pinned = .ok (.outcome (.interrupted 48)) haltedByPin := bind_of_ok stepped _
  have session : Session { model := .vm2 } haltedByPin := .perform (.perform (.powerOn {}) driven) answered
  obtain ⟨agrees, _, last, _⟩ := bank_follows_haltMode session
  have on : haltedByPin.processor.status.haltMode = true := by decide +kernel
  exact ⟨on, agrees.mpr on, last.trans (agrees.mpr on)⟩

end Pdp11
