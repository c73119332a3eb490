import Pdp11.Proofs.BoundaryInvariant
import Pdp11.Proofs.HaltTransparency
import Pdp11.Proofs.TrapReturn

/-! The shadow behind an entry into HALT mode. The HALT pin brings the shadow up to date
itself. A trap whose status word sets the mode does not: it relies on the end of the last
operation, so entries that came before it at the same boundary are not in the shadow. -/

namespace Pdp11

open Microcode

variable {β : Type} [Board β] {machine boundary accepted entered middle after : Machine β} {count : Nat}

/-- The shadow once the arbiter has attempted what it serves next. -/
def Processor.servedShadow (processor : Processor) : Context :=
  if processor.service? = some .haltPin then processor.context else processor.shadow

theorem Processor.servedShadow_of_halted {processor : Processor} (halted : processor.status.haltMode = true) :
    processor.servedShadow = processor.shadow := by
  refine if_neg fun pin => ?_
  rw [outside_of_haltPin pin] at halted
  cases halted

/-- Of all services the HALT pin alone touches the shadow. -/
theorem Microcode.arbiterPass_leavesShadow (machine : Machine β) :
    LeavesShadow machine.processor.servedShadow machine arbiterPass := by
  rintro machine rfl
  cases chosen : machine.processor.service? with
  | none =>
    rw [arbiterPass_quiet chosen]
    exact (if_neg (chosen ▸ nofun)).symm
  | some service =>
    rw [arbiterPass_eq_serve chosen]
    by_cases pin : service = .haltPin
    · subst pin
      have synced : machine.processor.syncShadow.shadow = machine.processor.servedShadow := by
        rw [Processor.syncShadow_eq, outside_of_haltPin chosen, Processor.servedShadow, if_pos chosen]
        rfl
      have halts := Dispatch.enterHaltMode_leavesShadow machine
      rw [synced] at halts
      exact halts.bind (fun _ => .pure fun _ kept => kept) machine rfl
    · have kept : machine.processor.servedShadow = machine.processor.shadow :=
        if_neg fun same => pin (Option.some.inj (chosen.symm.trans same))
      have acts : ActsFrom (.without .shadow) machine (serve service) := acts_serve nofun nofun pin machine
      rw [kept]
      exact acts.leavesShadow (fun apart => apart rfl) machine rfl

/-- As long as no entry is by the pin, the shadow stays what it was at the boundary. -/
theorem Entries.shadow_eq (entries : Entries count boundary middle)
    (unpinned : ∀ earlier asker, earlier < count → Entries earlier boundary asker → asker.processor.service? ≠ some .haltPin) :
    middle.processor.shadow = boundary.processor.shadow := by
  induction entries with
  | none => rfl
  | @taken count boundary next middle entry rest ih =>
    have passed : next.processor.shadow = boundary.processor.servedShadow := (arbiterPass_leavesShadow _).ok rfl entry
    have vectored := unpinned 0 boundary (Nat.succ_pos count) (.none boundary)
    rw [Processor.servedShadow, if_neg vectored] at passed
    rw [ih fun earlier asker before reached => unpinned (earlier + 1) asker (Nat.succ_lt_succ before) (.taken entry reached), passed]

/-- HALT mode is on from here, however many entries follow. -/
def KeepsHaltMode (limit : Nat) (machine : Machine β) : Prop :=
  ∀ more later, more ≤ limit → Entries more machine later → later.processor.status.haltMode = true

theorem Microcode.arbiterPasses_frozen (limit : Nat) (halted : KeepsHaltMode limit machine) :
    LeavesShadow machine.processor.shadow machine (arbiterPasses limit) := by
  -- HALT mode hides the pin, so no entry behind this one is by it.
  have frozen {more : Nat} {last : Machine β} (within : more ≤ limit) (entries : Entries more machine last) :
      last.processor.shadow = machine.processor.shadow := by
    refine entries.shadow_eq fun earlier asker before reached pin => ?_
    have inside := halted earlier asker (by omega) reached
    rw [outside_of_haltPin pin] at inside
    cases inside
  have passed {more : Nat} {last : Machine β} (within : more ≤ limit) (entries : Entries more machine last) :
      LeavesShadow machine.processor.shadow last arbiterPass := by
    rw [← frozen within entries, ← Processor.servedShadow_of_halted (halted more last within entries)]
    exact arbiterPass_leavesShadow last
  rintro machine rfl
  have nested := arbiterPasses_nested limit machine
  generalize arbiterPasses limit machine = result at nested
  cases nested with
  | rested few entries idle => exact (passed (Nat.le_of_lt few) entries).ok rfl idle
  | limited entries => exact frozen (Nat.le_refl limit) entries
  | aborted few entries failed => exact (passed (Nat.le_of_lt few) entries).error rfl failed

theorem Bookkept.frozen {before after : Processor} (same : Bookkept before after) (halted : before.status.haltMode = true) :
    after.shadow = before.shadow := by
  rcases same.shadow with kept | ⟨user, _⟩
  · exact kept
  · rw [halted] at user
    cases user

namespace Dispatch

variable {configuration : Configuration} {start : UInt64} {outcome : Outcome}

theorem doubleFault_frozen (holds : Consistent configuration machine.processor) (halted : machine.processor.status.haltMode = true)
    (done : doubleFault start machine = .ok outcome after) : after.processor.shadow = machine.processor.shadow := by
  have noted : Bookkept machine.processor machine.doubleFaultNoted.processor := .noted _ _ _
  have inside : machine.doubleFaultNoted.processor.status.haltMode = true := noted.status ▸ halted
  have attempted : machine.doubleFaultNoted.processor.syncShadow.shadow = machine.processor.shadow :=
    ((Bookkept.syncShadow _).frozen inside).trans (noted.frozen halted)
  cases doubleFault_ended done with
  | stopped => exact (noted.trans (.latch _)).frozen halted
  | @halted settled has entered =>
    have model := (holds.transfer noted.toSameHardware).model.trans (holds.model.symm.trans has)
    have kept := (enterHaltMode_leavesShadow _).ok rfl entered
    obtain ⟨_, pc, status, board, _, rfl⟩ := enterHaltMode_ok entered
    exact ((Bookkept.syncShadow _).frozen (Machine.halted_haltMode pc status board model)).trans (kept.trans attempted)
  | @failed broken has failed =>
    have consistent := holds.transfer noted.toSameHardware
    have kept := (enterHaltMode_leavesShadow _).error rfl failed
    have model := consistent.model.trans (holds.model.symm.trans has)
    have path := ((acts_enterHaltMode model (Scope.any_halts _)).error rfl failed).path
    have restored := (path.restore consistent).status ▸ inside
    have cleared : Bookkept (broken.restore machine.doubleFaultNoted.processor.checkpoint).processor
        ((broken.restore machine.doubleFaultNoted.processor.checkpoint).busErrorsCleared.update (·.latch .doubleFault)).processor :=
      (Bookkept.aside _ ..).trans (.latch _)
    rw [cleared.frozen restored, Machine.restore_shadow, kept, attempted]

theorem serviceBusFault_frozen (holds : Consistent configuration machine.processor)
    (halted : machine.processor.status.haltMode = true) (done : serviceBusFault start machine = .ok outcome after)
    (last : after.processor.status.haltMode = true) : after.processor.shadow = machine.processor.shadow := by
  have noted : Bookkept machine.processor machine.busFaultNoted.processor :=
    (Bookkept.noted machine.processor .busError (.busFault machine.processor.pc)).trans (.aside _ ..)
  have attempted : ActsFrom (.without .shadow) machine.busFaultNoted (enterTrap TrapVector.busError) := acts_enterTrap _ _
  cases serviceBusFault_ended done with
  | @trapped taken entered =>
    let charged := taken.update (·.charge CostKind.faultTrapEntry.cycles)
    have synced : Bookkept charged.processor charged.processor.syncShadow := .syncShadow _
    have kept := (attempted.leavesShadow fun apart => apart rfl).ok rfl entered
    rw [Machine.update_processor, synced.status] at last
    exact (synced.frozen last).trans (kept.trans (noted.frozen halted))
  | @again broken _ _ failed done =>
    have consistent := holds.transfer noted.toSameHardware
    have kept := (attempted.leavesShadow fun apart => apart rfl).error rfl failed
    have path := (attempted.error rfl failed).path
    have cleared : Bookkept (broken.restore machine.busFaultNoted.processor.checkpoint).processor
        (broken.restore machine.busFaultNoted.processor.checkpoint).busErrorsCleared.processor := .aside _ ..
    have restored := (path.recoverable consistent.recoverable).restore machine.busFaultNoted.processor.checkpoint
    have inside : (broken.restore machine.busFaultNoted.processor.checkpoint).processor.status.haltMode = true := by
      rw [(path.any.restore consistent).status, noted.status]
      exact halted
    rw [doubleFault_frozen (restored.transfer cleared.toSameHardware) (cleared.status ▸ inside) done, cleared.frozen inside,
      Machine.restore_shadow, kept, noted.frozen halted]

end Dispatch

theorem Entries.not_idle (entries : Entries count boundary accepted) (entry : arbiterPass accepted = .ok true entered)
    (settled : Machine β) : arbitrate boundary ≠ .ok false settled := by
  intro idle
  have quiet := arbitrate_idle idle
  cases entries with
  | none =>
    rw [entry] at quiet
    cases quiet
  | taken first _ =>
    rw [first] at quiet
    cases quiet

/-- A step or a check in which the arbiter has entered something either brings the shadow up
to date behind it, or goes back to the boundary with a failed cycle. -/
theorem Finishes.arbitrated (finishes : Finishes boundary after) (entries : Entries count boundary accepted)
    (entry : arbiterPass accepted = .ok true entered) :
    (∃ settled, arbitrate boundary = .ok true settled ∧ after = settled.update (·.syncShadow)) ∨
      ∃ start broken outcome, arbitrate boundary = .error .failedCycle broken ∧
        Dispatch.serviceBusFault start (broken.restore boundary.processor.checkpoint) = .ok outcome after := by
  have busy := entries.not_idle entry
  cases finishes with
  | step done =>
    cases Dispatch.boundaryStep_ended done with
    | pending pending _ =>
      rw [entries.ready entry] at pending
      cases pending
    | arbiterFailed _ failed served => exact .inr ⟨_, _, _, failed, served⟩
    | interrupted _ arbitrated => exact .inl ⟨_, arbitrated, rfl⟩
    | waiting _ idle _ | instructionFailed _ idle _ _ _ | executed _ idle _ _ => exact absurd idle (busy _)
  | check live done =>
    cases Dispatch.checkInterrupts_ended done with
    | held held => exact absurd live held
    | taken _ arbitrated => exact .inl ⟨_, arbitrated, rfl⟩
    | quiet _ idle => exact absurd idle (busy _)
    | failed _ failed served => exact .inr ⟨_, _, _, failed, served⟩

/-- HALT mode stays on from this entry to the end of the operation. A later cycle that fails
goes back to the boundary, so it stays on then only if it was on there already. -/
structure HaltModeStays (count : Nat) (boundary entered after : Machine β) : Prop where
  entries : KeepsHaltMode (maxNestedTraps - (count + 1)) entered
  restored : ∀ broken, arbitrate boundary = .error .failedCycle broken → boundary.processor.status.haltMode = true
  last : after.processor.status.haltMode = true

/-- The shadow behind an entry into HALT mode. -/
structure ShadowBehind (count : Nat) (boundary accepted entered after : Machine β) : Prop where
  /-- Only the pin takes what it interrupts. Behind a trap the shadow is what it was before, -/
  taken : after.processor.shadow = accepted.processor.servedShadow
  /-- which is what it was at the boundary, unless the pin has been served since. -/
  before : (∀ earlier asker, earlier < count → Entries earlier boundary asker → asker.processor.service? ≠ some .haltPin) →
    accepted.processor.shadow = boundary.processor.shadow
  follows_iff : after.processor.shadow = accepted.processor.context ↔
    accepted.processor.service? = some .haltPin ∨ accepted.processor.shadow = accepted.processor.context
  first : count = 0 → accepted.processor.status.haltMode = false → after.processor.shadow = accepted.processor.context
  /-- The interrupted context is the one that a trap pushes. -/
  pushed : accepted.processor.status.haltMode = false → accepted.processor.service? ≠ some .haltPin →
    ∀ ram : Ram β (TrapFrame accepted.processor.sp), ram.Holds accepted.processor.context entered.board

/-- Where HALT mode is entered behind other entries, the shadow has the context of the
boundary and not the one that was interrupted, unless it was the pin that entered it. -/
theorem haltEntry_shadow {configuration : Configuration} (reached : Reachable configuration boundary.processor)
    (entries : Entries count boundary accepted) (within : count < maxNestedTraps)
    (entry : arbiterPass accepted = .ok true entered) (finishes : Finishes boundary after)
    (stays : HaltModeStays count boundary entered after) : ShadowBehind count boundary accepted entered after := by
  have holds := reached.consistent
  have served : entered.processor.shadow = accepted.processor.servedShadow := (arbiterPass_leavesShadow _).ok rfl entry
  have arbitrated : LeavesShadow accepted.processor.servedShadow boundary arbitrate := by
    rw [← served]
    exact entries.keeps within entry fun left fits => arbiterPasses_frozen left fun more later few =>
      stays.entries more later (by omega)
  have taken : after.processor.shadow = accepted.processor.servedShadow := by
    rcases finishes.arbitrated entries entry with ⟨settled, passed, rfl⟩ | ⟨start, broken, outcome, failed, answered⟩
    · have synced : Bookkept settled.processor settled.processor.syncShadow := .syncShadow _
      have last := stays.last
      rw [Machine.update_processor, synced.status] at last
      exact (synced.frozen last).trans (arbitrated.ok rfl passed)
    · have path := (acts_arbitrate.error failed).path
      have restored := (path.recoverable holds.recoverable).restore boundary.processor.checkpoint
      have inside := (path.restore holds).status ▸ stays.restored broken failed
      rw [Dispatch.serviceBusFault_frozen restored inside answered stays.last, Machine.restore_shadow, arbitrated.error rfl failed]
  refine ⟨taken, entries.shadow_eq, ?_, fun zero user => ?_, fun user vectored ram => ?_⟩
  · rw [taken, Processor.servedShadow]
    by_cases pin : accepted.processor.service? = some .haltPin
    · simp only [pin, if_true, true_or]
    · simp only [pin, if_false, false_or]
  · subst zero
    cases entries
    rw [taken, Processor.servedShadow, reached.tracked user]
    exact ite_self _
  · cases chosen : accepted.processor.service? with
    | none =>
      rw [arbiterPass_quiet chosen] at entry
      cases entry
    | some service =>
      obtain ⟨saved, _⟩ := arbiterPass_saves (entries.consistent holds) chosen (fun pin => vectored (pin ▸ chosen)) entry ram
      rwa [Service.saved_eq fun _ => user] at saved

/-- Power fail and the timer at once, and the timer's handler runs in HALT mode. -/
def timerIntoHaltMode : Machine FlatBoard :=
  ⟨twoRequests.processor, (FlatBoard.load {} 0o24 [0o1000, 0]).load 0o100 [0o2000, 0o400]⟩

def powerFailTaken : Machine FlatBoard := ended (arbiterPass timerIntoHaltMode)

def timerTaken : Machine FlatBoard := ended (arbiterPass powerFailTaken)

def timerAnswered : Machine FlatBoard := ended (Dispatch.step timerIntoHaltMode)

theorem haltEntry_shadow_timer :
    Entries 1 timerIntoHaltMode powerFailTaken ∧ arbiterPass powerFailTaken = .ok true timerTaken ∧
      Dispatch.step timerIntoHaltMode = .ok (.interrupted 228) timerAnswered ∧
      ShadowBehind 1 timerIntoHaltMode powerFailTaken timerTaken timerAnswered := by
  have powerFail : arbiterPass timerIntoHaltMode = .ok true powerFailTaken := eq_ok_of_answer (by decide +kernel)
  have timer : arbiterPass powerFailTaken = .ok true timerTaken := eq_ok_of_answer (by decide +kernel)
  have done : Dispatch.step timerIntoHaltMode = .ok (.interrupted 228) timerAnswered := eq_ok_of_answer (by decide +kernel)
  have quiet : arbiterPass timerTaken = .ok false timerTaken := arbiterPass_quiet (by decide +kernel)
  have entries : Entries 1 timerIntoHaltMode powerFailTaken := .taken powerFail (.none _)
  have stays : HaltModeStays 1 timerIntoHaltMode timerTaken timerAnswered := by
    refine ⟨fun more later _ following => ?_, fun broken failed => ?_, by decide +kernel⟩
    · cases following with
      | none => decide +kernel
      | taken entry _ =>
        rw [quiet] at entry
        cases entry
    · have finished : answer? (arbitrate timerIntoHaltMode) = some true := by decide +kernel
      rw [failed] at finished
      cases finished
  have finishes : Finishes timerIntoHaltMode timerAnswered := by
    rw [Dispatch.step_eq (.inl rfl)] at done
    exact .step done
  exact ⟨entries, timer, done, haltEntry_shadow twoRequests_reachable entries (by decide) timer finishes stays⟩

/-- HALT mode is entered from the handler of the power fail, but the shadow has the context
from before the power fail. -/
theorem haltEntry_forgets_handler :
    arbiterPass timerIntoHaltMode = .ok true powerFailTaken ∧ arbiterPass powerFailTaken = .ok true timerTaken ∧
      powerFailTaken.processor.status.haltMode = false ∧ timerTaken.processor.status.haltMode = true ∧
      Dispatch.step timerIntoHaltMode = .ok (.interrupted 228) timerAnswered ∧
      timerAnswered.processor.context = timerTaken.processor.context ∧
      powerFailTaken.processor.context = ⟨0o1000, ⟨0⟩⟩ ∧ timerAnswered.processor.shadow = ⟨0, ⟨0⟩⟩ := by
  refine ⟨eq_ok_of_answer (by decide +kernel), eq_ok_of_answer (by decide +kernel), by decide +kernel, by decide +kernel,
    eq_ok_of_answer (by decide +kernel), ?_⟩
  decide +kernel

end Pdp11
