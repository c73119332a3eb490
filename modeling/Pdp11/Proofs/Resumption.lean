import Pdp11.Proofs.Inertness

/-! Resuming a suspended processor. It owes a reset from then on, and a step begins with
it. The rest of that step does not look whether the reset has latched, and a check of
interrupts does not look whether a reset is owed. -/

namespace Pdp11

/-- Operations that neither advance a processor nor change whether it is held. -/
def Operation.Idle : Operation → Prop
  | drive .. | observe _ | resume => True
  | run budget => ¬0 < budget.toNat
  | _ => False

section

variable {β : Type} [Board β] {operation : Operation} {response : Response} {machine after : Machine β}

theorem Operation.stays_suspended (performed : operation.perform machine = .ok response after)
    (suspended : machine.processor.runState = .suspended) (kept : operation ≠ .reset ∧ operation ≠ .resume) :
    after.processor.runState = .suspended := by
  have stopped : ¬machine.processor.Live := Processor.not_live_of_suspended suspended
  cases operation with
  | reset => exact absurd rfl kept.1
  | resume => exact absurd rfl kept.2
  | step | run budget | checkInterrupts =>
    rw [Operation.stopped_stays performed trivial stopped]
    exact suspended
  | drive line asserted | observe on =>
    cases performed
    exact suspended
  | suspend =>
    cases performed
    rfl

theorem Episodes.stay_suspended {first last : Processor} {episodes : List (Episode β)}
    (between : Episodes first episodes last) (suspended : first.runState = .suspended)
    (kept : ∀ episode ∈ episodes, episode.operation ≠ .reset ∧ episode.operation ≠ .resume) :
    last.runState = .suspended := by
  induction between with
  | none => exact suspended
  | next episode rest ih =>
    rw [List.forall_mem_cons] at kept
    exact ih (Operation.stays_suspended episode.performed suspended kept.1) kept.2

theorem Operation.resume_releases (performed : resume.perform machine = .ok response after)
    (suspended : machine.processor.runState = .suspended) : after.processor.Released := by
  cases performed
  simp only [Machine.update, suspended, if_true]
  exact ⟨.inl rfl, rfl⟩

theorem Operation.stays_released (performed : operation.perform machine = .ok response after)
    (released : machine.processor.Released) (idle : operation.Idle) : after.processor.Released := by
  cases operation with
  | reset | step | checkInterrupts | suspend => exact idle.elim
  | run budget =>
    obtain ⟨_, _, done, answered⟩ := bind_eq_ok performed
    cases answered
    rw [Dispatch.run_spent idle] at done
    cases done
    exact released
  | drive line asserted | observe on =>
    cases performed
    exact ⟨released.live, released.due⟩
  | resume =>
    cases performed
    have going : machine.processor.runState ≠ .suspended := fun suspended =>
      Processor.not_live_of_suspended suspended released.live
    simp only [Machine.update, going, if_false]
    exact released

theorem Episodes.stay_released {first last : Processor} {episodes : List (Episode β)}
    (between : Episodes first episodes last) (released : first.Released) (idle : ∀ episode ∈ episodes, episode.operation.Idle) : last.Released := by
  induction between with
  | none => exact released
  | next episode rest ih =>
    rw [List.forall_mem_cons] at idle
    exact ih (Operation.stays_released episode.performed released idle.1) idle.2

theorem Dispatch.step_released (released : machine.processor.Released) :
    step machine = (do reset; boundaryStep : Dispatch β Outcome) machine := by
  rw [step_eq released.live, if_pos released.due]

theorem Dispatch.reset_forgets (machine : Machine β) (lines : InputLines) (tracePending traceInhibited : Bool) :
    reset (machine.update ({ · with lines, tracePending, traceInhibited })) = reset machine := rfl

theorem Operation.steps_forget (steps : operation.Steps) (released : machine.processor.Released) (lines : InputLines)
    (tracePending traceInhibited : Bool) :
    operation.perform (machine.update ({ · with lines, tracePending, traceInhibited })) = operation.perform machine := by
  have same : Dispatch.step (machine.update ({ · with lines, tracePending, traceInhibited })) = Dispatch.step machine := by
    have owed : (machine.update ({ · with lines, tracePending, traceInhibited })).processor.Released :=
      ⟨released.live, released.due⟩
    rw [Dispatch.step_released released, Dispatch.step_released owed]
    simp only [Bind.bind, EStateM.bind, Dispatch.reset_forgets]
  cases operation with
  | step => simp only [perform, Bind.bind, EStateM.bind, same]
  | run budget =>
    have within : 0 < budget.toNat := steps
    simp only [perform, Dispatch.run]
    rw [Dispatch.runFrom, dif_pos within]
    simp only [Bind.bind, EStateM.bind, same]
  | reset | checkInterrupts | drive line asserted | suspend | resume | observe on => exact steps.elim

/-- A step begins with the reset that is owed, if that reset leaves the processor
running. -/
theorem Operation.steps_reset (steps : operation.Steps) (released : machine.processor.Released)
    (sound : ¬machine.ResetLatches) :
    operation.perform machine = (do Dispatch.reset; operation.perform : Dispatch β Response) machine := by
  obtain ⟨started, done, fresh⟩ := Dispatch.reset_fresh machine
  have live : started.processor.Live := .inl (fresh.stopped.resolve_right fun latched => sound ⟨started, done, latched⟩)
  have same : Dispatch.step machine = Dispatch.step started := by
    rw [Dispatch.step_released released, bind_of_ok done, Dispatch.step_eq live, fresh.resetOnResume]
    rfl
  rw [bind_of_ok done]
  cases operation with
  | step => simp only [perform, Bind.bind, EStateM.bind, same]
  | run budget =>
    have within : 0 < budget.toNat := steps
    simp only [perform, Dispatch.run]
    rw [Dispatch.runFrom, dif_pos within]
    simp only [Bind.bind, EStateM.bind, same]
  | reset | checkInterrupts | drive line asserted | suspend | resume | observe on => exact steps.elim

/-- A check of interrupts leaves the reset owed, so it cannot have begun with it. -/
theorem Operation.check_no_reset (released : machine.processor.Released) :
    checkInterrupts.perform machine ≠ (do Dispatch.reset; checkInterrupts.perform : Dispatch β Response) machine := by
  obtain ⟨started, done, fresh⟩ := Dispatch.reset_fresh machine
  have settled : Dispatch.checkInterrupts started = .ok false started := by
    by_cases live : started.processor.Live
    · rw [Dispatch.checkInterrupts_eq live, Microcode.arbitrate_quiet fresh.quiet]
    · exact Dispatch.checkInterrupts_held live
  have answered : checkInterrupts.perform started = .ok (.taken false) started := bind_of_ok settled _
  rw [bind_of_ok done, answered]
  intro same
  obtain ⟨_, _, checked, finished⟩ := bind_eq_ok same
  cases finished
  have due := (Dispatch.resetOnResume_steady true).checkInterrupts.ok released.due checked
  rw [fresh.resetOnResume] at due
  cases due

end

variable {β : Type} [Board β] {operation : Operation} {machine : Machine (Recorded β)}

theorem Operation.CarriesOn.no_reset (carries : operation.CarriesOn machine) (recording : machine.board.recording = true) :
    operation.perform machine ≠ (do Dispatch.reset; operation.perform : Dispatch (Recorded β) Response) machine := by
  intro same
  have steps := carries.1
  obtain ⟨started, done, latched⟩ := carries.2.2
  have advances : operation.Advances := by
    cases operation with
    | step | run budget => trivial
    | reset | checkInterrupts | drive line asserted | suspend | resume | observe on => exact steps.elim
  obtain ⟨response, idle⟩ := perform_stopped advances fun live => live.not_latched latched
  rw [bind_of_ok done, idle] at same
  obtain ⟨moment, ended, _, active⟩ := carries.not_inert recording same
  rw [done] at ended
  cases ended
  exact active (.refl started)

/-- The first operation that advances a resumed processor is a reset and then that
operation, exactly if it steps and the reset leaves the processor running. Nothing that
was pending before makes a difference to a step. -/
theorem resume_resets_iff {held waiting : Processor} {board : Recorded β} {released : Machine (Recorded β)}
    {between since : List (Episode (Recorded β))} (suspended : held.runState = .suspended)
    (meanwhile : Episodes held between waiting)
    (kept : ∀ episode ∈ between, episode.operation ≠ .reset ∧ episode.operation ≠ .resume)
    (resumed : Operation.resume.perform ⟨waiting, board⟩ = .ok .done released)
    (afterwards : Episodes released.processor since machine.processor)
    (idle : ∀ episode ∈ since, episode.operation.Idle) (recording : machine.board.recording = true)
    (first : operation.Steps ∨ operation = .checkInterrupts) :
    (operation.perform machine = (do Dispatch.reset; operation.perform : Dispatch (Recorded β) Response) machine ↔
        operation ≠ .checkInterrupts ∧ ¬machine.ResetLatches) ∧
      (operation ≠ .checkInterrupts → ∀ lines tracePending traceInhibited,
        operation.perform (machine.update ({ · with lines, tracePending, traceInhibited })) =
          operation.perform machine) := by
  have owed := Operation.resume_releases resumed (meanwhile.stay_suspended suspended kept)
  have released := afterwards.stay_released owed idle
  rcases first with steps | rfl
  · have apart : operation ≠ .checkInterrupts := by
      rintro rfl
      exact steps
    refine ⟨⟨fun same => ⟨apart, fun latches => ?_⟩, fun ⟨_, sound⟩ => ?_⟩, fun _ => ?_⟩
    · exact Operation.CarriesOn.no_reset ⟨steps, released, latches⟩ recording same
    · exact Operation.steps_reset steps released sound
    · exact Operation.steps_forget steps released
  · refine ⟨⟨fun same => ?_, fun ⟨apart, _⟩ => absurd rfl apart⟩, fun apart => absurd rfl apart⟩
    exact absurd same (Operation.check_no_reset released)

def pausedWithTimer : Machine (Recorded FlatBoard) where
  processor := { Processor.create { model := .vm2 } with runState := .suspended }
  board := { board := (FlatBoard.load {} 0 [0o1000, 0]).load 0o1000 [0o240] }

def timerEpisode : Episode (Recorded FlatBoard) where
  operation := .drive .event true
  before := pausedWithTimer
  response := .done
  after := ended (Dispatch.drive .event true pausedWithTimer)
  performed := rfl

def releasedWithTimer : Machine (Recorded FlatBoard) := ended (Dispatch.resume timerEpisode.after)

theorem resume_resets_timer :
    releasedWithTimer.processor.lines.event = true ∧
      ∃ after, Operation.step.perform releasedWithTimer = .ok (.outcome (.retired 12)) after ∧
        (do Dispatch.reset; Operation.step.perform : Dispatch _ Response) releasedWithTimer =
          .ok (.outcome (.retired 12)) after := by
  have stepped : Operation.step.perform releasedWithTimer = .ok (.outcome (.retired 12)) _ := eq_ok_of_answer (by decide +kernel)
  have resumed : Operation.resume.perform ⟨timerEpisode.after.processor, timerEpisode.after.board⟩ =
      .ok .done releasedWithTimer := rfl
  have meanwhile : Episodes pausedWithTimer.processor [timerEpisode] timerEpisode.after.processor :=
    .next timerEpisode (.none timerEpisode.after.processor)
  have kept : ∀ episode ∈ [timerEpisode], episode.operation ≠ .reset ∧ episode.operation ≠ .resume := by
    intro episode member
    cases List.mem_singleton.mp member
    decide
  have afterwards : Episodes releasedWithTimer.processor ([] : List (Episode (Recorded FlatBoard))) releasedWithTimer.processor := .none _
  have idle : ∀ episode ∈ ([] : List (Episode (Recorded FlatBoard))), episode.operation.Idle := by
    intro episode member
    cases member
  have reset : Dispatch.reset releasedWithTimer = .ok () _ := eq_ok_of_answer (by decide +kernel)
  have running : ¬(ended (Dispatch.reset releasedWithTimer)).processor.Latched := by decide +kernel
  have sound : ¬releasedWithTimer.ResetLatches := by
    rintro ⟨started, done, latched⟩
    rw [reset] at done
    cases done
    exact running latched
  have first : Operation.step.Steps ∨ Operation.step = .checkInterrupts := .inl trivial
  obtain ⟨resets, _⟩ :=
    resume_resets_iff rfl meanwhile kept resumed afterwards idle (by decide +kernel) first
  have same := resets.mpr ⟨by decide, sound⟩
  exact ⟨by decide +kernel, _, stepped, same.symm.trans stepped⟩

/-- A resumed processor steps on behind a reset that has failed, and answers its timer
before that reset. -/
theorem resume_does_not_reset :
    Operation.step.perform resumedUnreadable ≠
        (do Dispatch.reset; Operation.step.perform : Dispatch _ Response) resumedUnreadable ∧
      Operation.checkInterrupts.perform resumedWithTimer ≠
        (do Dispatch.reset; Operation.checkInterrupts.perform : Dispatch _ Response) resumedWithTimer := by
  refine ⟨resumedUnreadable_carriesOn.no_reset (by decide +kernel), Operation.check_no_reset ⟨.inl ?_, ?_⟩⟩
  · decide +kernel
  · decide +kernel

end Pdp11
