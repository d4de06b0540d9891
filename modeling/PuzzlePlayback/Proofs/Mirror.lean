import PuzzlePlayback.Proofs.Reachable

/-!
# Playback on other timers

Playback reaches its timers by setting and cancelling only. So if a map of timers keeps both, a
player on the one timers and its image on the others do the same: `obey_mirrored`. A book kept
beside the timers changes nothing that way.
-/

namespace PuzzlePlayback

variable {σ τ : Type}

/-- The map keeps what is set and cancelled, and the numbers. -/
structure Mirrors [TimerSource σ] [TimerSource τ] (f : σ → τ) : Prop where
  set : ∀ timers delay, TimerSource.set (f timers) delay =
    ((TimerSource.set timers delay).1, f (TimerSource.set timers delay).2)
  cancel : ∀ timers timer, TimerSource.cancel (f timers) timer =
    f (TimerSource.cancel timers timer)

namespace Player

/-- The same player with the image of its timers. -/
def mirrored (f : σ → τ) (p : Player σ) : Player τ := { p with timers := f p.timers }

end Player

/-- The same reply with the image of the timers. -/
def Reply.mirrored (f : σ → τ) (reply : Reply σ) : Reply τ :=
  ⟨reply.player.mirrored f, reply.error⟩

namespace Player

section

variable [TimerSource σ] [TimerSource τ] {f : σ → τ} (hf : Mirrors f) (p : Player σ)

include hf

/-! ## Moves -/

theorem silenced_mirrored : (p.mirrored f).silenced = f p.silenced := by
  have halarm : (p.mirrored f).alarm = p.alarm := rfl
  unfold silenced
  rw [halarm]
  cases p.alarm with
  | none => rfl
  | some alarm => exact hf.cancel _ _

theorem cancelAlarm_mirrored : (p.mirrored f).cancelAlarm = p.cancelAlarm.mirrored f := by
  rw [cancelAlarm_eq, cancelAlarm_eq, silenced_mirrored hf]
  rfl

theorem await_mirrored (delay : Nat) (duty : Duty) :
    (p.mirrored f).await delay duty = (p.await delay duty).mirrored f := by
  rw [await_eq, await_eq, silenced_mirrored hf, hf.set]
  rfl

theorem reset_mirrored : (p.mirrored f).reset = p.reset.mirrored f := by
  unfold reset
  rw [cancelAlarm_mirrored hf]
  rfl

theorem halt_mirrored (fault : StepFault) :
    (p.mirrored f).halt fault = (p.halt fault).mirrored f := by
  unfold halt
  rw [cancelAlarm_mirrored hf]
  rfl

theorem start_mirrored (status : Status) :
    (p.mirrored f).start status = (p.start status).mirrored f := by
  have hsource : (p.reset.mirrored f).source = p.reset.source := rfl
  unfold start
  rw [reset_mirrored hf]
  dsimp only
  rw [hsource]
  cases p.reset.source.ask.1 <;> rfl

theorem follow_mirrored (auto : Bool) (signal : Signal) :
    (p.mirrored f).follow auto signal = (p.follow auto signal).mirrored f := by
  cases signal with
  | win => exact await_mirrored hf p _ _
  | lost => exact await_mirrored hf p _ _
  | running =>
    have hsize : (p.mirrored f).programSize = p.programSize := rfl
    have hstep : (p.mirrored f).step = p.step := rfl
    unfold follow
    dsimp only
    rw [hsize, hstep]
    split
    · exact await_mirrored hf p _ _
    · split
      · exact await_mirrored hf p _ _
      · rfl

theorem proceed_mirrored (auto : Bool) :
    (p.mirrored f).proceed auto = (p.proceed auto).mirrored f := by
  have hnext : (p.mirrored f).action? (p.mirrored f).step = p.action? p.step := rfl
  have hplay (action : Action) : (p.mirrored f).stage.transition (p.mirrored f).state action =
      p.stage.transition p.state action := rfl
  unfold proceed
  rw [hnext]
  cases p.action? p.step with
  | none => exact congrArg Reply.done (await_mirrored hf p _ _)
  | some action =>
    dsimp only
    rw [hplay]
    cases p.stage.transition p.state action with
    | error fault => exact halt_mirrored hf p _
    | ok t => exact congrArg Reply.done (follow_mirrored hf (p.commit t.state) auto t.signal)

theorem announce_mirrored (ending : Ending) :
    (p.mirrored f).announce ending = (p.announce ending).mirrored f := by
  cases ending with
  | win => rfl
  | lose => rfl
  | verdict =>
    have hsolved : (p.mirrored f).stage.solved (p.mirrored f).state =
      p.stage.solved p.state := rfl
    unfold announce
    dsimp only
    rw [hsolved]
    cases p.stage.solved p.state with
    | error fault => exact halt_mirrored hf p _
    | ok solved => cases solved <;> rfl

/-! ## Operations -/

theorem resume_mirrored : (p.mirrored f).resume = p.resume.mirrored f := by
  let q : Player σ := { p with status := .running }.emit (.resumed p.step)
  have halarm : (p.mirrored f).alarm = p.alarm := rfl
  show (if (p.mirrored f).alarm.isNone then (q.mirrored f).awaitAdvance else q.mirrored f) =
    (if p.alarm.isNone then q.awaitAdvance else q).mirrored f
  rw [halarm]
  split
  · exact await_mirrored hf q _ _
  · rfl

theorem andThen_mirrored (reply : Reply σ) (auto : Bool) :
    (reply.mirrored f).andThen (proceed · auto) =
      (reply.andThen (proceed · auto)).mirrored f := by
  obtain ⟨q, error⟩ := reply
  cases error with
  | none => exact proceed_mirrored hf q auto
  | some error => rfl

theorem play_mirrored : (p.mirrored f).play = p.play.mirrored f := by
  have hstatus : (p.mirrored f).status = p.status := rfl
  unfold play
  rw [hstatus, start_mirrored hf, andThen_mirrored hf]
  split
  · exact congrArg Reply.done (resume_mirrored hf p)
  · rfl

theorem pause_mirrored : (p.mirrored f).pause = p.pause.mirrored f := by
  have hstatus : (p.mirrored f).status = p.status := rfl
  have hending : (p.mirrored f).isEnding = p.isEnding := rfl
  unfold pause
  rw [hstatus, hending, cancelAlarm_mirrored hf]
  split
  · cases p.isEnding <;> rfl
  · rfl

theorem stepOnce_mirrored : (p.mirrored f).stepOnce = p.stepOnce.mirrored f := by
  have hstatus : (p.mirrored f).status = p.status := rfl
  have hending : (p.mirrored f).isEnding = p.isEnding := rfl
  unfold stepOnce
  rw [hstatus, hending, start_mirrored hf, andThen_mirrored hf, pause_mirrored hf]
  split
  · rfl
  · split
    · exact proceed_mirrored hf p.pause false
    · exact proceed_mirrored hf p false
    · rfl

theorem travelTo_mirrored (n : Nat) :
    (p.mirrored f).travelTo n = (p.travelTo n).mirrored f := by
  have hprogram : (p.mirrored f).program = p.program := rfl
  unfold travelTo
  rw [hprogram, cancelAlarm_mirrored hf]
  cases p.program with
  | none => rfl
  | some program =>
    have hstage : (p.cancelAlarm.mirrored f).stage = p.cancelAlarm.stage := rfl
    dsimp only
    rw [hstage]
    cases replay p.cancelAlarm.stage.rules p.cancelAlarm.stage.puzzle
        (program.actions.take (min n program.size)) with
    | error fault => exact halt_mirrored hf { p.cancelAlarm with outcome := none } fault
    | ok state => rfl

theorem deliver_mirrored (timer : TimerNumber) :
    (p.mirrored f).deliver timer = (p.deliver timer).mirrored f := by
  have halarm : (p.mirrored f).alarm = p.alarm := rfl
  unfold deliver
  rw [halarm]
  cases p.alarm with
  | none => rfl
  | some alarm =>
    let q : Player σ := { p with alarm := none }
    dsimp only
    split
    · rfl
    · cases alarm.duty with
      | advance =>
        have hstatus : (p.mirrored f).status = p.status := rfl
        dsimp only
        rw [hstatus]
        split
        · exact proceed_mirrored hf q true
        · rfl
      | announce ending => exact announce_mirrored hf q ending

/-- **Playback does the same on other timers.** -/
theorem obey_mirrored (control : Control) :
    (p.mirrored f).obey control = (p.obey control).mirrored f := by
  cases control with
  | play => exact play_mirrored hf p
  | pause => exact congrArg Reply.done (pause_mirrored hf p)
  | stepOnce => exact stepOnce_mirrored hf p
  | reset => exact congrArg Reply.done (reset_mirrored hf p)
  | clear =>
    exact congrArg (fun q => Reply.done (q.emit .cleared))
      (reset_mirrored hf { p with program := none })
  | useSource source =>
    exact congrArg (fun q => Reply.done (q.emit .cleared))
      (reset_mirrored hf { p with source, program := none })
  | travelTo n => exact travelTo_mirrored hf p n
  | moveSlider speed => rfl
  | deliver timer => exact deliver_mirrored hf p timer

end

end Player

end PuzzlePlayback
