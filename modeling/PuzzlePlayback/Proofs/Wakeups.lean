import PuzzlePlayback.Proofs.Course

/-!
# The pending timer

Playback holds at most one timer. Whatever an operation does to the timers, it does in three ways
only: a delivery takes the pending timer, the pending timer is cancelled, a timer is set while
none is pending. `Handles` is any number of the last two, and `Course.handles` says that every
operation is a `Handles` after what it takes.
-/

namespace PuzzlePlayback

variable {σ : Type} [TimerSource σ]

/-- The pending timer, and the timers it is one of. -/
structure Waiting (σ : Type) where
  pending : Option TimerNumber
  timers : σ

/-- What playback does to its timers by itself: cancel the pending one, or set one while none is
pending. -/
inductive Handles (a : Waiting σ) : Waiting σ → Prop
  | refl : Handles a a
  | cancel {timer : TimerNumber} {timers : σ} : Handles a ⟨some timer, timers⟩ →
      Handles a ⟨none, TimerSource.cancel timers timer⟩
  | set {timers : σ} (delay : Nat) : Handles a ⟨none, timers⟩ →
      Handles a ⟨some (TimerSource.set timers delay).1, (TimerSource.set timers delay).2⟩

namespace Player

/-- The pending timer of a player and its timers. -/
def waiting (p : Player σ) : Waiting σ := ⟨p.pendingTimer, p.timers⟩

/-- The pending timer, if the host delivers that one. -/
def taken (p : Player σ) : Control → Option TimerNumber
  | .deliver timer => if p.pendingTimer = some timer then some timer else none
  | _ => none

/-- What a player waits for once the host has delivered what it delivers. -/
def afterTaking (p : Player σ) (control : Control) : Waiting σ :=
  match p.taken control with
  | some _ => ⟨none, p.timers⟩
  | none => p.waiting

omit [TimerSource σ] in
theorem afterTaking_of_taken {p : Player σ} {control : Control} {timer : TimerNumber}
    (h : p.taken control = some timer) : p.afterTaking control = ⟨none, p.timers⟩ := by
  rw [afterTaking, h]

omit [TimerSource σ] in
theorem afterTaking_of_not_taken {p : Player σ} {control : Control}
    (h : p.taken control = none) : p.afterTaking control = p.waiting := by
  rw [afterTaking, h]

omit [TimerSource σ] in
@[simp] theorem taken_deliver_pending {p : Player σ} {alarm : Alarm} (h : p.alarm = some alarm) :
    p.taken (.deliver alarm.timer) = some alarm.timer := by
  simp [taken, pendingTimer, h]

omit [TimerSource σ] in
/-- What is taken was pending. -/
theorem pendingTimer_of_taken {p : Player σ} {control : Control} {timer : TimerNumber}
    (h : p.taken control = some timer) : p.pendingTimer = some timer := by
  cases control with
  | deliver delivered =>
    rw [taken] at h
    split at h
    · next hpending => rw [hpending, h]
    · cases h
  | _ => cases h

omit [TimerSource σ] in
/-- What is taken is delivered. -/
theorem control_of_taken {p : Player σ} {control : Control} {timer : TimerNumber}
    (h : p.taken control = some timer) : control = .deliver timer := by
  cases control with
  | deliver delivered =>
    rw [taken] at h
    split at h
    · rw [Option.some.inj h]
    · cases h
  | _ => cases h

/-- A timer other than the pending one is ignored. -/
theorem deliver_stale {p : Player σ} {timer : TimerNumber} (h : p.pendingTimer ≠ some timer) :
    p.deliver timer = .done p := by
  unfold deliver
  cases halarm : p.alarm with
  | none => rfl
  | some alarm =>
    have hne : alarm.timer ≠ timer := by simpa [pendingTimer, halarm] using h
    dsimp only
    rw [if_pos hne]

/-! ## Moves -/

section

variable {a : Waiting σ} {p : Player σ} (h : Handles a p.waiting)

include h

theorem handles_silenced : Handles a ⟨none, p.silenced⟩ := by
  unfold silenced
  cases halarm : p.alarm with
  | none => simpa [waiting, pendingTimer, halarm] using h
  | some alarm =>
    refine .cancel ?_
    simpa [waiting, pendingTimer, halarm] using h

theorem handles_cancelAlarm : Handles a p.cancelAlarm.waiting := by
  rw [cancelAlarm_eq]
  exact handles_silenced h

theorem handles_await (delay : Nat) (duty : Duty) : Handles a (p.await delay duty).waiting := by
  rw [await_eq]
  exact .set delay (handles_silenced h)

theorem handles_awaitAdvance : Handles a p.awaitAdvance.waiting := handles_await h _ _

theorem handles_awaitAnnouncement (ending : Ending) :
    Handles a (p.awaitAnnouncement ending).waiting := handles_await h _ _

theorem handles_reset : Handles a p.reset.waiting := by
  rw [reset_eq]
  exact handles_silenced h

theorem handles_halt (fault : StepFault) : Handles a (p.halt fault).player.waiting := by
  rw [halt_player]
  exact handles_silenced h

theorem handles_resume : Handles a p.resume.waiting := by
  unfold resume
  dsimp only
  split
  · refine handles_awaitAdvance ?_
    exact h
  · exact h

theorem handles_pause : Handles a p.pause.waiting := by
  unfold pause
  split
  · cases p.isEnding with
    | true => exact h
    | false => exact handles_cancelAlarm h
  · exact h

end

/-! ## Courses -/

variable {p q : Player σ} {control : Control} {auto : Bool} {reply : Reply σ}

theorem Played.handles {a : Waiting σ} (h : Played q auto reply) (hq : Handles a q.waiting) :
    Handles a reply.player.waiting := by
  cases h with
  | ended _ => exact handles_awaitAnnouncement hq _
  | faulted _ _ => exact handles_halt hq _
  | won _ _ _ => exact handles_awaitAnnouncement (p := q.commit _) hq _
  | lost _ _ _ => exact handles_awaitAnnouncement (p := q.commit _) hq _
  | last _ _ _ _ => exact handles_awaitAnnouncement (p := q.commit _) hq _
  | onward _ _ _ _ _ => exact handles_awaitAdvance (p := q.commit _) hq
  | held _ _ _ _ _ => exact hq

theorem Announced.handles {ending : Ending} {a : Waiting σ} (h : Announced p ending reply)
    (hp : Handles a p.waiting) : Handles a reply.player.waiting := by
  cases h with
  | faulted _ => exact handles_halt hp _
  | _ => exact hp

omit [TimerSource σ] in
theorem Starts.taken_eq {status : Status} (h : Starts p control status) :
    p.taken control = none := by
  cases h <;> rfl

theorem Turn.handles (h : Turn p control q auto) : Handles (p.afterTaking control) q.waiting := by
  cases h with
  | fresh hstarts _ =>
    rw [afterTaking_of_not_taken hstarts.taken_eq]
    exact handles_reset .refl
  | interrupted _ _ => exact handles_pause .refl
  | single _ _ => exact .refl
  | due halarm _ =>
    rw [afterTaking_of_taken (taken_deliver_pending halarm)]
    exact .refl

/-- **Nothing else is done to the timers.** Beyond the timer that it delivers, an operation only
cancels the pending timer and sets a timer while none is pending. -/
theorem Course.handles (h : Course p control reply) :
    Handles (p.afterTaking control) reply.player.waiting := by
  cases h with
  | @turned _ q auto turn => exact (q.played auto).handles turn.handles
  | refused hstarts _ =>
    rw [afterTaking_of_not_taken hstarts.taken_eq]
    exact handles_reset .refl
  | resumed _ => exact handles_resume .refl
  | paused _ => exact handles_pause .refl
  | pauseIgnored _ => exact .refl
  | stepIgnored _ => exact .refl
  | rewound => exact handles_reset .refl
  | cleared => exact handles_reset (p := { p with program := none }) .refl
  | @exchanged source => exact handles_reset (p := { p with source, program := none }) .refl
  | lost _ => exact .refl
  | traveled _ _ => exact handles_cancelAlarm .refl
  | strayed _ _ => exact handles_halt (p := { p with outcome := none }) .refl _
  | slid => exact .refl
  | announced halarm =>
    rw [afterTaking_of_taken (taken_deliver_pending halarm)]
    exact (Player.announced { p with alarm := none } _).handles .refl
  | dropped halarm _ =>
    rw [afterTaking_of_taken (taken_deliver_pending halarm)]
    exact .refl
  | @stale timer hstale =>
    have htaken : p.taken (.deliver timer) = none := if_neg hstale
    rw [afterTaking_of_not_taken htaken]
    exact .refl

end Player

end PuzzlePlayback
