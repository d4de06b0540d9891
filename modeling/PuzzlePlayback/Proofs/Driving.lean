import PuzzlePlayback.Proofs.PlayOut
import PuzzlePlayback.Proofs.Verdict

/-!
# Driving a clock

To drive a player is to deliver the next timer of its clock, and the next, until none is left or
one of them reports an error. `Drives` is that loop, with no bound on it. It ends all the same
within the deliveries that the player has left (`drives_playFor`), and what holds at its end
follows from what one delivery preserves (`Drives.ends`).

The host may have set timers of its own, taken timers off the clock, and have some of them in its
hand (`Hosted`). The one thing that it must not do is to lose the pending timer: it may not cancel
it behind the player's back, and not keep it in the hand.
-/

namespace PuzzlePlayback

/-- Neither lost nor taken: the pending timer is in the hand of the host or in the queue. -/
def Held (hand : List TimerNumber) (w : Waiting ManualClock) : Prop :=
  ∀ timer, w.pending = some timer → timer ∈ hand ∨ timer ∈ w.timers.queued

/-- What playback does to its timers keeps the pending one. -/
theorem Handles.held {hand : List TimerNumber} {a b : Waiting ManualClock} (hab : Handles a b)
    (ha : Held hand a) : Held hand b := by
  induction hab with
  | refl => exact ha
  | cancel _ _ => exact nofun
  | set delay _ _ =>
    intro timer htimer
    cases htimer
    exact .inr (ManualClock.mem_queued_set.2 (.inl rfl))

namespace Player

/-! ## Hosts of a clock -/

/-- `Hosted first p hand`: on a clock a host can bring about `p` from `first`, and have the timers
`hand` off the clock and not delivered yet. It may ask for any operation, deliver what it took off,
set timers of its own, and cancel any timer but the pending one. -/
inductive Hosted (first : Player ManualClock) : Player ManualClock → List TimerNumber → Prop
  | start : Hosted first first []
  | obey {p : Player ManualClock} {hand : List TimerNumber} (control : Control) :
      Hosted first p hand → Hosted first (p.obey control).player hand
  | deliver {p : Player ManualClock} {hand : List TimerNumber} {timer : TimerNumber} :
      Hosted first p hand → timer ∈ hand →
      Hosted first (p.obey (.deliver timer)).player (hand.erase timer)
  | jump {p : Player ManualClock} {hand : List TimerNumber} {timer : TimerNumber}
      {clock : ManualClock} : Hosted first p hand → p.timers.jump = some (timer, clock) →
      Hosted first (p.onClock clock) (timer :: hand)
  | moveOn {p : Player ManualClock} {hand : List TimerNumber} (span : Nat) :
      Hosted first p hand →
      Hosted first (p.onClock (p.timers.moveOn span).2) ((p.timers.moveOn span).1 ++ hand)
  | set {p : Player ManualClock} {hand : List TimerNumber} (delay : Nat) :
      Hosted first p hand → Hosted first (p.onClock (p.timers.set delay).2) hand
  | cancel {p : Player ManualClock} {hand : List TimerNumber} (id : TimerNumber) :
      Hosted first p hand → p.pendingTimer ≠ some id →
      Hosted first (p.onClock (p.timers.cancel id)) hand
  | events {p : Player ManualClock} {hand : List TimerNumber} (events : List Event) :
      Hosted first p hand → Hosted first { p with events } hand

variable {first p : Player ManualClock} {hand : List TimerNumber}

theorem Hosted.reachable (h : Hosted first p hand) : Reachable first p := by
  induction h with
  | start => exact .refl
  | obey control _ ih => exact .obey control ih
  | @deliver p hand timer _ _ ih => exact .obey (.deliver timer) ih
  | @jump p hand timer clock _ _ ih => exact .aside clock p.events ih
  | @moveOn p hand span _ ih => exact .aside (p.timers.moveOn span).2 p.events ih
  | @set p hand delay _ ih => exact .aside (p.timers.set delay).2 p.events ih
  | @cancel p hand id _ _ ih => exact .aside (p.timers.cancel id) p.events ih
  | @events p hand events _ ih => exact .aside p.timers events ih

theorem held_afterTaking (h : Held hand p.waiting) (control : Control) :
    Held hand (p.afterTaking control) := by
  unfold Player.afterTaking
  cases p.taken control with
  | none => exact h
  | some timer => exact nofun

/-- A timer is delivered from the hand: it was the pending one, or that is still where it was. -/
theorem held_deliver {timer : TimerNumber} (h : Held hand p.waiting) :
    Held (hand.erase timer) (p.obey (.deliver timer)).player.waiting := by
  refine (p.course (.deliver timer)).handles.held ?_
  by_cases hpending : p.pendingTimer = some timer
  · have htaken : p.taken (.deliver timer) = some timer := if_pos hpending
    rw [afterTaking_of_taken htaken]
    exact nofun
  · have htaken : p.taken (.deliver timer) = none := if_neg hpending
    rw [afterTaking_of_not_taken htaken]
    intro other hother
    refine (h other hother).imp_left fun hmem => ?_
    refine (List.mem_erase_of_ne fun heq => hpending ?_).2 hmem
    rw [← heq]
    exact hother

/-- **The pending timer is not lost.** -/
theorem Hosted.held (h : Hosted first p hand) (halarm : first.alarm = none) :
    Held hand p.waiting := by
  induction h with
  | start =>
    intro timer htimer
    rw [waiting, pendingTimer, halarm] at htimer
    cases htimer
  | @obey p hand control _ ih => exact (p.course control).handles.held (held_afterTaking ih control)
  | deliver _ _ ih => exact held_deliver ih
  | @jump p hand timer clock _ hjump ih =>
    intro other hother
    have hqueued := (ManualClock.queued_of_jump hjump).1
    rcases ih other hother with hmem | hmem
    · exact .inl (List.mem_cons_of_mem _ hmem)
    · have hmem : other ∈ p.timers.queued := hmem
      rw [hqueued] at hmem
      exact (List.mem_cons.1 hmem).imp_left fun heq => by simp [heq]
  | @moveOn p hand span _ ih =>
    intro other hother
    rcases ih other hother with hmem | hmem
    · exact .inl (List.mem_append_right _ hmem)
    · have hmem : other ∈ p.timers.queued := hmem
      rw [← p.timers.queued_moveOn span] at hmem
      exact (List.mem_append.1 hmem).imp_left fun hmem => List.mem_append_left _ hmem
  | set delay _ ih =>
    intro other hother
    exact (ih other hother).imp_right fun hmem => ManualClock.mem_queued_set.2 (.inr hmem)
  | @cancel p hand id _ hne ih =>
    intro other hother
    refine (ih other hother).imp_right fun hmem => ?_
    show other ∈ (p.timers.cancel id).queued
    rw [ManualClock.queued_cancel]
    refine List.mem_filter.2 ⟨hmem, ?_⟩
    have hother : p.pendingTimer = some other := hother
    simpa using fun heq : other = id => hne (heq ▸ hother)
  | events events _ ih => exact ih

/-- With no pending timer in its hand, a host has a player whose pending timer is in the queue. -/
theorem Hosted.ready (h : Hosted first p hand) (halarm : first.alarm = none)
    (hcoherent : Coherent first) (hrange : InRange first.place)
    (hhand : ∀ timer ∈ hand, p.pendingTimer ≠ some timer) : Ready p where
  coherent := (h.reachable.coherent hcoherent hrange).1
  inRange := (h.reachable.coherent hcoherent hrange).2
  queued timer htimer :=
    (h.held halarm timer htimer).resolve_left fun hmem => hhand timer hmem htimer

/-! ## The loop -/

/-- `Drives p k reply`: delivering the next timer of `p` as long as there is one and no error is
reported comes to `reply` with the `k`-th delivery. -/
inductive Drives : Player ManualClock → Nat → Reply ManualClock → Prop
  | finished {p : Player ManualClock} : p.deliverNext = none → Drives p 0 (.done p)
  | failed {p : Player ManualClock} {timer : TimerNumber} {reply : Reply ManualClock}
      {error : PlaybackError} : p.deliverNext = some (timer, reply) → reply.error = some error →
      Drives p 1 reply
  | delivered {p : Player ManualClock} {timer : TimerNumber} {k : Nat}
      {reply final : Reply ManualClock} : p.deliverNext = some (timer, reply) →
      reply.error = none → Drives reply.player k final → Drives p (k + 1) final

/-- The loop comes to one end only. -/
theorem Drives.unique {j k : Nat} {first second : Reply ManualClock} (h : Drives p j first)
    (h' : Drives p k second) : j = k ∧ first = second := by
  induction h generalizing k with
  | finished hnone =>
    cases h' with
    | finished _ => exact ⟨rfl, rfl⟩
    | failed hsome _ => cases hnone.symm.trans hsome
    | delivered hsome _ _ => cases hnone.symm.trans hsome
  | failed hsome herror =>
    cases h' with
    | finished hnone => cases hnone.symm.trans hsome
    | failed hsome' _ =>
      cases hsome.symm.trans hsome'
      exact ⟨rfl, rfl⟩
    | delivered hsome' hdone _ =>
      cases hsome.symm.trans hsome'
      cases herror.symm.trans hdone
  | delivered hsome hdone _ ih =>
    cases h' with
    | finished hnone => cases hnone.symm.trans hsome
    | failed hsome' herror =>
      cases hsome.symm.trans hsome'
      cases herror.symm.trans hdone
    | delivered hsome' _ hrest =>
      cases hsome.symm.trans hsome'
      obtain ⟨rfl, rfl⟩ := ih hrest
      exact ⟨rfl, rfl⟩

/-- With enough deliveries allowed the loop is played to its end. By induction on what is allowed:
a delivery that reports no error leaves less to deliver. -/
theorem drives_playFor (hp : Ready p) {n : Nat} (hn : p.deliveries ≤ n) :
    ∃ k ≤ p.deliveries, Drives p k (playFor n p) := by
  induction n generalizing p with
  | zero =>
    have hqueue : p.timers.queue = [] := List.length_eq_zero_iff.1
      (Nat.eq_zero_of_le_zero (Nat.le_trans (Nat.le_add_right _ _) hn))
    exact ⟨0, Nat.zero_le _, .finished ((deliverNext_eq_none_iff p).2 hqueue)⟩
  | succ n ih =>
    cases hnext : p.deliverNext with
    | none =>
      rw [playFor_of_none hnext]
      exact ⟨0, Nat.zero_le _, .finished hnext⟩
    | some delivered =>
      obtain ⟨timer, reply⟩ := delivered
      rw [playFor_of_some hnext]
      cases herror : reply.error with
      | some error =>
        rw [Reply.andThen_of_error herror]
        refine ⟨1, ?_, .failed hnext herror⟩
        have hqueue : p.timers.queue ≠ [] := fun hempty => by
          cases hnext.symm.trans ((deliverNext_eq_none_iff p).2 hempty)
        have hlength : 0 < p.timers.queue.length := List.length_pos_iff.2 hqueue
        exact Nat.le_trans hlength (Nat.le_add_right _ _)
      | none =>
        rw [Reply.andThen_of_done herror]
        obtain ⟨hready, hless, _⟩ := hp.deliverNext hnext herror
        obtain ⟨k, hk, hdrives⟩ := ih hready (by omega)
        exact ⟨k + 1, by omega, .delivered hnext herror hdrives⟩

/-! ## Where it ends -/

section

variable {σ : Type} {p : Player σ}

/-- A player that runs, or is about to announce an outcome, waits for something. -/
theorem Coherent.engaged (h : Coherent p) (hwaits : p.status = .running ∨ p.isEnding = true) :
    Engaged p := by
  refine .inl fun hnone => ?_
  rcases hwaits with hrunning | hending
  · obtain ⟨alarm, hsome⟩ := h.running hrunning
    cases hnone.symm.trans hsome
  · simp [isEnding, hnone] at hending

theorem Coherent.status_ne_running (h : Coherent p) (halarm : p.alarm = none) :
    p.status ≠ .running := fun hrunning => by
  obtain ⟨alarm, hsome⟩ := h.running hrunning
  cases halarm.symm.trans hsome

/-- A run that is over has an outcome, which has its status. -/
theorem Coherent.outcome_of_over (h : Coherent p) (hover : p.status.isOver = true) :
    ∃ outcome, p.outcome = some outcome ∧ outcome.status = p.status := by
  obtain ⟨outcome, houtcome⟩ := h.outcome_iff.2 (isOver_iff.1 hover)
  exact ⟨outcome, houtcome, (h.outcome_eq outcome houtcome).1⟩

end

/-- A player that was halted pauses, and waits for nothing. -/
def Still {σ : Type} (p : Player σ) : Prop := p.status = .paused ∧ p.alarm = none

section

variable {σ : Type} [TimerSource σ]

theorem still_halt (p : Player σ) (fault : StepFault) : Still (p.halt fault).player := by
  rw [halt_player]
  exact ⟨rfl, rfl⟩

theorem Played.still {q : Player σ} {auto : Bool} {reply : Reply σ} {error : PlaybackError}
    (h : Played q auto reply) (herror : reply.error = some error) : Still reply.player := by
  cases h with
  | faulted _ _ => exact still_halt q _
  | _ => cases herror

theorem Announced.still {q : Player σ} {ending : Ending} {reply : Reply σ} {error : PlaybackError}
    (h : Announced q ending reply) (herror : reply.error = some error) : Still reply.player := by
  cases h with
  | faulted _ => exact still_halt q _
  | _ => cases herror

/-- A delivery that reports an error halts the player. -/
theorem Course.still {q : Player σ} {timer : TimerNumber} {reply : Reply σ} {error : PlaybackError}
    (h : Course q (.deliver timer) reply) (herror : reply.error = some error) :
    Still reply.player := by
  cases h with
  | turned _ => exact (Player.played _ _).still herror
  | refused hstarts _ => cases hstarts
  | announced _ => exact (Player.announced _ _).still herror
  | dropped _ _ => cases herror
  | stale _ => cases herror

end

/-- **What driving comes to.** An error stops the player. Without one no timer is left and nothing
is pending, and a player that waited for something has come to an outcome. -/
theorem Drives.ends {k : Nat} {reply : Reply ManualClock} (h : Drives p k reply) (hp : Ready p) :
    Coherent reply.player ∧
    (reply.error = none → reply.player.timers.queue = [] ∧ reply.player.alarm = none ∧
      (Engaged p → reply.player.status.isOver = true)) ∧
    ∀ error, reply.error = some error → Still reply.player := by
  induction h with
  | @finished p hnone =>
    have hqueue := (deliverNext_eq_none_iff p).1 hnone
    have halarm := hp.alarm_eq_none hqueue
    exact ⟨hp.coherent, fun _ => ⟨hqueue, halarm, fun h => h.resolve_left fun hne => hne halarm⟩,
      nofun⟩
  | @failed p timer reply error hsome herror =>
    obtain ⟨clock, _, rfl⟩ := deliverNext_eq_some hsome
    have hcourse := (p.onClock clock).course_deliver timer
    have hclock : Coherent (p.onClock clock) := { hp.coherent with }
    refine ⟨hcourse.coherent hclock hp.inRange, fun hnone => ?_, fun error => hcourse.still⟩
    cases hnone.symm.trans herror
  | delivered hsome hdone _ ih =>
    obtain ⟨hready, _, hengaged⟩ := hp.deliverNext hsome hdone
    obtain ⟨hcoherent, hends, hstill⟩ := ih hready
    refine ⟨hcoherent, fun herror => ?_, hstill⟩
    obtain ⟨hqueue, halarm, hover⟩ := hends herror
    exact ⟨hqueue, halarm, fun h => hover (hengaged h)⟩

end Player

end PuzzlePlayback
