import PuzzlePlayback.Proofs.ClockQueue
import PuzzlePlayback.Proofs.Coherence

/-!
# Delivering until no timer is left

On a manual clock a run is played out by delivering its timers one after the other, and each
delivery may set a new one. It ends all the same. What a player has left to deliver is the timers
in the queue and those it will still set (`Player.deliveries`), and every delivery that reports
no error leaves less (`Ready.deliverNext`). At the end the queue is empty, so nothing is pending,
and a player that waited for something has come to an outcome (`playFor_ends`).

The timers of others in the queue are no obstacle. The one condition is `Queued`: the pending
timer is in the queue, as it is unless somebody took it off.
-/

namespace PuzzlePlayback

section

variable {σ : Type} {reply : Reply σ}

theorem Reply.andThen_of_done (h : reply.error = none) (next : Player σ → Reply σ) :
    reply.andThen next = next reply.player := by
  rw [andThen, h]

theorem Reply.andThen_of_error {error : PlaybackError} (h : reply.error = some error)
    (next : Player σ → Reply σ) : reply.andThen next = reply := by
  rw [andThen, h]

end

/-! ## The pending timer in the queue -/

/-- The pending timer is queued. -/
def Queued (w : Waiting ManualClock) : Prop :=
  ∀ timer, w.pending = some timer → timer ∈ w.timers.queued

theorem ManualClock.length_queued (clock : ManualClock) :
    clock.queued.length = clock.queue.length := List.length_map _

/-- Cancelling a queued timer shortens the queue. -/
theorem ManualClock.length_queue_cancel {clock : ManualClock} {timer : TimerNumber}
    (h : timer ∈ clock.queued) : (clock.cancel timer).queue.length < clock.queue.length := by
  rw [← length_queued, ← length_queued, queued_cancel]
  exact List.length_filter_lt_length_iff_exists.2 ⟨timer, h, by simp⟩

theorem ManualClock.length_queue_set (clock : ManualClock) (delay : Nat) :
    (clock.set delay).2.queue.length = clock.queue.length + 1 :=
  (enqueue_perm _ _).length_eq

theorem Handles.queued {a b : Waiting ManualClock} (hab : Handles a b) (ha : Queued a) :
    Queued b := by
  induction hab with
  | refl => exact ha
  | cancel _ _ => exact nofun
  | set delay _ _ =>
    intro timer htimer
    cases htimer
    exact ManualClock.mem_queued_set.2 (.inl rfl)

/-- Starting with nothing pending, playback lengthens the queue by the timer it ends up waiting
for, if any. -/
theorem Handles.length_queue_le {a b : Waiting ManualClock} (hab : Handles a b)
    (ha : a.pending = none) :
    b.timers.queue.length ≤ a.timers.queue.length + b.pending.toList.length := by
  have hqueued : Queued a := fun timer htimer => nomatch ha.symm.trans htimer
  induction hab with
  | refl => exact Nat.le_add_right _ _
  | @cancel timer timers hab ih =>
    have hlt := ManualClock.length_queue_cancel (hab.queued hqueued timer rfl)
    exact Nat.le_of_lt_succ (Nat.lt_of_lt_of_le hlt ih)
  | @set timers delay _ ih =>
    show (timers.set delay).2.queue.length ≤ a.timers.queue.length + 1
    rw [ManualClock.length_queue_set]
    exact Nat.succ_le_succ ih

namespace Player

/-! ## What is left to deliver -/

/-- The timers that a player will still set: one after each action to come, and one for the
announcement. -/
def timersAhead (p : Player ManualClock) : Nat :=
  match p.alarm with
  | some ⟨_, .advance⟩ => p.programSize - p.step + 1
  | _ => 0

/-- The timers left to deliver. -/
def deliveries (p : Player ManualClock) : Nat := p.timers.queue.length + p.timersAhead

theorem deliveries_le_deliveryBound (p : Player ManualClock) : p.deliveries ≤ p.deliveryBound := by
  unfold deliveries timersAhead deliveryBound
  split <;> omega

/-- A player waits for something, or its run is over. -/
def Engaged {σ : Type} (p : Player σ) : Prop := p.alarm ≠ none ∨ p.status.isOver = true

/-- The same player once its clock has changed. -/
def onClock (p : Player ManualClock) (clock : ManualClock) : Player ManualClock :=
  { p with timers := clock }

theorem Course.inRange {σ : Type} [TimerSource σ] {p : Player σ} {control : Control}
    {reply : Reply σ} (h : Course p control reply) (hp : InRange p.place) :
    InRange reply.player.place := by
  obtain ⟨between, hto, hon⟩ := h.moves
  exact (hp.move hto).move hon

/-- A player on a clock that holds its pending timer. -/
structure Ready (p : Player ManualClock) : Prop where
  coherent : Coherent p
  inRange : InRange p.place
  queued : Queued p.waiting

theorem queued_afterTaking {p : Player ManualClock} (h : Queued p.waiting) (control : Control) :
    Queued (p.afterTaking control) := by
  unfold Player.afterTaking
  cases p.taken control with
  | none => exact h
  | some timer => exact nofun

/-- Whatever the host asks for, the pending timer is in the queue afterwards. -/
theorem Ready.course {p : Player ManualClock} {control : Control} {reply : Reply ManualClock}
    (hp : Ready p) (hcourse : Course p control reply) : Ready reply.player where
  coherent := hcourse.coherent hp.coherent hp.inRange
  inRange := hcourse.inRange hp.inRange
  queued := hcourse.handles.queued (queued_afterTaking hp.queued control)

/-- Without an error, the next action makes a player wait, for fewer timers to come than there
were actions left. -/
theorem Played.timersAhead_le {q : Player ManualClock} {reply : Reply ManualClock}
    (h : Played q true reply) (herror : reply.error = none) :
    reply.player.alarm ≠ none ∧ reply.player.timersAhead ≤ q.programSize - q.step := by
  have announces (p : Player ManualClock) (ending : Ending) :
      (p.awaitAnnouncement ending).alarm ≠ none ∧
        (p.awaitAnnouncement ending).timersAhead ≤ q.programSize - q.step := by
    obtain ⟨timer, timers, hawait⟩ := p.awaitAnnouncement_eq ending
    rw [hawait]
    exact ⟨Option.some_ne_none _, Nat.zero_le _⟩
  cases h with
  | ended _ => exact announces _ _
  | faulted _ _ => cases herror
  | won _ _ _ => exact announces _ _
  | lost _ _ _ => exact announces _ _
  | last _ _ _ _ => exact announces _ _
  | @onward _ t _ _ _ hmore _ =>
    obtain ⟨timer, timers, hawait⟩ := (q.commit t.state).awaitAdvance_eq
    rw [Reply.done_player, hawait]
    refine ⟨Option.some_ne_none _, ?_⟩
    show q.programSize - (q.step + 1) + 1 ≤ q.programSize - q.step
    omega
  | held _ _ _ _ hauto => cases hauto

/-- Without an error, an announcement ends the run. -/
theorem Announced.over {σ : Type} [TimerSource σ] {p : Player σ} {ending : Ending}
    {reply : Reply σ} (h : Announced p ending reply) (herror : reply.error = none) :
    reply.player.status.isOver = true ∧ reply.player.alarm = p.alarm := by
  cases h with
  | faulted _ => cases herror
  | _ => exact ⟨rfl, rfl⟩

/-- Delivering the pending timer once it is off the queue sets at most one timer, and fewer are
to come. -/
theorem Ready.deliver_pending {p : Player ManualClock} {alarm : Alarm} {clock : ManualClock}
    {reply : Reply ManualClock} (hp : Ready p) (halarm : p.alarm = some alarm)
    (hcourse : Course (p.onClock clock) (.deliver alarm.timer) reply)
    (herror : reply.error = none) :
    Queued reply.player.waiting ∧ Engaged reply.player ∧
      reply.player.deliveries ≤ clock.queue.length + p.timersAhead := by
  have htaken : (p.onClock clock).taken (.deliver alarm.timer) = some alarm.timer :=
    taken_deliver_pending halarm
  have hhandles := hcourse.handles
  rw [afterTaking_of_taken htaken] at hhandles
  have hlength : reply.player.timers.queue.length ≤
      clock.queue.length + reply.player.pendingTimer.toList.length :=
    hhandles.length_queue_le rfl
  have hone : reply.player.pendingTimer.toList.length ≤ 1 := by
    cases reply.player.pendingTimer <;> simp
  have hahead : Engaged reply.player ∧
      reply.player.pendingTimer.toList.length + reply.player.timersAhead ≤ p.timersAhead := by
    cases hcourse with
    | turned turn =>
      cases turn with
      | due hdue _ =>
        have hadvance : p.alarm = some ⟨alarm.timer, .advance⟩ := hdue
        have hplayed := (Player.played _ true).timersAhead_le herror
        refine ⟨.inl hplayed.1, Nat.le_trans (Nat.add_le_add hone hplayed.2) ?_⟩
        rw [show p.timersAhead = p.programSize - p.step + 1 by rw [timersAhead, hadvance]]
        exact Nat.le_of_eq (Nat.add_comm _ _)
      | fresh hstarts _ => cases hstarts
    | announced hannounce =>
      have hannounced := (Player.announced _ _).over herror
      refine ⟨.inr hannounced.1, ?_⟩
      rw [pendingTimer, timersAhead, hannounced.2]
      exact Nat.zero_le _
    | dropped hdue hstopped => exact absurd (hp.coherent.advance _ hdue) hstopped
    | stale hstale =>
      exact absurd (congrArg (Option.map Alarm.timer) halarm : p.pendingTimer = _) hstale
    | refused hstarts _ => cases hstarts
  refine ⟨hhandles.queued fun timer htimer => ?_, hahead.1, ?_⟩
  · cases htimer
  · unfold deliveries
    omega

/-! ## One delivery -/

theorem deliverNext_eq_some {p : Player ManualClock} {timer : TimerNumber}
    {reply : Reply ManualClock} (h : p.deliverNext = some (timer, reply)) :
    ∃ clock, p.timers.jump = some (timer, clock) ∧ reply = (p.onClock clock).deliver timer := by
  obtain ⟨⟨popped, clock⟩, hjump, hreply⟩ := Option.map_eq_some_iff.1 h
  cases hreply
  exact ⟨clock, hjump, rfl⟩

/-- No timer is left exactly if the queue is empty. -/
theorem deliverNext_eq_none_iff (p : Player ManualClock) :
    p.deliverNext = none ↔ p.timers.queue = [] := by
  unfold deliverNext ManualClock.jump
  cases p.timers.queue <;> simp

/-- A delivery that reports no error leaves less to deliver. -/
theorem Ready.deliverNext {p : Player ManualClock} {timer : TimerNumber}
    {reply : Reply ManualClock} (hp : Ready p) (hnext : p.deliverNext = some (timer, reply))
    (herror : reply.error = none) :
    Ready reply.player ∧ reply.player.deliveries < p.deliveries ∧
      (Engaged p → Engaged reply.player) := by
  obtain ⟨clock, hjump, rfl⟩ := deliverNext_eq_some hnext
  have hqueued := (ManualClock.queued_of_jump hjump).1
  have hlength : p.timers.queue.length = clock.queue.length + 1 := by
    rw [← ManualClock.length_queued, hqueued, List.length_cons, ManualClock.length_queued]
  have hq : Coherent (p.onClock clock) := { hp.coherent with }
  have hcourse := (p.onClock clock).course_deliver timer
  by_cases hpending : p.pendingTimer = some timer
  · obtain ⟨alarm, halarm, rfl⟩ := Option.map_eq_some_iff.1 hpending
    obtain ⟨hwaiting, hengaged, hless⟩ := hp.deliver_pending halarm hcourse herror
    refine ⟨⟨hcourse.coherent hq hp.inRange, hcourse.inRange hp.inRange, hwaiting⟩, ?_,
      fun _ => hengaged⟩
    rw [deliveries.eq_def p]
    omega
  -- Somebody else's timer changes nothing but the queue, and the pending one is still behind it.
  · rw [deliver_stale (p := p.onClock clock) hpending]
    refine ⟨⟨hq, hp.inRange, fun timer htimer => ?_⟩, ?_, fun h => h⟩
    · have hmem : timer ∈ p.timers.queued := hp.queued timer htimer
      rw [hqueued] at hmem
      refine (List.mem_cons.1 hmem).resolve_left fun heq => ?_
      exact hpending (heq ▸ htimer)
    · show clock.queue.length + p.timersAhead < p.timers.queue.length + p.timersAhead
      omega

/-! ## All deliveries -/

theorem playFor_of_none {p : Player ManualClock} (h : p.deliverNext = none) (n : Nat) :
    playFor n p = .done p := by
  cases n with
  | zero => rfl
  | succ n => rw [playFor, h]

theorem playFor_of_some {p : Player ManualClock} {timer : TimerNumber}
    {reply : Reply ManualClock} (h : p.deliverNext = some (timer, reply)) (n : Nat) :
    playFor (n + 1) p = reply.andThen (playFor n) := by
  rw [playFor, h]

/-- Deliveries until none is left lead to a player, or to a delivery that fails. What survives a
delivery on a changed clock holds there. -/
theorem playFor_cases {I : Player ManualClock → Prop} {p : Player ManualClock} (hp : I p)
    (hclock : ∀ {p : Player ManualClock} (clock : ManualClock), I p → I (p.onClock clock))
    (hdeliver : ∀ {p : Player ManualClock} (timer : TimerNumber),
      I p → I (p.obey (.deliver timer)).player) (n : Nat) :
    (∃ q, I q ∧ playFor n p = .done q) ∨
      ∃ q timer, I q ∧ playFor n p = q.obey (.deliver timer) := by
  induction n generalizing p with
  | zero => exact .inl ⟨p, hp, rfl⟩
  | succ n ih =>
    cases hnext : p.deliverNext with
    | none => exact .inl ⟨p, hp, playFor_of_none hnext _⟩
    | some delivered =>
      obtain ⟨timer, reply⟩ := delivered
      obtain ⟨clock, -, rfl⟩ := deliverNext_eq_some hnext
      have hq : I (p.onClock clock) := hclock clock hp
      rw [playFor_of_some hnext]
      cases hreply : ((p.onClock clock).deliver timer).error with
      | some error => exact .inr ⟨_, timer, hq, Reply.andThen_of_error hreply _⟩
      | none =>
        rw [Reply.andThen_of_done hreply]
        exact ih (hdeliver timer hq)

/-- A player with an empty queue waits for nothing. -/
theorem Ready.alarm_eq_none {p : Player ManualClock} (hp : Ready p) (hqueue : p.timers.queue = []) :
    p.alarm = none := by
  cases halarm : p.alarm with
  | none => rfl
  | some alarm =>
    have hmem := hp.queued alarm.timer (congrArg (Option.map Alarm.timer) halarm)
    replace hmem : alarm.timer ∈ p.timers.queued := hmem
    rw [ManualClock.queued, hqueue] at hmem
    cases hmem

/-- **Playing out ends.** With enough deliveries allowed no timer is left and nothing is pending,
unless one of them reports an error; and a player that waited for something has an outcome. -/
theorem playFor_ends {p : Player ManualClock} (hp : Ready p) {n : Nat} (hn : p.deliveries ≤ n)
    (herror : (playFor n p).error = none) :
    (playFor n p).player.timers.queue = [] ∧ (playFor n p).player.alarm = none ∧
      (Engaged p → (playFor n p).player.status.isOver = true) := by
  have hdone (p : Player ManualClock) (hp : Ready p) (hqueue : p.timers.queue = []) :
      p.timers.queue = [] ∧ p.alarm = none ∧ (Engaged p → p.status.isOver = true) :=
    ⟨hqueue, hp.alarm_eq_none hqueue, fun h => h.resolve_left fun hne =>
      hne (hp.alarm_eq_none hqueue)⟩
  induction n generalizing p with
  | zero =>
    refine hdone p hp (List.length_eq_zero_iff.1 ?_)
    exact Nat.eq_zero_of_le_zero (Nat.le_trans (Nat.le_add_right _ _) hn)
  | succ n ih =>
    cases hnext : p.deliverNext with
    | none =>
      rw [playFor_of_none hnext]
      exact hdone p hp ((deliverNext_eq_none_iff p).1 hnext)
    | some delivered =>
      obtain ⟨timer, reply⟩ := delivered
      rw [playFor_of_some hnext] at herror ⊢
      cases hreply : reply.error with
      | some error =>
        rw [Reply.andThen_of_error hreply] at herror
        exact nomatch hreply.symm.trans herror
      | none =>
        obtain ⟨hready, hless, hengaged⟩ := hp.deliverNext hnext hreply
        rw [Reply.andThen_of_done hreply] at herror ⊢
        obtain ⟨hqueue, halarm, hover⟩ := ih hready (by omega) herror
        exact ⟨hqueue, halarm, fun h => hover (hengaged h)⟩

end Player

end PuzzlePlayback
