import PuzzlePlayback.Proofs.TimerBook

/-!
# Timers on a clock

A clock hands out the timers that are due, and the host delivers them. The hand is what the clock
handed out and the host has not delivered yet; `ClockRun` is what the host can do. `Clocked` says
that hand and queue hold the pending timer once, and no other timer of the player.

The pending timer must not be delivered while it is still queued: it would stay there
(`queued_ne_pending`).

Main result: `ClockRun.ownQueued_eq`.
-/

namespace PuzzlePlayback

namespace ManualClock

/-! ## The queue of a clock -/

/-- The timers in the queue, the next one first. -/
def queued (clock : ManualClock) : List TimerNumber := clock.queue.map (·.id)

theorem enqueue_perm (timer : Timer) (queue : List Timer) :
    (enqueue timer queue).Perm (timer :: queue) := by
  induction queue with
  | nil => exact .refl _
  | cons next rest ih =>
    unfold enqueue
    split
    · exact .refl _
    · exact (ih.cons next).trans (.swap timer next rest)

theorem count_queued_set (clock : ManualClock) (delay : Nat) (id : TimerNumber) :
    (clock.set delay).2.queued.count id =
      [clock.lastId + 1].count id + clock.queued.count id := by
  have hperm := (enqueue_perm ⟨clock.now + delay, clock.lastId + 1⟩ clock.queue).map Timer.id
  rw [← List.count_append]
  exact hperm.count_eq id

theorem mem_queued_set {clock : ManualClock} {delay : Nat} {id : TimerNumber} :
    id ∈ (clock.set delay).2.queued ↔ id = clock.lastId + 1 ∨ id ∈ clock.queued := by
  have hperm := (enqueue_perm ⟨clock.now + delay, clock.lastId + 1⟩ clock.queue).map Timer.id
  exact hperm.mem_iff.trans List.mem_cons

theorem queued_cancel (clock : ManualClock) (timer : TimerNumber) :
    (clock.cancel timer).queued = clock.queued.filter (· != timer) :=
  (List.filter_map (p := (· != timer)) (f := Timer.id)).symm

theorem count_queued_cancel (clock : ManualClock) (timer id : TimerNumber) :
    (clock.cancel timer).queued.count id =
      if id = timer then 0 else clock.queued.count id := by
  rw [queued_cancel]
  split
  · next heq => simp [List.count_eq_zero, heq]
  · next hne => exact List.count_filter (by simpa using hne)

theorem queued_of_jump {clock after : ManualClock} {timer : TimerNumber}
    (h : clock.jump = some (timer, after)) :
    clock.queued = timer :: after.queued ∧ after.lastId = clock.lastId := by
  unfold jump at h
  cases hqueue : clock.queue with
  | nil =>
    rw [hqueue] at h
    cases h
  | cons next rest =>
    rw [hqueue] at h
    cases h
    exact ⟨by rw [queued, hqueue]; rfl, rfl⟩

theorem queued_moveOn (clock : ManualClock) (span : Nat) :
    (clock.moveOn span).1 ++ (clock.moveOn span).2.queued = clock.queued := by
  show (clock.queue.takeWhile _).map _ ++ (clock.queue.dropWhile _).map _ = _
  rw [← List.map_append, List.takeWhile_append_dropWhile]
  rfl

end ManualClock

namespace Session

/-! ## Timers on a clock -/

/-- The timers in the queue of the clock that are the player's. -/
def ownQueued (s : Session ManualClock) : List TimerNumber :=
  s.timers.queued.filter fun id => id ∈ s.given

/-- `ClockRun first s hand`: with a new player `first` a host can come to the session `s` and
have the timers `hand` to deliver. It may take timers off the clock, by jumps and by moving it
on, set timers of its own, cancel any timer but the pending one, and deliver what it likes, only
not the pending timer while that is queued. It asks for an operation when its hand is empty. -/
inductive ClockRun (first : Player ManualClock) :
    Session ManualClock → List TimerNumber → Prop
  | start : ClockRun first (.start first) []
  | obey {s : Session ManualClock} (control : Control) : ClockRun first s [] →
      (∀ timer, control = .deliver timer → s.pending ≠ some timer) →
      ClockRun first (s.obey control) []
  | deliver {s : Session ManualClock} {hand : List TimerNumber} {timer : TimerNumber} :
      ClockRun first s hand → timer ∈ hand →
      ClockRun first (s.obey (.deliver timer)) (hand.erase timer)
  | stale {s : Session ManualClock} {hand : List TimerNumber} (timer : TimerNumber) :
      ClockRun first s hand → s.pending ≠ some timer →
      ClockRun first (s.obey (.deliver timer)) hand
  | jump {s : Session ManualClock} {hand : List TimerNumber} {timer : TimerNumber}
      {clock : ManualClock} : ClockRun first s hand → s.timers.jump = some (timer, clock) →
      ClockRun first (s.withTimers clock) (hand ++ [timer])
  | moveOn {s : Session ManualClock} {hand : List TimerNumber} (span : Nat) :
      ClockRun first s hand →
      ClockRun first (s.withTimers (s.timers.moveOn span).2) (hand ++ (s.timers.moveOn span).1)
  | set {s : Session ManualClock} {hand : List TimerNumber} (delay : Nat) :
      ClockRun first s hand → ClockRun first (s.withTimers (s.timers.set delay).2) hand
  | cancel {s : Session ManualClock} {hand : List TimerNumber} (id : TimerNumber) :
      ClockRun first s hand → s.pending ≠ some id →
      ClockRun first (s.withTimers (s.timers.cancel id)) hand
  | events {s : Session ManualClock} {hand : List TimerNumber} (events : List Event) :
      ClockRun first s hand → ClockRun first (s.withEvents events) hand

end Session

/-! ## What the clock holds -/

/-- Hand and queue hold the pending timer once and no other timer of the player, and nothing that
was not set. -/
structure Clocked (w : Waiting (Booked ManualClock)) (hand : List TimerNumber) : Prop where
  held : ∀ id ∈ w.timers.given,
    hand.count id + w.timers.timers.queued.count id = w.pending.toList.count id
  issued : ∀ id ∈ hand ++ w.timers.timers.queued, id ≤ w.timers.timers.lastId

namespace Clocked

variable {booked : Booked ManualClock} {hand : List TimerNumber}

/-- Setting a timer leaves no number above the counter. -/
theorem issued_set {clock : ManualClock} (h : ∀ id ∈ hand ++ clock.queued, id ≤ clock.lastId)
    (delay : Nat) : ∀ id ∈ hand ++ (clock.set delay).2.queued, id ≤ clock.lastId + 1 := by
  intro id hid
  rcases List.mem_append.1 hid with hid | hid
  · exact Nat.le_succ_of_le (h id (List.mem_append_left _ hid))
  · rcases ManualClock.mem_queued_set.1 hid with rfl | hid
    · exact Nat.le_refl _
    · exact Nat.le_succ_of_le (h id (List.mem_append_right _ hid))

theorem issued_cancel {clock : ManualClock} (h : ∀ id ∈ hand ++ clock.queued, id ≤ clock.lastId)
    (timer : TimerNumber) : ∀ id ∈ hand ++ (clock.cancel timer).queued, id ≤ clock.lastId := by
  intro id hid
  rw [ManualClock.queued_cancel] at hid
  refine h id (List.mem_append.2 ?_)
  exact (List.mem_append.1 hid).imp_right fun hid => (List.mem_filter.1 hid).1

/-- The next number is nowhere yet. -/
theorem next_not_mem {w : Waiting (Booked ManualClock)} (h : Clocked w hand) :
    w.timers.timers.lastId + 1 ∉ hand ++ w.timers.timers.queued :=
  fun hmem => Nat.not_succ_le_self _ (h.issued _ hmem)

theorem cancelled {timer : TimerNumber} (h : Clocked ⟨some timer, booked⟩ hand)
    (hhand : ∀ id ∈ booked.given, id ∉ hand) :
    Clocked ⟨none, TimerSource.cancel booked timer⟩ hand where
  held id hid := by
    have hheld : hand.count id + booked.timers.queued.count id = [timer].count id :=
      h.held id hid
    show hand.count id + (booked.timers.cancel timer).queued.count id = 0
    rw [ManualClock.count_queued_cancel]
    split
    · exact List.count_eq_zero.2 (hhand id hid)
    · next hne => rw [hheld, List.count_eq_zero.2 (by simpa using hne)]
  issued := issued_cancel h.issued timer

theorem given {delay : Nat} (h : Clocked ⟨none, booked⟩ hand) :
    Clocked ⟨some (TimerSource.set booked delay).1, (TimerSource.set booked delay).2⟩ hand where
  held id hid := by
    show hand.count id + (booked.timers.set delay).2.queued.count id =
      [booked.timers.lastId + 1].count id
    rw [ManualClock.count_queued_set]
    have hnone : hand.count id + booked.timers.queued.count id = 0 := by
      rcases List.mem_append.1 hid with hid | hid
      · exact h.held id hid
      · rw [← List.count_append, List.mem_singleton.1 hid]
        exact List.count_eq_zero.2 h.next_not_mem
    omega
  issued := issued_set h.issued delay

/-- What playback does to its timers while the hand has none of them. -/
theorem handles {a b : Waiting (Booked ManualClock)} (h : Clocked a hand)
    (hhand : ∀ id ∈ a.timers.given, id ∉ hand) (hab : Handles a b) :
    Clocked b hand ∧ ∀ id ∈ b.timers.given, id ∉ hand := by
  induction hab with
  | refl => exact ⟨h, hhand⟩
  | cancel _ ih => exact ⟨ih.1.cancelled ih.2, ih.2⟩
  | set delay _ ih =>
    refine ⟨ih.1.given, fun id hid hmem => ?_⟩
    rcases List.mem_append.1 hid with hid | hid
    · exact ih.2 id hid hmem
    · rw [List.mem_singleton.1 hid] at hmem
      exact ih.1.next_not_mem (List.mem_append_left _ hmem)

end Clocked

namespace Session

variable {first : Player ManualClock} {s : Session ManualClock} {hand : List TimerNumber}

theorem ClockRun.later (h : ClockRun first s hand) : Later (.start first) s := by
  induction h with
  | start => exact .refl
  | obey control _ _ ih => exact ih.obey control
  | deliver _ _ ih => exact ih.obey _
  | stale timer _ _ ih => exact ih.obey _
  | jump _ hjump ih =>
    exact ih.timers _ (Nat.le_of_eq (ManualClock.queued_of_jump hjump).2.symm)
  | moveOn span _ ih => exact ih.timers _ (Nat.le_refl _)
  | set delay _ ih => exact ih.timers _ (Nat.le_succ _)
  | cancel id _ _ ih => exact ih.timers _ (Nat.le_refl _)
  | events events _ ih => exact ih.events events

/-- A delivery that is ignored leaves the session alone. -/
theorem obey_stale {timer : TimerNumber} (h : s.pending ≠ some timer) :
    s.obey (.deliver timer) = s := by
  have htaken : s.player.taken (.deliver timer) = none := if_neg h
  unfold obey
  rw [htaken, Player.obey, Player.deliver_stale h, Option.toList, List.append_nil]
  rfl

theorem count_hand {timer : TimerNumber} (h : timer ∈ hand) (id : TimerNumber) :
    hand.count id = [timer].count id + (hand.erase timer).count id := by
  rw [← List.count_append]
  exact (List.perm_cons_erase h).count_eq id

/-- The pending timer is delivered from the hand. -/
theorem clocked_deliver {timer : TimerNumber} (h : Clocked s.player.waiting hand)
    (hhand : timer ∈ hand) (hpending : s.pending = some timer) :
    Clocked (s.obey (.deliver timer)).player.waiting (hand.erase timer) := by
  -- Once the pending timer is out of the hand, neither hand nor queue has a timer of the player.
  have hgone : ∀ id ∈ s.given,
      (hand.erase timer).count id + s.timers.queued.count id = 0 := by
    intro id hid
    have hheld := h.held id hid
    rw [show s.player.waiting.pending = some timer from hpending] at hheld
    have hheld : hand.count id + s.timers.queued.count id = [timer].count id := hheld
    have hcount := count_hand hhand id
    omega
  have hclocked : Clocked ⟨none, s.player.timers⟩ (hand.erase timer) := by
    refine ⟨hgone, fun id hid => h.issued id (List.mem_append.2 ?_)⟩
    exact (List.mem_append.1 hid).imp_left List.mem_of_mem_erase
  have htaken : s.player.taken (.deliver timer) = some timer := if_pos hpending
  have hcourse := (s.player.course (.deliver timer)).handles
  rw [Player.afterTaking_of_taken htaken] at hcourse
  refine (hclocked.handles ?_ hcourse).1
  intro id hid
  have hzero := hgone id hid
  exact List.count_eq_zero.1 (by omega)

/-- A timer of somebody else is delivered from the hand. -/
theorem clocked_deliver_other {timer : TimerNumber} (h : Clocked s.player.waiting hand)
    (hhand : timer ∈ hand) (hpending : s.pending ≠ some timer) :
    Clocked s.player.waiting (hand.erase timer) where
  held id hid := by
    have hheld := h.held id hid
    have hcount := count_hand hhand id
    by_cases heq : id = timer
    · subst heq
      have hnone := Waiting.count_pending (w := s.player.waiting) hpending
      omega
    · rwa [List.count_erase_of_ne heq]
  issued id hid := by
    refine h.issued id (List.mem_append.2 ?_)
    exact (List.mem_append.1 hid).imp_left List.mem_of_mem_erase

/-- The clock hands out the first timers of its queue. -/
theorem clocked_handed (h : Clocked s.player.waiting hand) {clock : ManualClock}
    {out : List TimerNumber} (hqueued : out ++ clock.queued = s.timers.queued)
    (hlast : clock.lastId = s.timers.lastId) :
    Clocked (s.withTimers clock).player.waiting (hand ++ out) where
  held id hid := by
    show (hand ++ out).count id + clock.queued.count id = _
    rw [List.count_append, Nat.add_assoc, ← List.count_append, hqueued]
    exact h.held id hid
  issued id hid := by
    replace hid : id ∈ hand ++ out ++ clock.queued := hid
    rw [List.append_assoc, hqueued] at hid
    show id ≤ clock.lastId
    rw [hlast]
    exact h.issued id hid

theorem ClockRun.clocked (h : ClockRun first s hand) (halarm : first.alarm = none)
    (htimers : first.timers = .atZero) : Clocked s.player.waiting hand := by
  have hbalanced := fun {t hand} (h : ClockRun first t hand) =>
    h.later.balanced (balanced_start halarm)
  induction h with
  | start =>
    refine ⟨nofun, fun id hid => ?_⟩
    replace hid : id ∈ first.timers.queued := hid
    rw [htimers] at hid
    cases hid
  | @obey s control _ hfree ih =>
    have htaken : s.player.taken control = none := by
      cases htaken : s.player.taken control with
      | none => rfl
      | some timer =>
        -- The pending timer is queued while the hand is empty, so it is not delivered.
        have hpending := Player.pendingTimer_of_taken htaken
        exact absurd hpending (hfree timer (Player.control_of_taken htaken))
    have hcourse := (s.player.course control).handles
    rw [Player.afterTaking_of_not_taken htaken] at hcourse
    exact (ih.handles (fun _ _ => List.not_mem_nil) hcourse).1
  | @deliver s hand timer _ hmem ih =>
    by_cases hpending : s.pending = some timer
    · exact clocked_deliver ih hmem hpending
    · rw [obey_stale hpending]
      exact clocked_deliver_other ih hmem hpending
  | stale timer _ hne ih => rwa [obey_stale hne]
  | @jump s hand timer clock _ hjump ih =>
    obtain ⟨hqueued, hlast⟩ := ManualClock.queued_of_jump hjump
    have hfirst : [timer] ++ clock.queued = s.timers.queued := hqueued.symm
    exact clocked_handed ih hfirst hlast
  | @moveOn s hand span _ ih => exact clocked_handed ih (s.timers.queued_moveOn span) rfl
  | @set s hand delay hrun ih =>
    refine ⟨fun id hid => ?_, Clocked.issued_set ih.issued delay⟩
    -- The number is new, so the timer is not one that the player was given.
    have hnew : [s.timers.lastId + 1].count id = 0 := by
      refine List.count_eq_zero.2 fun hmem => ?_
      have hle : id ≤ s.timers.lastId := (hbalanced hrun).issued id hid
      rw [List.mem_singleton.1 hmem] at hle
      exact Nat.not_succ_le_self _ hle
    show hand.count id + (s.timers.set delay).2.queued.count id = _
    rw [ManualClock.count_queued_set, hnew, Nat.zero_add]
    exact ih.held id hid
  | @cancel s hand timer hrun hne ih =>
    refine ⟨fun id hid => ?_, Clocked.issued_cancel ih.issued timer⟩
    have hheld := ih.held id hid
    show hand.count id + (s.timers.cancel timer).queued.count id =
      s.player.waiting.pending.toList.count id
    rw [ManualClock.count_queued_cancel]
    split
    · next heq =>
      have hnone := Waiting.count_pending (w := s.player.waiting) (heq ▸ hne)
      omega
    · exact hheld
  | events events _ ih => exact ih

/-- With empty hands the player's timers in the queue are the pending one. -/
theorem ClockRun.ownQueued_eq (h : ClockRun first s []) (halarm : first.alarm = none)
    (htimers : first.timers = .atZero) : s.ownQueued = s.pending.toList := by
  have hclocked := h.clocked halarm htimers
  have hbalanced := h.later.balanced (balanced_start halarm)
  have hperm : s.ownQueued.Perm s.pending.toList := by
    refine List.perm_iff_count.2 fun id => ?_
    by_cases hid : id ∈ s.given
    · have hheld := hclocked.held id hid
      rw [List.count_nil, Nat.zero_add] at hheld
      rw [ownQueued, List.count_filter (by simpa using hid)]
      exact hheld
    · have hpending : id ∉ s.pending.toList := fun hmem =>
        hid (hbalanced.of_pending (Option.mem_toList.1 hmem)).1
      rw [List.count_eq_zero.2 hpending, List.count_eq_zero]
      exact fun hmem => hid (by simpa using (List.mem_filter.1 hmem).2)
  cases hpending : s.pending with
  | none =>
    rw [hpending] at hperm
    exact List.perm_nil.1 hperm
  | some timer =>
    rw [hpending] at hperm
    exact List.perm_singleton.1 hperm

/-- A timer that is delivered ahead of its time is taken, and stays in the queue. -/
theorem queued_ne_pending : ¬ ∀ controls : List Control,
    (controls.foldl obey (start (novice ManualClock.atZero))).ownQueued =
      (controls.foldl obey (start (novice ManualClock.atZero))).pending.toList := by
  intro h
  exact absurd (h [.play, .deliver 1]) (by decide)

end Session

end PuzzlePlayback
