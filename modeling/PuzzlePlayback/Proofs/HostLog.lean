import PuzzlePlayback.Proofs.TimerBook

/-!
# Timers kept by the host

A host that keeps the timers itself learns of them by requests. The log is the requests that it
took and those in the queue (`RequestQueue.log`), and `HostRun` is what it can do. `Logged` ties
the log to the book of the timers.

Main result: `HostRun.live_iff`.
-/

namespace PuzzlePlayback

namespace RequestQueue

/-! ## The log of a host -/

/-- The requests that the host took, and then those in the queue. -/
def log (queue : RequestQueue) (taken : List HostRequest) : List HostRequest :=
  taken ++ queue.requests

/-- The log asks for the timer. -/
def Asks (log : List HostRequest) (timer : TimerNumber) : Prop := ∃ delay, .set timer delay ∈ log

variable {queue : RequestQueue} {taken : List HostRequest} {timer id : TimerNumber} {delay : Nat}

theorem asks_set : Asks ((queue.set delay).2.log taken) id ↔
    Asks (queue.log taken) id ∨ id = queue.lastId + 1 := by
  simp [Asks, log, set, exists_or, or_assoc]

theorem asks_cancel : Asks ((queue.cancel timer).log taken) id ↔ Asks (queue.log taken) id := by
  simp [Asks, log, cancel]

theorem cancel_mem_log_set :
    .cancel id ∈ (queue.set delay).2.log taken ↔ .cancel id ∈ queue.log taken := by
  simp [log, set]

theorem cancel_mem_log_cancel : .cancel id ∈ (queue.cancel timer).log taken ↔
    .cancel id ∈ queue.log taken ∨ id = timer := by
  simp [log, cancel, or_assoc]

/-- What the host takes stays in the log. -/
theorem log_handOver (queue : RequestQueue) (taken : List HostRequest) :
    queue.handOver.2.log (taken ++ queue.handOver.1) = queue.log taken := by
  simp [log, handOver]

end RequestQueue

namespace Session

/-! ## Timers kept by the host -/

/-- `HostRun first s taken`: with a new player `first` a host can come to the session `s` and have
taken the requests `taken`. It may set timers of its own, and cancel any timer but the pending
one. -/
inductive HostRun (first : Player RequestQueue) :
    Session RequestQueue → List HostRequest → Prop
  | start : HostRun first (.start first) []
  | obey {s : Session RequestQueue} {taken : List HostRequest} (control : Control) :
      HostRun first s taken → HostRun first (s.obey control) taken
  | handOver {s : Session RequestQueue} {taken : List HostRequest} : HostRun first s taken →
      HostRun first (s.withTimers s.timers.handOver.2) (taken ++ s.timers.handOver.1)
  | set {s : Session RequestQueue} {taken : List HostRequest} (delay : Nat) :
      HostRun first s taken → HostRun first (s.withTimers (s.timers.set delay).2) taken
  | cancel {s : Session RequestQueue} {taken : List HostRequest} (id : TimerNumber) :
      HostRun first s taken → id ≤ s.timers.lastId → s.pending ≠ some id →
      HostRun first (s.withTimers (s.timers.cancel id)) taken
  | events {s : Session RequestQueue} {taken : List HostRequest} (events : List Event) :
      HostRun first s taken → HostRun first (s.withEvents events) taken

end Session

/-! ## What the log says of the book -/

/-- Every timer given was asked for, every timer cancelled was asked to be cancelled, and no such
request is about the pending timer or one to come. -/
structure Logged (w : Waiting (Booked RequestQueue)) (taken : List HostRequest) : Prop where
  asked : ∀ id ∈ w.timers.given, RequestQueue.Asks (w.timers.timers.log taken) id
  cancel : ∀ id ∈ w.timers.cancelled, .cancel id ∈ w.timers.timers.log taken
  pending : ∀ id, .cancel id ∈ w.timers.timers.log taken →
    id ≤ w.timers.timers.lastId ∧ w.pending ≠ some id

namespace Logged

variable {booked : Booked RequestQueue} {taken : List HostRequest}

theorem cancelled {timer : TimerNumber} (h : Logged ⟨some timer, booked⟩ taken)
    (hissued : timer ≤ booked.timers.lastId) :
    Logged ⟨none, TimerSource.cancel booked timer⟩ taken where
  asked id hid := RequestQueue.asks_cancel.2 (h.asked id hid)
  cancel id hid := by
    refine RequestQueue.cancel_mem_log_cancel.2 ?_
    exact (List.mem_append.1 hid).imp (h.cancel id) List.mem_singleton.1
  pending id hid := by
    refine ⟨?_, nofun⟩
    rcases RequestQueue.cancel_mem_log_cancel.1 hid with hid | rfl
    · exact (h.pending id hid).1
    · exact hissued

theorem given {delay : Nat} (h : Logged ⟨none, booked⟩ taken) :
    Logged ⟨some (TimerSource.set booked delay).1, (TimerSource.set booked delay).2⟩ taken where
  asked id hid := by
    refine RequestQueue.asks_set.2 ?_
    exact (List.mem_append.1 hid).imp (h.asked id) List.mem_singleton.1
  cancel id hid := RequestQueue.cancel_mem_log_set.2 (h.cancel id hid)
  pending id hid := by
    have hle := (h.pending id (RequestQueue.cancel_mem_log_set.1 hid)).1
    refine ⟨Nat.le_succ_of_le hle, fun hnew => ?_⟩
    have hid : booked.timers.lastId + 1 = id := Option.some.inj hnew
    rw [← hid] at hle
    exact Nat.not_succ_le_self _ hle

theorem handles {a b : Waiting (Booked RequestQueue)} {delivered : List TimerNumber}
    (h : Logged a taken) (ha : Balanced a delivered) (hab : Handles a b) : Logged b taken := by
  induction hab with
  | refl => exact h
  | cancel hab ih =>
    have hbalanced := ha.handles hab
    exact ih.cancelled (hbalanced.issued _ (hbalanced.of_pending rfl).1)
  | set delay _ ih => exact ih.given

theorem afterTaking {p : Player (Booked RequestQueue)} (h : Logged p.waiting taken)
    (control : Control) : Logged (p.afterTaking control) taken := by
  unfold Player.afterTaking
  cases p.taken control with
  | none => exact h
  | some timer => exact ⟨h.asked, h.cancel, fun id hid => ⟨(h.pending id hid).1, nofun⟩⟩

end Logged

namespace Session

variable {first : Player RequestQueue} {s : Session RequestQueue} {taken : List HostRequest}

theorem HostRun.later (h : HostRun first s taken) : Later (.start first) s := by
  induction h with
  | start => exact .refl
  | obey control _ ih => exact ih.obey control
  | handOver _ ih => exact ih.timers _ (Nat.le_refl _)
  | set delay _ ih => exact ih.timers _ (Nat.le_succ _)
  | cancel id _ _ _ ih => exact ih.timers _ (Nat.le_refl _)
  | events events _ ih => exact ih.events events

theorem HostRun.logged (h : HostRun first s taken) (halarm : first.alarm = none)
    (htimers : first.timers = .empty) : Logged s.player.waiting taken := by
  have hbalanced := fun {t taken} (h : HostRun first t taken) =>
    h.later.balanced (balanced_start halarm)
  induction h with
  | start =>
    refine ⟨nofun, nofun, fun id hid => ?_⟩
    replace hid : _ ∈ first.timers.log [] := hid
    rw [htimers] at hid
    cases hid
  | obey control hrun ih =>
    exact (ih.afterTaking control).handles ((hbalanced hrun).afterTaking control)
      (Player.course _ control).handles
  | @handOver s taken _ ih =>
    have hlog := s.timers.log_handOver taken
    exact ⟨fun id hid => hlog ▸ ih.asked id hid, fun id hid => hlog ▸ ih.cancel id hid,
      fun id hid => ih.pending id (hlog ▸ hid)⟩
  | set delay _ ih =>
    refine ⟨fun id hid => ?_, fun id hid => ?_, fun id hid => ?_⟩
    · exact RequestQueue.asks_set.2 (.inl (ih.asked id hid))
    · exact RequestQueue.cancel_mem_log_set.2 (ih.cancel id hid)
    · obtain ⟨hle, hne⟩ := ih.pending id (RequestQueue.cancel_mem_log_set.1 hid)
      exact ⟨Nat.le_succ_of_le hle, hne⟩
  | cancel timer _ hle hne ih =>
    refine ⟨fun id hid => ?_, fun id hid => ?_, fun id hid => ?_⟩
    · exact RequestQueue.asks_cancel.2 (ih.asked id hid)
    · exact RequestQueue.cancel_mem_log_cancel.2 (.inl (ih.cancel id hid))
    · rcases RequestQueue.cancel_mem_log_cancel.1 hid with hid | rfl
      · exact ih.pending id hid
      · exact ⟨hle, hne⟩
  | events events _ ih => exact ih

/-- In the log of the host the player's timers that are neither cancelled nor taken are the
pending one. -/
theorem HostRun.live_iff (h : HostRun first s taken) (halarm : first.alarm = none)
    (htimers : first.timers = .empty) (id : TimerNumber) :
    (RequestQueue.Asks (s.timers.log taken) id ∧ id ∈ s.given ∧
      .cancel id ∉ s.timers.log taken ∧ id ∉ s.taken) ↔ s.pending = some id := by
  have hlogged := h.logged halarm htimers
  have hbalanced := h.later.balanced (balanced_start halarm)
  constructor
  · rintro ⟨_, hgiven, hcancel, htaken⟩
    exact hbalanced.live_iff.1 ⟨hgiven, fun hid => hcancel (hlogged.cancel id hid), htaken⟩
  · intro hpending
    obtain ⟨hgiven, _, htaken⟩ := hbalanced.live_iff.2 hpending
    exact ⟨hlogged.asked id hgiven, hgiven, fun hid => (hlogged.pending id hid).2 hpending, htaken⟩

end Session

end PuzzlePlayback
