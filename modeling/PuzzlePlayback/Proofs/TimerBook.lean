import PuzzlePlayback.Proofs.Mirror
import PuzzlePlayback.Proofs.Wakeups
import PuzzlePlayback.Timers.RequestQueue

/-!
# The book of the timers

A session is a player together with the book of its timers: those it was given, those it
cancelled, and those it took when the host delivered them. `Later` is what becomes of a session,
whatever the host does.

The book is `Balanced`: a timer that was given is pending, or it was cancelled once, or it was
taken once. So a timer that is not pending any more never is again, and neither is one that was
given to somebody else (`Session.Later.pending_ne`).
-/

namespace PuzzlePlayback

variable {σ : Type} [TimerSource σ]

/-! ## Counting timers -/

/-- A source of timers that numbers them one after the other. -/
class CountingSource (σ : Type) [TimerSource σ] where
  /-- The number of the latest timer. -/
  latest : σ → TimerNumber
  set_number : ∀ (timers : σ) delay, (TimerSource.set timers delay).1 = latest timers + 1
  latest_set : ∀ (timers : σ) delay,
    latest (TimerSource.set timers delay).2 = latest timers + 1
  latest_cancel : ∀ (timers : σ) timer, latest (TimerSource.cancel timers timer) = latest timers

instance : CountingSource RequestQueue where
  latest := RequestQueue.lastId
  set_number _ _ := rfl
  latest_set _ _ := rfl
  latest_cancel _ _ := rfl

instance : CountingSource ManualClock where
  latest := ManualClock.lastId
  set_number _ _ := rfl
  latest_set _ _ := rfl
  latest_cancel _ _ := rfl

/-! ## The book -/

/-- Timers, and the book of what playback asked of them. -/
structure Booked (σ : Type) where
  timers : σ
  /-- The timers that were set. -/
  given : List TimerNumber
  /-- The timers that were cancelled. -/
  cancelled : List TimerNumber

instance : TimerSource (Booked σ) where
  set booked delay := ((TimerSource.set booked.timers delay).1,
    { booked with
      timers := (TimerSource.set booked.timers delay).2
      given := booked.given ++ [(TimerSource.set booked.timers delay).1] })
  cancel booked timer := { booked with
    timers := TimerSource.cancel booked.timers timer
    cancelled := booked.cancelled ++ [timer] }

/-- The book changes nothing. -/
theorem Booked.mirrors : Mirrors (Booked.timers (σ := σ)) := ⟨fun _ _ => rfl, fun _ _ => rfl⟩

/-- A player, the book of its timers, and the timers it took. -/
structure Session (σ : Type) where
  player : Player (Booked σ)
  /-- The timers that were delivered while they were pending. -/
  taken : List TimerNumber

namespace Session

/-- A session with a new player. -/
def start (first : Player σ) : Session σ := ⟨first.mirrored fun timers => ⟨timers, [], []⟩, []⟩

/-- The player without the book. -/
def plain (s : Session σ) : Player σ := s.player.mirrored Booked.timers

/-- The timers themselves. -/
def timers (s : Session σ) : σ := s.player.timers.timers

/-- The timers that the player was given. -/
def given (s : Session σ) : List TimerNumber := s.player.timers.given

/-- The timers that the player cancelled. -/
def cancelled (s : Session σ) : List TimerNumber := s.player.timers.cancelled

/-- The timer that the player waits for. -/
def pending (s : Session σ) : Option TimerNumber := s.player.pendingTimer

/-- Do what the host asks. -/
def obey (s : Session σ) (control : Control) : Session σ :=
  ⟨(s.player.obey control).player, s.taken ++ (s.player.taken control).toList⟩

/-- The host uses the timers itself. -/
def withTimers (s : Session σ) (timers : σ) : Session σ :=
  { s with player := { s.player with timers := { s.player.timers with timers } } }

/-- The host takes events. -/
def withEvents (s : Session σ) (events : List Event) : Session σ :=
  { s with player := { s.player with events } }

variable [CountingSource σ]

/-- What becomes of a session. The host asks what it likes, takes events, and does anything to the
timers that does not turn back their numbers. -/
inductive Later (s : Session σ) : Session σ → Prop
  | refl : Later s s
  | obey {t : Session σ} (control : Control) : Later s t → Later s (t.obey control)
  | timers {t : Session σ} (timers : σ) : Later s t →
      CountingSource.latest t.timers ≤ CountingSource.latest timers →
      Later s (t.withTimers timers)
  | events {t : Session σ} (events : List Event) : Later s t → Later s (t.withEvents events)

/-- A timer with a number that was given to somebody else. -/
def Foreign (s : Session σ) (timer : TimerNumber) : Prop :=
  timer ≤ CountingSource.latest s.timers ∧ timer ∉ s.given

end Session

/-! ## The balance -/

variable [CountingSource σ]

/-- The book of a waiting player balances: each timer was given at most once, and is pending,
cancelled or taken as often as it was given. -/
structure Balanced (w : Waiting (Booked σ)) (taken : List TimerNumber) : Prop where
  balance : ∀ id, w.timers.given.count id =
    w.pending.toList.count id + w.timers.cancelled.count id + taken.count id
  once : ∀ id, w.timers.given.count id ≤ 1
  issued : ∀ id, id ∈ w.timers.given → id ≤ CountingSource.latest w.timers.timers

omit [TimerSource σ] [CountingSource σ] in
theorem Waiting.count_pending {w : Waiting σ} {id : TimerNumber} (h : w.pending ≠ some id) :
    w.pending.toList.count id = 0 :=
  List.count_eq_zero.2 fun hmem => h (Option.mem_toList.1 hmem)

/-- The book of a new player is empty. -/
theorem balanced_start {first : Player σ} (halarm : first.alarm = none) :
    Balanced (Session.start first).player.waiting [] where
  balance id := by
    have hpending : (Session.start first).player.pendingTimer = none := by
      rw [Player.pendingTimer]
      exact congrArg (Option.map Alarm.timer) halarm
    rw [Player.waiting, hpending]
    rfl
  once _ := Nat.zero_le 1
  issued _ h := nomatch h

namespace Balanced

variable {timers : Booked σ} {taken : List TimerNumber}

theorem cancel {timer : TimerNumber} (h : Balanced ⟨some timer, timers⟩ taken) :
    Balanced ⟨none, TimerSource.cancel timers timer⟩ taken where
  balance id := by
    have hbalance := h.balance id
    simp only [TimerSource.cancel, Option.toList, List.count_append, List.count_nil] at hbalance ⊢
    omega
  once := h.once
  issued id hid := by
    show id ≤ CountingSource.latest (TimerSource.cancel timers.timers timer)
    rw [CountingSource.latest_cancel]
    exact h.issued id hid

/-- A number that is new was not given before. -/
theorem set {delay : Nat} (h : Balanced ⟨none, timers⟩ taken) :
    Balanced ⟨some (TimerSource.set timers delay).1, (TimerSource.set timers delay).2⟩ taken where
  balance id := by
    have hbalance := h.balance id
    simp only [TimerSource.set, Option.toList, List.count_append, List.count_nil] at hbalance ⊢
    omega
  once id := by
    have honce := h.once id
    have hnew : id = (TimerSource.set timers.timers delay).1 → timers.given.count id = 0 := by
      intro hid
      refine List.count_eq_zero.2 fun hmem => ?_
      have hle := h.issued id hmem
      rw [hid, CountingSource.set_number] at hle
      exact absurd hle (Nat.not_succ_le_self _)
    simp only [TimerSource.set, List.count_append, List.count_singleton]
    split
    · next heq =>
      have hzero := hnew (beq_iff_eq.1 heq).symm
      omega
    · exact honce
  issued id hid := by
    show id ≤ CountingSource.latest (TimerSource.set timers.timers delay).2
    rw [CountingSource.latest_set]
    rcases List.mem_append.1 hid with hid | hid
    · exact Nat.le_succ_of_le (h.issued id hid)
    · have hnew := List.mem_singleton.1 hid
      exact Nat.le_of_eq (hnew.trans (CountingSource.set_number _ _))

/-- Whatever playback does to its timers by itself, the book stays balanced. -/
theorem handles {a b : Waiting (Booked σ)} (h : Balanced a taken) (hab : Handles a b) :
    Balanced b taken := by
  induction hab with
  | refl => exact h
  | cancel _ ih => exact ih.cancel
  | set delay _ ih => exact ih.set

/-- The pending timer is taken. -/
theorem take {timer : TimerNumber} (h : Balanced ⟨some timer, timers⟩ taken) :
    Balanced ⟨none, timers⟩ (taken ++ [timer]) where
  balance id := by
    have hbalance := h.balance id
    simp only [Option.toList, List.count_append, List.count_nil] at hbalance ⊢
    omega
  once := h.once
  issued := h.issued

theorem afterTaking {p : Player (Booked σ)} (h : Balanced p.waiting taken) (control : Control) :
    Balanced (p.afterTaking control) (taken ++ (p.taken control).toList) := by
  cases htaken : p.taken control with
  | none =>
    rw [Player.afterTaking_of_not_taken htaken, Option.toList, List.append_nil]
    exact h
  | some timer =>
    have hwaiting : p.waiting = ⟨some timer, p.timers⟩ := by
      rw [Player.waiting, Player.pendingTimer_of_taken htaken]
    rw [Player.afterTaking_of_taken htaken]
    exact take (hwaiting ▸ h)

/-! ### What a balanced book says -/

variable {w : Waiting (Booked σ)} {id : TimerNumber} (h : Balanced w taken)

include h

/-- The pending timer was given, and neither cancelled nor taken. -/
theorem of_pending (hid : w.pending = some id) :
    id ∈ w.timers.given ∧ w.timers.cancelled.count id = 0 ∧ taken.count id = 0 := by
  have hbalance := h.balance id
  have honce := h.once id
  rw [hid, Option.toList, List.count_singleton_self] at hbalance
  refine ⟨List.count_pos_iff.1 (by omega), by omega, by omega⟩

/-- A timer that was given and is not pending was cancelled once or taken once. -/
theorem of_not_pending (hid : id ∈ w.timers.given) (hpending : w.pending ≠ some id) :
    w.timers.cancelled.count id = 1 ∧ taken.count id = 0 ∨
      w.timers.cancelled.count id = 0 ∧ taken.count id = 1 := by
  have hbalance := h.balance id
  have honce := h.once id
  have hgiven := List.count_pos_iff.2 hid
  have hnone := Waiting.count_pending hpending
  omega

/-- Of the timers given only the pending one is still to come. -/
theorem live_iff : id ∈ w.timers.given ∧ id ∉ w.timers.cancelled ∧ id ∉ taken ↔
    w.pending = some id := by
  constructor
  · rintro ⟨hgiven, hcancelled, htaken⟩
    refine Decidable.byContradiction fun hpending => ?_
    rcases h.of_not_pending hgiven hpending with ⟨hone, _⟩ | ⟨_, hone⟩
    · exact hcancelled (List.count_pos_iff.1 (by omega))
    · exact htaken (List.count_pos_iff.1 (by omega))
  · intro hpending
    obtain ⟨hgiven, hcancelled, htaken⟩ := h.of_pending hpending
    exact ⟨hgiven, List.count_eq_zero.1 hcancelled, List.count_eq_zero.1 htaken⟩

end Balanced

/-! ## What stays in the book -/

/-- A later book: nothing is struck out, and what is new has a new number. -/
structure Extends (before after : Booked σ) : Prop where
  cancelled : ∀ id ∈ before.cancelled, id ∈ after.cancelled
  fresh : ∀ id ∈ after.given, id ∈ before.given ∨ CountingSource.latest before.timers < id
  latest : CountingSource.latest before.timers ≤ CountingSource.latest after.timers

theorem Extends.refl (booked : Booked σ) : Extends booked booked :=
  ⟨fun _ h => h, fun _ h => .inl h, Nat.le_refl _⟩

theorem Extends.trans {a b c : Booked σ} (hab : Extends a b) (hbc : Extends b c) :
    Extends a c where
  cancelled id hid := hbc.cancelled id (hab.cancelled id hid)
  fresh id hid := by
    rcases hbc.fresh id hid with hid | hid
    · exact hab.fresh id hid
    · exact .inr (Nat.lt_of_le_of_lt hab.latest hid)
  latest := Nat.le_trans hab.latest hbc.latest

theorem extends_cancel (booked : Booked σ) (timer : TimerNumber) :
    Extends booked (TimerSource.cancel booked timer) where
  cancelled _ hid := List.mem_append_left _ hid
  fresh _ hid := .inl hid
  latest := Nat.le_of_eq (CountingSource.latest_cancel booked.timers timer).symm

theorem extends_set (booked : Booked σ) (delay : Nat) :
    Extends booked (TimerSource.set booked delay).2 where
  cancelled _ hid := hid
  fresh id hid := by
    rcases List.mem_append.1 hid with hid | hid
    · exact .inl hid
    · rw [List.mem_singleton.1 hid, CountingSource.set_number]
      exact .inr (Nat.lt_succ_self _)
  latest := by
    show _ ≤ CountingSource.latest (TimerSource.set booked.timers delay).2
    rw [CountingSource.latest_set]
    exact Nat.le_succ _

theorem Handles.extends {a b : Waiting (Booked σ)} (h : Handles a b) :
    Extends a.timers b.timers := by
  induction h with
  | refl => exact .refl _
  | cancel _ ih => exact ih.trans (extends_cancel _ _)
  | set delay _ ih => exact ih.trans (extends_set _ _)

namespace Session

/-! ## Sessions -/

variable {s t : Session σ} {first : Player σ}

omit [TimerSource σ] [CountingSource σ] in
theorem afterTaking_timers (s : Session σ) (control : Control) :
    (s.player.afterTaking control).timers = s.player.timers := by
  unfold Player.afterTaking
  cases s.player.taken control <;> rfl

theorem Later.extends (h : Later s t) :
    Extends s.player.timers t.player.timers ∧ ∀ id ∈ s.taken, id ∈ t.taken := by
  induction h with
  | refl => exact ⟨.refl _, fun _ h => h⟩
  | @obey t control _ ih =>
    have hcourse := (t.player.course control).handles.extends
    rw [afterTaking_timers] at hcourse
    exact ⟨ih.1.trans hcourse, fun id hid => List.mem_append_left _ (ih.2 id hid)⟩
  | timers timers _ hle ih =>
    exact ⟨ih.1.trans ⟨fun _ h => h, fun _ h => .inl h, hle⟩, ih.2⟩
  | events events _ ih => exact ih

theorem balanced_obey (h : Balanced s.player.waiting s.taken) (control : Control) :
    Balanced (s.obey control).player.waiting (s.obey control).taken :=
  (h.afterTaking control).handles (s.player.course control).handles

theorem Later.balanced (h : Later s t) (hs : Balanced s.player.waiting s.taken) :
    Balanced t.player.waiting t.taken := by
  induction h with
  | refl => exact hs
  | obey control _ ih => exact balanced_obey ih control
  | timers timers _ hle ih =>
    exact ⟨ih.balance, ih.once, fun id hid => Nat.le_trans (ih.issued id hid) hle⟩
  | events events _ ih => exact ih

/-- Without the book the player is one that the host can bring about. -/
theorem Later.reachable (h : Later (start first) t) : Player.Reachable first t.plain := by
  induction h with
  | refl => exact .refl
  | @obey t control _ ih =>
    have hobey := Player.obey_mirrored Booked.mirrors t.player control
    have hplain : (t.obey control).plain = (t.plain.obey control).player :=
      (congrArg Reply.player hobey).symm
    rw [hplain]
    exact .obey control ih
  | timers timers _ _ ih => exact .aside timers _ ih
  | events events _ ih => exact .aside _ events ih

/-- A timer that is not pending and never will be: it was given before, or to somebody else. -/
def Past (s : Session σ) (id : TimerNumber) : Prop :=
  id ∈ s.given ∧ s.pending ≠ some id ∨ s.Foreign id

/-- What is past stays past: the timer is never pending again. -/
theorem Later.pending_ne (h : Later s t) (hs : Balanced s.player.waiting s.taken)
    {id : TimerNumber} (hpast : s.Past id) : t.pending ≠ some id := by
  intro hpending
  obtain ⟨hextends, htaken⟩ := h.extends
  obtain ⟨hgiven, hcancelled', htaken'⟩ := (h.balanced hs).of_pending hpending
  rcases hpast with ⟨hid, hnot⟩ | ⟨hle, hnot⟩
  -- What was cancelled or taken stays in the book, and the pending timer is neither.
  · rcases hs.of_not_pending hid hnot with ⟨hone, _⟩ | ⟨_, hone⟩
    · have hmem := List.count_pos_iff.1 (Nat.lt_of_lt_of_eq Nat.zero_lt_one hone.symm)
      exact List.count_eq_zero.1 hcancelled' (hextends.cancelled id hmem)
    · have hmem := List.count_pos_iff.1 (Nat.lt_of_lt_of_eq Nat.zero_lt_one hone.symm)
      exact List.count_eq_zero.1 htaken' (htaken id hmem)
  -- A timer given since then has a number that nobody had.
  · rcases hextends.fresh id hgiven with hid | hid
    · exact hnot hid
    · exact absurd hle (Nat.not_le_of_lt hid)

end Session

end PuzzlePlayback
