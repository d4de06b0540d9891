import PuzzlePlayback.Proofs.ClockQueue
import PuzzlePlayback.Proofs.Latest

/-!
# Every timer once, and in order

What a manual clock does with the timers set on it, over everything that a host can ask of it.
`ClockRecord` is a clock with what happened on it so far; a timer is *outstanding* if it was set
and since then neither cancelled nor handed out. `Kept` is the invariant: the queue holds the
outstanding timers and nothing else, the next one first, and whatever was handed out had been set
and was not finished. A clock that moves on hands out several timers, so the invariant is kept
one timer at a time (`Kept.handOut`) and says nothing about the time; that no timer is overdue is
shown beside it.

Main result: `clock_in_order`.
-/

namespace PuzzlePlayback

/-! ## The order of the timers -/

/-- The order in which timers are handed out: by the time they are due, then by number. -/
def Timer.Before (a b : Timer) : Prop := a.due < b.due ∨ a.due = b.due ∧ a.id < b.id

theorem Timer.Before.due_le {a b : Timer} (h : a.Before b) : a.due ≤ b.due := by
  rcases h with h | h
  · exact Nat.le_of_lt h
  · exact Nat.le_of_eq h.1

namespace ManualClock

/-- A timer with a new number is queued in its place. -/
theorem pairwise_enqueue {timer : Timer} {queue : List Timer}
    (hqueue : queue.Pairwise Timer.Before) (hnew : ∀ other ∈ queue, other.id < timer.id) :
    (enqueue timer queue).Pairwise Timer.Before := by
  induction queue with
  | nil => exact List.pairwise_singleton _ _
  | cons next rest ih =>
    obtain ⟨hnext, hrest⟩ := List.pairwise_cons.1 hqueue
    unfold enqueue
    split
    · next hlt =>
      refine List.pairwise_cons.2 ⟨fun other hother => .inl ?_, hqueue⟩
      rcases List.mem_cons.1 hother with rfl | hother
      · exact hlt
      · exact Nat.lt_of_lt_of_le hlt (hnext other hother).due_le
    · next hle =>
      refine List.pairwise_cons.2 ⟨fun other hother => ?_, ih hrest fun other hother =>
        hnew other (List.mem_cons_of_mem _ hother)⟩
      rcases mem_enqueue.1 hother with rfl | hother
      · refine (Nat.lt_or_eq_of_le (Nat.le_of_not_lt hle)).imp_right fun hdue => ?_
        exact ⟨hdue, hnew next List.mem_cons_self⟩
      · exact hnext other hother

/-- In an ordered queue the timers that are due come first. -/
theorem takeWhile_due {queue : List Timer} (hqueue : queue.Pairwise Timer.Before) (now : Nat) :
    (queue.takeWhile fun timer => timer.due ≤ now) =
      queue.filter fun timer => timer.due ≤ now := by
  induction queue with
  | nil => rfl
  | cons next rest ih =>
    obtain ⟨hnext, hrest⟩ := List.pairwise_cons.1 hqueue
    by_cases hdue : next.due ≤ now
    · rw [List.takeWhile_cons_of_pos (by simpa using hdue),
        List.filter_cons_of_pos (by simpa using hdue), ih hrest]
    · rw [List.takeWhile_cons_of_neg (by simpa using hdue),
        List.filter_cons_of_neg (by simpa using hdue)]
      refine (List.filter_eq_nil_iff.2 fun other hother => ?_).symm
      have hle := (hnext other hother).due_le
      simp only [decide_eq_true_eq]
      omega

/-- What stays behind them is not due. -/
theorem lt_of_mem_dropWhile {queue : List Timer} (hqueue : queue.Pairwise Timer.Before)
    {now : Nat} {timer : Timer}
    (h : timer ∈ queue.dropWhile fun timer => timer.due ≤ now) : now < timer.due := by
  induction queue with
  | nil => cases h
  | cons next rest ih =>
    obtain ⟨hnext, hrest⟩ := List.pairwise_cons.1 hqueue
    by_cases hdue : next.due ≤ now
    · rw [List.dropWhile_cons_of_pos (by simpa using hdue)] at h
      exact ih hrest h
    · rw [List.dropWhile_cons_of_neg (by simpa using hdue)] at h
      rcases List.mem_cons.1 h with rfl | h
      · exact Nat.lt_of_not_le hdue
      · exact Nat.lt_of_lt_of_le (Nat.lt_of_not_le hdue) (hnext timer h).due_le

/-- To take what is due twice, the second time up to a later time, is to take it once. -/
theorem split_due (queue : List Timer) {now later : Nat} (h : now ≤ later) :
    (queue.takeWhile fun timer => timer.due ≤ later) =
        (queue.takeWhile fun timer => timer.due ≤ now) ++
          ((queue.dropWhile fun timer => timer.due ≤ now).takeWhile
            fun timer => timer.due ≤ later) ∧
      (queue.dropWhile fun timer => timer.due ≤ later) =
        ((queue.dropWhile fun timer => timer.due ≤ now).dropWhile
          fun timer => timer.due ≤ later) := by
  induction queue with
  | nil => exact ⟨rfl, rfl⟩
  | cons next rest ih =>
    by_cases hdue : next.due ≤ now
    · have hlater : next.due ≤ later := Nat.le_trans hdue h
      simp [hdue, hlater, ih.1, ih.2]
    · simp [hdue]

theorem moveOn_moveOn (clock : ManualClock) (a b : Nat) :
    clock.moveOn (a + b) =
      ((clock.moveOn a).1 ++ ((clock.moveOn a).2.moveOn b).1,
        ((clock.moveOn a).2.moveOn b).2) := by
  obtain ⟨htaken, hleft⟩ := split_due clock.queue (Nat.le_add_right (clock.now + a) b)
  simp only [moveOn, ← Nat.add_assoc, htaken, hleft, List.map_append]
  rfl

end ManualClock

/-! ## What happened on a clock -/

/-- What a host asks of a clock. -/
inductive ClockRequest
  | set (delay : Nat)
  | cancel (id : TimerNumber)
  | jump
  | moveOn (span : Nat)

/-- What happens to a timer. -/
inductive ClockEntry
  | set (timer : Timer)
  | cancelled (id : TimerNumber)
  | handed (id : TimerNumber)
deriving DecidableEq

/-- A clock with what happened on it, the oldest first. -/
structure ClockRecord where
  clock : ManualClock
  entries : List ClockEntry

/-- Do what a host asks, and record it. -/
def ClockRecord.serve (record : ClockRecord) : ClockRequest → ClockRecord
  | .set delay =>
    let (id, clock) := record.clock.set delay
    ⟨clock, record.entries ++ [.set ⟨record.clock.now + delay, id⟩]⟩
  | .cancel id => ⟨record.clock.cancel id, record.entries ++ [.cancelled id]⟩
  | .jump =>
    match record.clock.jump with
    | none => record
    | some (id, clock) => ⟨clock, record.entries ++ [.handed id]⟩
  | .moveOn span =>
    let (ids, clock) := record.clock.moveOn span
    ⟨clock, record.entries ++ ids.map .handed⟩

/-- A new clock once a host has asked all it asks. -/
def clockRecord (requests : List ClockRequest) : ClockRecord :=
  requests.foldl ClockRecord.serve ⟨.atZero, []⟩

/-- A timer was set and since then neither cancelled nor handed out. -/
def Outstanding (entries : List ClockEntry) (timer : Timer) : Prop :=
  ∃ before after, entries = before ++ .set timer :: after ∧
    .cancelled timer.id ∉ after ∧ .handed timer.id ∉ after

/-- A timer was set and has been cancelled or handed out since then. -/
def Finished (entries : List ClockEntry) (id : TimerNumber) : Prop :=
  ∃ before entry after timer, entries = before ++ entry :: after ∧
    (entry = .cancelled id ∨ entry = .handed id) ∧ .set timer ∈ before ∧ timer.id = id

section

variable {entries : List ClockEntry} {entry : ClockEntry} {timer : Timer} {id : TimerNumber}

theorem outstanding_snoc :
    Outstanding (entries ++ [entry]) timer ↔ entry = .set timer ∨
      Outstanding entries timer ∧ entry ≠ .cancelled timer.id ∧ entry ≠ .handed timer.id := by
  simp only [Outstanding, split_snoc]
  constructor
  · rintro ⟨before, after, ⟨-, hset, -⟩ | ⟨rest, rfl, hentries⟩, hcancelled, hhanded⟩
    · exact .inl hset.symm
    · simp only [List.mem_append, List.mem_singleton, not_or] at hcancelled hhanded
      exact .inr ⟨⟨before, rest, hentries, hcancelled.1, hhanded.1⟩,
        Ne.symm hcancelled.2, Ne.symm hhanded.2⟩
  · rintro (rfl | ⟨⟨before, rest, hentries, hcancelled, hhanded⟩, hnot, hnor⟩)
    · exact ⟨entries, [], .inl ⟨rfl, rfl, rfl⟩, List.not_mem_nil, List.not_mem_nil⟩
    · refine ⟨before, rest ++ [entry], .inr ⟨rest, rfl, hentries⟩, ?_, ?_⟩
      · simpa [hcancelled] using Ne.symm hnot
      · simpa [hhanded] using Ne.symm hnor

theorem finished_snoc :
    Finished (entries ++ [entry]) id ↔ Finished entries id ∨
      (entry = .cancelled id ∨ entry = .handed id) ∧ ∃ timer, .set timer ∈ entries ∧
        timer.id = id := by
  simp only [Finished, split_snoc]
  constructor
  · rintro ⟨before, mark, after, timer, ⟨rfl, rfl, -⟩ | ⟨rest, -, hentries⟩, hmark, hset, hid⟩
    · exact .inr ⟨hmark, timer, hset, hid⟩
    · exact .inl ⟨before, mark, rest, timer, hentries, hmark, hset, hid⟩
  · rintro (⟨before, mark, rest, timer, hentries, hmark, hset, hid⟩ | ⟨hmark, timer, hset, hid⟩)
    · exact ⟨before, mark, _, timer, .inr ⟨rest, rfl, hentries⟩, hmark, hset, hid⟩
    · exact ⟨entries, entry, [], timer, .inl ⟨rfl, rfl, rfl⟩, hmark, hset, hid⟩

theorem Outstanding.set_mem (h : Outstanding entries timer) : .set timer ∈ entries := by
  obtain ⟨before, after, rfl, -, -⟩ := h
  simp

end

/-! ## The queue holds the outstanding timers -/

/-- What the queue and the last number say about what happened. -/
structure Kept (queue : List Timer) (lastId : TimerNumber) (entries : List ClockEntry) : Prop where
  ordered : queue.Pairwise Timer.Before
  distinct : (queue.map Timer.id).Nodup
  issued : ∀ timer, .set timer ∈ entries → timer.id ≤ lastId
  /-- The queue holds the outstanding timers. -/
  queued : ∀ timer, timer ∈ queue ↔ Outstanding entries timer
  /-- A finished timer is never queued again. -/
  finished : ∀ timer ∈ queue, ¬ Finished entries timer.id
  /-- Whatever was handed out had been set and was not finished. -/
  lawful : ∀ before id after, entries = before ++ .handed id :: after →
    (∃ timer, .set timer ∈ before ∧ timer.id = id) ∧ ¬ Finished before id

namespace Kept

theorem new : Kept [] 0 [] where
  ordered := .nil
  distinct := List.nodup_nil
  issued _ h := nomatch h
  queued timer := by simp [Outstanding]
  finished _ h := nomatch h
  lawful before id after h := by simp at h

variable {queue : List Timer} {lastId : TimerNumber} {entries : List ClockEntry}

theorem id_le (h : Kept queue lastId entries) {timer : Timer} (htimer : timer ∈ queue) :
    timer.id ≤ lastId := h.issued timer ((h.queued timer).1 htimer).set_mem

theorem set (h : Kept queue lastId entries) (due : Nat) :
    Kept (ManualClock.enqueue ⟨due, lastId + 1⟩ queue) (lastId + 1)
      (entries ++ [.set ⟨due, lastId + 1⟩]) where
  ordered := ManualClock.pairwise_enqueue h.ordered fun _ hother =>
    Nat.lt_succ_of_le (h.id_le hother)
  distinct := by
    have hperm := (ManualClock.enqueue_perm ⟨due, lastId + 1⟩ queue).map Timer.id
    refine hperm.nodup_iff.2 (List.nodup_cons.2 ⟨fun hmem => ?_, h.distinct⟩)
    obtain ⟨other, hother, hid⟩ := List.mem_map.1 hmem
    have hle : other.id ≤ lastId := h.id_le hother
    rw [hid] at hle
    exact Nat.not_succ_le_self _ hle
  issued timer htimer := by
    rcases List.mem_append.1 htimer with htimer | htimer
    · exact Nat.le_succ_of_le (h.issued timer htimer)
    · obtain rfl := ClockEntry.set.inj (List.mem_singleton.1 htimer)
      exact Nat.le_refl _
  queued timer := by
    rw [ManualClock.mem_enqueue, outstanding_snoc, h.queued]
    simp [eq_comm]
  finished timer htimer := by
    rw [finished_snoc]
    rintro (hfinished | ⟨hentry, -⟩)
    · rcases ManualClock.mem_enqueue.1 htimer with rfl | htimer
      · obtain ⟨before, entry, after, other, rfl, -, hset, hid⟩ := hfinished
        have hle := h.issued other (List.mem_append_left _ hset)
        rw [hid] at hle
        exact Nat.not_succ_le_self _ hle
      · exact h.finished timer htimer hfinished
    · simp at hentry
  lawful before id after hsplit := by
    rcases split_snoc.1 hsplit with ⟨-, hentry, -⟩ | ⟨rest, -, hentries⟩
    · cases hentry
    · exact h.lawful before id rest hentries

theorem cancel (h : Kept queue lastId entries) (id : TimerNumber) :
    Kept (queue.filter fun timer => timer.id != id) lastId (entries ++ [.cancelled id]) where
  ordered := h.ordered.filter _
  distinct := h.distinct.sublist (List.filter_sublist.map _)
  issued timer htimer := h.issued timer (by simpa using htimer)
  queued timer := by
    rw [List.mem_filter, outstanding_snoc, h.queued]
    simp [@eq_comm _ id]
  finished timer htimer := by
    obtain ⟨hqueue, hne⟩ := List.mem_filter.1 htimer
    rw [finished_snoc]
    rintro (hfinished | ⟨hentry, -⟩)
    · exact h.finished timer hqueue hfinished
    · simp only [ClockEntry.cancelled.injEq, reduceCtorEq, or_false] at hentry
      simp [hentry] at hne
  lawful before other after hsplit := by
    rcases split_snoc.1 hsplit with ⟨-, hentry, -⟩ | ⟨rest, -, hentries⟩
    · cases hentry
    · exact h.lawful before other rest hentries

/-- The next timer is handed out. -/
theorem handOut {timer : Timer} (h : Kept (timer :: queue) lastId entries) :
    Kept queue lastId (entries ++ [.handed timer.id]) where
  ordered := (List.pairwise_cons.1 h.ordered).2
  distinct := (List.nodup_cons.1 h.distinct).2
  issued other hother := h.issued other (by simpa using hother)
  queued other := by
    have hother := h.queued other
    have hnot := (List.nodup_cons.1 h.distinct).1
    rw [outstanding_snoc, ← hother]
    constructor
    · intro hmem
      refine .inr ⟨List.mem_cons_of_mem _ hmem, nofun, fun heq => hnot ?_⟩
      rw [ClockEntry.handed.inj heq]
      exact List.mem_map_of_mem hmem
    · rintro (hset | ⟨hmem, -, hne⟩)
      · cases hset
      · refine (List.mem_cons.1 hmem).resolve_left fun heq => hne (by rw [heq])
  finished other hmem := by
    have hnot := (List.nodup_cons.1 h.distinct).1
    rw [finished_snoc]
    rintro (hfinished | ⟨hentry, -⟩)
    · exact h.finished other (List.mem_cons_of_mem _ hmem) hfinished
    · simp only [reduceCtorEq, ClockEntry.handed.injEq, false_or] at hentry
      exact hnot (hentry ▸ List.mem_map_of_mem hmem)
  lawful before id after hsplit := by
    rcases split_snoc.1 hsplit with ⟨rfl, hentry, -⟩ | ⟨rest, -, hentries⟩
    · obtain rfl := ClockEntry.handed.inj hentry
      have hset := ((h.queued timer).1 List.mem_cons_self).set_mem
      exact ⟨⟨timer, hset, rfl⟩, h.finished timer List.mem_cons_self⟩
    · exact h.lawful before id rest hentries

/-- The next timers are handed out. -/
theorem handOutAll {taken : List Timer} (h : Kept (taken ++ queue) lastId entries) :
    Kept queue lastId (entries ++ (taken.map Timer.id).map .handed) := by
  induction taken generalizing entries with
  | nil => simpa using h
  | cons timer taken ih => simpa using ih h.handOut

/-- A timer that was set and is finished is never handed out again. -/
theorem not_handed (h : Kept queue lastId entries) {before after : List ClockEntry}
    {entry : ClockEntry} {timer : Timer} (hentries : entries = before ++ entry :: after)
    (hentry : entry = .cancelled timer.id ∨ entry = .handed timer.id)
    (hset : .set timer ∈ before) : .handed timer.id ∉ after := by
  intro hmem
  obtain ⟨between, rest, rfl⟩ := List.append_of_mem hmem
  refine (h.lawful (before ++ entry :: between) timer.id rest (by simpa using hentries)).2 ?_
  exact ⟨before, entry, between, timer, rfl, hentry, hset, rfl⟩

end Kept

/-! ## A clock with its record -/

namespace ClockRecord

variable {record : ClockRecord}

/-- The record is kept and no timer is overdue. -/
structure Sound (record : ClockRecord) : Prop where
  kept : Kept record.clock.queue record.clock.lastId record.entries
  ahead : ∀ timer ∈ record.clock.queue, record.clock.now ≤ timer.due

theorem Sound.serve (h : Sound record) (request : ClockRequest) : Sound (record.serve request) := by
  obtain ⟨⟨now, lastId, queue⟩, entries⟩ := record
  obtain ⟨hkept, hahead⟩ := h
  cases request with
  | set delay =>
    refine ⟨hkept.set (now + delay), fun timer htimer => ?_⟩
    rcases ManualClock.mem_enqueue.1 htimer with rfl | htimer
    · exact Nat.le_add_right now delay
    · exact hahead timer htimer
  | cancel id =>
    exact ⟨hkept.cancel id, fun timer htimer => hahead timer (List.mem_filter.1 htimer).1⟩
  | jump =>
    cases queue with
    | nil => exact ⟨hkept, hahead⟩
    | cons next rest =>
      refine ⟨hkept.handOut, fun timer htimer => Nat.max_le.2 ⟨?_, ?_⟩⟩
      · exact hahead timer (List.mem_cons_of_mem _ htimer)
      · exact ((List.pairwise_cons.1 hkept.ordered).1 timer htimer).due_le
  | moveOn span =>
    refine ⟨Kept.handOutAll ?_, fun timer htimer => ?_⟩
    · rw [← List.takeWhile_append_dropWhile (p := fun timer => timer.due ≤ now + span)
        (l := queue)] at hkept
      exact hkept
    · exact Nat.le_of_lt (ManualClock.lt_of_mem_dropWhile hkept.ordered htimer)

theorem Sound.serveAll (h : Sound record) (requests : List ClockRequest) :
    Sound (requests.foldl ClockRecord.serve record) := by
  induction requests generalizing record with
  | nil => exact h
  | cons request requests ih => exact ih (h.serve request)

theorem sound_clockRecord (requests : List ClockRequest) : Sound (clockRecord requests) :=
  Sound.serveAll ⟨.new, fun _ h => absurd h List.not_mem_nil⟩ requests

/-- A clock never goes back. -/
theorem now_le_serve (record : ClockRecord) (request : ClockRequest) :
    record.clock.now ≤ (record.serve request).clock.now := by
  obtain ⟨⟨now, lastId, queue⟩, entries⟩ := record
  cases request with
  | set delay => exact Nat.le_refl now
  | cancel id => exact Nat.le_refl now
  | jump =>
    cases queue with
    | nil => exact Nat.le_refl now
    | cons next rest => exact Nat.le_max_left now next.due
  | moveOn span => exact Nat.le_add_right now span

/-- All that a host can rely on after what happened so far, whatever it asks next. -/
structure InOrder (record : ClockRecord) : Prop where
  /-- No queued timer is overdue. -/
  ahead : ∀ timer ∈ record.clock.queue, record.clock.now ≤ timer.due
  /-- The clock never goes back. -/
  forward : ∀ request, record.clock.now ≤ (record.serve request).clock.now
  /-- A new timer gets a number that no timer had. -/
  fresh : ∀ delay timer, .set timer ∈ record.entries →
    timer.id ≠ (record.clock.set delay).1
  /-- Only timers that were set are handed out, each one once. -/
  once : ∀ before id after, record.entries = before ++ .handed id :: after →
    (∃ timer, .set timer ∈ before ∧ timer.id = id) ∧ .handed id ∉ after
  /-- No timer is handed out after it was cancelled. -/
  cancelled : ∀ before timer after, record.entries = before ++ .cancelled timer.id :: after →
    .set timer ∈ before → .handed timer.id ∉ after
  /-- To cancel a timer that is not outstanding changes nothing. -/
  ignored : ∀ id, (∀ timer, Outstanding record.entries timer → timer.id ≠ id) →
    record.clock.cancel id = record.clock
  /-- There is no next timer exactly if none is outstanding. -/
  exhausted : record.clock.jump = none ↔ ∀ timer, ¬ Outstanding record.entries timer
  /-- The next timer is the first of the outstanding ones, and the clock jumps to its time. -/
  next : ∀ id clock, record.clock.jump = some (id, clock) →
    ∃ timer, timer.id = id ∧ Outstanding record.entries timer ∧
      (∀ other, Outstanding record.entries other → other = timer ∨ timer.Before other) ∧
      clock.now = timer.due
  /-- Moving on hands out the outstanding timers that come due, in order. -/
  due : ∀ span, (record.clock.moveOn span).2.now = record.clock.now + span ∧
    ∃ timers : List Timer, (record.clock.moveOn span).1 = timers.map (·.id) ∧
      timers.Pairwise Timer.Before ∧
      ∀ timer, timer ∈ timers ↔
        Outstanding record.entries timer ∧ timer.due ≤ record.clock.now + span
  /-- Moving on twice is moving on once. -/
  joined : ∀ a b, record.clock.moveOn (a + b) =
    ((record.clock.moveOn a).1 ++ ((record.clock.moveOn a).2.moveOn b).1,
      ((record.clock.moveOn a).2.moveOn b).2)

/-- The first timer of the queue comes next. -/
theorem Sound.next (h : Sound record) {id : TimerNumber} {clock : ManualClock}
    (hjump : record.clock.jump = some (id, clock)) :
    ∃ timer, timer.id = id ∧ Outstanding record.entries timer ∧
      (∀ other, Outstanding record.entries other → other = timer ∨ timer.Before other) ∧
      clock.now = timer.due := by
  obtain ⟨⟨now, lastId, queue⟩, entries⟩ := record
  obtain ⟨hkept, hahead⟩ := h
  cases queue with
  | nil => cases hjump
  | cons timer rest =>
    cases hjump
    refine ⟨timer, rfl, (hkept.queued timer).1 List.mem_cons_self, fun other hother => ?_,
      Nat.max_eq_right (hahead timer List.mem_cons_self)⟩
    refine (List.mem_cons.1 ((hkept.queued other).2 hother)).imp_right ?_
    exact (List.pairwise_cons.1 hkept.ordered).1 other

theorem Sound.exhausted (h : Sound record) :
    record.clock.jump = none ↔ ∀ timer, ¬ Outstanding record.entries timer := by
  have hjump : record.clock.jump = none ↔ record.clock.queue = [] := by
    unfold ManualClock.jump
    cases record.clock.queue <;> simp
  simp only [hjump, List.eq_nil_iff_forall_not_mem, h.kept.queued]

theorem Sound.ignored (h : Sound record) {id : TimerNumber}
    (hid : ∀ timer, Outstanding record.entries timer → timer.id ≠ id) :
    record.clock.cancel id = record.clock := by
  have hqueue : (record.clock.queue.filter fun timer => timer.id != id) = record.clock.queue := by
    refine List.filter_eq_self.2 fun timer htimer => ?_
    simpa using hid timer ((h.kept.queued timer).1 htimer)
  rw [ManualClock.cancel, hqueue]

/-- **Every timer once, and in order.** Whatever is asked of a new clock: no queued timer is ever
overdue and the clock never goes back; no timer is handed out twice, or after it was cancelled; a
jump hands out the first of the outstanding timers and stops at its time; and moving on hands out
those that come due, in order, all at once as in two parts. -/
theorem clock_in_order (requests : List ClockRequest) : InOrder (clockRecord requests) := by
  have hsound := sound_clockRecord requests
  have hkept := hsound.kept
  exact {
    ahead := hsound.ahead
    forward := now_le_serve _
    fresh := fun delay timer htimer => Nat.ne_of_lt (Nat.lt_succ_of_le (hkept.issued timer htimer))
    once := fun before id after hentries => by
      obtain ⟨⟨timer, hset, rfl⟩, -⟩ := hkept.lawful before id after hentries
      exact ⟨⟨timer, hset, rfl⟩, hkept.not_handed hentries (.inr rfl) hset⟩
    cancelled := fun before timer after hentries hset =>
      hkept.not_handed hentries (.inl rfl) hset
    ignored := fun id => hsound.ignored
    exhausted := hsound.exhausted
    next := fun id clock => hsound.next
    due := fun span => by
      refine ⟨rfl, _, rfl, ?_, fun timer => ?_⟩
      · exact hkept.ordered.sublist (List.takeWhile_sublist _)
      · rw [ManualClock.takeWhile_due hkept.ordered, List.mem_filter, hkept.queued,
          decide_eq_true_eq]
    joined := ManualClock.moveOn_moveOn _ }

/-- Timers due at the same time come in the order in which they were set. -/
example : (clockRecord [.set 5, .set 5, .set 0, .cancel 4, .moveOn 5]).entries =
    [.set ⟨5, 1⟩, .set ⟨5, 2⟩, .set ⟨0, 3⟩, .cancelled 4, .handed 3, .handed 1, .handed 2] := by
  decide

end ClockRecord

end PuzzlePlayback
