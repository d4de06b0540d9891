import PuzzlePlayback.Proofs.ClockQueue
import PuzzlePlayback.Proofs.HostLog

/-!
# Every timer is accounted for

The book of the timers, the log of a host and the queue of a clock say the same of the timers of a
player: all but the pending one are over.

Main result: `timers_accounted`.
-/

namespace PuzzlePlayback.Session

/-- **Every timer is accounted for.** Whatever a host does with a player and its timers: each
timer that the player was given is pending, or was cancelled once, or was taken once, and only
the pending one is still to come. A timer that is not pending any more, or is somebody else's, is
ignored for ever. A host that keeps the timers itself finds the pending timer in its log: it is
the one of the player's that is neither cancelled there nor taken. On a clock it is the one of the
player's that is queued, if the host delivers what the clock hands out before it asks for
anything else, does not deliver the pending timer while that is queued, and does not cancel it. -/
theorem timers_accounted {registry : Registry} {puzzle : Puzzle} {source : ProgramSource}
    {preferences : Preferences} {hours : Nat → Nat} :
    (∀ {σ : Type} [TimerSource σ] [CountingSource σ] {timers : σ} {first : Player σ}
      {s : Session σ},
      Player.create registry puzzle source timers preferences hours = .ok first →
      Later (.start first) s →
      Player.Reachable first s.plain ∧
      (∀ id ∈ s.given,
        s.pending = some id ∧ s.cancelled.count id = 0 ∧ s.taken.count id = 0 ∨
        s.pending ≠ some id ∧ s.cancelled.count id = 1 ∧ s.taken.count id = 0 ∨
        s.pending ≠ some id ∧ s.cancelled.count id = 0 ∧ s.taken.count id = 1) ∧
      (∀ id, id ∈ s.given ∧ id ∉ s.cancelled ∧ id ∉ s.taken ↔ s.pending = some id) ∧
      (∀ id, id ∈ s.given ∧ s.pending ≠ some id ∨ s.Foreign id →
        ∀ t, Later s t → t.plain.deliver id = .done t.plain)) ∧
    (∀ {first : Player RequestQueue} {s : Session RequestQueue} {taken : List HostRequest},
      Player.create registry puzzle source RequestQueue.empty preferences hours = .ok first →
      HostRun first s taken →
      Later (.start first) s ∧
      ∀ id, (∃ delay, .set id delay ∈ s.timers.log taken) ∧ id ∈ s.given ∧
        .cancel id ∉ s.timers.log taken ∧ id ∉ s.taken ↔ s.pending = some id) ∧
    (∀ {first : Player ManualClock} {s : Session ManualClock},
      Player.create registry puzzle source ManualClock.atZero preferences hours = .ok first →
      ClockRun first s [] →
      Later (.start first) s ∧ s.ownQueued = s.pending.toList) := by
  refine ⟨?_, ?_, ?_⟩
  · intro σ _ _ timers first s hcreate hlater
    obtain ⟨_, _, _, _, rfl⟩ := Player.create_eq_ok hcreate
    have hs := hlater.balanced (balanced_start rfl)
    refine ⟨hlater.reachable, fun id hid => ?_, fun id => hs.live_iff, ?_⟩
    · by_cases hpending : s.pending = some id
      · exact .inl ⟨hpending, (hs.of_pending hpending).2⟩
      · rcases hs.of_not_pending hid hpending with hone | hone
        · exact .inr (.inl ⟨hpending, hone⟩)
        · exact .inr (.inr ⟨hpending, hone⟩)
    · intro id hpast t ht
      exact Player.deliver_stale (ht.pending_ne hs hpast)
  · intro first s taken hcreate hrun
    obtain ⟨_, _, _, _, rfl⟩ := Player.create_eq_ok hcreate
    exact ⟨hrun.later, hrun.live_iff rfl rfl⟩
  · intro first s hcreate hrun
    obtain ⟨_, _, _, _, rfl⟩ := Player.create_eq_ok hcreate
    exact ⟨hrun.later, hrun.ownQueued_eq rfl rfl⟩

/-- Beside a timer of the host the second line is played when the first timer is due, and then the
verdict is queued alone. -/
theorem timers_accounted_novice :
    let begun := (start (novice ManualClock.atZero)).obey .play
    let joined := begun.withTimers (begun.timers.set 10000).2
    let s := (joined.withTimers (joined.timers.moveOn 1000).2).obey (.deliver 1)
    ClockRun (novice ManualClock.atZero) s [] ∧ s.timers.queued = [3, 2] ∧ s.ownQueued = [3] ∧
      s.taken.count 1 = 1 := by
  intro begun joined s
  have hbegun : ClockRun (novice ManualClock.atZero) begun [] := .obey .play .start nofun
  have hhand : (joined.timers.moveOn 1000).1 = [1] := by decide
  have hmoved := (hbegun.set 10000).moveOn 1000
  rw [hhand] at hmoved
  have hs : ClockRun (novice ManualClock.atZero) s [] := hmoved.deliver (List.mem_singleton.2 rfl)
  obtain ⟨hlater, hqueued⟩ := timers_accounted.2.2 (create_novice _) hs
  have hgiven : s.given = [1, 3] := rfl
  have hone := (timers_accounted.1 (create_novice _) hlater).2.1 1 (by rw [hgiven]; decide)
  have hpending : s.pending = some 3 := rfl
  refine ⟨hs, by decide, ?_, ?_⟩
  · rw [hqueued, hpending]
    rfl
  · rcases hone with ⟨h, _⟩ | ⟨_, h, _⟩ | ⟨_, _, h⟩
    · cases hpending.symm.trans h
    · cases h
    · exact h

end PuzzlePlayback.Session
