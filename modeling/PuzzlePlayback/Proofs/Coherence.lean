import PuzzlePlayback.Proofs.Reachable
import PuzzlePlayback.Timers.RequestQueue

/-!
# Status, timer, program and outcome agree

A player holds its status, the pending timer, the program, the counter and the outcome in fields
of their own, and each operation sets some of them. `Coherent` says how they hang together;
`InRange` says where the counter may stand. Between operations both hold.

In the middle of an operation they do not: a fresh run is running before its first timer is set.
`Poised` is what holds there instead, right before the next action is played. `Turn.poised` leads
from coherent players to poised ones, `Played.coherent` leads back.

Main result: `coherent_of_reachable`.
-/

namespace PuzzlePlayback.Player

variable {σ : Type} [TimerSource σ]

/-! ## The counter -/

/-- The counter stays within the program, and the latest action is the one before it. -/
structure InRange (a : Place) : Prop where
  step_le : a.step ≤ (a.program.map Program.size).getD 0
  latest : a.latestIndex = if a.step = 0 then none else some (a.step - 1)

theorem inRange_outset (stage : Stage) (program : Option Program) :
    InRange (.outset stage program) := ⟨Nat.zero_le _, rfl⟩

theorem InRange.move {a b : Place} (h : InRange a) (hmove : Place.Move a b) : InRange b := by
  cases hmove with
  | stays => exact h
  | rewinds => exact inRange_outset _ _
  | changes program => exact inRange_outset _ _
  | @plays program action t hprogram haction ht =>
    have hlt : a.step < program.size := (List.getElem?_eq_some_iff.1 haction).1
    exact ⟨by simpa [hprogram] using Nat.succ_le_of_lt hlt, by simp⟩
  | @travels program n state hprogram hle hreplay => exact ⟨by simpa [hprogram] using hle, rfl⟩

omit [TimerSource σ] in
theorem programSize_eq (p : Player σ) :
    p.programSize = (p.program.map Program.size).getD 0 := by
  unfold programSize
  cases p.program <;> rfl

/-! ## Coherent players -/

theorem isOver_iff {status : Status} : status.isOver = true ↔
    status = .won ∨ status = .lost ∨ status = .failed := by
  cases status <;> simp [Status.isOver]

/-- How status, pending timer, program, counter and outcome hang together. -/
structure Coherent (p : Player σ) : Prop where
  /-- A running player waits for a timer. -/
  running : p.status = .running → ∃ alarm, p.alarm = some alarm
  /-- Only a running player waits for the next action. -/
  advance : ∀ timer, p.alarm = some ⟨timer, .advance⟩ → p.status = .running
  /-- An outcome is waited for while the player runs or pauses. -/
  announce : ∀ timer ending, p.alarm = some ⟨timer, .announce ending⟩ →
    p.status = .running ∨ p.status = .paused
  /-- There is an outcome exactly if the run is over. -/
  outcome_iff : (∃ outcome, p.outcome = some outcome) ↔
    p.status = .won ∨ p.status = .lost ∨ p.status = .failed
  /-- The outcome has the status of the player, and nothing is waited for. -/
  outcome_eq : ∀ outcome, p.outcome = some outcome → outcome.status = p.status ∧ p.alarm = none
  /-- An idle player is at the start and waits for nothing. -/
  idle : p.status = .idle → p.state = none ∧ p.step = 0 ∧ p.alarm = none
  /-- Without a program there is nothing to do. -/
  unloaded : p.program = none → p.status = .idle
  /-- The verdict is only waited for at the end of the program. -/
  verdict : ∀ timer, p.alarm = some ⟨timer, .announce .verdict⟩ → p.step = p.programSize

omit [TimerSource σ] in
theorem coherent_idle {p : Player σ} (hstatus : p.status = .idle) (hstate : p.state = none)
    (hstep : p.step = 0) (halarm : p.alarm = none) (houtcome : p.outcome = none) :
    Coherent p where
  running h := nomatch hstatus.symm.trans h
  advance timer h := nomatch halarm.symm.trans h
  announce timer ending h := nomatch halarm.symm.trans h
  outcome_iff := by simp [hstatus, houtcome]
  outcome_eq outcome h := nomatch houtcome.symm.trans h
  idle _ := ⟨hstate, hstep, halarm⟩
  unloaded _ := hstatus
  verdict timer h := nomatch halarm.symm.trans h

omit [TimerSource σ] in
/-- A player in the middle of a run. -/
theorem coherent_midway {p : Player σ} (hstatus : p.status = .running ∨ p.status = .paused)
    (houtcome : p.outcome = none) (hprogram : p.program ≠ none)
    (hrunning : p.status = .running → ∃ alarm, p.alarm = some alarm)
    (hadvance : ∀ timer, p.alarm = some ⟨timer, .advance⟩ → p.status = .running)
    (hverdict : ∀ timer, p.alarm = some ⟨timer, .announce .verdict⟩ →
      p.step = p.programSize) : Coherent p where
  running := hrunning
  advance := hadvance
  announce _ _ _ := hstatus
  outcome_iff := by rcases hstatus with h | h <;> simp [h, houtcome]
  outcome_eq outcome h := nomatch houtcome.symm.trans h
  idle h := by rcases hstatus with h' | h' <;> exact nomatch h'.symm.trans h
  unloaded h := absurd h hprogram
  verdict := hverdict

omit [TimerSource σ] in
/-- A player that pauses and waits for nothing. -/
theorem coherent_still {p : Player σ} (hstatus : p.status = .paused) (houtcome : p.outcome = none)
    (hprogram : p.program ≠ none) (halarm : p.alarm = none) : Coherent p :=
  coherent_midway (.inr hstatus) houtcome hprogram (fun h => nomatch hstatus.symm.trans h)
    (fun _ h => nomatch halarm.symm.trans h) fun _ h => nomatch halarm.symm.trans h

omit [TimerSource σ] in
theorem coherent_over {p : Player σ} {outcome : Outcome} (houtcome : p.outcome = some outcome)
    (hstatus : outcome.status = p.status)
    (hover : p.status = .won ∨ p.status = .lost ∨ p.status = .failed)
    (hprogram : p.program ≠ none) (halarm : p.alarm = none) : Coherent p where
  running h := by rcases hover with h' | h' | h' <;> exact nomatch h'.symm.trans h
  advance timer h := nomatch halarm.symm.trans h
  announce timer ending h := nomatch halarm.symm.trans h
  outcome_iff := ⟨fun _ => hover, fun _ => ⟨outcome, houtcome⟩⟩
  outcome_eq o h := by
    obtain rfl : outcome = o := Option.some.inj (houtcome.symm.trans h)
    exact ⟨hstatus, halarm⟩
  idle h := by rcases hover with h' | h' | h' <;> exact nomatch h'.symm.trans h
  unloaded h := absurd h hprogram
  verdict timer h := nomatch halarm.symm.trans h

/-! ## Consequences -/

section

variable {p : Player σ} (h : Coherent p)

include h

omit [TimerSource σ] in
theorem Coherent.program_ne_none (hstatus : p.status ≠ .idle) : p.program ≠ none :=
  fun hnone => hstatus (h.unloaded hnone)

omit [TimerSource σ] in
theorem Coherent.outcome_eq_none (hstatus : p.status = .running ∨ p.status = .paused) :
    p.outcome = none := by
  cases houtcome : p.outcome with
  | none => rfl
  | some outcome =>
    have hover := h.outcome_iff.1 ⟨outcome, houtcome⟩
    rcases hstatus with hs | hs <;> simp [hs] at hover

omit [TimerSource σ] in
/-- What waits is of a run in the middle. -/
theorem Coherent.midway {alarm : Alarm} (halarm : p.alarm = some alarm) :
    p.status = .running ∨ p.status = .paused := by
  obtain ⟨timer, duty⟩ := alarm
  cases duty with
  | advance => exact .inl (h.advance timer halarm)
  | announce ending => exact h.announce timer ending halarm

omit [TimerSource σ] in
theorem Coherent.alarm_eq_none (hending : p.isEnding = false) (hstatus : p.status ≠ .running) :
    p.alarm = none := by
  cases halarm : p.alarm with
  | none => rfl
  | some alarm =>
    obtain ⟨timer, duty⟩ := alarm
    cases duty with
    | advance => exact absurd (h.advance timer halarm) hstatus
    | announce ending => simp [isEnding, halarm] at hending

end

/-! ## Poised players -/

/-- What holds right before the next action is played. -/
structure Poised (q : Player σ) (auto : Bool) : Prop where
  alarm : q.alarm = none
  outcome : q.outcome = none
  program : q.program ≠ none
  status : q.status = if auto then .running else .paused

theorem Turn.poised {p q : Player σ} {control : Control} {auto : Bool}
    (h : Turn p control q auto) (hp : Coherent p) : Poised q auto := by
  cases h with
  | @fresh _ status program hstarts hanswer =>
    -- A fresh run has its status before its first timer: poised, but not coherent.
    have hopened : p.opened program status = { p.refused.emit (.started program.size) with
      program := some program, status } := rfl
    rw [refused, reset_eq] at hopened
    rw [hopened]
    cases hstarts <;> exact ⟨rfl, rfl, Option.some_ne_none program, rfl⟩
  | interrupted hending hrunning =>
    have hpause : p.pause = { p.cancelAlarm with status := .paused }.emit (.paused p.step) := by
      rw [pause, if_pos hrunning, hending, cancelAlarm_eq]
      rfl
    rw [hpause, cancelAlarm_eq]
    exact ⟨rfl, hp.outcome_eq_none (.inl hrunning),
      hp.program_ne_none (by simp [hrunning]), rfl⟩
  | single hending hpaused =>
    exact ⟨hp.alarm_eq_none hending (by simp [hpaused]), hp.outcome_eq_none (.inr hpaused),
      hp.program_ne_none (by simp [hpaused]), hpaused⟩
  | due halarm hrunning =>
    exact ⟨rfl, hp.outcome_eq_none (.inl hrunning), hp.program_ne_none (by simp [hrunning]),
      hrunning⟩

omit [TimerSource σ] in
theorem Poised.midway {q : Player σ} {auto : Bool} (h : Poised q auto) :
    q.status = .running ∨ q.status = .paused := by
  rw [h.status]
  cases auto <;> simp

omit [TimerSource σ] in
/-- Playing an action changes none of what makes a player poised. -/
theorem Poised.commit {q : Player σ} {auto : Bool} (h : Poised q auto) (state : World) :
    Poised (q.commit state) auto := ⟨h.alarm, h.outcome, h.program, h.status⟩

/-- Waiting for an outcome makes a poised player coherent. -/
theorem Poised.coherent_awaitAnnouncement {q : Player σ} {auto : Bool} (h : Poised q auto)
    {ending : Ending} (hverdict : ending = .verdict → q.step = q.programSize) :
    Coherent (q.awaitAnnouncement ending) := by
  obtain ⟨timer, timers, hawait⟩ := q.awaitAnnouncement_eq ending
  rw [hawait]
  refine coherent_midway h.midway h.outcome h.program (fun _ => ⟨_, rfl⟩) ?_ ?_
  · intro t ht
    simp at ht
  · intro t ht
    simp only [Option.some.injEq, Alarm.mk.injEq, Duty.announce.injEq] at ht
    exact hverdict ht.2

/-- Waiting for the next action makes a poised player coherent if it goes on by itself. -/
theorem Poised.coherent_awaitAdvance {q : Player σ} (h : Poised q true) :
    Coherent q.awaitAdvance := by
  obtain ⟨timer, timers, hawait⟩ := q.awaitAdvance_eq
  rw [hawait]
  refine coherent_midway h.midway h.outcome h.program (fun _ => ⟨_, rfl⟩) ?_ ?_
  · exact fun _ _ => h.status
  · intro t ht
    simp at ht

/-- A player that stops because of a fault pauses and waits for nothing. -/
theorem coherent_halt {p : Player σ} (houtcome : p.outcome = none) (hprogram : p.program ≠ none)
    (fault : StepFault) : Coherent (p.halt fault).player := by
  rw [halt_player]
  exact coherent_still rfl houtcome hprogram rfl

/-! ## Each course leads to a coherent player -/

theorem Played.coherent {q : Player σ} {auto : Bool} {reply : Reply σ} (h : Played q auto reply)
    (hq : Poised q auto) (hrange : q.step ≤ q.programSize) : Coherent reply.player := by
  cases h with
  | ended hover => exact hq.coherent_awaitAnnouncement fun _ => Nat.le_antisymm hrange hover
  | faulted _ _ => exact coherent_halt hq.outcome hq.program _
  | won _ _ _ => exact (hq.commit _).coherent_awaitAnnouncement nofun
  | lost _ _ _ => exact (hq.commit _).coherent_awaitAnnouncement nofun
  | last haction _ _ hlast =>
    refine (hq.commit _).coherent_awaitAnnouncement fun _ => ?_
    show q.step + 1 = q.programSize
    exact Nat.le_antisymm (lt_programSize haction) hlast
  | onward _ _ _ _ hauto =>
    subst hauto
    exact (hq.commit _).coherent_awaitAdvance
  | held _ _ _ _ hauto =>
    subst hauto
    have hheld := hq.commit (q := q)
    exact coherent_still (hheld _).status (hheld _).outcome (hheld _).program (hheld _).alarm

theorem Announced.coherent {p : Player σ} {ending : Ending} {reply : Reply σ}
    (h : Announced p ending reply) (houtcome : p.outcome = none) (hprogram : p.program ≠ none)
    (halarm : p.alarm = none) : Coherent reply.player := by
  cases h with
  | win => exact coherent_over rfl rfl (.inl rfl) hprogram halarm
  | lose => exact coherent_over rfl rfl (.inr (.inl rfl)) hprogram halarm
  | solved _ => exact coherent_over rfl rfl (.inl rfl) hprogram halarm
  | unsolved _ => exact coherent_over rfl rfl (.inr (.inr rfl)) hprogram halarm
  | faulted _ => exact coherent_halt houtcome hprogram _

theorem Coherent.resume {p : Player σ} (h : Coherent p) (hpaused : p.status = .paused) :
    Coherent p.resume := by
  have houtcome := h.outcome_eq_none (.inr hpaused)
  have hprogram := h.program_ne_none (by simp [hpaused])
  unfold Player.resume
  dsimp only
  split
  · next halarm =>
    refine Poised.coherent_awaitAdvance ⟨?_, houtcome, hprogram, rfl⟩
    exact Option.isNone_iff_eq_none.1 halarm
  · next halarm =>
    refine coherent_midway (.inl rfl) houtcome hprogram (fun _ => ?_) (fun _ _ => rfl) h.verdict
    exact Option.ne_none_iff_exists'.1 fun hnone => halarm (Option.isNone_iff_eq_none.2 hnone)

theorem Coherent.pause {p : Player σ} (h : Coherent p) (hrunning : p.status = .running) :
    Coherent p.pause := by
  have houtcome := h.outcome_eq_none (.inl hrunning)
  have hprogram := h.program_ne_none (by simp [hrunning])
  rw [Player.pause, if_pos hrunning]
  cases hending : p.isEnding with
  | true =>
    refine coherent_midway (.inr rfl) houtcome hprogram (fun hrun => ?_) (fun timer halarm => ?_)
      h.verdict
    · cases hrun
    · have halarm : p.alarm = some ⟨timer, .advance⟩ := halarm
      simp [isEnding, halarm] at hending
  | false =>
    rw [cancelAlarm_eq]
    exact coherent_still rfl houtcome hprogram rfl

theorem Course.coherent {p : Player σ} {control : Control} {reply : Reply σ}
    (h : Course p control reply) (hp : Coherent p) (hrange : InRange p.place) :
    Coherent reply.player := by
  cases h with
  | @turned _ q auto turn =>
    refine (q.played auto).coherent (turn.poised hp) ?_
    rw [programSize_eq]
    exact (hrange.move turn.move).step_le
  | refused _ _ =>
    rw [Player.refused, reset_eq]
    exact coherent_idle rfl rfl rfl rfl rfl
  | resumed hpaused => exact hp.resume hpaused
  | paused hrunning => exact hp.pause hrunning
  | pauseIgnored _ => exact hp
  | stepIgnored _ => exact hp
  | rewound =>
    rw [Reply.done_player, reset_eq]
    exact coherent_idle rfl rfl rfl rfl rfl
  | cleared =>
    rw [Reply.done_player, clear, reset_eq]
    exact coherent_idle rfl rfl rfl rfl rfl
  | exchanged =>
    rw [Reply.done_player, useSource, clear, reset_eq]
    exact coherent_idle rfl rfl rfl rfl rfl
  | lost _ => exact hp
  | traveled hprogram _ =>
    rw [Reply.done_player, arrived, cancelAlarm_eq]
    exact coherent_still rfl rfl (by simp [hprogram]) rfl
  | strayed hprogram _ => exact coherent_halt rfl (by simp [hprogram]) _
  | slid => exact { hp with }
  | @announced timer ending halarm =>
    have hmidway := hp.midway halarm
    refine (Player.announced { p with alarm := none } ending).coherent
      (hp.outcome_eq_none hmidway) (hp.program_ne_none ?_) rfl
    rcases hmidway with h | h <;> simp [h]
  -- Only a running player waits for the next action, so the timer is never dropped.
  | dropped halarm hstatus => exact absurd (hp.advance _ halarm) hstatus
  | stale _ => exact hp

theorem Reachable.coherent {first p : Player σ} (h : Reachable first p)
    (hfirst : Coherent first) (hrange : InRange first.place) : Coherent p ∧ InRange p.place := by
  refine h.invariant (I := fun p => Coherent p ∧ InRange p.place) ⟨hfirst, hrange⟩ ?_ ?_
  · rintro p control reply ⟨hp, hrange⟩ hcourse
    obtain ⟨between, hto, hon⟩ := hcourse.moves
    exact ⟨hcourse.coherent hp hrange, (hrange.move hto).move hon⟩
  · rintro p timers events ⟨hp, hrange⟩
    exact ⟨{ hp with }, hrange⟩

omit [TimerSource σ] in
/-- A new player is coherent, and at the start. -/
theorem coherent_create {registry : Registry} {puzzle : Puzzle} {source : ProgramSource}
    {timers : σ} {preferences : Preferences} {hours : Nat → Nat} {first : Player σ}
    (h : create registry puzzle source timers preferences hours = .ok first) :
    Coherent first ∧ InRange first.place := by
  obtain ⟨rules, reference, _, _, rfl⟩ := create_eq_ok h
  exact ⟨coherent_idle rfl rfl rfl rfl rfl, inRange_outset _ _⟩

/-- **Status, timer, program and outcome agree.** Whatever a host does with a player of any rules:
the player is coherent, its counter stays within the program, and the latest action is the one
before the counter. -/
theorem coherent_of_reachable {registry : Registry} {puzzle : Puzzle} {source : ProgramSource}
    {timers : σ} {preferences : Preferences} {hours : Nat → Nat} {first p : Player σ}
    (hcreate : create registry puzzle source timers preferences hours = .ok first)
    (hreach : Reachable first p) :
    Coherent p ∧ p.step ≤ p.programSize ∧
      p.latestIndex = (if p.step = 0 then none else some (p.step - 1)) ∧
      (p.step = 0 → p.latestAction = none) ∧
      (0 < p.step → ∃ program action, p.program = some program ∧
        program.actions[p.step - 1]? = some action ∧ p.latestAction = some action) := by
  obtain ⟨rules, reference, _, _, rfl⟩ := create_eq_ok hcreate
  obtain ⟨hp, hrange⟩ := hreach.coherent (coherent_idle rfl rfl rfl rfl rfl)
    (inRange_outset _ _)
  have hlatest : p.latestIndex = if p.step = 0 then none else some (p.step - 1) := hrange.latest
  have hle : p.step ≤ p.programSize := by
    rw [programSize_eq]
    exact hrange.step_le
  refine ⟨hp, hle, hlatest, fun hzero => ?_, fun hpos => ?_⟩
  · rw [latestAction, hlatest, if_pos hzero]
    rfl
  · cases hprogram : p.program with
    | none => exact absurd (hp.idle (hp.unloaded hprogram)).2.1 (Nat.ne_of_gt hpos)
    | some program =>
      have hlt : p.step - 1 < program.actions.length := by
        have hsize : p.programSize = program.actions.length := by rw [programSize, hprogram]; rfl
        omega
      have haction := List.getElem?_eq_getElem hlt
      refine ⟨program, _, rfl, haction, ?_⟩
      rw [latestAction, hlatest, if_neg (Nat.ne_of_gt hpos)]
      show p.program.bind _ = _
      rw [hprogram]
      exact haction

/-- After the last line the verdict is waited for, also through a pause. -/
theorem coherent_of_reachable_novice :
    let first := novice RequestQueue.empty
    let p := (((first.obey .play).player.obey (.deliver 1)).player.obey .pause).player
    Reachable first p ∧ p.alarm = some ⟨2, .announce .verdict⟩ ∧ p.status = .paused ∧
      p.step = p.programSize ∧ p.outcome = none := by
  intro first p
  have hreach : Reachable first p := .obey .pause (.obey (.deliver 1) (.obey .play .refl))
  have halarm : p.alarm = some ⟨2, .announce .verdict⟩ := rfl
  have hp := (coherent_of_reachable (create_novice _) hreach).1
  exact ⟨hreach, halarm, rfl, hp.verdict 2 halarm, hp.outcome_eq_none (.inr rfl)⟩

end PuzzlePlayback.Player
