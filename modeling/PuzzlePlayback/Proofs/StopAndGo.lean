import PuzzlePlayback.Proofs.PlayOut
import PuzzlePlayback.Proofs.Verdict

/-!
# Stopping and going makes no difference

A program can be played in one go, or paused, stepped, slowed down and started over at will. It
comes to the same.

What a program comes to is a function of the stage alone: `Stage.run` plays actions to the first
one that decides or to the last, and `Stage.oneShot` adds the announcement. A host that neither
travels nor exchanges the program (`StopAndGo`) leaves the player `OnTrack`: playing the rest of
the program from where it stands comes to what the whole program comes to. So each outcome is the
outcome of `oneShot`, and each fault is its fault.

Playing in one go is such a history too, and it ends (`playFor_ends`). So the two agree.

Main result: `stop_and_go_agrees`.
-/

namespace PuzzlePlayback

/-! ## What a program comes to -/

/-- A run that came to its end and is not announced yet. -/
structure Arrival where
  state : Option World
  step : Nat
  ending : Ending

/-- A run that is over. -/
structure Finish where
  state : Option World
  step : Nat
  outcome : Outcome

namespace Stage

/-- Play actions from a state, the first of them at the given index, to the first one that decides
or to the last. -/
def run (stage : Stage) (state : Option World) (index : Nat) :
    List Action → Except StepFault Arrival
  | [] => .ok ⟨state, index, .verdict⟩
  | action :: rest =>
    match stage.transition state action with
    | .error fault => .error (fault.at index)
    | .ok t =>
      match t.signal with
      | .win => .ok ⟨some t.state, index + 1, .win⟩
      | .lost => .ok ⟨some t.state, index + 1, .lose⟩
      | .running => stage.run (some t.state) (index + 1) rest

/-- Announce what an arrival comes to, with a program of so many blocks and after so many wins. -/
def resolve (stage : Stage) (blockCount : UInt32) (wins : Nat) (arrival : Arrival) :
    Except StepFault Finish :=
  match arrival.ending with
  | .win => .ok ⟨arrival.state, arrival.step, stage.winOutcome blockCount wins⟩
  | .lose => .ok ⟨arrival.state, arrival.step, stage.endOutcome blockCount .lost⟩
  | .verdict =>
    match stage.solved arrival.state with
    | .ok true => .ok ⟨arrival.state, arrival.step, stage.winOutcome blockCount wins⟩
    | .ok false => .ok ⟨arrival.state, arrival.step, stage.endOutcome blockCount .failed⟩
    | .error fault => .error (fault.at arrival.step)

/-- Play a program from its start and announce what it comes to, after so many wins. -/
def oneShot (stage : Stage) (program : Program) (wins : Nat) : Except StepFault Finish :=
  (stage.run none 0 program.actions).bind (stage.resolve program.blockCount wins)

/-- How many wins there were makes no difference at the same hour. -/
theorem oneShot_congr {stage : Stage} {wins others : Nat}
    (h : stage.hours wins = stage.hours others) (program : Program) :
    stage.oneShot program wins = stage.oneShot program others := by
  have hwin : stage.winOutcome program.blockCount wins =
      stage.winOutcome program.blockCount others := by rw [winOutcome, winOutcome, h]
  have hresolve : stage.resolve program.blockCount wins =
      stage.resolve program.blockCount others := by
    funext arrival
    rw [resolve, resolve, hwin]
  rw [oneShot, oneShot, hresolve]

end Stage

namespace Player

/-! ## Hosts that only stop and go -/

/-- The operation neither travels nor exchanges the program. -/
def Plain : Control → Prop
  | .travelTo _ | .useSource _ => False
  | .play | .pause | .stepOnce | .reset | .clear | .moveSlider _ | .deliver _ => True

/-- The players that a host can bring about from `first` by plain operations. Between them it may
take the events and do anything to the timers. -/
inductive StopAndGo {σ : Type} [TimerSource σ] (first : Player σ) : Player σ → Prop
  | refl : StopAndGo first first
  | obey {p : Player σ} (control : Control) : Plain control →
      StopAndGo first p → StopAndGo first (p.obey control).player
  | aside {p : Player σ} (timers : σ) (events : List Event) :
      StopAndGo first p → StopAndGo first { p with timers, events }

/-- A reply on the way: the player as it is, or what a plain operation gives. -/
inductive RepliesTo {σ : Type} [TimerSource σ] (first : Player σ) : Reply σ → Prop
  | done {p : Player σ} : StopAndGo first p → RepliesTo first (.done p)
  | obey {p : Player σ} (control : Control) : Plain control → StopAndGo first p →
      RepliesTo first (p.obey control)

variable {σ : Type} [TimerSource σ]

theorem StopAndGo.reachable {first p : Player σ} (h : StopAndGo first p) : Reachable first p := by
  induction h with
  | refl => exact .refl
  | obey control _ _ ih => exact .obey control ih
  | aside timers events _ ih => exact .aside timers events ih

/-! ## On track -/

/-- Playing the rest of the program from this place comes to what the whole program comes to. -/
def Place.Heads (program : Program) (a : Place) : Prop :=
  a.stage.run a.state a.step (program.actions.drop a.step) =
    a.stage.run none 0 program.actions

theorem heads_outset (stage : Stage) (program : Program) (loaded : Option Program) :
    Place.Heads program (.outset stage loaded) := rfl

/-- Every compilation gives the program, and no other is loaded. -/
structure Keeps (program : Program) (p : Player σ) : Prop where
  source : ∀ n, p.source.answer n = .ok program
  loaded : ∀ other, p.program = some other → other = program

/-- A player of one program that was only stopped and started. -/
structure OnTrack (program : Program) (p : Player σ) : Prop extends Keeps program p where
  /-- Before an ending the rest of the program is still to be played. -/
  ahead : p.outcome = none → p.isEnding = false → p.place.Heads program
  /-- The ending that waits is that of the program. -/
  pending : ∀ timer ending, p.alarm = some ⟨timer, .announce ending⟩ →
    p.stage.run none 0 program.actions = .ok ⟨p.state, p.step, ending⟩
  /-- The outcome is that of the program, at the hour of the latest win. -/
  finished : ∀ outcome, p.outcome = some outcome →
    p.stage.oneShot program (p.wins - 1) = .ok ⟨p.state, p.step, outcome⟩

/-- A reply that leaves the player on track, and whose error is the fault of the program. -/
structure RepliesOnTrack (program : Program) (reply : Reply σ) : Prop where
  player : OnTrack program reply.player
  error : ∀ error, reply.error = some error → ∃ fault, error = .fault fault ∧
    ∀ wins, reply.player.stage.oneShot program wins = .error fault

variable {program : Program} {p q : Player σ}

omit [TimerSource σ] in
/-- Before an ending, with nothing to announce, a player is on track if its place is. -/
theorem onTrack_midway (hkeeps : Keeps program p) (houtcome : p.outcome = none)
    (hending : p.isEnding = false) (hplace : p.place.Heads program) : OnTrack program p where
  toKeeps := hkeeps
  ahead _ _ := hplace
  pending timer ending h := by simp [isEnding, h] at hending
  finished outcome h := nomatch houtcome.symm.trans h

/-- A player that waits for the ending of the program is on track. -/
theorem onTrack_awaitAnnouncement {ending : Ending} (hkeeps : Keeps program q)
    (houtcome : q.outcome = none)
    (hrun : q.stage.run none 0 program.actions = .ok ⟨q.state, q.step, ending⟩) :
    OnTrack program (q.awaitAnnouncement ending) := by
  obtain ⟨timer, timers, hawait⟩ := q.awaitAnnouncement_eq ending
  rw [hawait]
  refine ⟨⟨hkeeps.source, hkeeps.loaded⟩, fun _ h => (nomatch h), fun t e halarm => ?_,
    fun o h => (nomatch houtcome.symm.trans h)⟩
  obtain rfl : ending = e := by simpa using congrArg (Option.map Alarm.duty) halarm
  exact hrun

theorem onTrack_awaitAdvance (hkeeps : Keeps program q) (houtcome : q.outcome = none)
    (hplace : q.place.Heads program) : OnTrack program q.awaitAdvance := by
  obtain ⟨timer, timers, hawait⟩ := q.awaitAdvance_eq
  rw [hawait]
  exact onTrack_midway ⟨hkeeps.source, hkeeps.loaded⟩ houtcome rfl hplace

/-- A player that stops because of the fault of the program is on track. -/
theorem onTrack_halt {fault : StepFault} (hkeeps : Keeps program q) (houtcome : q.outcome = none)
    (hplace : q.place.Heads program)
    (hfault : ∀ wins, q.stage.oneShot program wins = .error fault) :
    RepliesOnTrack program (q.halt fault) where
  player := by
    rw [halt_player]
    exact onTrack_midway ⟨hkeeps.source, hkeeps.loaded⟩ houtcome rfl hplace
  error error h := by
    cases h
    rw [halt_player]
    exact ⟨fault, rfl, hfault⟩

omit [TimerSource σ] in
theorem repliesOnTrack_done (h : OnTrack program p) : RepliesOnTrack program (.done p) :=
  ⟨h, nofun⟩

/-! ## Each course stays on track -/

omit [TimerSource σ] in
/-- With an action left to play, the whole program comes to what that action and the rest do. -/
theorem Place.Heads.next {a : Place} (h : a.Heads program) {action : Action}
    (haction : program.actions[a.step]? = some action) :
    a.stage.run none 0 program.actions =
      a.stage.run a.state a.step (action :: program.actions.drop (a.step + 1)) := by
  obtain ⟨hlt, hget⟩ := List.getElem?_eq_some_iff.1 haction
  rw [← h, List.drop_eq_getElem_cons hlt, hget]

omit [TimerSource σ] in
/-- At the end of the program the verdict is what the whole program comes to. -/
theorem Place.Heads.ended {a : Place} (h : a.Heads program) (hend : program.size ≤ a.step) :
    a.stage.run none 0 program.actions = .ok ⟨a.state, a.step, .verdict⟩ := by
  rw [← h, List.drop_eq_nil_of_le hend]
  rfl

theorem Played.onTrack {auto : Bool} {reply : Reply σ} (h : Played q auto reply)
    (hq : Poised q auto) (hkeeps : Keeps program q) (hplace : q.place.Heads program) :
    RepliesOnTrack program reply := by
  obtain ⟨loaded, hloaded⟩ := Option.ne_none_iff_exists'.1 hq.program
  obtain rfl := hkeeps.loaded _ hloaded
  have hsize : q.programSize = loaded.size := by rw [programSize, hloaded]
  have next {action : Action} (haction : q.action? q.step = some action) :
      q.stage.run none 0 loaded.actions =
        q.stage.run q.state q.step (action :: loaded.actions.drop (q.step + 1)) :=
    hplace.next (by rwa [action?, hloaded] at haction)
  -- What is still to be done once an action is played that does not decide.
  have onward {action : Action} {t : Transition} (haction : q.action? q.step = some action)
      (ht : q.stage.transition q.state action = .ok t) (hsignal : t.signal = .running) :
      (q.commit t.state).place.Heads loaded := by
    have hrun := next haction
    simp only [Stage.run, ht, hsignal] at hrun
    exact hrun.symm
  have hcommit (state : World) : Keeps loaded (q.commit state) := ⟨hkeeps.source, hkeeps.loaded⟩
  cases h with
  | ended hend =>
    exact repliesOnTrack_done
      (onTrack_awaitAnnouncement hkeeps hq.outcome (hplace.ended (hsize ▸ hend)))
  | faulted haction ht =>
    refine onTrack_halt hkeeps hq.outcome hplace fun wins => ?_
    rw [Stage.oneShot, next haction]
    simp only [Stage.run, ht]
    rfl
  | @won _ t haction ht hsignal =>
    refine repliesOnTrack_done (onTrack_awaitAnnouncement (hcommit t.state) hq.outcome ?_)
    have hrun := next haction
    simp only [Stage.run, ht, hsignal] at hrun
    exact hrun
  | @lost _ t haction ht hsignal =>
    refine repliesOnTrack_done (onTrack_awaitAnnouncement (hcommit t.state) hq.outcome ?_)
    have hrun := next haction
    simp only [Stage.run, ht, hsignal] at hrun
    exact hrun
  | @last _ t haction ht hsignal hlast =>
    refine repliesOnTrack_done (onTrack_awaitAnnouncement (hcommit t.state) hq.outcome ?_)
    exact (onward haction ht hsignal).ended (hsize ▸ hlast)
  | @onward _ t haction ht hsignal _ _ =>
    exact repliesOnTrack_done
      (onTrack_awaitAdvance (hcommit t.state) hq.outcome (onward haction ht hsignal))
  | @held _ t haction ht hsignal _ _ =>
    refine repliesOnTrack_done (onTrack_midway (hcommit t.state) hq.outcome ?_
      (onward haction ht hsignal))
    show q.isEnding = false
    rw [isEnding, hq.alarm]

/-- The announcement of the ending of the program gives the outcome of the program. -/
theorem Announced.onTrack {ending : Ending} {reply : Reply σ} (h : Announced p ending reply)
    (hkeeps : Keeps program p) (hprogram : p.program ≠ none) (halarm : p.alarm = none)
    (houtcome : p.outcome = none)
    (hrun : p.stage.run none 0 program.actions = .ok ⟨p.state, p.step, ending⟩)
    (hend : ending = .verdict → p.step = p.programSize) : RepliesOnTrack program reply := by
  obtain ⟨loaded, hloaded⟩ := Option.ne_none_iff_exists'.1 hprogram
  obtain rfl := hkeeps.loaded _ hloaded
  have hblocks : p.blockCount = loaded.blockCount := by rw [blockCount, hloaded]
  have hshot (wins : Nat) : p.stage.oneShot loaded wins =
      p.stage.resolve p.blockCount wins ⟨p.state, p.step, ending⟩ := by
    rw [Stage.oneShot, hrun, hblocks]
    rfl
  have concludes {outcome : Outcome} (wins : Nat)
      (hresolve : p.stage.oneShot loaded (wins - 1) = .ok ⟨p.state, p.step, outcome⟩) :
      RepliesOnTrack loaded ({ p with wins }.conclude outcome) := by
    refine repliesOnTrack_done ⟨⟨hkeeps.source, hkeeps.loaded⟩, ?_, ?_, ?_⟩
    · intro hnone
      cases hnone
    · intro timer waiting hwaiting
      cases halarm.symm.trans hwaiting
    · intro o ho
      cases ho
      exact hresolve
  cases h with
  | win => exact concludes (p.wins + 1) (hshot p.wins)
  | lose => exact concludes p.wins (hshot (p.wins - 1))
  | solved hsolved =>
    refine concludes (p.wins + 1) ?_
    rw [Nat.add_sub_cancel, hshot, Stage.resolve, hsolved]
  | unsolved hsolved => exact concludes p.wins (by rw [hshot, Stage.resolve, hsolved])
  | faulted hsolved =>
    refine onTrack_halt hkeeps houtcome ?_ fun wins => by rw [hshot, Stage.resolve, hsolved]
    have hsize : p.step = loaded.size := by rw [hend rfl, programSize, hloaded]
    show p.stage.run p.state p.step (loaded.actions.drop p.step) =
      p.stage.run none 0 loaded.actions
    rw [hrun, List.drop_eq_nil_of_le (Nat.le_of_eq hsize.symm)]
    rfl

/-- A turn finds the player where the rest of the program is still to be played. -/
theorem Turn.heads {control : Control} {auto : Bool} (h : Turn p control q auto)
    (hp : OnTrack program p) (hcoherent : Coherent p) :
    Keeps program q ∧ q.place.Heads program := by
  cases h with
  | @fresh _ status loaded _ hanswer =>
    have hloaded : loaded = program :=
      Except.ok.inj (hanswer.symm.trans (hp.source p.source.requests))
    refine ⟨⟨?_, fun other hother => ?_⟩, ?_⟩
    · have hsource : (p.opened loaded status).source = p.source.ask.2 := rfl
      rw [hsource]
      exact hp.source
    · cases hother
      exact hloaded
    · rw [place_opened]
      exact heads_outset _ _ _
  | interrupted hending hrunning =>
    have houtcome := hcoherent.outcome_eq_none (.inl hrunning)
    have hpause : p.pause.source = p.source ∧ p.pause.program = p.program := by
      rw [pause, if_pos hrunning, hending, cancelAlarm_eq]
      exact ⟨rfl, rfl⟩
    refine ⟨⟨hpause.1 ▸ hp.source, hpause.2 ▸ hp.loaded⟩, ?_⟩
    rw [place_pause]
    exact hp.ahead houtcome hending
  | single hending hpaused =>
    exact ⟨hp.toKeeps, hp.ahead (hcoherent.outcome_eq_none (.inr hpaused)) hending⟩
  | due halarm hrunning =>
    refine ⟨⟨hp.source, hp.loaded⟩, ?_⟩
    exact hp.ahead (hcoherent.outcome_eq_none (.inl hrunning)) (by rw [isEnding, halarm])

theorem OnTrack.resume (h : OnTrack program p) (houtcome : p.outcome = none) :
    OnTrack program p.resume := by
  unfold Player.resume
  dsimp only
  split
  · next hnone =>
    have halarm : p.alarm = none := Option.isNone_iff_eq_none.1 hnone
    refine onTrack_awaitAdvance ⟨h.source, h.loaded⟩ houtcome ?_
    exact h.ahead houtcome (by rw [isEnding, halarm])
  · exact ⟨⟨h.source, h.loaded⟩, h.ahead, h.pending, h.finished⟩

theorem OnTrack.pause (h : OnTrack program p) (hrunning : p.status = .running)
    (houtcome : p.outcome = none) : OnTrack program p.pause := by
  rw [Player.pause, if_pos hrunning]
  cases hending : p.isEnding with
  | true => exact ⟨⟨h.source, h.loaded⟩, h.ahead, h.pending, h.finished⟩
  | false =>
    rw [cancelAlarm_eq]
    exact onTrack_midway ⟨h.source, h.loaded⟩ houtcome rfl (h.ahead houtcome hending)

/-- Whatever a plain operation comes to, the player stays on track. -/
theorem Course.onTrack {control : Control} {reply : Reply σ} (h : Course p control reply)
    (hplain : Plain control) (hp : OnTrack program p) (hcoherent : Coherent p) :
    RepliesOnTrack program reply := by
  cases h with
  | @turned _ q auto turn =>
    obtain ⟨hkeeps, hplace⟩ := turn.heads hp hcoherent
    exact (q.played auto).onTrack (turn.poised hcoherent) hkeeps hplace
  | refused _ hanswer => cases hanswer.symm.trans (hp.source p.source.requests)
  | resumed hpaused =>
    exact repliesOnTrack_done (hp.resume (hcoherent.outcome_eq_none (.inr hpaused)))
  | paused hrunning =>
    exact repliesOnTrack_done (hp.pause hrunning (hcoherent.outcome_eq_none (.inl hrunning)))
  | pauseIgnored _ => exact repliesOnTrack_done hp
  | stepIgnored _ => exact repliesOnTrack_done hp
  | rewound =>
    rw [reset_eq]
    exact repliesOnTrack_done
      (onTrack_midway ⟨hp.source, hp.loaded⟩ rfl rfl (heads_outset _ _ _))
  | cleared =>
    rw [clear, reset_eq]
    refine repliesOnTrack_done
      (onTrack_midway ⟨hp.source, fun other h => ?_⟩ rfl rfl (heads_outset _ _ none))
    cases h
  | exchanged => exact hplain.elim
  | lost _ => exact hplain.elim
  | traveled _ _ => exact hplain.elim
  | strayed _ _ => exact hplain.elim
  | slid => exact repliesOnTrack_done ⟨⟨hp.source, hp.loaded⟩, hp.ahead, hp.pending, hp.finished⟩
  | @announced timer ending halarm =>
    have hmidway := hcoherent.midway halarm
    refine (Player.announced { p with alarm := none } ending).onTrack ⟨hp.source, hp.loaded⟩
      (hcoherent.program_ne_none ?_) rfl (hcoherent.outcome_eq_none hmidway)
      (hp.pending timer ending halarm) ?_
    · rcases hmidway with h | h <;> simp [h]
    · rintro rfl
      exact hcoherent.verdict timer halarm
  | dropped halarm hstatus => exact absurd (hcoherent.advance _ halarm) hstatus
  | stale _ => exact repliesOnTrack_done hp

/-! ## Both ways of playing -/

theorem StopAndGo.onTrack {first : Player σ} (h : StopAndGo first p)
    (hfirst : OnTrack program first) (hcoherent : Coherent first)
    (hrange : InRange first.place) : OnTrack program p := by
  induction h with
  | refl => exact hfirst
  | obey _ hplain hrun ih =>
    exact ((course _ _).onTrack hplain ih (hrun.reachable.coherent hcoherent hrange).1).player
  | aside _ _ _ ih => exact ⟨⟨ih.source, ih.loaded⟩, ih.ahead, ih.pending, ih.finished⟩

omit [TimerSource σ] in
/-- A new player of a program is on track. -/
theorem onTrack_create {registry : Registry} {puzzle : Puzzle} {timers : σ}
    {preferences : Preferences} {hours : Nat → Nat} {first : Player σ}
    (h : create registry puzzle (.always program) timers preferences hours = .ok first) :
    OnTrack program first ∧ Coherent first ∧ InRange first.place := by
  refine ⟨?_, coherent_create h⟩
  obtain ⟨rules, reference, _, _, rfl⟩ := create_eq_ok h
  exact onTrack_midway ⟨fun _ => rfl, nofun⟩ rfl rfl (heads_outset _ _ none)

section

variable {first : Player σ} (hfirst : OnTrack program first) (hcoherent : Coherent first)
  (hrange : InRange first.place)

include hfirst hcoherent hrange

/-- A reply on the way is on track, and its player is coherent on the same stage. -/
theorem RepliesTo.onTrack {reply : Reply σ} (h : RepliesTo first reply) :
    RepliesOnTrack program reply ∧ Coherent reply.player ∧ InRange reply.player.place ∧
      reply.player.stage = first.stage := by
  cases h with
  | done hrun =>
    have hp := hrun.reachable.coherent hcoherent hrange
    exact ⟨repliesOnTrack_done (hrun.onTrack hfirst hcoherent hrange), hp.1, hp.2,
      hrun.reachable.stage_eq⟩
  | @obey p control hplain hrun =>
    have hp := hrun.reachable.coherent hcoherent hrange
    have hcourse := p.course control
    have hobey : StopAndGo first (p.obey control).player := .obey control hplain hrun
    exact ⟨hcourse.onTrack hplain (hrun.onTrack hfirst hcoherent hrange) hp.1,
      hcourse.coherent hp.1 hp.2, hcourse.inRange hp.2, hobey.reachable.stage_eq⟩

/-- The error of a reply on the way is the fault of the program. -/
theorem RepliesTo.fault {reply : Reply σ} (h : RepliesTo first reply) {error : PlaybackError}
    (herror : reply.error = some error) :
    ∃ fault, error = .fault fault ∧ ∀ wins, first.stage.oneShot program wins = .error fault := by
  obtain ⟨htrack, _, _, hstage⟩ := h.onTrack hfirst hcoherent hrange
  rw [← hstage]
  exact htrack.error error herror

/-- Once a run is over, status, state, counter, latest action and outcome are those that the
program comes to. -/
theorem RepliesTo.finish {reply : Reply σ} (h : RepliesTo first reply)
    (hover : reply.player.status.isOver = true) :
    ∃ finish, first.stage.oneShot program (reply.player.wins - 1) = .ok finish ∧
      reply.player.status = finish.outcome.status ∧ reply.player.state = finish.state ∧
      reply.player.step = finish.step ∧ reply.player.outcome = some finish.outcome ∧
      reply.player.latestAction =
        if finish.step = 0 then none else program.actions[finish.step - 1]? := by
  obtain ⟨htrack, hp, hin, hstage⟩ := h.onTrack hfirst hcoherent hrange
  obtain ⟨outcome, houtcome⟩ := hp.outcome_iff.2 (isOver_iff.1 hover)
  have hprogram : reply.player.program ≠ none := hp.program_ne_none fun hidle => by
    simp [hidle, Status.isOver] at hover
  obtain ⟨loaded, hloaded⟩ := Option.ne_none_iff_exists'.1 hprogram
  obtain rfl := htrack.player.loaded _ hloaded
  refine ⟨⟨reply.player.state, reply.player.step, outcome⟩, ?_, ?_, rfl, rfl, houtcome, ?_⟩
  · rw [← hstage]
    exact htrack.player.finished outcome houtcome
  · exact (hp.outcome_eq outcome houtcome).1.symm
  · have hlatest : reply.player.latestIndex =
        if reply.player.step = 0 then none else some (reply.player.step - 1) := hin.latest
    rw [latestAction, hlatest]
    split
    · rfl
    · show reply.player.program.bind _ = _
      rw [hloaded]
      rfl

end

/-- Playing out is stopping and going. -/
theorem playFor_repliesTo {first p : Player ManualClock} (h : StopAndGo first p) (n : Nat) :
    RepliesTo first (playFor n p) := by
  induction n generalizing p with
  | zero => exact .done h
  | succ n ih =>
    cases hnext : p.deliverNext with
    | none =>
      rw [playFor_of_none hnext]
      exact .done h
    | some delivered =>
      obtain ⟨timer, reply⟩ := delivered
      obtain ⟨clock, _, rfl⟩ := deliverNext_eq_some hnext
      have hpopped : StopAndGo first (p.onClock clock) := .aside clock p.events h
      have hobey : StopAndGo first ((p.onClock clock).obey (.deliver timer)).player :=
        .obey _ trivial hpopped
      rw [playFor_of_some hnext]
      cases herror : ((p.onClock clock).deliver timer).error with
      | none =>
        rw [Reply.andThen_of_done herror]
        exact ih hobey
      | some error =>
        rw [Reply.andThen_of_error herror]
        exact .obey (.deliver timer) trivial hpopped

/-- The first action makes a new player wait. -/
theorem engaged_play {first : Player ManualClock} (hidle : first.status = .idle)
    (herror : first.play.error = none) : Engaged first.play.player := by
  have hcourse := first.course_play
  generalize first.play = reply at hcourse herror
  cases hcourse with
  | turned turn =>
    cases turn with
    | fresh hstarts _ =>
      cases hstarts with
      | play _ => exact .inl ((Player.played _ _).timersAhead_le herror).1
  | refused _ _ => cases herror
  | resumed hpaused => exact nomatch hidle.symm.trans hpaused

/-- A new player is ready to be played, and has announced nothing. -/
theorem ready_create {registry : Registry} {puzzle : Puzzle} {source : ProgramSource}
    {timers : ManualClock} {preferences : Preferences} {hours : Nat → Nat}
    {first : Player ManualClock}
    (h : create registry puzzle source timers preferences hours = .ok first) :
    Ready first ∧ first.status = .idle ∧ first.wins = 0 := by
  obtain ⟨hcoherent, hrange⟩ := coherent_create h
  obtain ⟨_, _, _, _, rfl⟩ := create_eq_ok h
  exact ⟨⟨hcoherent, hrange, nofun⟩, rfl, rfl⟩

/-- Playing in one go is a way of stopping and going, and without an error it comes to an
outcome. -/
theorem straight_ends {first : Player ManualClock} (hready : Ready first)
    (hidle : first.status = .idle) :
    RepliesTo first (first.play.andThen playOut) ∧
      ((first.play.andThen playOut).error = none →
        (first.play.andThen playOut).player.status.isOver = true) := by
  cases herror : first.play.error with
  | some error =>
    rw [Reply.andThen_of_error herror]
    refine ⟨.obey .play trivial .refl, fun h => ?_⟩
    exact nomatch herror.symm.trans h
  | none =>
    rw [Reply.andThen_of_done herror]
    have hplay : StopAndGo first (first.obey .play).player := .obey _ trivial .refl
    have hnext : Ready first.play.player := hready.course first.course_play
    refine ⟨playFor_repliesTo hplay _, fun hdone => ?_⟩
    exact (playFor_ends hnext (deliveries_le_deliveryBound _) hdone).2.2
      (engaged_play hidle herror)

/-- No win has been announced, or one, and then nothing is pending. -/
def OneWin (p : Player σ) : Prop := p.wins = 0 ∨ p.wins ≤ 1 ∧ p.alarm = none

omit [TimerSource σ] in
theorem OneWin.le (h : OneWin p) : p.wins ≤ 1 :=
  h.elim (fun hnone => hnone ▸ Nat.zero_le 1) And.left

theorem Course.oneWin {control : Control} {reply : Reply σ} (h : Course p control reply)
    (hnone : p.wins = 0) : OneWin reply.player := by
  rcases h.wins_le with hsame | ⟨-, hle, hquiet⟩
  · exact .inl (hsame.trans hnone)
  · rw [hnone] at hle
    exact .inr ⟨hle, hquiet⟩

theorem OneWin.deliver (h : OneWin p) (timer : TimerNumber) :
    OneWin (p.obey (.deliver timer)).player := by
  rcases h with hnone | ⟨hle, hquiet⟩
  · exact (p.course _).oneWin hnone
  · have hstale : p.obey (.deliver timer) = .done p :=
      deliver_stale (by simp [pendingTimer, hquiet])
    rw [hstale]
    exact .inr ⟨hle, hquiet⟩

/-- Playing in one go announces one win at most. -/
theorem straight_wins_le {first : Player ManualClock} (hnew : first.wins = 0) :
    (first.play.andThen playOut).player.wins ≤ 1 := by
  have hplay : OneWin first.play.player := first.course_play.oneWin hnew
  cases herror : first.play.error with
  | some error =>
    rw [Reply.andThen_of_error herror]
    exact hplay.le
  | none =>
    rw [Reply.andThen_of_done herror]
    rcases playFor_cases hplay (fun _ h => h) (fun timer h => h.deliver timer)
      first.play.player.deliveryBound with ⟨q, hq, hdone⟩ | ⟨q, timer, hq, hdone⟩
    · rw [playOut, hdone]
      exact hq.le
    · rw [playOut, hdone]
      exact (hq.deliver timer).le

/-- **Stopping and going makes no difference.** Take a program and two new players of it, and let
a host play, pause, step, start over, change the pace and deliver timers with the one as it
likes. Once a run is over, it is where playing the program in one go with the other ends: with the
same status, state, counter, latest action and outcome. And an operation that fails, fails with
the fault that playing in one go reports. -/
theorem stop_and_go_agrees {registry : Registry} {puzzle : Puzzle} {timers : σ}
    {preferences others : Preferences} {hour : Nat} {first p : Player σ}
    {second : Player ManualClock}
    (hfirst : create registry puzzle (.always program) timers preferences (fun _ => hour) =
      .ok first)
    (hsecond : create registry puzzle (.always program) .atZero others (fun _ => hour) =
      .ok second)
    (hrun : StopAndGo first p) :
    let straight := second.play.andThen playOut
    (p.status.isOver = true → straight.error = none ∧ straight.player.status = p.status ∧
      straight.player.state = p.state ∧ straight.player.step = p.step ∧
      straight.player.latestAction = p.latestAction ∧ straight.player.outcome = p.outcome) ∧
    (∀ control error, Plain control → (p.obey control).error = some error →
      (∃ fault, error = .fault fault) ∧ straight.error = some error) := by
  intro straight
  obtain ⟨htrack, hcoherent, hrange⟩ := onTrack_create hfirst
  obtain ⟨htrack', hcoherent', hrange'⟩ := onTrack_create hsecond
  have hstage : second.stage = first.stage := stage_eq_of_create hfirst hsecond
  have hsteady (wins others : Nat) :
      first.stage.oneShot program wins = first.stage.oneShot program others := by
    obtain ⟨_, _, _, _, rfl⟩ := create_eq_ok hfirst
    exact Stage.oneShot_congr rfl program
  obtain ⟨hready, hidle, -⟩ := ready_create hsecond
  obtain ⟨hreplies, hends⟩ := straight_ends hready hidle
  refine ⟨fun hover => ?_, fun control error hplain herror => ?_⟩
  · obtain ⟨finish, hshot, hstatus, hstate, hstep, houtcome, hlatest⟩ :=
      RepliesTo.finish htrack hcoherent hrange (.done hrun) hover
    have hnone : straight.error = none := by
      cases hstraight : straight.error with
      | none => rfl
      | some error =>
        obtain ⟨fault, _, hfault⟩ := hreplies.fault htrack' hcoherent' hrange' hstraight
        cases hshot.symm.trans (hstage ▸ hfault _)
    obtain ⟨other, hshot', hstatus', hstate', hstep', houtcome', hlatest'⟩ :=
      hreplies.finish htrack' hcoherent' hrange' (hends hnone)
    rw [hstage, hsteady _ ((Reply.done p).player.wins - 1), hshot] at hshot'
    cases hshot'
    exact ⟨hnone, hstatus'.trans hstatus.symm, hstate'.trans hstate.symm,
      hstep'.trans hstep.symm, hlatest'.trans hlatest.symm, houtcome'.trans houtcome.symm⟩
  · obtain ⟨fault, rfl, hshot⟩ :=
      RepliesTo.fault htrack hcoherent hrange (.obey control hplain hrun) herror
    refine ⟨⟨fault, rfl⟩, ?_⟩
    cases hstraight : straight.error with
    | none =>
      obtain ⟨_, hshot', _⟩ := hreplies.finish htrack' hcoherent' hrange' (hends hstraight)
      rw [hstage, hshot] at hshot'
      cases hshot'
    | some error =>
      obtain ⟨fault', rfl, hshot'⟩ := hreplies.fault htrack' hcoherent' hrange' hstraight
      cases (hshot 0).symm.trans (hstage ▸ hshot' 0)
      rfl

/-- The first line in a single step, then play, then the second line in a single step before the
timer is due: the verdict is the one of playing in one go. -/
theorem stop_and_go_agrees_novice :
    let first := novice RequestQueue.empty
    let controls := [.stepOnce, .play, .stepOnce, .deliver 1, .deliver 2]
    let p := controls.foldl (fun p control => (p.obey control).player) first
    let straight := (novice ManualClock.atZero).play.andThen playOut
    StopAndGo first p ∧ p.status = .won ∧ straight.error = none ∧
      straight.player.outcome = p.outcome ∧ straight.player.state = p.state := by
  intro first controls p straight
  have hrun : StopAndGo first p := by
    refine .obey (.deliver 2) trivial (.obey (.deliver 1) trivial ?_)
    exact .obey .stepOnce trivial (.obey .play trivial (.obey .stepOnce trivial .refl))
  have hwon : p.status = .won := rfl
  obtain ⟨herror, _, hstate, _, _, houtcome⟩ :=
    (stop_and_go_agrees (create_novice _) (create_novice _) hrun).1 (by rw [hwon]; rfl)
  exact ⟨hrun, hwon, herror, houtcome, hstate⟩

end Player

end PuzzlePlayback
