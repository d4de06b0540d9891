import PuzzlePlayback.Proofs.Moves

/-!
# What an operation comes to

Whatever a host asks of a player comes to one of a few things: nothing, a change of pace, a fresh
start, the next action, an announcement, a journey.

* `Control` — the operations as data, and `obey` — what they do.
* `Turn` — an operation that lets the player play its next action, and the player it finds then.
* `Played`, `Announced` — all that playing an action and announcing an outcome can come to.
* `Course` — all that an operation can come to. `course` says that nothing else happens.

Later proofs go by cases on these relations and never open an operation.
-/

namespace PuzzlePlayback

/-- What a host can ask of a player. -/
inductive Control
  | play
  | pause
  | stepOnce
  | reset
  | clear
  | useSource (source : ProgramSource)
  | travelTo (n : Nat)
  | moveSlider (speed : UInt8)
  | deliver (timer : TimerNumber)

namespace Player

variable {σ : Type} [TimerSource σ]

/-- Do what the host asks. -/
def obey (p : Player σ) : Control → Reply σ
  | .play => p.play
  | .pause => .done p.pause
  | .stepOnce => p.stepOnce
  | .reset => .done p.reset
  | .clear => .done p.clear
  | .useSource source => .done (p.useSource source)
  | .travelTo n => p.travelTo n
  | .moveSlider speed => .done (p.moveSlider speed)
  | .deliver timer => p.deliver timer

/-! ## Playing an action -/

/-- All that playing the next action can come to. -/
inductive Played (q : Player σ) (auto : Bool) : Reply σ → Prop
  | ended : q.programSize ≤ q.step → Played q auto (.done (q.awaitAnnouncement .verdict))
  | faulted {action : Action} {fault : Fault} :
      q.action? q.step = some action → q.stage.transition q.state action = .error fault →
      Played q auto (q.halt (fault.at q.step))
  | won {action : Action} {t : Transition} :
      q.action? q.step = some action → q.stage.transition q.state action = .ok t →
      t.signal = .win → Played q auto (.done ((q.commit t.state).awaitAnnouncement .win))
  | lost {action : Action} {t : Transition} :
      q.action? q.step = some action → q.stage.transition q.state action = .ok t →
      t.signal = .lost → Played q auto (.done ((q.commit t.state).awaitAnnouncement .lose))
  | last {action : Action} {t : Transition} :
      q.action? q.step = some action → q.stage.transition q.state action = .ok t →
      t.signal = .running → q.programSize ≤ q.step + 1 →
      Played q auto (.done ((q.commit t.state).awaitAnnouncement .verdict))
  | onward {action : Action} {t : Transition} :
      q.action? q.step = some action → q.stage.transition q.state action = .ok t →
      t.signal = .running → q.step + 1 < q.programSize → auto = true →
      Played q auto (.done (q.commit t.state).awaitAdvance)
  | held {action : Action} {t : Transition} :
      q.action? q.step = some action → q.stage.transition q.state action = .ok t →
      t.signal = .running → q.step + 1 < q.programSize → auto = false →
      Played q auto (.done (q.commit t.state))

theorem played (q : Player σ) (auto : Bool) : Played q auto (q.proceed auto) := by
  unfold proceed
  cases haction : q.action? q.step with
  | none => exact .ended ((q.action?_eq_none_iff _).1 haction)
  | some action =>
    dsimp only
    cases htrans : q.stage.transition q.state action with
    | error fault => exact .faulted haction htrans
    | ok t =>
      dsimp only
      cases hsignal : t.signal with
      | win => exact .won haction htrans hsignal
      | lost => exact .lost haction htrans hsignal
      | running =>
        have hsize : (q.commit t.state).programSize = q.programSize := rfl
        have hstep : (q.commit t.state).step = q.step + 1 := rfl
        rw [follow, hsize, hstep]
        split
        · next hlast => exact .last haction htrans hsignal hlast
        · next hmore =>
          cases auto with
          | true => exact .onward haction htrans hsignal (Nat.lt_of_not_le hmore) rfl
          | false => exact .held haction htrans hsignal (Nat.lt_of_not_le hmore) rfl

/-! ## Announcing an outcome -/

/-- All that announcing an ending can come to. -/
inductive Announced (p : Player σ) : Ending → Reply σ → Prop
  | win : Announced p .win p.concludeWin
  | lose : Announced p .lose (p.conclude (p.stage.endOutcome p.blockCount .lost))
  | solved : p.stage.solved p.state = .ok true → Announced p .verdict p.concludeWin
  | unsolved : p.stage.solved p.state = .ok false →
      Announced p .verdict (p.conclude (p.stage.endOutcome p.blockCount .failed))
  | faulted {fault : Fault} : p.stage.solved p.state = .error fault →
      Announced p .verdict (p.halt (fault.at p.step))

theorem announced (p : Player σ) (ending : Ending) : Announced p ending (p.announce ending) := by
  cases ending with
  | win => exact .win
  | lose => exact .lose
  | verdict =>
    unfold announce
    cases hsolved : p.stage.solved p.state with
    | error fault => exact .faulted hsolved
    | ok verdict =>
      cases verdict with
      | true => exact .solved hsolved
      | false => exact .unsolved hsolved

/-! ## Turns and courses -/

/-- The operation starts a fresh run, which plays on in the given status. -/
inductive Starts (p : Player σ) : Control → Status → Prop
  | play : p.status ≠ .paused → Starts p .play .running
  | stepOnce : p.isEnding = false → p.status ≠ .running → p.status ≠ .paused →
      Starts p .stepOnce .paused

/-- `Turn p control q auto`: asked for `control`, the player `p` comes to play the next action of
`q`, and then goes on by itself if `auto`. -/
inductive Turn (p : Player σ) : Control → Player σ → Bool → Prop
  | fresh {control : Control} {status : Status} {program : Program} :
      Starts p control status → p.source.ask.1 = .ok program →
      Turn p control (p.opened program status) (status = .running)
  | interrupted : p.isEnding = false → p.status = .running → Turn p .stepOnce p.pause false
  | single : p.isEnding = false → p.status = .paused → Turn p .stepOnce p false
  | due {timer : TimerNumber} : p.alarm = some ⟨timer, .advance⟩ → p.status = .running →
      Turn p (.deliver timer) { p with alarm := none } true

/-- All that an operation can come to. -/
inductive Course (p : Player σ) : Control → Reply σ → Prop
  | turned {control : Control} {q : Player σ} {auto : Bool} :
      Turn p control q auto → Course p control (q.proceed auto)
  | refused {control : Control} {status : Status} {error : CompilationError} :
      Starts p control status → p.source.ask.1 = .error error →
      Course p control ⟨p.refused, some (.compile error)⟩
  | resumed : p.status = .paused → Course p .play (.done p.resume)
  | paused : p.status = .running → Course p .pause (.done p.pause)
  | pauseIgnored : p.status ≠ .running → Course p .pause (.done p)
  | stepIgnored : p.isEnding = true → Course p .stepOnce (.done p)
  | rewound : Course p .reset (.done p.reset)
  | cleared : Course p .clear (.done p.clear)
  | exchanged {source : ProgramSource} : Course p (.useSource source) (.done (p.useSource source))
  | lost {n : Nat} : p.program = none → Course p (.travelTo n) ⟨p, some .noProgram⟩
  | traveled {n : Nat} {program : Program} {state : World} : p.program = some program →
      replay p.stage.rules p.stage.puzzle (program.actions.take (min n program.size)) =
        .ok state →
      Course p (.travelTo n) (.done (p.arrived (min n program.size) state))
  | strayed {n : Nat} {program : Program} {fault : StepFault} : p.program = some program →
      replay p.stage.rules p.stage.puzzle (program.actions.take (min n program.size)) =
        .error fault →
      Course p (.travelTo n) ({ p with outcome := none }.halt fault)
  | slid {speed : UInt8} : Course p (.moveSlider speed) (.done (p.moveSlider speed))
  | announced {timer : TimerNumber} {ending : Ending} :
      p.alarm = some ⟨timer, .announce ending⟩ →
      Course p (.deliver timer) ({ p with alarm := none }.announce ending)
  | dropped {timer : TimerNumber} : p.alarm = some ⟨timer, .advance⟩ → p.status ≠ .running →
      Course p (.deliver timer) (.done { p with alarm := none })
  | stale {timer : TimerNumber} : p.pendingTimer ≠ some timer →
      Course p (.deliver timer) (.done p)

/-- A fresh start either compiles and takes its turn, or is refused. -/
theorem course_start {p : Player σ} {control : Control} {status : Status}
    (h : Starts p control status) :
    Course p control ((p.start status).andThen (proceed · (status = .running))) := by
  rw [start_eq]
  cases hanswer : p.source.ask.1 with
  | error error => exact .refused h hanswer
  | ok program => exact .turned (.fresh h hanswer)

theorem course_play (p : Player σ) : Course p .play p.play := by
  unfold play
  split
  · next hpaused => exact .resumed hpaused
  · next hpaused => exact course_start (.play hpaused)

theorem course_pause (p : Player σ) : Course p .pause (.done p.pause) := by
  by_cases hrunning : p.status = .running
  · exact .paused hrunning
  · have hpause : p.pause = p := by rw [pause, if_neg hrunning]
    rw [hpause]
    exact .pauseIgnored hrunning

theorem course_stepOnce (p : Player σ) : Course p .stepOnce p.stepOnce := by
  unfold stepOnce
  split
  · next hending => exact .stepIgnored hending
  · next hending =>
    have hnot : p.isEnding = false := by simpa using hending
    split
    · next hrunning => exact .turned (.interrupted hnot hrunning)
    · next hpaused => exact .turned (.single hnot hpaused)
    · next hrunning hpaused => exact course_start (.stepOnce hnot hrunning hpaused)

theorem course_travelTo (p : Player σ) (n : Nat) : Course p (.travelTo n) (p.travelTo n) := by
  unfold travelTo
  cases hprogram : p.program with
  | none => exact .lost hprogram
  | some program =>
    dsimp only
    rw [cancelAlarm_eq]
    dsimp only
    cases hreplay : replay p.stage.rules p.stage.puzzle
        (program.actions.take (min n program.size)) with
    | error fault =>
      dsimp only
      have hhalt : ({ p with timers := p.silenced, alarm := none, outcome := none } :
          Player σ).halt fault = { p with outcome := none }.halt fault := by
        simp only [halt, cancelAlarm_eq]
        rfl
      rw [hhalt]
      exact .strayed hprogram hreplay
    | ok state =>
      have harrived : p.arrived (min n program.size) state = { p with
          timers := p.silenced, alarm := none, outcome := none, state := some state
          step := min n program.size
          latestIndex :=
            if min n program.size = 0 then none else some (min n program.size - 1)
          status := .paused, events := p.events ++ [.traveled (min n program.size)] } := by
        rw [arrived, cancelAlarm_eq]
      have hcourse := Course.traveled hprogram hreplay
      rw [harrived] at hcourse
      exact hcourse

theorem course_deliver (p : Player σ) (timer : TimerNumber) :
    Course p (.deliver timer) (p.deliver timer) := by
  unfold deliver
  cases halarm : p.alarm with
  | none => exact .stale (by simp [pendingTimer, halarm])
  | some alarm =>
    obtain ⟨number, duty⟩ := alarm
    dsimp only
    by_cases htimer : number = timer
    · subst htimer
      rw [if_neg (by simp)]
      cases duty with
      | advance =>
        by_cases hrunning : p.status = .running
        · have hcourse := Course.turned (.due halarm hrunning)
          simpa only [hrunning, if_true] using hcourse
        · have hcourse := Course.dropped halarm hrunning
          simpa only [hrunning, if_false] using hcourse
      | announce ending => exact .announced halarm
    · rw [if_pos htimer]
      exact .stale (by simpa [pendingTimer, halarm] using htimer)

/-- **Nothing else happens.** Every operation takes one of the courses. -/
theorem course (p : Player σ) (control : Control) : Course p control (p.obey control) := by
  cases control with
  | play => exact p.course_play
  | pause => exact p.course_pause
  | stepOnce => exact p.course_stepOnce
  | reset => exact .rewound
  | clear => exact .cleared
  | useSource source => exact .exchanged
  | travelTo n => exact p.course_travelTo n
  | moveSlider speed => exact .slid
  | deliver timer => exact p.course_deliver timer

/-! ## Steps told -/

/-- An announcement never tells of a step. -/
theorem Announced.told {p : Player σ} {ending : Ending} {reply : Reply σ}
    (h : Announced p ending reply) :
    ∃ event, reply.player.events = p.events ++ [event] ∧
      ∀ step index, event ≠ .stepped step index := by
  cases h with
  | faulted _ => exact ⟨_, p.events_halt _, fun _ _ h => nomatch h⟩
  | _ => exact ⟨_, p.events_conclude _, fun _ _ h => nomatch h⟩

theorem Turn.told {p q : Player σ} {control : Control} {auto : Bool} (h : Turn p control q auto) :
    ∃ told, q.events = p.events ++ told ∧ ∀ step index, .stepped step index ∉ told := by
  cases h with
  | fresh _ _ => exact ⟨_, p.events_opened _ _, by simp⟩
  | interrupted _ hrunning => exact ⟨_, events_pause hrunning, by simp⟩
  | single _ _ => exact ⟨[], (List.append_nil _).symm, by simp⟩
  | due _ _ => exact ⟨[], (List.append_nil _).symm, by simp⟩

theorem Played.told {q : Player σ} {auto : Bool} {reply : Reply σ} (h : Played q auto reply) :
    ∃ told, reply.player.events = q.events ++ told ∧
      ∀ step index, .stepped step index ∈ told → q.step < q.programSize := by
  let stepped : Event := .stepped (q.step + 1) q.step
  cases h with
  | ended _ => exact ⟨[], by simp, by simp⟩
  | faulted _ _ => exact ⟨_, q.events_halt _, by simp⟩
  | won haction _ _ => exact ⟨[stepped], by simp [stepped], fun _ _ _ => lt_programSize haction⟩
  | lost haction _ _ => exact ⟨[stepped], by simp [stepped], fun _ _ _ => lt_programSize haction⟩
  | last haction _ _ _ =>
    exact ⟨[stepped], by simp [stepped], fun _ _ _ => lt_programSize haction⟩
  | onward haction _ _ _ _ =>
    exact ⟨[stepped], by simp [stepped], fun _ _ _ => lt_programSize haction⟩
  | held haction _ _ _ _ =>
    exact ⟨[stepped], by simp [stepped], fun _ _ _ => lt_programSize haction⟩

/-- A step is told of only where an operation takes a turn with an action left to play. -/
theorem Course.told {p : Player σ} {control : Control} {reply : Reply σ}
    (h : Course p control reply) :
    ∃ told, reply.player.events = p.events ++ told ∧
      ∀ step index, .stepped step index ∈ told →
        ∃ q auto, Turn p control q auto ∧ q.step < q.programSize := by
  cases h with
  | @turned _ q auto turn =>
    obtain ⟨before, hbefore, hnone⟩ := turn.told
    obtain ⟨after, hafter, hstep⟩ := (q.played auto).told
    refine ⟨before ++ after, by rw [hafter, hbefore, List.append_assoc], ?_⟩
    intro step index hmem
    rcases List.mem_append.1 hmem with hmem | hmem
    · exact absurd hmem (hnone step index)
    · exact ⟨q, auto, turn, hstep step index hmem⟩
  | refused _ _ => exact ⟨_, p.events_refused, by simp⟩
  | resumed _ => exact ⟨_, p.events_resume, by simp⟩
  | paused hrunning => exact ⟨_, events_pause hrunning, by simp⟩
  | rewound => exact ⟨_, p.events_reset, by simp⟩
  | cleared => exact ⟨_, p.events_clear, by simp⟩
  | exchanged => exact ⟨_, p.events_useSource _, by simp⟩
  | traveled _ _ => exact ⟨_, p.events_arrived _ _, by simp⟩
  | strayed _ _ => exact ⟨_, events_halt _ _, by simp⟩
  | announced _ =>
    obtain ⟨event, hevents, hevent⟩ := (Player.announced { p with alarm := none } _).told
    refine ⟨[event], hevents, fun step index hmem => ?_⟩
    exact absurd (List.mem_singleton.1 hmem).symm (hevent step index)
  | _ => exact ⟨[], (List.append_nil _).symm, by simp⟩

/-- An operation that takes a turn plays the next action of the player it finds then. -/
theorem Turn.obey_eq {p q : Player σ} {control : Control} {auto : Bool}
    (h : Turn p control q auto) : p.obey control = q.proceed auto := by
  cases h with
  | @fresh _ status program hstarts hanswer =>
    have hstart : p.start status = .done (p.opened program status) := by rw [start_eq, hanswer]
    cases hstarts with
    | play hpaused => rw [obey, play, if_neg hpaused, hstart]; rfl
    | stepOnce hending hrunning hpaused =>
      rw [obey, stepOnce, if_neg (by simp [hending]), hstart]
      split
      · next h => exact absurd h hrunning
      · next h => exact absurd h hpaused
      · rfl
  | interrupted hending hrunning =>
    rw [obey, stepOnce, if_neg (by simp [hending]), hrunning]
  | single hending hpaused => rw [obey, stepOnce, if_neg (by simp [hending]), hpaused]
  | due halarm hrunning => simp [obey, deliver, halarm, hrunning]

/-- A turn takes place where the player stands, or at the start of a new program. -/
theorem Turn.place {p q : Player σ} {control : Control} {auto : Bool}
    (h : Turn p control q auto) :
    q.place = p.place ∨ ∃ program, q.place = .outset p.stage (some program) := by
  cases h with
  | @fresh _ status program _ _ => exact .inr ⟨program, p.place_opened program status⟩
  | interrupted _ _ => exact .inl p.place_pause
  | single _ _ => exact .inl rfl
  | due _ _ => exact .inl rfl

/-! ## Wins counted -/

theorem Turn.wins_eq {p q : Player σ} {control : Control} {auto : Bool}
    (h : Turn p control q auto) : q.wins = p.wins := by
  cases h with
  | fresh _ _ => rw [opened, refused, reset_eq]; rfl
  | interrupted _ hrunning =>
    rw [pause, if_pos hrunning, cancelAlarm_eq]
    dsimp only
    split <;> rfl
  | single _ _ => rfl
  | due _ _ => rfl

theorem Played.wins_eq {q : Player σ} {auto : Bool} {reply : Reply σ} (h : Played q auto reply) :
    reply.player.wins = q.wins := by
  have announces (p : Player σ) (ending : Ending) :
      (p.awaitAnnouncement ending).wins = p.wins := by
    rw [awaitAnnouncement, await_eq]
  cases h with
  | ended _ => exact announces _ _
  | faulted _ _ => rw [halt_player]
  | won _ _ _ => exact announces _ _
  | lost _ _ _ => exact announces _ _
  | last _ _ _ _ => exact announces _ _
  | onward _ _ _ _ _ =>
    rw [Reply.done_player, awaitAdvance, await_eq]
    rfl
  | held _ _ _ _ _ => rfl

theorem Announced.wins_le {p : Player σ} {ending : Ending} {reply : Reply σ}
    (h : Announced p ending reply) (halarm : p.alarm = none) :
    reply.player.wins ≤ p.wins + 1 ∧ reply.player.alarm = none := by
  cases h with
  | win => exact ⟨Nat.le_refl _, halarm⟩
  | lose => exact ⟨Nat.le_succ _, halarm⟩
  | solved _ => exact ⟨Nat.le_refl _, halarm⟩
  | unsolved _ => exact ⟨Nat.le_succ _, halarm⟩
  | faulted _ => rw [halt_player]; exact ⟨Nat.le_succ _, rfl⟩

/-- Only an announcement counts a win, and it leaves nothing pending. -/
theorem Course.wins_le {p : Player σ} {control : Control} {reply : Reply σ}
    (h : Course p control reply) : reply.player.wins = p.wins ∨
      p.alarm ≠ none ∧ reply.player.wins ≤ p.wins + 1 ∧ reply.player.alarm = none := by
  cases h with
  | @turned _ q auto turn => exact .inl ((q.played auto).wins_eq.trans turn.wins_eq)
  | refused _ _ => rw [Player.refused, reset_eq]; exact .inl rfl
  | resumed _ =>
    rw [Reply.done_player, resume, awaitAdvance, await_eq]
    split <;> exact .inl rfl
  | paused hrunning =>
    rw [Reply.done_player, pause, if_pos hrunning, cancelAlarm_eq]
    dsimp only
    split <;> exact .inl rfl
  | rewound => rw [Reply.done_player, reset_eq]; exact .inl rfl
  | cleared => rw [Reply.done_player, clear, reset_eq]; exact .inl rfl
  | exchanged => rw [Reply.done_player, useSource, clear, reset_eq]; exact .inl rfl
  | traveled _ _ => rw [Reply.done_player, arrived, cancelAlarm_eq]; exact .inl rfl
  | strayed _ _ => rw [halt_player]; exact .inl rfl
  | @announced timer ending halarm =>
    have hannounced := (Player.announced { p with alarm := none } ending).wins_le rfl
    exact .inr ⟨by simp [halarm], hannounced⟩
  | _ => exact .inl rfl

end Player

end PuzzlePlayback
