import PuzzlePlayback.Proofs.Verdict

/-!
# Lost actions and journeys

An action that loses ends the run: its announcement is waited for, and meanwhile no operation
plays on. A journey gives the announcement up, and the replay that rebuilds the state does not ask
what the actions signalled. So a host that travels past a lost action plays on from there and can
still win.

It can win in no other way. `Landed` keeps, beside a player, where the latest journey of its run
ended; a lost action after that is the latest one, and its loss is announced or about to be
(`Unspoiled`).

Main result: `lost_actions_were_skipped`.
-/

namespace PuzzlePlayback

/-- The last action played has one signal only. -/
theorem Decides.signal_eq {rules : Rules} {puzzle : Puzzle} {actions : List Action} {step : Nat}
    {s t : Signal} (hs : Decides rules puzzle actions step s)
    (ht : Decides rules puzzle actions step t) : s = t := by
  obtain ⟨action, before, result, _, haction, _, hbefore, hresult, rfl⟩ := hs
  obtain ⟨action', before', result', _, haction', _, hbefore', hresult', rfl⟩ := ht
  cases haction.symm.trans haction'
  cases hbefore.symm.trans hbefore'
  cases hresult.symm.trans hresult'
  rfl

namespace Player

variable {σ : Type} [TimerSource σ]

/-! ## Where the latest journey ended -/

/-- Where the latest journey of the run has ended once the host has asked for `control`; it was at
`n` before. A fresh start and a reset begin a run without journeys. -/
def landing (p : Player σ) (n : Nat) : Control → Nat
  | .travelTo m => (p.travelTo m).player.step
  | .reset | .clear | .useSource _ => 0
  | .play => if p.status = .paused then n else 0
  | .stepOnce => if p.isEnding ∨ p.status = .running ∨ p.status = .paused then n else 0
  | .pause | .moveSlider _ | .deliver _ => n

/-- `Landed first p n`: a host that starts with `first` can bring about `p`, and the latest
journey of the run ended after `n` actions, with zero for none. -/
inductive Landed (first : Player σ) : Player σ → Nat → Prop
  | refl : Landed first first 0
  | obey {p : Player σ} {n : Nat} (control : Control) :
      Landed first p n → Landed first (p.obey control).player (p.landing n control)
  | aside {p : Player σ} {n : Nat} (timers : σ) (events : List Event) :
      Landed first p n → Landed first { p with timers, events } n

theorem Landed.reachable {first p : Player σ} {n : Nat} (h : Landed first p n) :
    Reachable first p := by
  induction h with
  | refl => exact .refl
  | obey control _ ih => exact .obey control ih
  | aside timers events _ ih => exact .aside timers events ih

theorem Reachable.landed {first p : Player σ} (h : Reachable first p) : ∃ n, Landed first p n := by
  induction h with
  | refl => exact ⟨0, .refl⟩
  | obey control _ ih =>
    obtain ⟨n, hn⟩ := ih
    exact ⟨_, .obey control hn⟩
  | aside timers events _ ih =>
    obtain ⟨n, hn⟩ := ih
    exact ⟨n, .aside timers events hn⟩

theorem Starts.landing_eq {p : Player σ} {control : Control} {status : Status}
    (h : Starts p control status) (n : Nat) : p.landing n control = 0 := by
  cases h with
  | play hpaused => exact if_neg hpaused
  | stepOnce hending hrunning hpaused => exact if_neg (by simp [hending, hrunning, hpaused])

/-! ## Lost actions -/

/-- The `i`-th action of the program, played after those before it, was lost. -/
def Place.LostAt (a : Place) (i : Nat) : Prop :=
  ∃ program, a.program = some program ∧
    Decides a.stage.rules a.stage.puzzle program.actions i .lost

/-- The loss of the latest action is announced, or about to be. -/
def Mourns (p : Player σ) : Prop :=
  p.status = .lost ∨ ∃ timer, p.alarm = some ⟨timer, .announce .lose⟩

/-- An action after the `n`-th that was lost is the latest one, and its loss is not passed over. -/
structure Unspoiled (p : Player σ) (n : Nat) : Prop where
  landed : n ≤ p.step
  lost : ∀ i, n < i → i ≤ p.step → p.place.LostAt i → i = p.step ∧ Mourns p

omit [TimerSource σ] in
/-- Where the counter is at the end of the latest journey there is nothing to say yet. -/
theorem unspoiled_landed {p : Player σ} {n : Nat} (h : p.step = n) : Unspoiled p n where
  landed := Nat.le_of_eq h.symm
  lost _ hlow hhigh _ := absurd (h ▸ hhigh) (Nat.not_le_of_lt hlow)

omit [TimerSource σ] in
/-- As long as the place stays, the loss of its latest action must not be forgotten. -/
theorem Unspoiled.of_place {p q : Player σ} {n : Nat} (h : Unspoiled p n)
    (hplace : q.place = p.place) (hmourns : Mourns p → Mourns q) : Unspoiled q n := by
  have hstep : q.step = p.step := congrArg Place.step hplace
  refine ⟨hstep ▸ h.landed, fun i hlow hhigh hlost => ?_⟩
  rw [hplace] at hlost
  obtain ⟨heq, hp⟩ := h.lost i hlow (hstep ▸ hhigh) hlost
  exact ⟨heq.trans hstep.symm, hmourns hp⟩

/-- No action after the `n`-th was lost. -/
def Place.ClearFrom (a : Place) (n : Nat) : Prop := ∀ i, n < i → i ≤ a.step → ¬ a.LostAt i

omit [TimerSource σ] in
theorem Unspoiled.clearFrom {p : Player σ} {n : Nat} (h : Unspoiled p n) (hmourns : ¬ Mourns p) :
    p.place.ClearFrom n := fun i hlow hhigh hlost => hmourns (h.lost i hlow hhigh hlost).2

/-! ## One more action -/

/-- What a transition says is what the rules say of the action, in the replay of those before. -/
theorem Faithful.signal_eq {a : Place} (h : Faithful a) (hfresh : a.stage.rules.StartsFresh)
    {program : Program} {action : Action} {t : Transition} (hprogram : a.program = some program)
    (haction : program.actions[a.step]? = some action)
    (ht : a.stage.transition a.state action = .ok t) {signal : Signal}
    (hdecides : Decides a.stage.rules a.stage.puzzle program.actions (a.step + 1) signal) :
    t.signal = signal := by
  obtain ⟨found, before, result, _, hfound, hscan, hbefore, hresult, rfl⟩ := hdecides
  obtain rfl : action = found := Option.some.inj (haction.symm.trans hfound)
  rw [Nat.add_sub_cancel] at hbefore
  have hsame : a.stage.transition a.state action =
      a.stage.rules.step (some before) (some action) a.stage.puzzle := by
    simp only [Stage.transition, hscan]
    rw [if_neg Bool.false_ne_true]
    cases hstate : a.state with
    | some state =>
      obtain ⟨loaded, hloaded, _, hreplay⟩ := h.replayed state hstate
      obtain rfl : loaded = program := Option.some.inj (hloaded.symm.trans hprogram)
      cases hreplay.symm.trans hbefore
      rfl
    | none =>
      rw [h.unplayed hstate, List.take_zero] at hbefore
      unfold replay at hbefore
      rw [hfresh action]
      cases hstart : a.stage.rules.startState a.stage.puzzle with
      | error fault => rw [hstart] at hbefore; cases hbefore
      | ok state =>
        rw [hstart] at hbefore
        cases hbefore
        rfl
  rw [hsame, hresult] at ht
  cases ht
  rfl

theorem mourns_awaitLose (q : Player σ) : Mourns (q.awaitAnnouncement .lose) := by
  obtain ⟨timer, timers, hawait⟩ := q.awaitAnnouncement_eq .lose
  rw [hawait]
  exact .inr ⟨timer, rfl⟩

/-- Playing the next action spoils nothing: if it is lost, its loss is about to be announced. -/
theorem Played.unspoiled {q : Player σ} {auto : Bool} {reply : Reply σ} {n : Nat}
    (h : Played q auto reply) (hfaithful : Faithful q.place)
    (hfresh : q.stage.rules.StartsFresh) (hlanded : n ≤ q.step) (hclear : q.place.ClearFrom n) :
    Unspoiled reply.player n := by
  have stays {p : Player σ} (hplace : p.place = q.place) : Unspoiled p n := by
    have hstep : p.step = q.place.step := congrArg Place.step hplace
    refine ⟨hstep ▸ hlanded, fun i hlow hhigh hlost => ?_⟩
    rw [hplace] at hlost
    exact absurd hlost (hclear i hlow (hstep ▸ hhigh))
  have commits {action : Action} {t : Transition} {p : Player σ}
      (haction : q.action? q.step = some action) (ht : q.stage.transition q.state action = .ok t)
      (hplace : p.place = (q.commit t.state).place) (hmourns : t.signal = .lost → Mourns p) :
      Unspoiled p n := by
    obtain ⟨program, hprogram, hget⟩ := Option.bind_eq_some_iff.1 haction
    have hstep : p.step = q.step + 1 := congrArg Place.step hplace
    refine ⟨hstep ▸ Nat.le_succ_of_le hlanded, fun i hlow hhigh hlost => ?_⟩
    rw [hplace, place_commit] at hlost
    have hlost : q.place.LostAt i := hlost
    rcases Nat.lt_or_eq_of_le (hstep ▸ hhigh) with hold | rfl
    · exact absurd hlost (hclear i hlow (Nat.le_of_lt_succ hold))
    · obtain ⟨loaded, hloaded, hdecides⟩ := hlost
      obtain rfl : loaded = program := Option.some.inj (hloaded.symm.trans hprogram)
      exact ⟨hstep.symm, hmourns (hfaithful.signal_eq hfresh hprogram hget ht hdecides)⟩
  cases h with
  | ended _ => exact stays (by simp)
  | faulted _ _ => exact stays (by simp)
  | won haction ht hsignal => exact commits haction ht (by simp) (by simp [hsignal])
  | lost haction ht _ => exact commits haction ht (by simp) fun _ => mourns_awaitLose _
  | last haction ht hsignal _ => exact commits haction ht (by simp) (by simp [hsignal])
  | onward haction ht hsignal _ _ => exact commits haction ht (by simp) (by simp [hsignal])
  | held haction ht hsignal _ _ => exact commits haction ht rfl (by simp [hsignal])

/-! ## Each course spoils nothing -/

omit [TimerSource σ] in
/-- Whoever plays on waits for no loss. -/
theorem not_mourns_of_midway {p : Player σ} (hending : p.isEnding = false)
    (hstatus : p.status = .running ∨ p.status = .paused) : ¬ Mourns p := by
  rintro (hlost | ⟨timer, halarm⟩)
  · rcases hstatus with h | h <;> exact nomatch h.symm.trans hlost
  · simp [isEnding, halarm] at hending

/-- A turn finds no lost action since the latest journey. -/
theorem Turn.clearFrom {p q : Player σ} {control : Control} {auto : Bool} {n : Nat}
    (h : Turn p control q auto) (hp : Unspoiled p n) :
    p.landing n control ≤ q.step ∧ q.place.ClearFrom (p.landing n control) := by
  have midway (hending : p.isEnding = false) (hstatus : p.status = .running ∨ p.status = .paused)
      (hplace : q.place = p.place) : n ≤ q.step ∧ q.place.ClearFrom n := by
    have hstep : q.step = p.step := congrArg Place.step hplace
    rw [hplace, hstep]
    exact ⟨hp.landed, hp.clearFrom (not_mourns_of_midway hending hstatus)⟩
  cases h with
  | @fresh _ status program hstarts _ =>
    have hstep : (p.opened program status).step = 0 :=
      congrArg Place.step (p.place_opened program status)
    rw [hstarts.landing_eq]
    exact ⟨Nat.zero_le _, (unspoiled_landed hstep).clearFrom fun hmourns => by
      rw [opened, refused, reset_eq] at hmourns
      rcases hmourns with hlost | ⟨timer, halarm⟩
      · cases hstarts <;> cases hlost
      · cases halarm⟩
  | interrupted hending hrunning =>
    rw [landing, if_pos (.inr (.inl hrunning))]
    exact midway hending (.inl hrunning) p.place_pause
  | single hending hpaused =>
    rw [landing, if_pos (.inr (.inr hpaused))]
    exact midway hending (.inr hpaused) rfl
  | due halarm hrunning => exact midway (by rw [isEnding, halarm]) (.inl hrunning) rfl

theorem Announced.mourns {p : Player σ} {ending : Ending} {reply : Reply σ}
    (h : Announced p ending reply) (hlose : ending = .lose) : Mourns reply.player := by
  cases h with
  | lose => exact .inl rfl
  | _ => cases hlose

theorem Mourns.resume {p : Player σ} (h : Mourns p) (hpaused : p.status = .paused) :
    Mourns p.resume := by
  obtain ⟨timer, halarm⟩ := h.resolve_left (by simp [hpaused])
  have hwaits : ({ p with status := .running }.emit (.resumed p.step)).alarm.isNone = false := by
    show p.alarm.isNone = false
    rw [halarm]
    rfl
  rw [Player.resume, hwaits]
  exact .inr ⟨timer, halarm⟩

theorem Mourns.pause {p : Player σ} (h : Mourns p) (hrunning : p.status = .running) :
    Mourns p.pause := by
  obtain ⟨timer, halarm⟩ := h.resolve_left (by simp [hrunning])
  have hending : p.isEnding = true := by rw [isEnding, halarm]
  rw [Player.pause, if_pos hrunning, hending]
  exact .inr ⟨timer, halarm⟩

/-- No operation leaves behind an action that was lost since the latest journey. -/
theorem Course.unspoiled {p : Player σ} {control : Control} {reply : Reply σ} {n : Nat}
    (h : Course p control reply) (hreply : p.obey control = reply) (hp : Unspoiled p n)
    (hcoherent : Coherent p) (hfaithful : Faithful p.place)
    (hfresh : p.stage.rules.StartsFresh) :
    Unspoiled reply.player (p.landing n control) := by
  have rewinds {q : Player σ} (hstep : q.step = 0) : Unspoiled q 0 := unspoiled_landed hstep
  cases h with
  | @turned _ q auto turn =>
    have hstage : q.stage = p.stage := turn.move.stage_eq
    obtain ⟨hlanded, hclear⟩ := turn.clearFrom hp
    exact (q.played auto).unspoiled (turn.faithful hfaithful) (hstage ▸ hfresh) hlanded hclear
  | refused hstarts _ =>
    rw [hstarts.landing_eq]
    exact rewinds (congrArg Place.step p.place_refused)
  | resumed hpaused =>
    rw [landing, if_pos hpaused]
    exact hp.of_place p.place_resume fun hmourns => hmourns.resume hpaused
  | paused hrunning => exact hp.of_place p.place_pause fun hmourns => hmourns.pause hrunning
  | pauseIgnored _ => exact hp
  | stepIgnored hending =>
    rw [landing, if_pos (.inl hending)]
    exact hp
  | rewound => exact rewinds (congrArg Place.step p.place_reset)
  | cleared => exact rewinds (congrArg Place.step p.place_clear)
  | @exchanged source => exact rewinds (congrArg Place.step (p.place_useSource source))
  -- After a journey the counter is where the journey ended, also if it failed.
  | lost _ => exact unspoiled_landed (congrArg (·.player.step) hreply).symm
  | traveled _ _ => exact unspoiled_landed (congrArg (·.player.step) hreply).symm
  | strayed _ _ => exact unspoiled_landed (congrArg (·.player.step) hreply).symm
  | slid => exact hp.of_place rfl fun hmourns => hmourns
  | @announced timer ending halarm =>
    have hannounced := Player.announced { p with alarm := none } ending
    have hmidway := hcoherent.midway halarm
    refine hp.of_place (place_announce _ ending) fun hmourns => hannounced.mourns ?_
    rcases hmourns with hlost | ⟨_, hlose⟩
    · rcases hmidway with h | h <;> exact nomatch h.symm.trans hlost
    · cases halarm.symm.trans hlose
      rfl
  | dropped halarm hstatus => exact absurd (hcoherent.advance _ halarm) hstatus
  | stale _ => exact hp

theorem Landed.unspoiled {first p : Player σ} {n : Nat} (h : Landed first p n)
    (hfresh : first.stage.rules.StartsFresh) (hfirst : first.step = 0) (hcoherent : Coherent first)
    (hrange : InRange first.place) (hfaithful : Faithful first.place) : Unspoiled p n := by
  induction h with
  | refl => exact unspoiled_landed hfirst
  | obey control hland ih =>
    have hreach := hland.reachable
    exact (course _ control).unspoiled rfl ih (hreach.coherent hcoherent hrange).1
      (hreach.faithful hfresh hfaithful) (hreach.stage_eq ▸ hfresh)
  | aside timers events _ ih => exact ih.of_place rfl fun hmourns => hmourns

/-! ## The way around a loss -/

theorem Played.program_eq {q : Player σ} {auto : Bool} {reply : Reply σ}
    (h : Played q auto reply) : reply.player.program = q.program := by
  have announces (p : Player σ) (ending : Ending) :
      (p.awaitAnnouncement ending).program = p.program :=
    congrArg Place.program (p.place_awaitAnnouncement ending)
  cases h with
  | ended _ => exact announces _ _
  | @faulted _ fault _ _ => exact congrArg Place.program (q.place_halt (fault.at q.step))
  | won _ _ _ => exact announces _ _
  | lost _ _ _ => exact announces _ _
  | last _ _ _ _ => exact announces _ _
  | onward _ _ _ _ _ => exact congrArg Place.program (place_awaitAdvance _)
  | held _ _ _ _ _ => rfl

/-- A journey ends where the replay of the actions on the way succeeds. -/
theorem obey_travelTo {p : Player σ} {program : Program} {n : Nat} {state : World}
    (hprogram : p.program = some program)
    (hreplay : replay p.stage.rules p.stage.puzzle (program.actions.take (min n program.size)) =
      .ok state) :
    p.obey (.travelTo n) = .done (p.arrived (min n program.size) state) := by
  have hcourse := p.course (.travelTo n)
  generalize p.obey (.travelTo n) = reply at hcourse ⊢
  cases hcourse with
  | turned turn =>
    cases turn with
    | fresh hstarts _ => cases hstarts
  | refused hstarts _ => cases hstarts
  | lost hnone => cases hnone.symm.trans hprogram
  | traveled hloaded hstate =>
    cases hloaded.symm.trans hprogram
    cases hstate.symm.trans hreplay
    rfl
  | strayed hloaded hfault =>
    cases hloaded.symm.trans hprogram
    cases hfault.symm.trans hreplay

/-- A paused player that waits for nothing comes to wait for its next action. -/
theorem obey_play_of_still {p : Player σ} (hpaused : p.status = .paused) (halarm : p.alarm = none) :
    ∃ timer, (p.obey .play).player.alarm = some ⟨timer, .advance⟩ ∧
      (p.obey .play).player.status = .running ∧ (p.obey .play).player.place = p.place := by
  obtain ⟨timer, timers, hawait⟩ :=
    ({ p with status := .running }.emit (.resumed p.step)).awaitAdvance_eq
  have hresume : (p.obey .play).player =
      ({ p with status := .running }.emit (.resumed p.step)).awaitAdvance := by
    rw [obey, play, if_pos hpaused, Player.resume, if_pos (by simp [emit, halarm])]
    rfl
  rw [hresume, hawait]
  exact ⟨timer, rfl, rfl, rfl⟩

/-- At the end of the program a player that waits for its next action comes to wait for the
verdict. -/
theorem obey_deliver_at_end {p : Player σ} {timer : TimerNumber}
    (halarm : p.alarm = some ⟨timer, .advance⟩) (hrunning : p.status = .running)
    (hend : p.programSize ≤ p.step) :
    ∃ timer', (p.obey (.deliver timer)).player.alarm = some ⟨timer', .announce .verdict⟩ ∧
      (p.obey (.deliver timer)).player.place = p.place := by
  obtain ⟨timer', timers, hawait⟩ := { p with alarm := none }.awaitAnnouncement_eq .verdict
  have hnext : ({ p with alarm := none } : Player σ).action? p.step = none :=
    (p.action?_eq_none_iff _).2 hend
  rw [(Turn.due halarm hrunning).obey_eq, proceed, hnext]
  dsimp only
  rw [hawait]
  exact ⟨timer', rfl, rfl⟩

/-- A program that is solved at its end is won by its verdict. -/
theorem obey_deliver_solved {p : Player σ} {timer : TimerNumber}
    (halarm : p.alarm = some ⟨timer, .announce .verdict⟩)
    (hsolved : p.stage.solved p.state = .ok true) :
    (p.obey (.deliver timer)).player.status = .won ∧
      (p.obey (.deliver timer)).player.outcome =
        some (p.stage.winOutcome p.blockCount p.wins) ∧
      (p.obey (.deliver timer)).player.place = p.place := by
  simp only [obey, deliver, halarm, ne_eq, not_true_eq_false, if_false, announce, hsolved]
  exact ⟨rfl, rfl, rfl⟩

/-- A host that plays on from the end of its program has the state there judged. -/
theorem wins_from_end {first p : Player σ} {n : Nat} {program : Program}
    (hland : Landed first p n) (hpaused : p.status = .paused) (hstill : p.alarm = none)
    (hprogram : p.program = some program) (hend : p.step = program.size)
    (hsolved : p.stage.solved p.state = .ok true) :
    ∃ q wins, Landed first q n ∧ q.status = .won ∧ q.step = p.step ∧
      q.outcome = some (p.stage.winOutcome program.blockCount wins) := by
  obtain ⟨timer, halarm, hrunning, hplace⟩ := obey_play_of_still hpaused hstill
  have hplay := hland.obey .play
  rw [landing, if_pos hpaused] at hplay
  generalize (p.obey .play).player = q at *
  have hsize : q.programSize ≤ q.step := by
    rw [programSize_eq, show q.program = some program from (congrArg Place.program hplace).trans
      hprogram, show q.step = program.size from (congrArg Place.step hplace).trans hend]
    exact Nat.le_refl _
  obtain ⟨timer', halarm', hplace'⟩ := obey_deliver_at_end halarm hrunning hsize
  have hdue := hplay.obey (.deliver timer)
  rw [landing] at hdue
  generalize (q.obey (.deliver timer)).player = r at *
  replace hplace : r.place = p.place := hplace'.trans hplace
  have hstage : r.stage = p.stage := congrArg Place.stage hplace
  have hstate : r.state = p.state := congrArg Place.state hplace
  have hloaded : r.program = p.program := congrArg Place.program hplace
  obtain ⟨hwon, houtcome, hplace''⟩ :=
    obey_deliver_solved halarm' (by rw [hstage, hstate, hsolved])
  refine ⟨_, r.wins, hdue.obey (.deliver timer'), hwon, ?_, ?_⟩
  · exact (congrArg Place.step hplace'').trans (congrArg Place.step hplace)
  · rw [houtcome, hstage, blockCount, hloaded, hprogram]

/-- A host that travels to the end of its program and plays on from there wins if the state there
is judged to solve the puzzle, whatever the actions on the way came to. -/
theorem wins_by_journey {first p : Player σ} {n : Nat} {program : Program} {final : World}
    (hland : Landed first p n) (hprogram : p.program = some program)
    (hreplay : replay p.stage.rules p.stage.puzzle program.actions = .ok final)
    (hsolved : p.stage.rules.solved final p.stage.puzzle p.stage.reference = .ok true) :
    ∃ q wins, Landed first q program.size ∧ q.status = .won ∧ q.step = program.size ∧
      q.outcome = some (p.stage.winOutcome program.blockCount wins) := by
  have hwhole : program.actions.take (min program.size program.size) = program.actions := by
    rw [Nat.min_self]
    exact List.take_length
  have htravel := obey_travelTo (n := program.size) hprogram (hwhole ▸ hreplay)
  rw [Nat.min_self] at htravel
  have hplace := p.place_arrived program.size final
  have harrived : Landed first (p.arrived program.size final) program.size := by
    have hgone := hland.obey (.travelTo program.size)
    have hlanding : p.landing n (.travelTo program.size) = program.size :=
      (congrArg (·.player.step) htravel).trans (congrArg Place.step hplace)
    rw [hlanding, htravel] at hgone
    exact hgone
  have hstill : (p.arrived program.size final).alarm = none := by rw [arrived, cancelAlarm_eq]
  obtain ⟨q, wins, hq, hwon, hstep, houtcome⟩ := wins_from_end harrived (by rw [arrived]) hstill
    ((congrArg Place.program hplace).trans hprogram) (congrArg Place.step hplace) (by
      rw [show (p.arrived program.size final).stage = p.stage from congrArg Place.stage hplace]
      exact hsolved)
  refine ⟨q, wins, hq, hwon, hstep.trans (congrArg Place.step hplace), ?_⟩
  rw [houtcome]
  exact congrArg (fun stage => some (Stage.winOutcome stage _ _)) (congrArg Place.stage hplace)

/-- **Lost actions were skipped.** Whatever a host does with a player whose rules start fresh: if
it has won, then no action was lost that was played after the latest journey of the run, which
ended at or before the counter; without a journey no action was lost at all. The journey is the
only way around a loss, and there is no stopping it: every program whose replay solves the puzzle
wins, with a code, for a host that travels to its end and plays on. -/
theorem lost_actions_were_skipped {registry : Registry} {puzzle : Puzzle}
    {source : ProgramSource} {timers : σ} {preferences : Preferences} {hours : Nat → Nat}
    {first : Player σ} {rules : Rules} {reference : Option Reference}
    (hcreate : create registry puzzle source timers preferences hours = .ok first)
    (hrules : registry.find puzzle.mode = some rules) (hfresh : rules.StartsFresh)
    (hreference : Reference.ofPuzzle rules puzzle = .ok reference) :
    (∀ p n, Landed first p n → p.status = .won → ∃ program, p.program = some program ∧
      n ≤ p.step ∧
      ∀ i, n < i → i ≤ p.step → ¬ Decides rules puzzle program.actions i .lost) ∧
    (∀ p, Reachable first p → ∃ n, Landed first p n) ∧
    (∀ program final, source = .always program → replay rules puzzle program.actions = .ok final →
      rules.solved final puzzle reference = .ok true →
      ∃ p outcome, Landed first p program.size ∧ p.status = .won ∧ p.step = program.size ∧
        p.outcome = some outcome ∧ outcome.code.isSome = true) := by
  obtain ⟨hcoherent, hrange⟩ := coherent_create hcreate
  obtain ⟨_, _, hfind, href, rfl⟩ := create_eq_ok hcreate
  cases hrules.symm.trans hfind
  cases hreference.symm.trans href
  refine ⟨fun p n hland hwon => ?_, fun p hreach => hreach.landed, ?_⟩
  · have hunspoiled :=
      hland.unspoiled hfresh rfl hcoherent hrange (faithful_outset _ _)
    have hp := (hland.reachable.coherent hcoherent hrange).1
    obtain ⟨program, hprogram⟩ :=
      Option.ne_none_iff_exists'.1 (hp.program_ne_none (by simp [hwon]))
    refine ⟨program, hprogram, hunspoiled.landed, fun i hlow hhigh hlost => ?_⟩
    have hstage : p.place.stage = ⟨rules, puzzle, reference, hours⟩ := hland.reachable.stage_eq
    refine hunspoiled.clearFrom ?_ i hlow hhigh ⟨program, hprogram, hstage ▸ hlost⟩
    -- Who has won waits for nothing, so no loss is about to be announced.
    rintro (hlost | ⟨timer, halarm⟩)
    · exact nomatch hlost.symm.trans hwon
    · rcases hp.midway halarm with h | h <;> exact nomatch h.symm.trans hwon
  · rintro program final rfl hreplay hsolved
    let first : Player σ := ⟨⟨rules, puzzle, reference, hours⟩, .always program, timers,
      preferences, none, none, 0, none, .idle, none, 0, none, []⟩
    have hturn : Turn first .play (first.opened program .running) true :=
      .fresh (.play nofun) rfl
    have hprogram : (first.obey .play).player.program = some program := by
      rw [hturn.obey_eq, (played _ _).program_eq]
      rfl
    have hplay : Landed first (first.obey .play).player 0 := .obey .play .refl
    have hstage : (first.obey .play).player.stage = first.stage := hplay.reachable.stage_eq
    obtain ⟨q, _, hq, hwon, hstep, houtcome⟩ :=
      wins_by_journey hplay hprogram (by rw [hstage]; exact hreplay) (by rw [hstage]; exact hsolved)
    exact ⟨q, _, hq, hwon, hstep, houtcome, rfl⟩

end Player

/-! ## A walk off a ledge -/

/-- A start cell over a goal cell. -/
def ledge : Puzzle := { id := "ledge", mode := .maze, grid := [[2], [3]] }

/-- Off the ledge to the east, then down to the goal. -/
def offLedge : Program := .ofActions [⟨none, .move none⟩, ⟨none, .turnRight⟩, ⟨none, .move none⟩]

/-- A new player of the ledge at noon. -/
def walker : Player RequestQueue :=
  ⟨⟨Walk.rules, ledge, none, fun _ => 12⟩, .always offLedge, .empty, .default, none, none, 0, none,
    .idle, none, 0, none, []⟩

theorem create_walker :
    Player.create .standard ledge (.always offLedge) RequestQueue.empty .default (fun _ => 12) =
      .ok walker := rfl

namespace Player

/-- Back from the crash to the first action, and on from there: nothing after it was lost. -/
theorem lost_actions_were_skipped_ledge :
    let controls := [.play, .travelTo 1, .play, .deliver 2, .deliver 3, .deliver 4]
    let p := controls.foldl (fun p control => (p.obey control).player) walker
    Landed walker p 1 ∧ p.status = .won ∧ p.step = 3 ∧
      ¬ Decides Walk.rules ledge offLedge.actions 2 .lost ∧
      ¬ Decides Walk.rules ledge offLedge.actions 3 .lost := by
  intro controls p
  have hland : Landed walker p 1 := by
    have hcrash : Landed walker _ 0 := .obey .play .refl
    have hback : Landed walker _ 1 := .obey (.travelTo 1) hcrash
    have hon : Landed walker _ 1 := .obey .play hback
    exact .obey (.deliver 4) (.obey (.deliver 3) (.obey (.deliver 2) hon))
  have hwon : p.status = .won := rfl
  have hstep : p.step = 3 := rfl
  obtain ⟨program, hprogram, -, hnone⟩ :=
    (lost_actions_were_skipped create_walker rfl Walk.startsFresh rfl).1 p 1 hland hwon
  obtain rfl : offLedge = program := Option.some.inj hprogram
  exact ⟨hland, hwon, hstep, hnone 2 (by decide) (by decide), hnone 3 (by decide) (by decide)⟩

/-- A host that travels past the crash to the end, and plays on, is given a completion code. -/
theorem crash_is_credited :
    let controls := [.play, .travelTo 3, .play, .deliver 2, .deliver 3]
    let p := controls.foldl (fun p control => (p.obey control).player) walker
    Reachable walker p ∧ p.status = .won ∧ p.step = 3 ∧
      (∃ outcome, p.outcome = some outcome ∧ outcome.code.isSome = true) ∧
      Decides Walk.rules ledge offLedge.actions 1 .lost := by
  intro controls p
  have hreach : Reachable walker p :=
    .obey (.deliver 3) (.obey (.deliver 2) (.obey .play (.obey (.travelTo 3) (.obey .play .refl))))
  refine ⟨hreach, rfl, rfl, ⟨_, rfl, rfl⟩, ?_⟩
  exact ⟨⟨none, .move none⟩, .maze ⟨0, 0, 0⟩, ⟨.maze ⟨0, 0, 0⟩, .lost⟩, by decide, rfl, rfl, rfl,
    rfl, rfl⟩

end Player

end PuzzlePlayback
