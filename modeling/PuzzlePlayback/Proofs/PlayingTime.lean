import Mathlib
import PuzzlePlayback.Proofs.StopAndGo

/-!
# The time that a run takes

A player waits between two actions, and once more before it announces the outcome. Playing takes no
time. So at the end of a run the clock is ahead by the pauses after all actions that were played
but the last one, and by the delay of the announcement.

On a clock without other timers a player waits for one timer at a time, which comes next whatever
its delay. `Free` is a player right before it plays an action there, and `PlaysOn` is what the
rest of the program comes to from such a player on: the run of the stage, with the time that it
takes. One induction on the rest of the program proves it (`Free.playsOn`). `Ends` adds the
announcement.

How many actions are played is up to the stage (`Stage.executed`), and the slider only tells how
long the pauses are. So a run is never longer on a faster setting.

Main result: `playing_time`.
-/

namespace PuzzlePlayback

/-! ## Pauses -/

theorem toNat_min_topSpeed (speed : UInt8) :
    (min speed topSpeed).toNat = min speed.toNat topSpeed.toNat := by
  rw [Nat.min_def]
  show (if speed ≤ topSpeed then speed else topSpeed).toNat = _
  simp only [UInt8.le_iff_toNat_le]
  split <;> rfl

theorem min_topSpeed_le {slow fast : UInt8} (h : slow ≤ fast) :
    min slow topSpeed ≤ min fast topSpeed := by
  have hspeed : slow.toNat ≤ fast.toNat := UInt8.le_iff_toNat_le.1 h
  rw [UInt8.le_iff_toNat_le, toNat_min_topSpeed, toNat_min_topSpeed]
  omega

/-- On a faster setting no pause is longer, and settings beyond the fastest one are the fastest. -/
theorem pauseAfter_le {slow fast : UInt8} (h : min slow topSpeed ≤ min fast topSpeed) (mode : Mode)
    (latest : Option Action) : pauseAfter fast mode latest ≤ pauseAfter slow mode latest := by
  have hspeed : min slow.toNat topSpeed.toNat ≤ min fast.toNat topSpeed.toNat := by
    rw [← toNat_min_topSpeed, ← toNat_min_topSpeed]
    exact UInt8.le_iff_toNat_le.1 h
  have hslider : (topSpeed.toNat - min fast.toNat topSpeed.toNat) * pausePerUnit ≤
      (topSpeed.toNat - min slow.toNat topSpeed.toNat) * pausePerUnit :=
    Nat.mul_le_mul_right _ (Nat.sub_le_sub_left hspeed _)
  unfold pauseAfter
  dsimp only
  split <;> split <;> omega

/-- The pauses after some actions, all together. -/
def pausesAfter (speed : UInt8) (mode : Mode) (actions : List Action) : Nat :=
  (actions.map fun action => pauseAfter speed mode (some action)).sum

theorem pausesAfter_cons (speed : UInt8) (mode : Mode) (action : Action) (rest : List Action) :
    pausesAfter speed mode (action :: rest) =
      pauseAfter speed mode (some action) + pausesAfter speed mode rest := by
  rw [pausesAfter, List.map_cons, List.sum_cons, pausesAfter]

theorem pausesAfter_le {slow fast : UInt8} (h : min slow topSpeed ≤ min fast topSpeed) (mode : Mode)
    (actions : List Action) : pausesAfter fast mode actions ≤ pausesAfter slow mode actions :=
  List.sum_le_sum fun action _ => pauseAfter_le h mode (some action)

/-! ## The actions that are played -/

namespace Stage

/-- What the actions say about the run, one after the other, up to a fault. -/
def signals (stage : Stage) (state : Option World) : List Action → List Signal
  | [] => []
  | action :: rest =>
    match stage.transition state action with
    | .error _ => []
    | .ok t => t.signal :: stage.signals (some t.state) rest

/-- The number of actions that a run plays: those up to the first win or loss, or all of them. -/
def executed (stage : Stage) (state : Option World) (actions : List Action) : Nat :=
  match (stage.signals state actions).findIdx? (· ≠ .running) with
  | some index => index + 1
  | none => actions.length

variable {stage : Stage} {state : Option World} {action : Action} {rest actions : List Action}
  {t : Transition}

theorem signals_cons (ht : stage.transition state action = .ok t) :
    stage.signals state (action :: rest) = t.signal :: stage.signals (some t.state) rest := by
  rw [signals, ht]

theorem executed_of_decides (ht : stage.transition state action = .ok t)
    (hsignal : t.signal ≠ .running) : stage.executed state (action :: rest) = 1 := by
  rw [executed, signals_cons ht, List.findIdx?_cons, if_pos (by simpa using hsignal)]

theorem executed_of_running (ht : stage.transition state action = .ok t)
    (hsignal : t.signal = .running) :
    stage.executed state (action :: rest) = stage.executed (some t.state) rest + 1 := by
  rw [executed, signals_cons ht, List.findIdx?_cons, if_neg (by simp [hsignal]), executed]
  cases (stage.signals (some t.state) rest).findIdx? (· ≠ .running) <;> rfl

theorem executed_pos (stage : Stage) (state : Option World) (h : actions ≠ []) :
    0 < stage.executed state actions := by
  unfold executed
  split
  · exact Nat.succ_pos _
  · exact List.length_pos_iff.2 h

theorem executed_le (stage : Stage) (state : Option World) (actions : List Action) :
    stage.executed state actions ≤ actions.length := by
  induction actions generalizing state with
  | nil => exact Nat.le_refl _
  | cons action rest ih =>
    cases ht : stage.transition state action with
    | error fault =>
      rw [executed, signals, ht]
      exact Nat.le_refl _
    | ok t =>
      by_cases hsignal : t.signal = .running
      · rw [executed_of_running ht hsignal]
        exact Nat.succ_le_succ (ih _)
      · rw [executed_of_decides ht hsignal]
        exact Nat.succ_le_succ (Nat.zero_le _)

/-- A run plays as many actions as are executed, and it is lost if the last of them says so. -/
theorem run_executed {index : Nat} {arrival : Arrival}
    (h : stage.run state index actions = .ok arrival) :
    arrival.step = index + stage.executed state actions ∧
      (arrival.ending = .lose ↔
        (stage.signals state actions)[stage.executed state actions - 1]? = some .lost) := by
  induction actions generalizing state index with
  | nil =>
    cases h
    exact ⟨rfl, by simp [signals]⟩
  | cons action rest ih =>
    unfold run at h
    cases ht : stage.transition state action with
    | error fault => simp [ht] at h
    | ok t =>
      simp only [ht] at h
      rw [signals_cons ht]
      cases hsignal : t.signal with
      | win =>
        simp only [hsignal] at h
        cases h
        rw [executed_of_decides ht (by simp [hsignal])]
        exact ⟨rfl, by simp⟩
      | lost =>
        simp only [hsignal] at h
        cases h
        rw [executed_of_decides ht (by simp [hsignal])]
        exact ⟨rfl, by simp⟩
      | running =>
        simp only [hsignal] at h
        obtain ⟨hstep, hlose⟩ := ih h
        rw [executed_of_running ht hsignal, hlose, Nat.add_sub_cancel]
        refine ⟨by omega, ?_⟩
        cases hexecuted : stage.executed (some t.state) rest with
        | zero =>
          -- Nothing is left to play, so nothing is left to lose.
          have hrest : rest = [] := Classical.byContradiction fun hne =>
            Nat.ne_of_gt (executed_pos stage _ hne) hexecuted
          simp [hrest, signals]
        | succ k => simp

/-- What a run comes to is over, where it has arrived, and lost if the last action said so. -/
theorem resolve_ok {blockCount : UInt32} {wins : Nat} {arrival : Arrival} {finish : Finish}
    (h : stage.resolve blockCount wins arrival = .ok finish) : finish.step = arrival.step ∧
      finish.outcome.status.isOver = true ∧
      (finish.outcome.status = .lost ↔ arrival.ending = .lose) := by
  unfold resolve at h
  split at h
  · next hwin =>
    cases h
    exact ⟨rfl, rfl, by simp [winOutcome, Outcome.won, hwin]⟩
  · next hlose =>
    cases h
    exact ⟨rfl, rfl, by simp [endOutcome, Outcome.endedAs, hlose]⟩
  · next hverdict =>
    split at h
    · cases h
      exact ⟨rfl, rfl, by simp [winOutcome, Outcome.won, hverdict]⟩
    · cases h
      exact ⟨rfl, rfl, by simp [endOutcome, Outcome.endedAs, hverdict]⟩
    · cases h

theorem oneShot_ok {program : Program} {wins : Nat} {finish : Finish}
    (h : stage.oneShot program wins = .ok finish) :
    finish.step = stage.executed none program.actions ∧ finish.outcome.status.isOver = true ∧
      (finish.outcome.status = .lost ↔ (stage.signals none program.actions)[
        stage.executed none program.actions - 1]? = some .lost) := by
  unfold oneShot at h
  cases hrun : stage.run none 0 program.actions with
  | error fault =>
    rw [hrun] at h
    cases h
  | ok arrival =>
    rw [hrun] at h
    obtain ⟨hstep, hover, hlost⟩ := resolve_ok h
    obtain ⟨harrived, hlose⟩ := run_executed hrun
    exact ⟨by rw [hstep, harrived, Nat.zero_add], hover, hlost.trans hlose⟩

/-- What a scan says is that the run goes on. -/
theorem signals_scan {index : Nat} {signal : Signal} (haction : actions[index]? = some action)
    (hscan : action.isScan = true) (hsignal : (stage.signals state actions)[index]? = some signal) :
    signal = .running := by
  induction actions generalizing state index with
  | nil => simp at haction
  | cons next rest ih =>
    unfold signals at hsignal
    cases ht : stage.transition state next with
    | error fault => simp [ht] at hsignal
    | ok t =>
      simp only [ht] at hsignal
      cases index with
      | zero =>
        obtain rfl : next = action := by simpa using haction
        rw [← show t.signal = signal by simpa using hsignal]
        exact transition_scan hscan ht
      | succ index => exact ih (by simpa using haction) (by simpa using hsignal)

end Stage

namespace Player

/-! ## A clock without other timers -/

/-- A player right before it plays an action of a program by itself, on a clock without timers. -/
structure Free (program : Program) (p : Player ManualClock) : Prop where
  alarm : p.alarm = none
  queue : p.timers.queue = []
  status : p.status = .running
  loaded : p.program = some program

/-- The same player once it has waited. -/
def later (p : Player ManualClock) (delay : Nat) : Player ManualClock :=
  p.onClock ⟨p.timers.now + delay, p.timers.lastId + 1, []⟩

variable {program : Program} {p q : Player ManualClock}

theorem Free.later (h : Free program p) (delay : Nat) : Free program (p.later delay) :=
  ⟨h.alarm, rfl, h.status, h.loaded⟩

theorem Free.commit (h : Free program p) (state : World) : Free program (p.commit state) :=
  ⟨h.alarm, h.queue, h.status, h.loaded⟩

theorem Free.programSize_eq (h : Free program p) : p.programSize = program.size := by
  rw [programSize, h.loaded]

/-- The timer that is waited for comes next, after its delay. -/
theorem Free.deliverNext_await (h : Free program p) (delay : Nat) (duty : Duty) :
    (p.await delay duty).deliverNext = some (p.timers.lastId + 1,
      { p.later delay with alarm := some ⟨p.timers.lastId + 1, duty⟩ }.deliver
        (p.timers.lastId + 1)) := by
  have hsilenced : p.silenced = p.timers := by rw [silenced, h.alarm]
  rw [await_eq, hsilenced]
  show Option.map _ (ManualClock.jump (ManualClock.set p.timers delay).2) = _
  rw [ManualClock.set, h.queue]
  show some _ = some _
  rw [ManualClock.enqueue, Nat.max_eq_right (Nat.le_add_right _ _)]
  rfl

theorem Free.deliver_advance (h : Free program p) (timer : TimerNumber) :
    { p with alarm := some ⟨timer, .advance⟩ }.deliver timer = p.proceed true := by
  have hforget : { p with alarm := none } = p := by rw [← h.alarm]
  simp only [deliver, ne_eq, not_true_eq_false, if_false, hforget, if_pos h.status]

theorem Free.deliver_announce (h : Free program p) (timer : TimerNumber) (ending : Ending) :
    { p with alarm := some ⟨timer, .announce ending⟩ }.deliver timer = p.announce ending := by
  have hforget : { p with alarm := none } = p := by rw [← h.alarm]
  simp only [deliver, ne_eq, not_true_eq_false, if_false, hforget]

/-- A player that waits for its next action plays it after the pause. -/
theorem Free.playFor_awaitAdvance (h : Free program p) (n : Nat) :
    playFor (n + 1) p.awaitAdvance =
      ((p.later (pauseAfter p.preferences.speed p.stage.rules.mode p.latestAction)).proceed
        true).andThen (playFor n) := by
  rw [awaitAdvance, playFor_of_some (h.deliverNext_await _ _), (h.later _).deliver_advance]

/-- A player that waits for its outcome announces it after the delay. -/
theorem Free.playFor_awaitAnnouncement (h : Free program p) (ending : Ending) (n : Nat) :
    playFor (n + 1) (p.awaitAnnouncement ending) =
      ((p.later (p.endingDelay ending)).announce ending).andThen (playFor n) := by
  rw [awaitAnnouncement, playFor_of_some (h.deliverNext_await _ _), (h.later _).deliver_announce]

/-! ## The rest of a program -/

section

variable {rest : List Action} {reply : Reply ManualClock} {ending : Ending} {n : Nat}

/-- The pauses of a player over the rest of a program: none after the last action that it plays. -/
def pausesOver (q : Player ManualClock) (rest : List Action) : Nat :=
  pausesAfter q.preferences.speed q.stage.rules.mode
    (rest.take (q.stage.executed q.state rest - 1))

/-- From `q` on, `p` has played what is to be played of the rest of a program. -/
structure Arrived (program : Program) (q : Player ManualClock) (rest : List Action)
    (arrival : Arrival) (p : Player ManualClock) : Prop where
  free : Free program p
  stage_eq : p.stage = q.stage
  wins_eq : p.wins = q.wins
  state_eq : p.state = arrival.state
  step_eq : p.step = arrival.step
  now_eq : p.timers.now = q.timers.now + q.pausesOver rest

/-- What playing the rest of a program comes to: the arrival of the stage, which is still to be
announced, or its fault. -/
inductive PlaysOn (program : Program) (q : Player ManualClock) (rest : List Action)
    (reply : Reply ManualClock) : Except StepFault Arrival → Prop
  | arrives {arrival : Arrival} {p : Player ManualClock} {n : Nat} :
      Arrived program q rest arrival p →
      reply = playFor (n + 1) (p.awaitAnnouncement arrival.ending) →
      PlaysOn program q rest reply (.ok arrival)
  | faults {fault : StepFault} : reply.error = some (.fault fault) →
      PlaysOn program q rest reply (.error fault)

/-- With one action to play or none there is no pause before the announcement. -/
theorem Free.playsOn_announces (hp : Free program p) (hstage : p.stage = q.stage)
    (hwins : p.wins = q.wins) (htimers : p.timers = q.timers)
    (hexecuted : q.stage.executed q.state rest ≤ 1) (hn : 0 < n) :
    PlaysOn program q rest (playFor n (p.awaitAnnouncement ending))
      (.ok ⟨p.state, p.step, ending⟩) := by
  obtain ⟨n, rfl⟩ := Nat.exists_eq_succ_of_ne_zero (Nat.ne_of_gt hn)
  refine .arrives ⟨hp, hstage, hwins, rfl, rfl, ?_⟩ rfl
  rw [pausesOver, Nat.sub_eq_zero_of_le hexecuted, htimers]
  rfl

/-- An action is paused after if the run goes on and there is more to play. -/
theorem pausesOver_cons {action : Action} {t : Transition} (delay : Nat)
    (ht : q.stage.transition q.state action = .ok t) (hsignal : t.signal = .running)
    (hrest : rest ≠ []) : q.pausesOver (action :: rest) =
      pauseAfter q.preferences.speed q.stage.rules.mode (some action) +
        ((q.commit t.state).later delay).pausesOver rest := by
  obtain ⟨k, hk⟩ := Nat.exists_eq_succ_of_ne_zero
    (Nat.ne_of_gt (q.stage.executed_pos (some t.state) hrest))
  have hafter : ((q.commit t.state).later delay).pausesOver rest =
      pausesAfter q.preferences.speed q.stage.rules.mode (rest.take k) := by
    show pausesAfter _ _ (rest.take (q.stage.executed (some t.state) rest - 1)) = _
    rw [hk]
    rfl
  rw [hafter, pausesOver, Stage.executed_of_running ht hsignal, hk, Nat.add_sub_cancel,
    List.take_succ_cons, pausesAfter_cons]

/-- One action and the pause after it come before the rest. -/
theorem PlaysOn.cons {action : Action} {t : Transition} {result : Except StepFault Arrival}
    (ht : q.stage.transition q.state action = .ok t) (hsignal : t.signal = .running)
    (hrest : rest ≠ [])
    (h : PlaysOn program ((q.commit t.state).later
      (pauseAfter q.preferences.speed q.stage.rules.mode (some action))) rest reply result) :
    PlaysOn program q (action :: rest) reply result := by
  cases h with
  | faults herror => exact .faults herror
  | arrives harrived hreply =>
    obtain ⟨hfree, hstage, hwins, hstate, hstep, hnow⟩ := harrived
    refine .arrives ⟨hfree, hstage, hwins, hstate, hstep, ?_⟩ hreply
    rw [hnow, pausesOver_cons _ ht hsignal hrest, ← Nat.add_assoc]
    rfl

/-- The next action of a player, and what is left after it. -/
theorem Free.next {action : Action} (hq : Free program q)
    (hrest : program.actions.drop q.step = action :: rest) :
    q.action? q.step = some action ∧ program.actions.drop (q.step + 1) = rest := by
  constructor
  · rw [action?, hq.loaded]
    show program.actions[q.step]? = _
    rw [← List.head?_drop, hrest]
    rfl
  · rw [← List.tail_drop, hrest]
    rfl

/-- **Playing on.** A player plays the rest of its program as the stage does, and in the time of
the pauses. -/
theorem Free.playsOn (hq : Free program q) (hrest : program.actions.drop q.step = rest)
    (hn : rest.length < n) :
    PlaysOn program q rest ((q.proceed true).andThen (playFor n))
      (q.stage.run q.state q.step rest) := by
  induction rest generalizing q n with
  | nil =>
    have haction : q.action? q.step = none := by
      rw [action?_eq_none_iff, hq.programSize_eq]
      exact List.drop_eq_nil_iff.1 hrest
    rw [proceed, haction]
    exact hq.playsOn_announces rfl rfl rfl (Nat.zero_le _) hn
  | cons action rest ih =>
    obtain ⟨haction, hnext⟩ := hq.next hrest
    cases ht : q.stage.transition q.state action with
    | error fault =>
      rw [proceed_of_error haction ht, Stage.run, ht]
      exact .faults rfl
    | ok t =>
      have hcommit := hq.commit t.state
      rw [proceed_of_ok haction ht, Stage.run, ht]
      dsimp only
      rw [Reply.andThen_of_done rfl, Reply.done_player]
      have hpos : 0 < n := Nat.lt_of_le_of_lt (Nat.zero_le _) hn
      cases hsignal : t.signal with
      | win =>
        have hone : q.stage.executed q.state (action :: rest) = 1 :=
          Stage.executed_of_decides ht (by simp [hsignal])
        exact hcommit.playsOn_announces rfl rfl rfl (Nat.le_of_eq hone) hpos
      | lost =>
        have hone : q.stage.executed q.state (action :: rest) = 1 :=
          Stage.executed_of_decides ht (by simp [hsignal])
        exact hcommit.playsOn_announces rfl rfl rfl (Nat.le_of_eq hone) hpos
      | running =>
        have hsize : (q.commit t.state).programSize = program.size := hcommit.programSize_eq
        have hstep : (q.commit t.state).step = q.step + 1 := rfl
        rw [follow, hsize, hstep]
        split
        -- The last action is not paused after, although the run would go on.
        · next hlast =>
          obtain rfl : rest = [] := hnext.symm.trans (List.drop_eq_nil_iff.2 hlast)
          have hone : q.stage.executed q.state [action] = 1 :=
            Stage.executed_of_running ht hsignal
          exact hcommit.playsOn_announces rfl rfl rfl (Nat.le_of_eq hone) hpos
        · next hmore =>
          have hleft : rest ≠ [] := fun hnil => hmore (List.drop_eq_nil_iff.1 (hnext.trans hnil))
          obtain ⟨n, rfl⟩ := Nat.exists_eq_succ_of_ne_zero (Nat.ne_of_gt hpos)
          have hlatest : (q.commit t.state).latestAction = some action := haction
          rw [if_pos rfl, hcommit.playFor_awaitAdvance, hlatest]
          exact .cons ht hsignal hleft (ih (hcommit.later _) hnext (Nat.lt_of_succ_lt_succ hn))

/-! ## The announcement -/

/-- The delay before a run with this outcome is announced. -/
def delayOf (mode : Mode) (outcome : Outcome) : Nat :=
  if outcome.status = .lost then usualAnnouncementDelay else announcementDelay mode

theorem endingDelay_eq (p : Player ManualClock) {outcome : Outcome}
    (h : outcome.status = .lost ↔ ending = .lose) :
    p.endingDelay ending = delayOf p.stage.rules.mode outcome := by
  unfold delayOf
  simp only [h]
  cases ending <;> rfl

/-- How many wins there are with an outcome more. -/
def winsWith (p : Player ManualClock) (outcome : Outcome) : Nat :=
  if outcome.status = .won then p.wins + 1 else p.wins

/-- The announcement tells what the stage makes of the arrival, and counts it if it is a win. -/
theorem announce_eq (p : Player ManualClock) (ending : Ending) : p.announce ending =
    match p.stage.resolve p.blockCount p.wins ⟨p.state, p.step, ending⟩ with
    | .ok finish => { p with wins := p.winsWith finish.outcome }.conclude finish.outcome
    | .error fault => p.halt fault := by
  cases ending with
  | win => rfl
  | lose => rfl
  | verdict =>
    unfold announce Stage.resolve
    dsimp only
    cases p.stage.solved p.state with
    | error fault => rfl
    | ok verdict => cases verdict <;> rfl

/-- Once an outcome is announced no timer is left. -/
theorem playFor_conclude (hqueue : p.timers.queue = []) (outcome : Outcome) (n : Nat) :
    (p.conclude outcome).andThen (playFor n) = p.conclude outcome := by
  have hleft : (p.conclude outcome).player.timers.queue = [] := hqueue
  rw [Reply.andThen_of_done rfl]
  exact playFor_of_none ((deliverNext_eq_none_iff _).2 hleft) n

/-- What playing a program out comes to that has arrived at some time: the finish of the stage, once
the announcement is made, or its fault. -/
inductive Ends (arrived : Nat) (mode : Mode) (reply : Reply ManualClock) :
    Except StepFault Finish → Prop
  | finishes {finish : Finish} : reply.error = none →
      reply.player.status = finish.outcome.status → reply.player.step = finish.step →
      reply.player.timers.now = arrived + delayOf mode finish.outcome →
      Ends arrived mode reply (.ok finish)
  | faults {fault : StepFault} : reply.error = some (.fault fault) →
      Ends arrived mode reply (.error fault)

/-- A run that has arrived ends with its announcement. -/
theorem PlaysOn.ends {result : Except StepFault Arrival} (h : PlaysOn program q rest reply result) :
    Ends (q.timers.now + q.pausesOver rest) q.stage.rules.mode reply
      (result.bind (q.stage.resolve program.blockCount q.wins)) := by
  cases h with
  | faults herror => exact .faults herror
  | @arrives arrival p n harrived hreply =>
    obtain ⟨state, step, ending⟩ := arrival
    obtain ⟨hfree, hstage, hwins, rfl, rfl, hnow⟩ := harrived
    have hblocks : p.blockCount = program.blockCount := by rw [blockCount, hfree.loaded]
    let due := p.later (p.endingDelay ending)
    have hannounce : due.announce ending =
        match q.stage.resolve program.blockCount q.wins ⟨p.state, p.step, ending⟩ with
        | .ok finish => { due with wins := due.winsWith finish.outcome }.conclude finish.outcome
        | .error fault => due.halt fault := by
      rw [announce_eq, ← hstage, ← hblocks, ← hwins]
      rfl
    rw [hfree.playFor_awaitAnnouncement, hannounce] at hreply
    show Ends _ _ reply (q.stage.resolve program.blockCount q.wins ⟨p.state, p.step, ending⟩)
    cases hresolve : q.stage.resolve program.blockCount q.wins ⟨p.state, p.step, ending⟩ with
    | error fault =>
      rw [hresolve] at hreply
      subst hreply
      exact .faults rfl
    | ok finish =>
      obtain ⟨hstep, -, hlost⟩ := Stage.resolve_ok hresolve
      have hdelay : p.endingDelay ending = delayOf q.stage.rules.mode finish.outcome := by
        rw [p.endingDelay_eq hlost, hstage]
      rw [hresolve] at hreply
      dsimp only at hreply
      rw [playFor_conclude rfl] at hreply
      subst hreply
      refine .finishes rfl rfl hstep.symm ?_
      show p.timers.now + p.endingDelay ending = _
      rw [hnow, hdelay]

end

/-! ## A run from its start -/

theorem andThen_playOut (reply : Reply ManualClock) :
    reply.andThen playOut = reply.andThen (playFor reply.player.deliveryBound) := by
  unfold Reply.andThen
  split <;> rfl

/-- Playing an action leaves the player in its place, or one action on. -/
theorem Played.place_eq {auto : Bool} {reply : Reply ManualClock} (h : Played q auto reply) :
    reply.player.place = q.place ∨ ∃ state, reply.player.place = (q.commit state).place := by
  cases h with
  | ended _ => exact .inl (place_awaitAnnouncement _ _)
  | faulted _ _ => exact .inl (place_halt _ _)
  | won _ _ _ => exact .inr ⟨_, place_awaitAnnouncement _ _⟩
  | lost _ _ _ => exact .inr ⟨_, place_awaitAnnouncement _ _⟩
  | last _ _ _ _ => exact .inr ⟨_, place_awaitAnnouncement _ _⟩
  | onward _ _ _ _ _ => exact .inr ⟨_, place_awaitAdvance _⟩
  | held _ _ _ _ _ => exact .inr ⟨_, rfl⟩

/-- After an action the bound still leaves enough deliveries for the rest of the program. -/
theorem lt_deliveryBound_proceed (q : Player ManualClock) :
    q.programSize - q.step < (q.proceed true).player.deliveryBound := by
  have hplace : (q.proceed true).player.program = q.program ∧
      (q.proceed true).player.step ≤ q.step + 1 := by
    rcases (q.played true).place_eq with h | ⟨state, h⟩
    · exact ⟨congrArg Place.program h, Nat.le_succ_of_le (Nat.le_of_eq (congrArg Place.step h))⟩
    · exact ⟨congrArg Place.program h, Nat.le_of_eq (congrArg Place.step h)⟩
  unfold deliveryBound
  rw [programSize_eq, programSize_eq, hplace.1]
  omega

/-- The player right after the first compilation. -/
theorem opened_eq {first : Player ManualClock} (halarm : first.alarm = none) (program : Program) :
    first.opened program .running = { first with
      source := first.source.ask.2, program := some program, state := none, step := 0,
      latestIndex := none, status := .running, outcome := none, alarm := none,
      events := first.events ++ [.reset] ++ [.started program.size] } := by
  rw [opened, refused, reset_eq, silenced, halarm]
  rfl

/-- **A run from its start.** Playing a program out from its start comes to what the stage makes of
it. -/
theorem ends_play {first : Player ManualClock} (hpaused : first.status ≠ .paused)
    (halarm : first.alarm = none) (hqueue : first.timers.queue = [])
    (hanswer : first.source.ask.1 = .ok program) :
    Ends (first.timers.now + pausesAfter first.preferences.speed first.stage.rules.mode
        (program.actions.take (first.stage.executed none program.actions - 1)))
      first.stage.rules.mode (first.play.andThen playOut)
      (first.stage.oneShot program first.wins) := by
  have hopened := opened_eq halarm program
  have hplay : first.play = (first.opened program .running).proceed true :=
    (Turn.fresh (.play hpaused) hanswer).obey_eq
  have hfree : Free program (first.opened program .running) := by
    rw [hopened]
    exact ⟨rfl, hqueue, rfl, rfl⟩
  have hstep : (first.opened program .running).step = 0 := by rw [hopened]
  have hbound := (first.opened program .running).lt_deliveryBound_proceed
  rw [hfree.programSize_eq, hstep] at hbound
  have hends := (hfree.playsOn (by rw [hstep]; rfl) hbound).ends
  rw [← andThen_playOut, ← hplay, hopened] at hends
  exact hends

/-- The time from the start of a run to the end of all deliveries. -/
def playingTime (first : Player ManualClock) : Nat :=
  (first.play.andThen playOut).player.timers.now - first.timers.now

/-- The last of the actions at the front of a list is the one before their number. -/
theorem take_eq_snoc {actions before : List Action} {last : Action} {k : Nat}
    (hk : k ≤ actions.length) (h : actions.take k = before ++ [last]) :
    actions.take (k - 1) = before ∧ actions[k - 1]? = some last := by
  have hlength : k = before.length + 1 := by
    rw [← List.length_take_of_le hk, h, List.length_append, List.length_singleton]
  subst hlength
  rw [Nat.add_sub_cancel]
  constructor
  · rw [← Nat.min_eq_left (Nat.le_succ before.length), ← List.take_take, h, List.take_left]
  · rw [← List.getElem?_take_of_lt (Nat.lt_succ_self _), h, List.getElem?_concat_length]

section

variable {registry : Registry} {puzzle : Puzzle} {source : ProgramSource} {clock : ManualClock}
  {preferences : Preferences} {hours : Nat → Nat} {first : Player ManualClock}
  (hcreate : create registry puzzle source clock preferences hours = .ok first)
  (hqueue : clock.queue = []) (hanswer : source.ask.1 = .ok program)

include hcreate hqueue hanswer

theorem ends_create :
    Ends (first.timers.now + pausesAfter preferences.speed first.stage.rules.mode
        (program.actions.take (first.stage.executed none program.actions - 1)))
      first.stage.rules.mode (first.play.andThen playOut) (first.stage.oneShot program 0) := by
  have hnew : first.status ≠ .paused ∧ first.alarm = none ∧ first.wins = 0 ∧
      first.timers = clock ∧ first.source = source ∧ first.preferences = preferences := by
    obtain ⟨_, _, _, _, rfl⟩ := create_eq_ok hcreate
    exact ⟨nofun, rfl, rfl, rfl, rfl, rfl⟩
  obtain ⟨hpaused, halarm, hwins, rfl, rfl, rfl⟩ := hnew
  rw [← hwins]
  exact ends_play hpaused halarm hqueue hanswer

/-- A run without an error has a finish. -/
theorem finish_of_error_none (herror : (first.play.andThen playOut).error = none) :
    ∃ finish, first.stage.oneShot program 0 = .ok finish := by
  have hends := ends_create hcreate hqueue hanswer
  generalize first.stage.oneShot program 0 = result at hends
  cases hends with
  | finishes _ _ _ _ => exact ⟨_, rfl⟩
  | faults hfault => exact nomatch hfault.symm.trans herror

/-- A run that has a finish gets there, in the time of its pauses and the announcement. -/
theorem playingTime_eq {finish : Finish} (hshot : first.stage.oneShot program 0 = .ok finish) :
    (first.play.andThen playOut).error = none ∧
    (first.play.andThen playOut).player.status = finish.outcome.status ∧
    (first.play.andThen playOut).player.step = finish.step ∧
    (first.play.andThen playOut).player.timers.now = first.timers.now + first.playingTime ∧
    first.playingTime = pausesAfter preferences.speed first.stage.rules.mode
      (program.actions.take (first.stage.executed none program.actions - 1)) +
        delayOf first.stage.rules.mode finish.outcome := by
  have hends := ends_create hcreate hqueue hanswer
  rw [hshot] at hends
  cases hends with
  | finishes herror hstatus hstep hnow =>
    rw [Nat.add_assoc] at hnow
    have htime := Nat.sub_eq_of_eq_add' hnow
    exact ⟨herror, hstatus, hstep, by rw [playingTime, htime, hnow], htime⟩

end

/-- **Playback takes exactly its pauses.** Take a new player on a clock without other timers, for
rules, a puzzle, a program and preferences of any kind, and play the program out. If no error is
reported then the run is over once the actions up to the first win or loss are played, or all of
them, and it is lost exactly if the last of them says so. The clock is ahead by the pauses after all
of them but the last, and by the delay of the announcement; so a scan in the last place adds no
pause. And a second player, with other preferences on another clock, comes to an end as well: it
takes no longer on a faster setting, and settings beyond the fastest count as the fastest. -/
theorem playing_time {registry : Registry} {puzzle : Puzzle} {source : ProgramSource}
    {clock : ManualClock} {preferences : Preferences} {hours : Nat → Nat}
    {first : Player ManualClock} {program : Program}
    (hcreate : create registry puzzle source clock preferences hours = .ok first)
    (hqueue : clock.queue = []) (hanswer : source.ask.1 = .ok program)
    (herror : (first.play.andThen playOut).error = none) :
    let final := (first.play.andThen playOut).player
    let mode := first.stage.rules.mode
    let k := first.stage.executed none program.actions
    final.status.isOver = true ∧ final.step = k ∧
    (final.status = .lost ↔
      (first.stage.signals none program.actions)[k - 1]? = some .lost) ∧
    final.timers.now = clock.now +
      pausesAfter preferences.speed mode (program.actions.take (k - 1)) +
      (if final.status = .lost then 500 else announcementDelay mode) ∧
    (∀ before scan, program.actions.take k = before ++ [scan] → scan.isScan = true →
      final.timers.now =
        clock.now + pausesAfter preferences.speed mode before + announcementDelay mode) ∧
    ∀ others clock' second, create registry puzzle source clock' others hours = .ok second →
      clock'.queue = [] →
      (second.play.andThen playOut).error = none ∧
      (preferences.speed ≤ others.speed → second.playingTime ≤ first.playingTime) ∧
      (min preferences.speed topSpeed = min others.speed topSpeed →
        second.playingTime = first.playingTime) := by
  intro final mode k
  obtain ⟨finish, hshot⟩ := finish_of_error_none hcreate hqueue hanswer herror
  obtain ⟨-, hstatus, hstep, hnow, htime⟩ := playingTime_eq hcreate hqueue hanswer hshot
  obtain ⟨hexecuted, hover, hlost⟩ := Stage.oneShot_ok hshot
  rw [← hstatus] at hover hlost
  have hclock : first.timers = clock := by
    obtain ⟨_, _, _, _, rfl⟩ := create_eq_ok hcreate
    rfl
  have hfinal : final.timers.now = clock.now +
      pausesAfter preferences.speed mode (program.actions.take (k - 1)) +
      (if final.status = .lost then 500 else announcementDelay mode) := by
    rw [hnow, htime, hclock, ← Nat.add_assoc, delayOf, ← hstatus]
    rfl
  refine ⟨hover, hstep.trans hexecuted, hlost, hfinal, fun before scan htake hscan => ?_, ?_⟩
  · obtain ⟨hbefore, hlast⟩ := take_eq_snoc (Stage.executed_le _ _ _) htake
    -- A scan never loses, so the announcement takes the time of its mode.
    have hgoes : final.status ≠ .lost := fun h =>
      nomatch Stage.signals_scan hlast hscan (hlost.1 h)
    rw [hfinal, hbefore, if_neg hgoes]
  · intro others clock' second hsecond hqueue'
    have hstage := stage_eq_of_create hcreate hsecond
    obtain ⟨herror', -, -, -, htime'⟩ := playingTime_eq hsecond hqueue' hanswer (hstage ▸ hshot)
    rw [hstage] at htime'
    have hle {slow fast : UInt8} (h : min slow topSpeed ≤ min fast topSpeed) :=
      pausesAfter_le h mode (program.actions.take (k - 1))
    refine ⟨herror', fun hspeed => ?_, fun hspeed => ?_⟩
    · rw [htime, htime']
      exact Nat.add_le_add_right (hle (min_topSpeed_le hspeed)) _
    · rw [htime, htime']
      congr 1
      exact Nat.le_antisymm (hle (hspeed ▸ UInt8.le_refl _)) (hle (hspeed ▸ UInt8.le_refl _))

/-- A program that prints a line between two scans. -/
def twoScans : Program := .ofActions [⟨none, .scan⟩, ⟨none, .print "a"⟩, ⟨none, .scan⟩]

/-- A new player of that program on a clock that already shows some time. -/
def scanner (speed : UInt8) : Player ManualClock :=
  { novice ⟨7, 0, []⟩ with source := .always twoScans, preferences := ⟨speed, true⟩ }

theorem create_scanner (speed : UInt8) :
    create .standard blankPuzzle (.always twoScans) ⟨7, 0, []⟩ ⟨speed, true⟩
      (fun _ => 12) = .ok (scanner speed) := rfl

/-- The first scan is waited for and the last is not; the line costs a pause of the slider. -/
theorem playing_time_twoScans :
    ((scanner 90).play.andThen playOut).player.step = 3 ∧
      ((scanner 90).play.andThen playOut).player.timers.now = 7 + (500 + 100) + 500 ∧
      (scanner 250).playingTime ≤ (scanner 90).playingTime := by
  have herror : ((scanner 90).play.andThen playOut).error = none := rfl
  obtain ⟨-, hstep, -, hnow, -, hothers⟩ := playing_time (create_scanner 90) rfl rfl herror
  have hdelay : announcementDelay (scanner 90).stage.rules.mode = 500 := rfl
  rw [hdelay, ite_self] at hnow
  exact ⟨hstep, hnow, (hothers _ _ _ (create_scanner 250) rfl).2.1 (by decide)⟩

end Player

end PuzzlePlayback
