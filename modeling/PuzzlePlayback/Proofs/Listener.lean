import PuzzlePlayback.Proofs.PlayOut

/-!
# Listening is as good as looking

A host can look at a player after every operation (`View`), or it can listen to the events alone
and keep a picture of its own (`Listener`). The two agree, whatever the host asks and whenever it
takes the events. One thing the events leave open: a run that has started plays on by itself or
waits for the next single step, and nothing says which until the player pauses, goes on, travels
or stops because of a fault.

The invariant is `Listener.Shows`. `Tells p told q` says that the way from `p` to `q` notes the
events `told` and that they keep every listener in the picture; it holds of each move, and ways
are joined by `Tells.append`. Where a run stops without an outcome the listener forgets the one
it heard of, so coherence is needed there: the player has none either.

Main result: `listener_shows_player`.
-/

namespace PuzzlePlayback

/-! ## Listeners -/

/-- What a listener knows of the status. -/
inductive Outlook
  | known (status : Status)
  /-- A run has started, by itself or step by step. -/
  | playing
deriving DecidableEq

/-- The status is one that the listener thinks possible. -/
def Outlook.Fits : Outlook → Status → Prop
  | .known status, actual => status = actual
  | .playing, actual => actual = .running ∨ actual = .paused

/-- What a host knows that only listens. -/
structure Listener where
  outlook : Outlook
  step : Nat
  size : Nat
  latestIndex : Option Nat
  outcome : Option Outcome
deriving DecidableEq

/-- What a host sees that looks at a player. -/
structure View where
  status : Status
  step : Nat
  size : Nat
  latestIndex : Option Nat
  outcome : Option Outcome

def Player.view {σ : Type} (p : Player σ) : View :=
  ⟨p.status, p.step, p.programSize, p.latestIndex, p.outcome⟩

namespace Listener

/-- A listener that has heard nothing yet. -/
def new : Listener := ⟨.known .idle, 0, 0, none, none⟩

/-- Hear of an event. -/
def hear (l : Listener) : Event → Listener
  | .started size => { l with outlook := .playing, size }
  | .stepped step action => { l with step, latestIndex := some action }
  | .paused _ => { l with outlook := .known .paused }
  | .resumed _ => { l with outlook := .known .running }
  | .reset => { l with outlook := .known .idle, step := 0, latestIndex := none, outcome := none }
  | .cleared => { l with size := 0 }
  | .traveled step => { l with
      outlook := .known .paused
      step
      latestIndex := if step = 0 then none else some (step - 1)
      outcome := none }
  | .settled outcome => { l with outlook := .known outcome.status, outcome := some outcome }
  | .faulted _ _ => { l with outlook := .known .paused, outcome := none }

def hearAll (l : Listener) (events : List Event) : Listener := events.foldl hear l

/-- The listener's picture is that of the view. -/
structure Shows (l : Listener) (view : View) : Prop where
  outlook : l.outlook.Fits view.status
  step : l.step = view.step
  size : l.size = view.size
  latestIndex : l.latestIndex = view.latestIndex
  outcome : l.outcome = view.outcome

/-- A step is the next one that the listener expects. -/
def Expects (l : Listener) : Event → Prop
  | .stepped step action => step = action + 1 ∧ action = l.step
  | _ => True

/-- Every step is the next one when the listener hears of it. -/
def InStep (l : Listener) : List Event → Prop
  | [] => True
  | event :: rest => l.Expects event ∧ (l.hear event).InStep rest

theorem hearAll_append (l : Listener) (a b : List Event) :
    l.hearAll (a ++ b) = (l.hearAll a).hearAll b := List.foldl_append

theorem inStep_append {l : Listener} {a b : List Event} :
    l.InStep (a ++ b) ↔ l.InStep a ∧ (l.hearAll a).InStep b := by
  induction a generalizing l with
  | nil => simp [InStep, hearAll]
  | cons event a ih =>
    show l.Expects event ∧ (l.hear event).InStep (a ++ b) ↔ _
    rw [ih, ← and_assoc]
    rfl

end Listener

namespace Event

/-- The event tells of a step. -/
def isStep : Event → Bool
  | .stepped _ _ => true
  | _ => false

/-- The event says something about the status. -/
def aboutStatus : Event → Bool
  | .stepped _ _ | .cleared => false
  | _ => true

end Event

/-- A listener is in doubt only while nothing was said about the status since a run started. -/
theorem Listener.in_doubt {l : Listener} {events : List Event}
    (h : (l.hearAll events).outlook = .playing) :
    (l.outlook = .playing ∧ ∀ event ∈ events, event.aboutStatus = false) ∨
      ∃ before size after, events = before ++ .started size :: after ∧
        ∀ event ∈ after, event.aboutStatus = false := by
  induction events generalizing l with
  | nil => exact .inl ⟨h, nofun⟩
  | cons event events ih =>
    rcases ih h with ⟨hplaying, hquiet⟩ | ⟨before, size, after, rfl, hquiet⟩
    · cases event with
      | started size => exact .inr ⟨[], size, events, rfl, hquiet⟩
      | stepped step action => exact .inl ⟨hplaying, by simpa [Event.aboutStatus] using hquiet⟩
      | cleared => exact .inl ⟨hplaying, by simpa [Event.aboutStatus] using hquiet⟩
      | _ => cases hplaying
    · exact .inr ⟨event :: before, size, after, rfl, hquiet⟩

namespace Player

variable {σ : Type} [TimerSource σ]

/-! ## What a host sees of a move -/

@[simp] theorem view_await (p : Player σ) (delay : Nat) (duty : Duty) :
    (p.await delay duty).view = p.view := by
  rw [await_eq]
  rfl

@[simp] theorem view_awaitAdvance (p : Player σ) : p.awaitAdvance.view = p.view :=
  p.view_await _ _

@[simp] theorem view_awaitAnnouncement (p : Player σ) (ending : Ending) :
    (p.awaitAnnouncement ending).view = p.view := p.view_await _ _

theorem view_resume (p : Player σ) : p.resume.view = { p.view with status := .running } := by
  unfold resume
  dsimp only
  split
  · rw [view_awaitAdvance]
    rfl
  · rfl

theorem view_pause {p : Player σ} (hrunning : p.status = .running) :
    p.pause.view = { p.view with status := .paused } := by
  rw [pause, if_pos hrunning, cancelAlarm_eq]
  dsimp only
  split <;> rfl

/-! ## What a listener is told -/

/-- The way from `p` to `q` notes the events `told`, and a listener that hears them stays in the
picture. -/
structure Tells (p : Player σ) (told : List Event) (q : Player σ) : Prop where
  events : q.events = p.events ++ told
  heard : ∀ {l : Listener}, l.Shows p.view → l.InStep told ∧ (l.hearAll told).Shows q.view

section

variable {p q r : Player σ} {told later : List Event}

omit [TimerSource σ] in
theorem Tells.nothing (hevents : q.events = p.events) (hview : q.view = p.view) :
    Tells p [] q where
  events := by rw [hevents, List.append_nil]
  heard h := ⟨trivial, hview ▸ h⟩

omit [TimerSource σ] in
theorem Tells.append (h : Tells p told q) (hlater : Tells q later r) :
    Tells p (told ++ later) r where
  events := by rw [hlater.events, h.events, List.append_assoc]
  heard hshows := by
    obtain ⟨hstep, hmiddle⟩ := h.heard hshows
    obtain ⟨hlaterStep, hend⟩ := hlater.heard hmiddle
    exact ⟨Listener.inStep_append.2 ⟨hstep, hlaterStep⟩, by rwa [Listener.hearAll_append]⟩

omit [TimerSource σ] in
/-- Nothing that the host does not see keeps it from following. -/
theorem Tells.unseen (h : Tells p told q) (hevents : r.events = q.events)
    (hview : r.view = q.view) : Tells p told r where
  events := hevents.trans h.events
  heard hshows := hview ▸ h.heard hshows

theorem Tells.awaitAnnouncement (h : Tells p told q) (ending : Ending) :
    Tells p told (q.awaitAnnouncement ending) :=
  h.unseen (q.events_awaitAnnouncement ending) (q.view_awaitAnnouncement ending)

theorem Tells.awaitAdvance (h : Tells p told q) : Tells p told q.awaitAdvance :=
  h.unseen q.events_awaitAdvance q.view_awaitAdvance

theorem tells_reset (p : Player σ) : Tells p [.reset] p.reset where
  events := p.events_reset
  heard h := by
    rw [reset_eq]
    exact ⟨⟨trivial, trivial⟩, rfl, rfl, h.size, rfl, rfl⟩

theorem tells_clear (p : Player σ) : Tells p [.reset, .cleared] p.clear where
  events := p.events_clear
  heard h := by
    rw [clear, reset_eq]
    exact ⟨⟨trivial, trivial, trivial⟩, rfl, rfl, rfl, rfl, rfl⟩

theorem tells_opened (p : Player σ) (program : Program) {status : Status}
    (hstatus : status = .running ∨ status = .paused) :
    Tells p [.reset, .started program.size] (p.opened program status) where
  events := p.events_opened program status
  heard h := by
    rw [opened, refused, reset_eq]
    exact ⟨⟨trivial, trivial, trivial⟩, hstatus, rfl, rfl, rfl, rfl⟩

/-- On hearing of a fault a listener drops the outcome, so the player has to as well. -/
theorem tells_fault (p : Player σ) (fault : StepFault) :
    Tells p [.faulted fault.step fault.fault.message] ({ p with outcome := none }.halt fault).player
    where
  events := events_halt _ fault
  heard h := by
    rw [halt_player]
    exact ⟨⟨trivial, trivial⟩, rfl, h.step, h.size, h.latestIndex, rfl⟩

theorem tells_halt (p : Player σ) (fault : StepFault) (houtcome : p.outcome = none) :
    Tells p [.faulted fault.step fault.fault.message] (p.halt fault).player := by
  have hsame : { p with outcome := none } = p := by
    cases p
    cases houtcome
    rfl
  have hfault := p.tells_fault fault
  rwa [hsame] at hfault

omit [TimerSource σ] in
theorem tells_commit (p : Player σ) (state : World) :
    Tells p [.stepped (p.step + 1) p.step] (p.commit state) where
  events := p.events_commit state
  heard h := ⟨⟨⟨rfl, h.step.symm⟩, trivial⟩, h.outlook, rfl, h.size, rfl, h.outcome⟩

omit [TimerSource σ] in
theorem tells_conclude (p : Player σ) (outcome : Outcome) :
    Tells p [.settled outcome] (p.conclude outcome).player where
  events := p.events_conclude outcome
  heard h := ⟨⟨trivial, trivial⟩, rfl, h.step, h.size, h.latestIndex, rfl⟩

omit [TimerSource σ] in
theorem tells_concludeWin (p : Player σ) :
    Tells p [.settled (p.stage.winOutcome p.blockCount p.wins)] p.concludeWin.player where
  events := p.events_concludeWin
  heard h := ⟨⟨trivial, trivial⟩, rfl, h.step, h.size, h.latestIndex, rfl⟩

theorem tells_resume (p : Player σ) : Tells p [.resumed p.step] p.resume where
  events := p.events_resume
  heard h := by
    rw [view_resume]
    exact ⟨⟨trivial, trivial⟩, rfl, h.step, h.size, h.latestIndex, h.outcome⟩

theorem tells_pause (hrunning : p.status = .running) : Tells p [.paused p.step] p.pause where
  events := events_pause hrunning
  heard h := by
    rw [view_pause hrunning]
    exact ⟨⟨trivial, trivial⟩, rfl, h.step, h.size, h.latestIndex, h.outcome⟩

theorem tells_arrived (p : Player σ) (n : Nat) (state : World) :
    Tells p [.traveled n] (p.arrived n state) where
  events := p.events_arrived n state
  heard h := by
    rw [arrived, cancelAlarm_eq]
    exact ⟨⟨trivial, trivial⟩, rfl, rfl, h.size, rfl, rfl⟩

end

/-! ## What an operation tells -/

/-- Coming to the next action tells of no step. -/
theorem Turn.tells {p q : Player σ} {control : Control} {auto : Bool} (h : Turn p control q auto) :
    ∃ told, Tells p told q ∧ told.countP Event.isStep = 0 := by
  cases h with
  | @fresh _ status program hstarts _ =>
    have hstatus : status = .running ∨ status = .paused := by
      cases hstarts
      · exact .inl rfl
      · exact .inr rfl
    exact ⟨_, p.tells_opened program hstatus, rfl⟩
  | interrupted _ hrunning => exact ⟨_, tells_pause hrunning, rfl⟩
  | single _ _ => exact ⟨[], .nothing rfl rfl, rfl⟩
  | due _ _ => exact ⟨[], .nothing rfl rfl, rfl⟩

/-- Playing an action tells of one step at most. -/
theorem Played.tells {q : Player σ} {auto : Bool} {reply : Reply σ} (h : Played q auto reply)
    (houtcome : q.outcome = none) :
    ∃ told, Tells q told reply.player ∧ told.countP Event.isStep ≤ 1 := by
  have hcommit (state : World) := q.tells_commit state
  cases h with
  | ended _ => exact ⟨[], (Tells.nothing rfl rfl).awaitAnnouncement _, Nat.zero_le 1⟩
  | faulted _ _ => exact ⟨_, q.tells_halt _ houtcome, Nat.zero_le 1⟩
  | won _ _ _ => exact ⟨_, (hcommit _).awaitAnnouncement _, Nat.le_refl 1⟩
  | lost _ _ _ => exact ⟨_, (hcommit _).awaitAnnouncement _, Nat.le_refl 1⟩
  | last _ _ _ _ => exact ⟨_, (hcommit _).awaitAnnouncement _, Nat.le_refl 1⟩
  | onward _ _ _ _ _ => exact ⟨_, (hcommit _).awaitAdvance, Nat.le_refl 1⟩
  | held _ _ _ _ _ => exact ⟨_, hcommit _, Nat.le_refl 1⟩

theorem Announced.tells {p : Player σ} {ending : Ending} {reply : Reply σ}
    (h : Announced p ending reply) (houtcome : p.outcome = none) :
    ∃ told, Tells p told reply.player ∧ told.countP Event.isStep = 0 := by
  cases h with
  | win => exact ⟨_, p.tells_concludeWin, rfl⟩
  | solved _ => exact ⟨_, p.tells_concludeWin, rfl⟩
  | lose => exact ⟨_, p.tells_conclude _, rfl⟩
  | unsolved _ => exact ⟨_, p.tells_conclude _, rfl⟩
  | faulted _ => exact ⟨_, p.tells_halt _ houtcome, rfl⟩

/-- Every operation keeps a listener in the picture, and tells of one step at most. -/
theorem Course.tells {p : Player σ} {control : Control} {reply : Reply σ}
    (h : Course p control reply) (hp : Coherent p) :
    ∃ told, Tells p told reply.player ∧ told.countP Event.isStep ≤ 1 := by
  have hsilent : Tells p [] p := .nothing rfl rfl
  cases h with
  | @turned _ q auto turn =>
    obtain ⟨before, hbefore, hnone⟩ := turn.tells
    obtain ⟨after, hafter, hone⟩ := (q.played auto).tells (turn.poised hp).outcome
    refine ⟨before ++ after, hbefore.append hafter, ?_⟩
    rwa [List.countP_append, hnone, Nat.zero_add]
  | refused _ _ => exact ⟨_, p.tells_reset.unseen rfl rfl, Nat.zero_le 1⟩
  | resumed _ => exact ⟨_, p.tells_resume, Nat.zero_le 1⟩
  | paused hrunning => exact ⟨_, tells_pause hrunning, Nat.zero_le 1⟩
  | pauseIgnored _ => exact ⟨_, hsilent, Nat.zero_le 1⟩
  | stepIgnored _ => exact ⟨_, hsilent, Nat.zero_le 1⟩
  | rewound => exact ⟨_, p.tells_reset, Nat.zero_le 1⟩
  | cleared => exact ⟨_, p.tells_clear, Nat.zero_le 1⟩
  | @exchanged source =>
    have hsource : Tells p [] { p with source } := .nothing rfl rfl
    exact ⟨_, hsource.append (tells_clear _), Nat.zero_le 1⟩
  | lost _ => exact ⟨_, hsilent, Nat.zero_le 1⟩
  | traveled _ _ => exact ⟨_, p.tells_arrived _ _, Nat.zero_le 1⟩
  | strayed _ _ => exact ⟨_, p.tells_fault _, Nat.zero_le 1⟩
  | slid => exact ⟨_, .nothing rfl rfl, Nat.zero_le 1⟩
  | @announced timer ending halarm =>
    have houtcome := hp.outcome_eq_none (hp.midway halarm)
    obtain ⟨told, htold, hnone⟩ :=
      (Player.announced { p with alarm := none } ending).tells houtcome
    exact ⟨told, ⟨htold.events, htold.heard⟩, hnone ▸ Nat.zero_le 1⟩
  | dropped _ _ => exact ⟨_, .nothing rfl rfl, Nat.zero_le 1⟩
  | stale _ => exact ⟨_, hsilent, Nat.zero_le 1⟩

/-! ## Subscriptions -/

/-- `Subscribed first p heard`: a host that starts with `first` can come to `p` and have taken the
events `heard` on the way, in as many parts as it liked. -/
inductive Subscribed (first : Player σ) : Player σ → List Event → Prop
  | refl : Subscribed first first []
  | obey {p : Player σ} {heard : List Event} (control : Control) :
      Subscribed first p heard → Subscribed first (p.obey control).player heard
  | take {p : Player σ} {heard : List Event} :
      Subscribed first p heard → Subscribed first p.takeEvents.2 (heard ++ p.takeEvents.1)
  | timers {p : Player σ} {heard : List Event} (timers : σ) :
      Subscribed first p heard → Subscribed first { p with timers } heard

namespace Subscribed

variable {first p : Player σ} {heard : List Event}

theorem reachable (h : Subscribed first p heard) : Reachable first p := by
  induction h with
  | refl => exact .refl
  | obey control _ ih => exact ih.obey control
  | @take p heard _ ih => exact ih.aside p.timers []
  | @timers p heard timers _ ih => exact ih.aside timers p.events

/-- What was heard and what is still to hear keep a listener in the picture. -/
theorem heard_shows (h : Subscribed first p heard) (hfirst : Coherent first)
    (hrange : InRange first.place) (hevents : first.events = [])
    (hview : Listener.new.Shows first.view) :
    Listener.new.InStep (heard ++ p.events) ∧
      (Listener.new.hearAll (heard ++ p.events)).Shows p.view := by
  induction h with
  | refl =>
    rw [hevents]
    exact ⟨trivial, hview⟩
  | @obey p heard control hp ih =>
    obtain ⟨told, htold, -⟩ :=
      (p.course control).tells (hp.reachable.coherent hfirst hrange).1
    obtain ⟨hstep, hshows⟩ := htold.heard ih.2
    rw [htold.events, ← List.append_assoc, Listener.inStep_append,
      Listener.hearAll_append _ (heard ++ p.events)]
    exact ⟨⟨ih.1, hstep⟩, hshows⟩
  | @take p heard _ ih =>
    show Listener.new.InStep (heard ++ p.events ++ []) ∧
      (Listener.new.hearAll (heard ++ p.events ++ [])).Shows p.view
    rwa [List.append_nil]
  | timers _ _ ih => exact ih

/-- A host may also have the clock deliver its timers. -/
theorem playFor {first p : Player ManualClock} {heard : List Event}
    (h : Subscribed first p heard) (n : Nat) :
    Subscribed first (Player.playFor n p).player heard := by
  rcases playFor_cases (I := fun q => Subscribed first q heard) h (fun clock h => h.timers clock)
    (fun _ h => h.obey _) n with ⟨q, hq, hplayed⟩ | ⟨q, timer, hq, hplayed⟩
  · rwa [hplayed]
  · rw [hplayed]
    exact hq.obey (.deliver timer)

end Subscribed

/-- **Listening is as good as looking.** Whatever a host does with a new player and whenever it
takes the events: a listener that hears them all has the step, the size, the latest action and
the outcome of the player, and its status, save that a run that started may play by itself or
wait while nothing else was said about the status. Every step that is told of is the next one,
no operation tells of two, and a host that drives the player may listen too. -/
theorem listener_shows_player {registry : Registry} {puzzle : Puzzle} {source : ProgramSource}
    {timers : σ} {preferences : Preferences} {hours : Nat → Nat} {first : Player σ}
    (hcreate : create registry puzzle source timers preferences hours = .ok first) :
    (∀ p heard, Subscribed first p heard →
      (Listener.new.hearAll (heard ++ p.events)).Shows p.view ∧
      ((Listener.new.hearAll (heard ++ p.events)).outlook = .playing →
        ∃ before size after, heard ++ p.events = before ++ .started size :: after ∧
          ∀ event ∈ after, event.aboutStatus = false) ∧
      (∀ before step action after,
        heard ++ p.events = before ++ .stepped step action :: after →
          step = action + 1 ∧ action = (Listener.new.hearAll before).step) ∧
      ∀ control, ∃ told, (p.obey control).player.events = p.events ++ told ∧
        told.countP Event.isStep ≤ 1) ∧
    ∀ (start p : Player ManualClock) (heard : List Event),
      Subscribed start p heard → Subscribed start p.playOut.player heard := by
  obtain ⟨hcoherent, hrange⟩ := coherent_create hcreate
  refine ⟨fun p heard h => ?_, fun _ p _ h => h.playFor p.deliveryBound⟩
  obtain ⟨rules, reference, -, -, rfl⟩ := create_eq_ok hcreate
  obtain ⟨hstep, hshows⟩ := h.heard_shows hcoherent hrange rfl ⟨rfl, rfl, rfl, rfl, rfl⟩
  refine ⟨hshows, fun hplaying => ?_, fun before step action after hsplit => ?_,
    fun control => ?_⟩
  · exact (Listener.in_doubt hplaying).resolve_left fun hnew => nomatch hnew.1
  · rw [hsplit, Listener.inStep_append] at hstep
    exact hstep.2.1
  · obtain ⟨told, htold, hone⟩ :=
      (p.course control).tells (h.reachable.coherent hcoherent hrange).1
    exact ⟨told, htold.events, hone⟩

/-- A listener that takes the events after the first of two lines and hears the rest later. -/
theorem listener_shows_player_novice :
    let first := novice ManualClock.atZero
    let played := (first.obey .play).player
    let p := played.takeEvents.2.playOut.player
    Subscribed first p played.events ∧
      (Listener.new.hearAll (played.events ++ p.events)).Shows p.view ∧
      p.status = .won ∧ p.latestIndex = some 1 := by
  intro first played p
  obtain ⟨hshows, hdrive⟩ := listener_shows_player (create_novice ManualClock.atZero)
  have htaken : Subscribed first played.takeEvents.2 played.events := .take (.obey .play .refl)
  have hplayed := hdrive first played.takeEvents.2 played.events htaken
  exact ⟨hplayed, (hshows p played.events hplayed).1, rfl, rfl⟩

end Player

end PuzzlePlayback
