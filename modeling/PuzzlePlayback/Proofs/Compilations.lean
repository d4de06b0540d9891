import PuzzlePlayback.Proofs.Coherence
import PuzzlePlayback.Proofs.Latest

/-!
# Compilations

A program is compiled for a fresh start and for nothing else: neither to go on after a pause, nor
for an action, a journey, a reset or a fault. A compilation that fails leaves the program that was
there, although the run is back at its start by then; only a host that clears the player or
exchanges its source makes it forget the program.

The source counts what it is asked, so what an operation asked of it is seen from outside: `deed`
notes that, and what the operation told. `Supplied` is all that an operation can do to source and
program, and `History` is the list of deeds that led to a player.

Main result: `compiles_on_fresh_starts`.
-/

namespace PuzzlePlayback

namespace ProgramSource

/-- What a source has answered from a count of requests on. -/
def answersSince (source : ProgramSource) (count : Nat) :
    List (Except CompilationError Program) :=
  (List.range' count (source.requests - count)).map source.answer

theorem answersSince_requests (source : ProgramSource) :
    source.answersSince source.requests = [] := by
  rw [answersSince, Nat.sub_self]
  rfl

/-- One request has one answer. -/
theorem answersSince_ask (source : ProgramSource) :
    source.ask.2.answersSince source.requests = [source.ask.1] := by
  show (List.range' source.requests (source.requests + 1 - source.requests)).map source.answer = _
  rw [Nat.add_sub_cancel_left]
  rfl

end ProgramSource

namespace Control

/-- The operation makes a player forget its program. -/
def forgets : Control → Bool
  | .clear | .useSource _ => true
  | _ => false

/-- The operation asks for a run or a step, the only ones that can start afresh. -/
def plays : Control → Bool
  | .play | .stepOnce => true
  | _ => false

/-- The source that an operation works with: the one that it brings, or else the present one. -/
def sourceFrom : Control → ProgramSource → ProgramSource
  | .useSource source, _ => source
  | _, source => source

theorem sourceFrom_of_not_forgets {control : Control} (h : control.forgets = false)
    (source : ProgramSource) : control.sourceFrom source = source := by
  cases control <;> first | rfl | cases h

end Control

/-! ## Deeds -/

/-- What an operation did: what the source answered meanwhile, and what the host was told. -/
structure Deed where
  control : Control
  answers : List (Except CompilationError Program)
  told : List Event

/-- What a deed makes of the program: none once it is forgotten, the compiled one after a success.
All else leaves it. -/
def Deed.load (deed : Deed) : Option (Option Program) :=
  if deed.control.forgets then some none else (latest Except.toOption deed.answers).map some

namespace Player

variable {σ : Type} [TimerSource σ]

/-- What an operation does. -/
def deed (p : Player σ) (control : Control) : Deed where
  control := control
  answers := (p.obey control).player.source.answersSince (control.sourceFrom p.source).requests
  told := (p.obey control).player.events.drop p.events.length

/-- `History first deeds p`: with `deeds`, a host that starts with `first` can bring about `p`.
Between operations it may take the events and do anything to the timers. -/
inductive History (first : Player σ) : List Deed → Player σ → Prop
  | start : History first [] first
  | obey {deeds : List Deed} {p : Player σ} (control : Control) :
      History first deeds p →
      History first (deeds ++ [p.deed control]) (p.obey control).player
  | aside {deeds : List Deed} {p : Player σ} (timers : σ) (events : List Event) :
      History first deeds p → History first deeds { p with timers, events }

theorem History.reachable {first p : Player σ} {deeds : List Deed} (h : History first deeds p) :
    Reachable first p := by
  induction h with
  | start => exact .refl
  | obey control _ ih => exact .obey control ih
  | aside timers events _ ih => exact .aside timers events ih

/-! ## Moves that leave source and program alone -/

/-- None of the events resets or starts a run. -/
def Quiet (told : List Event) : Prop :=
  ∀ event ∈ told, event ≠ .reset ∧ ∀ size, event ≠ .started size

/-- From `p` to `q` source and program stay, and no run is reset or started. -/
structure Carries (p q : Player σ) : Prop where
  source : q.source = p.source
  program : q.program = p.program
  told : ∃ told, q.events = p.events ++ told ∧ Quiet told

section

variable {p q r : Player σ}

omit [TimerSource σ] in
theorem Carries.trans (h : Carries p q) (hlater : Carries q r) : Carries p r where
  source := hlater.source.trans h.source
  program := hlater.program.trans h.program
  told := by
    obtain ⟨told, hevents, hquiet⟩ := h.told
    obtain ⟨later, hlaterEvents, hlaterQuiet⟩ := hlater.told
    refine ⟨told ++ later, by rw [hlaterEvents, hevents, List.append_assoc], fun event hevent => ?_⟩
    exact (List.mem_append.1 hevent).elim (hquiet event) (hlaterQuiet event)

omit [TimerSource σ] in
theorem carries_silent (hsource : q.source = p.source) (hprogram : q.program = p.program)
    (hevents : q.events = p.events) : Carries p q :=
  ⟨hsource, hprogram, [], by rw [hevents, List.append_nil], nofun⟩

omit [TimerSource σ] in
theorem carries_tell {event : Event} (hsource : q.source = p.source)
    (hprogram : q.program = p.program) (hevents : q.events = p.events ++ [event])
    (hreset : event ≠ .reset) (hstarted : ∀ size, event ≠ .started size) : Carries p q := by
  refine ⟨hsource, hprogram, [event], hevents, fun other hother => ?_⟩
  rw [List.mem_singleton.1 hother]
  exact ⟨hreset, hstarted⟩

theorem carries_await (p : Player σ) (delay : Nat) (duty : Duty) :
    Carries p (p.await delay duty) := by
  rw [await_eq]
  exact carries_silent rfl rfl rfl

omit [TimerSource σ] in
theorem carries_commit (p : Player σ) (state : World) : Carries p (p.commit state) :=
  carries_tell rfl rfl rfl nofun nofun

theorem carries_halt (p : Player σ) (fault : StepFault) : Carries p (p.halt fault).player := by
  rw [halt_player]
  exact carries_tell rfl rfl rfl nofun nofun

theorem carries_resume (p : Player σ) : Carries p p.resume := by
  have hresumed : Carries p ({ p with status := .running }.emit (.resumed p.step)) :=
    carries_tell rfl rfl rfl nofun nofun
  unfold resume
  dsimp only
  split
  · exact hresumed.trans (carries_await _ _ _)
  · exact hresumed

theorem carries_pause (p : Player σ) : Carries p p.pause := by
  unfold pause
  split
  · rw [cancelAlarm_eq]
    dsimp only
    split <;> exact carries_tell rfl rfl rfl nofun nofun
  · exact carries_silent rfl rfl rfl

theorem Played.carries {auto : Bool} {reply : Reply σ} (h : Played q auto reply) :
    Carries q reply.player := by
  cases h with
  | ended _ => exact carries_await q _ _
  | faulted _ _ => exact carries_halt q _
  | won _ _ _ => exact (carries_commit q _).trans (carries_await _ _ _)
  | lost _ _ _ => exact (carries_commit q _).trans (carries_await _ _ _)
  | last _ _ _ _ => exact (carries_commit q _).trans (carries_await _ _ _)
  | onward _ _ _ _ _ => exact (carries_commit q _).trans (carries_await _ _ _)
  | held _ _ _ _ _ => exact carries_commit q _

theorem Announced.carries {ending : Ending} {reply : Reply σ} (h : Announced p ending reply) :
    Carries p reply.player := by
  cases h with
  | faulted _ => exact carries_halt p _
  | _ => exact carries_tell rfl rfl rfl nofun nofun

end

/-! ## What an operation does to source and program -/

/-- `Supplied p control source program told`: all that an operation can leave of source and
program, and what it tells. -/
inductive Supplied (p : Player σ) (control : Control) :
    ProgramSource → Option Program → List Event → Prop
  | compiled {status : Status} {program : Program} {told : List Event} :
      Starts p control status → p.source.ask.1 = .ok program → Quiet told →
      Supplied p control p.source.ask.2 (some program)
        (.reset :: .started program.size :: told)
  | refused {status : Status} {error : CompilationError} :
      Starts p control status → p.source.ask.1 = .error error →
      Supplied p control p.source.ask.2 p.program [.reset]
  | forgotten : control.forgets = true →
      Supplied p control (control.sourceFrom p.source) none [.reset, .cleared]
  | kept {told : List Event} : (∀ status, ¬Starts p control status) → control.forgets = false →
      (∀ size, .started size ∉ told) → Supplied p control p.source p.program told

section

variable {p q : Player σ} {control : Control}

omit [TimerSource σ] in
theorem not_starts (h : control.plays = false) (status : Status) : ¬Starts p control status := by
  intro hstarts
  cases hstarts <;> cases h

omit [TimerSource σ] in
/-- A player that was only carried along is supplied as before. -/
theorem Carries.supplied (h : Carries p q) (hstarts : ∀ status, ¬Starts p control status)
    (hforgets : control.forgets = false) :
    ∃ told, q.events = p.events ++ told ∧ Supplied p control q.source q.program told := by
  obtain ⟨told, hevents, hquiet⟩ := h.told
  refine ⟨told, hevents, ?_⟩
  rw [h.source, h.program]
  exact .kept hstarts hforgets fun size hmem => (hquiet _ hmem).2 size rfl

/-- A turn compiles a program and carries it along, or carries the present one along. -/
theorem Turn.supplied {auto : Bool} {reply : Reply σ} (turn : Turn p control q auto)
    (hplayed : Played q auto reply) : ∃ told, reply.player.events = p.events ++ told ∧
      Supplied p control reply.player.source reply.player.program told := by
  have hcarries := hplayed.carries
  cases turn with
  | @fresh _ status program hstarts hanswer =>
    obtain ⟨told, hevents, hquiet⟩ := hcarries.told
    refine ⟨.reset :: .started program.size :: told, ?_, ?_⟩
    · rw [hevents, events_opened, List.append_assoc]
      rfl
    · rw [hcarries.source, hcarries.program]
      exact .compiled hstarts hanswer hquiet
  | interrupted _ hrunning =>
    refine ((carries_pause p).trans hcarries).supplied (fun _ hstarts => ?_) rfl
    cases hstarts with
    | stepOnce _ hnot _ => exact hnot hrunning
  | single _ hpaused =>
    refine hcarries.supplied (fun _ hstarts => ?_) rfl
    cases hstarts with
    | stepOnce _ _ hnot => exact hnot hpaused
  | due _ _ =>
    have hsilent : Carries p { p with alarm := none } := carries_silent rfl rfl rfl
    exact (hsilent.trans hcarries).supplied nofun rfl

/-- **Nothing else is done to source and program.** -/
theorem Course.supplied {reply : Reply σ} (h : Course p control reply) :
    ∃ told, reply.player.events = p.events ++ told ∧
      Supplied p control reply.player.source reply.player.program told := by
  have hsilent : Carries p p := carries_silent rfl rfl rfl
  cases h with
  | @turned _ q auto turn => exact turn.supplied (q.played auto)
  | refused hstarts hanswer =>
    refine ⟨_, p.events_refused, ?_⟩
    have hprogram : p.refused.program = p.program := congrArg Place.program p.place_refused
    rw [hprogram]
    exact .refused hstarts hanswer
  | resumed hpaused =>
    refine (carries_resume p).supplied (fun _ hstarts => ?_) rfl
    cases hstarts with
    | play hnot => exact hnot hpaused
  | paused _ => exact (carries_pause p).supplied (not_starts rfl) rfl
  | pauseIgnored _ => exact hsilent.supplied (not_starts rfl) rfl
  | stepIgnored hending =>
    refine hsilent.supplied (fun _ hstarts => ?_) rfl
    cases hstarts with
    | stepOnce hnot _ _ => exact nomatch hending.symm.trans hnot
  | rewound =>
    refine ⟨_, p.events_reset, ?_⟩
    rw [Reply.done_player, reset_eq]
    exact .kept (not_starts rfl) rfl (by simp)
  | cleared =>
    refine ⟨_, p.events_clear, ?_⟩
    rw [Reply.done_player, clear, reset_eq]
    exact .forgotten rfl
  | exchanged =>
    refine ⟨_, p.events_useSource _, ?_⟩
    rw [Reply.done_player, useSource, clear, reset_eq]
    exact .forgotten rfl
  | lost _ => exact hsilent.supplied (not_starts rfl) rfl
  | traveled _ _ =>
    have harrived (n : Nat) (state : World) : Carries p (p.arrived n state) := by
      rw [arrived, cancelAlarm_eq]
      exact carries_tell rfl rfl rfl (by simp) (by simp)
    exact (harrived _ _).supplied (not_starts rfl) rfl
  | strayed _ _ =>
    have hforgetful : Carries p { p with outcome := none } := carries_silent rfl rfl rfl
    exact (hforgetful.trans (carries_halt _ _)).supplied (not_starts rfl) rfl
  | slid => exact Carries.supplied (carries_silent rfl rfl rfl) (not_starts rfl) rfl
  | announced _ =>
    have hwoken : Carries p { p with alarm := none } := carries_silent rfl rfl rfl
    exact (hwoken.trans (Player.announced _ _).carries).supplied (not_starts rfl) rfl
  | dropped _ _ => exact Carries.supplied (carries_silent rfl rfl rfl) (not_starts rfl) rfl
  | stale _ => exact hsilent.supplied (not_starts rfl) rfl

theorem supplied_obey (p : Player σ) (control : Control) :
    Supplied p control (p.obey control).player.source (p.obey control).player.program
      (p.deed control).told := by
  obtain ⟨told, hevents, hsupplied⟩ := (p.course control).supplied
  have htold : (p.deed control).told = told := by
    rw [deed, hevents, List.drop_left]
  rwa [htold]

/-! ## Deeds and programs -/

/-- The host asks for a run while the player does not pause, or for a step while it is idle or its
run is over. -/
def StartsAfresh (p : Player σ) : Control → Prop
  | .play => p.status ≠ .paused
  | .stepOnce => p.status = .idle ∨ p.status.isOver = true
  | _ => False

omit [TimerSource σ] in
/-- Between operations those are the fresh starts. -/
theorem Coherent.starts_iff (h : Coherent p) :
    (∃ status, Starts p control status) ↔ p.StartsAfresh control := by
  constructor
  · rintro ⟨status, hstarts⟩
    cases hstarts with
    | play hpaused => exact hpaused
    | stepOnce _ hrunning hpaused =>
      show p.status = .idle ∨ p.status.isOver = true
      cases hstatus : p.status with
      | running => exact absurd hstatus hrunning
      | paused => exact absurd hstatus hpaused
      | idle => exact .inl rfl
      | _ => exact .inr rfl
  · intro hafresh
    cases control with
    | play => exact ⟨_, .play hafresh⟩
    | stepOnce =>
      have halarm : p.alarm = none := by
        rcases hafresh with hidle | hover
        · exact (h.idle hidle).2.2
        · obtain ⟨outcome, houtcome⟩ := h.outcome_iff.2 (isOver_iff.1 hover)
          exact (h.outcome_eq outcome houtcome).2
      refine ⟨_, .stepOnce (by rw [isEnding, halarm]) (fun hstatus => ?_) fun hstatus => ?_⟩
      · simp [StartsAfresh, hstatus, Status.isOver] at hafresh
      · simp [StartsAfresh, hstatus, Status.isOver] at hafresh
    | _ => exact hafresh.elim

omit [TimerSource σ] in
theorem Starts.forgets_eq {status : Status} (h : Starts p control status) :
    control.forgets = false := by
  cases h <;> rfl

variable {source : ProgramSource} {program : Option Program} {told : List Event}

omit [TimerSource σ] in
/-- A fresh start asks its source once. -/
theorem Supplied.of_starts {status : Status} (h : Supplied p control source program told)
    (hstarts : Starts p control status) : source = p.source.ask.2 := by
  cases h with
  | compiled _ _ _ => rfl
  | refused _ _ => rfl
  | forgotten hforgets => exact nomatch hstarts.forgets_eq.symm.trans hforgets
  | kept hnot _ _ => exact absurd hstarts (hnot status)

omit [TimerSource σ] in
/-- Nothing else asks a source. -/
theorem Supplied.of_not_starts (h : Supplied p control source program told)
    (hnot : ∀ status, ¬Starts p control status) : source = control.sourceFrom p.source := by
  cases h with
  | compiled hstarts _ _ => exact absurd hstarts (hnot _)
  | refused hstarts _ => exact absurd hstarts (hnot _)
  | forgotten _ => rfl
  | kept _ hforgets _ => rw [Control.sourceFrom_of_not_forgets hforgets]

omit [TimerSource σ] in
/-- The program after an operation is what the deed makes of it. -/
theorem Supplied.program_eq (h : Supplied p control source program told) :
    program = (Deed.load ⟨control, source.answersSince (control.sourceFrom p.source).requests,
      told⟩).getD p.program := by
  unfold Deed.load
  dsimp only
  cases h with
  | compiled hstarts hanswer _ =>
    rw [hstarts.forgets_eq, Control.sourceFrom_of_not_forgets hstarts.forgets_eq,
      ProgramSource.answersSince_ask, hanswer]
    rfl
  | refused hstarts hanswer =>
    rw [hstarts.forgets_eq, Control.sourceFrom_of_not_forgets hstarts.forgets_eq,
      ProgramSource.answersSince_ask, hanswer]
    rfl
  | forgotten hforgets =>
    rw [hforgets]
    rfl
  | kept _ hforgets _ =>
    rw [hforgets, Control.sourceFrom_of_not_forgets hforgets,
      ProgramSource.answersSince_requests]
    rfl

omit [TimerSource σ] in
/-- A start that is told of is the one of the program just compiled, and no reset follows it. -/
theorem Supplied.of_started (h : Supplied p control source program told) {size : Nat}
    (hstarted : .started size ∈ told) : ∃ status compiled rest, Starts p control status ∧
      p.source.ask.1 = .ok compiled ∧ compiled.size = size ∧ program = some compiled ∧
      told = .reset :: .started size :: rest ∧ .reset ∉ rest := by
  cases h with
  | @compiled status compiled rest hstarts hanswer hquiet =>
    obtain rfl : compiled.size = size := by
      rcases List.mem_cons.1 hstarted with heq | hmem
      · cases heq
      · rcases List.mem_cons.1 hmem with heq | hmem
        · cases heq
          rfl
        · exact absurd rfl ((hquiet _ hmem).2 size)
    exact ⟨status, compiled, rest, hstarts, hanswer, rfl, rfl, rfl,
      fun hmem => (hquiet _ hmem).1 rfl⟩
  | refused _ _ => simp at hstarted
  | forgotten _ => simp at hstarted
  | kept _ _ hnone => exact absurd hstarted (hnone size)

omit [TimerSource σ] in
/-- The program changes only where a reset is told of. -/
theorem Supplied.program_of_no_reset (h : Supplied p control source program told)
    (hreset : .reset ∉ told) : program = p.program := by
  cases h with
  | kept _ _ _ => rfl
  | _ => exact absurd List.mem_cons_self hreset

/-- What a deed asked of the source. -/
theorem answers_deed (hp : Coherent p) :
    (p.StartsAfresh control → (p.deed control).answers = [p.source.ask.1] ∧
      (p.obey control).player.source = p.source.ask.2) ∧
    (¬p.StartsAfresh control → (p.deed control).answers = [] ∧
      (p.obey control).player.source = control.sourceFrom p.source) := by
  have hsupplied := p.supplied_obey control
  rw [← hp.starts_iff, deed]
  dsimp only
  refine ⟨fun ⟨status, hstarts⟩ => ?_, fun hnot => ?_⟩
  · have hsource := hsupplied.of_starts hstarts
    rw [hsource, Control.sourceFrom_of_not_forgets hstarts.forgets_eq]
    exact ⟨p.source.answersSince_ask, rfl⟩
  · have hsource := hsupplied.of_not_starts fun status hstarts => hnot ⟨status, hstarts⟩
    rw [hsource]
    exact ⟨ProgramSource.answersSince_requests _, rfl⟩

end

/-! ## Histories -/

section

variable {first p : Player σ} {deeds : List Deed}

/-- The program is the one of the latest deed that says anything of it. -/
theorem History.program_eq (h : History first deeds p) (hfirst : first.program = none) :
    p.program = (latest Deed.load deeds).join := by
  induction h with
  | start => exact hfirst
  | @obey deeds p control _ ih =>
    rw [(p.supplied_obey control).program_eq, latest_snoc, ih]
    show (p.deed control).load.getD _ = _
    cases (p.deed control).load <;> rfl
  | aside _ _ _ ih => exact ih

/-- From its start to the next reset a program stays. -/
theorem History.program_of_started (h : History first deeds p) {before after : List Deed}
    {deed : Deed} {size : Nat} (hdeeds : deeds = before ++ deed :: after)
    (hstarted : .started size ∈ deed.told) (hafter : ∀ later ∈ after, .reset ∉ later.told) :
    ∃ program rest, .ok program ∈ deed.answers ∧ program.size = size ∧
      deed.told = .reset :: .started size :: rest ∧ .reset ∉ rest ∧
      p.program = some program := by
  induction h generalizing after with
  | start => simp at hdeeds
  | @obey deeds p control hrun ih =>
    have hsupplied := p.supplied_obey control
    rcases split_snoc.1 hdeeds with ⟨-, rfl, -⟩ | ⟨rest, rfl, hbefore⟩
    · obtain ⟨status, program, rest, hstarts, hanswer, hsize, hprogram, htold, hreset⟩ :=
        hsupplied.of_started hstarted
      refine ⟨program, rest, ?_, hsize, htold, hreset, hprogram⟩
      show _ ∈ ProgramSource.answersSince _ _
      rw [hsupplied.of_starts hstarts, Control.sourceFrom_of_not_forgets hstarts.forgets_eq,
        ProgramSource.answersSince_ask, hanswer]
      exact List.mem_cons_self
    · obtain ⟨program, others, hanswer, hsize, htold, hreset, hprogram⟩ :=
        ih hbefore fun later hlater => hafter later (List.mem_append_left _ hlater)
      have hstays := hsupplied.program_of_no_reset
        (hafter _ (List.mem_append_right _ List.mem_cons_self))
      exact ⟨program, others, hanswer, hsize, htold, hreset, hstays.trans hprogram⟩
  | aside _ _ _ ih => exact ih hdeeds hafter

end

/-- **Programs are compiled for fresh starts.** Whatever the source answers and whatever a host
does: a fresh start asks the source once, and no other operation asks it at all. The program is the
one of the latest compilation that succeeded since the host last cleared the player or exchanged the
source, and there is none if none did. So the program that a start is told of is the one just
compiled, and stays until the next reset is told of. -/
theorem compiles_on_fresh_starts {registry : Registry} {puzzle : Puzzle} {source : ProgramSource}
    {timers : σ} {preferences : Preferences} {hours : Nat → Nat} {first p : Player σ}
    {deeds : List Deed}
    (hcreate : create registry puzzle source timers preferences hours = .ok first)
    (hrun : History first deeds p) :
    first.source = source ∧
    (∀ control, p.StartsAfresh control → (p.deed control).answers = [p.source.ask.1] ∧
      (p.obey control).player.source = p.source.ask.2) ∧
    (∀ control, ¬p.StartsAfresh control → (p.deed control).answers = [] ∧
      (p.obey control).player.source = control.sourceFrom p.source) ∧
    p.program = (latest Deed.load deeds).join ∧
    ∀ before deed after size, deeds = before ++ deed :: after → .started size ∈ deed.told →
      (∀ later ∈ after, .reset ∉ later.told) →
      ∃ program rest, .ok program ∈ deed.answers ∧ program.size = size ∧
        deed.told = .reset :: .started size :: rest ∧ .reset ∉ rest ∧
        p.program = some program := by
  obtain ⟨hcoherent, hrange⟩ := coherent_create hcreate
  have hp := (hrun.reachable.coherent hcoherent hrange).1
  obtain ⟨_, _, _, _, rfl⟩ := create_eq_ok hcreate
  refine ⟨rfl, fun control => (answers_deed hp).1, fun control => (answers_deed hp).2,
    hrun.program_eq rfl, ?_⟩
  intro before deed after size hdeeds hstarted hafter
  exact hrun.program_of_started hdeeds hstarted hafter

/-- A source that compiles once and never again. -/
def fickle : ProgramSource := .ofAnswers [.ok twoLines, .error ⟨"unknown block", some "b3"⟩]

/-- A new player with that source. -/
def hopeful : Player RequestQueue := { novice .empty with source := fickle }

/-- Asked for a second run the player is back at the start, with the program of the first. -/
theorem compiles_on_fresh_starts_fickle :
    let q := (hopeful.obey .play).player
    let p := (q.obey .play).player
    History hopeful [hopeful.deed .play, q.deed .play] p ∧ p.status = .idle ∧
      (hopeful.deed .play).answers = [.ok twoLines] ∧ p.program = some twoLines ∧
      (p.deed .play).answers = [.error ⟨"unknown block", some "b3"⟩] ∧
      (p.deed (.travelTo 1)).answers = [] := by
  intro q p
  have hcreate : create .standard blankPuzzle fickle .empty .default (fun _ => 12) =
      .ok hopeful := rfl
  have hrun : History hopeful [hopeful.deed .play, q.deed .play] p :=
    .obey .play (.obey .play .start)
  obtain ⟨_, hasks, hrests, hprogram, _⟩ := compiles_on_fresh_starts hcreate hrun
  have hidle : p.status = .idle := rfl
  have hafresh : p.StartsAfresh .play := fun hpaused => nomatch hidle.symm.trans hpaused
  exact ⟨hrun, hidle, rfl, hprogram, (hasks _ hafresh).1, (hrests (.travelTo 1) id).1⟩

end Player

end PuzzlePlayback
