import PuzzlePlayback.Proofs.Latest
import PuzzlePlayback.Replay
import PuzzlePlayback.World.Drawing

/-!
# The drawing follows the path

A drawing only grows, by one stroke for each walk over a distance with the pen down, and each stroke
goes from where the turtle was to where it is. Pen and colour are switches: what they are is what
the latest action that touches them said, however long ago that was. They decide what is drawn
and never where the turtle goes.

Nothing is asked of the distances and angles, so positions may be infinite or undefined: a stroke
has the very coordinates of the turtle.

Main result: `drawing_follows_path`.
-/

namespace PuzzlePlayback.Drawing

/-! ## Drawing is a fold -/

/-- The turtle after some actions. -/
def draw (turtle : Turtle) (actions : List Action) : Turtle := actions.foldl act turtle

theorem act_scan {action : Action} (h : action.isScan = true) (turtle : Turtle) :
    act turtle action = turtle := by
  obtain ⟨id, command⟩ := action
  cases command with
  | scan => rfl
  | _ => cases h

theorem replay_eq_draw (puzzle : Puzzle) (actions : List Action) :
    replay rules puzzle actions = .ok (.turtle (draw (start puzzle) actions)) :=
  replay_eq_foldl rfl (fun _ _ h => act_scan h _) (fun _ _ => ⟨_, rfl⟩) actions

theorem draw_append (turtle : Turtle) (first second : List Action) :
    draw turtle (first ++ second) = draw (draw turtle first) second := List.foldl_append

theorem draw_take_succ (turtle : Turtle) {actions : List Action} {i : Nat} {action : Action}
    (h : actions[i]? = some action) :
    draw turtle (actions.take (i + 1)) = act (draw turtle (actions.take i)) action := by
  rw [List.take_add_one, h, draw_append]
  rfl

/-! ## What an action says -/

/-- Where an action puts the pen. -/
def penOf (action : Action) : Option Pen :=
  match action.command with
  | .pen state => some state
  | _ => none

/-- The colour that an action changes to. -/
def colorOf (action : Action) : Option String :=
  match action.command with
  | .color color => some color
  | _ => none

/-- The action walks over a distance. -/
def isWalk (action : Action) : Bool :=
  match action.command with
  | .move (some _) => true
  | _ => false

/-- The action touches neither the pen nor the colour. -/
def leavesPen (action : Action) : Bool := (penOf action).isNone && (colorOf action).isNone

/-- The stroke between two turtles, in a colour. -/
def strokeBetween (before after : Turtle) (color : String) : Stroke :=
  ⟨before.x, before.y, after.x, after.y, color⟩

theorem penDown_act (turtle : Turtle) (action : Action) :
    (act turtle action).penDown = (penOf action).elim turtle.penDown (· == .down) := by
  obtain ⟨id, command⟩ := action
  cases command with
  | move dist => cases dist <;> rfl
  | _ => rfl

theorem color_act (turtle : Turtle) (action : Action) :
    (act turtle action).color = (colorOf action).elim turtle.color id := by
  obtain ⟨id, command⟩ := action
  cases command with
  | move dist => cases dist <;> rfl
  | _ => rfl

/-- Only a walk with the pen down adds a stroke, from the turtle before it to the one after it. -/
theorem strokes_act (turtle : Turtle) (action : Action) :
    (act turtle action).strokes = turtle.strokes ++
      if isWalk action && turtle.penDown then
        [strokeBetween turtle (act turtle action) turtle.color]
      else [] := by
  obtain ⟨id, command⟩ := action
  cases command with
  | move dist =>
    cases dist with
    | none => exact (List.append_nil _).symm
    | some dist =>
      show (walk turtle dist).strokes = turtle.strokes ++
        if turtle.penDown then [strokeBetween turtle (walk turtle dist) turtle.color] else []
      unfold walk
      cases turtle.penDown with
      | true => rfl
      | false => exact (List.append_nil _).symm
  | _ => exact (List.append_nil _).symm

/-! ## The drawing after a list of actions -/

/-- The pen is down after some actions, unless the last of them that moved it lifted it. -/
def penDownAfter (actions : List Action) : Bool := latest penOf actions != some .up

/-- The colour after some actions. -/
def colorAfter (actions : List Action) : String := (latest colorOf actions).getD startColor

/-- The action at an index is a walk with the pen down. -/
def inks (actions : List Action) (i : Nat) : Bool :=
  actions[i]?.any isWalk && penDownAfter (actions.take i)

theorem penDown_draw (puzzle : Puzzle) (actions : List Action) :
    (draw (start puzzle) actions).penDown = penDownAfter actions := by
  rw [draw, foldl_eq_latest Turtle.penDown penDown_act, penDownAfter]
  cases latest penOf actions with
  | none => rfl
  | some pen => cases pen <;> rfl

theorem color_draw (puzzle : Puzzle) (actions : List Action) :
    (draw (start puzzle) actions).color = colorAfter actions := by
  rw [draw, foldl_eq_latest Turtle.color color_act, colorAfter]
  cases latest colorOf actions <;> rfl

/-- What the next action adds to the drawing. -/
theorem strokes_draw_take_succ (puzzle : Puzzle) {actions : List Action} {i : Nat}
    (hi : i < actions.length) :
    (draw (start puzzle) (actions.take (i + 1))).strokes =
      (draw (start puzzle) (actions.take i)).strokes ++
        if inks actions i then
          [strokeBetween (draw (start puzzle) (actions.take i))
            (draw (start puzzle) (actions.take (i + 1))) (colorAfter (actions.take i))]
        else [] := by
  have haction := List.getElem?_eq_getElem hi
  rw [draw_take_succ _ haction, strokes_act, penDown_draw, color_draw, inks, haction]
  rfl

/-- A drawing only grows. -/
theorem strokes_isPrefix_draw (turtle : Turtle) (actions : List Action) :
    turtle.strokes <+: (draw turtle actions).strokes := by
  induction actions generalizing turtle with
  | nil => exact List.prefix_refl _
  | cons action rest ih =>
    refine List.IsPrefix.trans ?_ (ih (act turtle action))
    rw [strokes_act]
    exact List.prefix_append _ _

/-- There are as many strokes as walks with the pen down. -/
theorem length_strokes_draw_take (puzzle : Puzzle) {actions : List Action} {n : Nat}
    (hn : n ≤ actions.length) : (draw (start puzzle) (actions.take n)).strokes.length =
      (List.range n).countP (inks actions) := by
  induction n with
  | zero => rfl
  | succ n ih =>
    rw [strokes_draw_take_succ puzzle hn, List.length_append, ih (Nat.le_of_succ_le hn),
      List.range_succ, List.countP_append]
    cases h : inks actions n <;> simp [h]

/-! ## The way of the turtle -/

/-- Two turtles are at the same place and look the same way. -/
def SamePose (a b : Turtle) : Prop := a.x = b.x ∧ a.y = b.y ∧ a.dir = b.dir

/-- From the same pose an action leads to the same pose. -/
theorem SamePose.act {a b : Turtle} (h : SamePose a b) (action : Action) :
    SamePose (Drawing.act a action) (Drawing.act b action) := by
  obtain ⟨hx, hy, hdir⟩ := h
  obtain ⟨id, command⟩ := action
  cases command with
  | move dist =>
    cases dist with
    | none => exact ⟨hx, hy, hdir⟩
    | some dist => simp [SamePose, Drawing.act, walk, hx, hy, hdir]
  | _ => simp [SamePose, Drawing.act, hx, hy, hdir]

/-- Pen and colour leave the pose as it is. -/
theorem samePose_act_of_not_leavesPen {action : Action} (h : leavesPen action = false)
    (turtle : Turtle) : SamePose turtle (act turtle action) := by
  obtain ⟨id, command⟩ := action
  cases command with
  | pen state => exact ⟨rfl, rfl, rfl⟩
  | color color => exact ⟨rfl, rfl, rfl⟩
  | _ => cases h

/-- Without the actions on pen and colour the turtle goes the same way. -/
theorem SamePose.draw_filter {a b : Turtle} (h : SamePose a b) (actions : List Action) :
    SamePose (draw a (actions.filter leavesPen)) (draw b actions) := by
  induction actions generalizing a b with
  | nil => exact h
  | cons action rest ih =>
    cases hstep : leavesPen action with
    | true =>
      rw [List.filter_cons_of_pos hstep]
      exact ih (h.act action)
    | false =>
      rw [List.filter_cons_of_neg (by simp [hstep])]
      obtain ⟨hx, hy, hdir⟩ := samePose_act_of_not_leavesPen hstep b
      exact ih ⟨h.1.trans hx, h.2.1.trans hy, h.2.2.trans hdir⟩

/-- **The drawing follows the path.** Actions never fail on paper. The strokes after a first part
of them are the first strokes after a longer part. There are as many as walks over a distance with
the pen down, and each such walk adds one: from where the turtle was to where it is, in the colour
of the latest change of colours. Other actions add none. Without all actions on pen and colour
the turtle would be at the same place and look the same way. -/
theorem drawing_follows_path (puzzle : Puzzle) (actions : List Action) :
    ∃ turtle : Nat → Turtle,
      (∀ n ≤ actions.length, replay rules puzzle (actions.take n) = .ok (.turtle (turtle n))) ∧
      (∀ n m, n ≤ m → m ≤ actions.length → (turtle n).strokes <+: (turtle m).strokes) ∧
      (∀ n ≤ actions.length,
        (turtle n).strokes.length = (List.range n).countP (inks actions)) ∧
      (∀ i < actions.length, (turtle (i + 1)).strokes = (turtle i).strokes ++
        if inks actions i then
          [⟨(turtle i).x, (turtle i).y, (turtle (i + 1)).x, (turtle (i + 1)).y,
            (latest colorOf (actions.take i)).getD startColor⟩]
        else []) ∧
      ∃ plain, replay rules puzzle (actions.filter leavesPen) = .ok (.turtle plain) ∧
        plain.x = (turtle actions.length).x ∧ plain.y = (turtle actions.length).y ∧
        plain.dir = (turtle actions.length).dir := by
  refine ⟨fun n => draw (start puzzle) (actions.take n), fun n _ => replay_eq_draw puzzle _,
    fun n m hnm _ => ?_, fun n hn => length_strokes_draw_take puzzle hn,
    fun i hi => strokes_draw_take_succ puzzle hi, _, replay_eq_draw puzzle _, ?_⟩
  · obtain ⟨rest, hrest⟩ := actions.take_prefix_take_left hnm
    dsimp only
    rw [← hrest, draw_append]
    exact strokes_isPrefix_draw _ rest
  · dsimp only
    rw [List.take_length]
    exact SamePose.draw_filter ⟨rfl, rfl, rfl⟩ actions

end PuzzlePlayback.Drawing
