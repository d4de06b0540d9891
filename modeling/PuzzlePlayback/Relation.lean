import PuzzlePlayback.Text.Blank

/-!
# Relations

The sign between the two sides of an equation or inequality.
-/

namespace PuzzlePlayback

/-- A comparison of two numbers. -/
inductive Relation
  | eq
  | lt
  | gt
  | le
  | ge
deriving DecidableEq

namespace Relation

def symbol : Relation → String
  | .eq => "="
  | .lt => "<"
  | .gt => ">"
  | .le => "<="
  | .ge => ">="

/-- Read a sign as an author writes it, with blanks around it. -/
def ofText? (text : String) : Option Relation :=
  match Text.trim text with
  | "=" | "==" => some .eq
  | "<" => some .lt
  | ">" => some .gt
  | "<=" | "≤" => some .le
  | ">=" | "≥" => some .ge
  | _ => none

/-- The relation after both sides were multiplied by a negative number. -/
def reversed : Relation → Relation
  | .eq => .eq
  | .lt => .gt
  | .gt => .lt
  | .le => .ge
  | .ge => .le

/-- Does the relation hold between two numbers of this order? -/
def allows : Relation → Ordering → Bool
  | .eq, order => order == .eq
  | .lt, order => order == .lt
  | .gt, order => order == .gt
  | .le, order => order != .gt
  | .ge, order => order != .lt

/-- Turning the relation around and exchanging the numbers cancel out. -/
theorem allows_reversed (r : Relation) (order : Ordering) :
    r.reversed.allows order = r.allows order.swap := by
  cases r <;> cases order <;> rfl

end Relation

end PuzzlePlayback
