import PuzzlePlayback.World.Basic

/-!
# Strokes as ink

A drawing is judged by its pixels. A stroke inks every pixel whose centre lies within half the
stroke width of the segment, in single precision; only the pixels of the segment's bounding box,
widened by half the width and one, are asked. Ink is never taken away, so a drawing inks exactly
what its strokes ink one by one.
-/

namespace PuzzlePlayback

/-! ## Distance to a segment -/

/-- A point in single precision. -/
structure Point where
  x : Float32
  y : Float32

namespace Point

/-- A point rounded to single precision. -/
def ofFloats (x y : Float) : Point := ⟨x.toFloat32, y.toFloat32⟩

def sub (a b : Point) : Point := ⟨a.x - b.x, a.y - b.y⟩

def scale (a : Point) (t : Float32) : Point := ⟨a.x * t, a.y * t⟩

def dot (a b : Point) : Float32 := a.x * b.x + a.y * b.y

def length (a : Point) : Float32 := (a.dot a).sqrt

end Point

/-- The gap between one and the next number in single precision. -/
def unitGap : Float32 := Float32.ofBits 0x34000000

/-- The nearest value between zero and one; an undefined value stays undefined. -/
def clampUnit (t : Float32) : Float32 :=
  if t < 0 then 0 else if 1 < t then 1 else t

/-- The distance of a point from the outline of a stroke, negative inside. A segment that is
hardly longer than nothing is a dot. -/
def strokeDistance (p a b : Point) (half : Float32) : Float32 :=
  let pa := p.sub a
  let ba := b.sub a
  let lengthSquared := ba.dot ba
  let t := if lengthSquared < unitGap then 0 else clampUnit (pa.dot ba / lengthSquared)
  (pa.sub (ba.scale t)).length - half

/-! ## Bitmaps -/

/-- A mask of inked pixels, row by row. -/
structure Bitmap where
  width : Nat
  height : Nat
  ink : Array Bool
  size_eq : ink.size = width * height
deriving DecidableEq

namespace Bitmap

/-- Paper without ink. -/
def blank (width height : Nat) : Bitmap :=
  ⟨width, height, Array.replicate (width * height) false, by simp⟩

theorem index_lt {width height x y : Nat} (hx : x < width) (hy : y < height) :
    y * width + x < width * height := by
  have h : (y + 1) * width ≤ height * width := Nat.mul_le_mul_right width hy
  rw [Nat.add_mul, Nat.one_mul, Nat.mul_comm height] at h
  exact Nat.lt_of_lt_of_le (Nat.add_lt_add_left hx _) h

/-- Ink a pixel; outside the paper nothing happens. -/
def set (bitmap : Bitmap) (x y : Nat) : Bitmap :=
  if h : x < bitmap.width ∧ y < bitmap.height then
    { bitmap with
      ink := bitmap.ink.set (y * bitmap.width + x) true (by
        rw [bitmap.size_eq]; exact index_lt h.1 h.2)
      size_eq := by rw [Array.size_set]; exact bitmap.size_eq }
  else bitmap

/-- Is a pixel inked? There is no ink outside the paper. -/
def get (bitmap : Bitmap) (x y : Nat) : Bool :=
  if h : x < bitmap.width ∧ y < bitmap.height then
    have inside : y * bitmap.width + x < bitmap.ink.size := by
      rw [bitmap.size_eq]; exact index_lt h.1 h.2
    bitmap.ink[y * bitmap.width + x]
  else false

theorem get_blank (width height x y : Nat) : (blank width height).get x y = false := by
  unfold get blank
  split <;> simp

theorem index_inj {width x y a b : Nat} (hx : x < width) (ha : a < width) :
    y * width + x = b * width + a ↔ x = a ∧ y = b := by
  refine ⟨fun h => ?_, fun ⟨hxa, hyb⟩ => by rw [hxa, hyb]⟩
  have hxa : x = a := by
    have hmod := congrArg (· % width) h
    simpa [Nat.mul_add_mod_self_right, Nat.mod_eq_of_lt hx, Nat.mod_eq_of_lt ha] using hmod
  subst hxa
  exact ⟨rfl, Nat.eq_of_mul_eq_mul_right (Nat.zero_lt_of_lt hx) (Nat.add_right_cancel h)⟩

/-- Inking a pixel of the paper changes this pixel alone. -/
theorem get_set (bitmap : Bitmap) (x y a b : Nat) :
    (bitmap.set x y).get a b =
      (bitmap.get a b || (decide (x < bitmap.width ∧ y < bitmap.height) && x == a && y == b)) := by
  by_cases h : x < bitmap.width ∧ y < bitmap.height
  · by_cases hab : a < bitmap.width ∧ b < bitmap.height
    · simp only [set, get, h, hab, and_self, dif_pos, Array.getElem_set, decide_true, Bool.true_and]
      simp only [index_inj h.1 hab.1]
      by_cases hpix : x = a ∧ y = b
      · simp [hpix]
      · rw [if_neg hpix]
        by_cases hx : x = a <;> simp_all
    · have hpix : ¬(x = a ∧ y = b) := fun ⟨hx, hy⟩ => hab (by rw [← hx, ← hy]; exact h)
      simp only [set, get, h, hab, and_self, dif_pos, dif_neg, not_false_eq_true, decide_true,
        Bool.true_and, Bool.false_or]
      by_cases hx : x = a <;> simp_all
  · simp [set, h]

/-- The number of inked pixels. -/
def inkCount (bitmap : Bitmap) : Nat := bitmap.ink.count true

/-! ## Strokes -/

/-- The pixels that a stroke is tested on, ends included. -/
structure Box where
  left : Nat
  top : Nat
  right : Nat
  bottom : Nat

/-- The lesser of two coordinates, the second unless the first is less. -/
def lesser (a b : Float32) : Float32 := if a < b then a else b

/-- The greater of two coordinates, the second unless the first is greater. -/
def greater (a b : Float32) : Float32 := if b < a then a else b

/-- The bounding box of a stroke on paper that is not empty. Coordinates saturate at the ends of
an unsigned 32-bit word. -/
def boxOf (a b : Point) (half : Float32) (width height : Nat) : Box where
  left := (lesser a.x b.x - (half + 1)).floor.toUInt32.toNat
  top := (lesser a.y b.y - (half + 1)).floor.toUInt32.toNat
  right := min (greater a.x b.x + (half + 1)).ceil.toUInt32.toNat (width - 1)
  bottom := min (greater a.y b.y + (half + 1)).ceil.toUInt32.toNat (height - 1)

/-- The whole numbers from `low` to `high`. -/
def span (low high : Nat) : List Nat := List.range' low (high + 1 - low)

/-- The centre of a pixel. -/
def centre (x y : Nat) : Point :=
  ⟨(UInt32.ofNat x).toFloat32 + 0.5, (UInt32.ofNat y).toFloat32 + 0.5⟩

/-- Ink the pixels of a box that pass a test. -/
def fill (bitmap : Bitmap) (box : Box) (covers : Nat → Nat → Bool) : Bitmap :=
  (span box.top box.bottom).foldl (fun bitmap y =>
    (span box.left box.right).foldl (fun bitmap x =>
      if covers x y then bitmap.set x y else bitmap) bitmap) bitmap

/-- Ink one stroke of a given width. -/
def addStroke (bitmap : Bitmap) (stroke : Stroke) (strokeWidth : Float32) : Bitmap :=
  if bitmap.width = 0 ∨ bitmap.height = 0 then bitmap
  else
    let a := Point.ofFloats stroke.x1 stroke.y1
    let b := Point.ofFloats stroke.x2 stroke.y2
    let half := strokeWidth * 0.5
    bitmap.fill (boxOf a b half bitmap.width bitmap.height) fun x y =>
      strokeDistance (centre x y) a b half ≤ 0

/-- Ink every stroke of a drawing on fresh paper. -/
def ofStrokes (strokes : List Stroke) (width height : Nat) (strokeWidth : Float32) : Bitmap :=
  strokes.foldl (fun bitmap stroke => bitmap.addStroke stroke strokeWidth) (blank width height)

/-! ## Grading -/

/-- The number of pixels inked in the reference but not by the learner. -/
def uncovered (reference learner : Bitmap) : Nat :=
  (List.range reference.height).foldl (fun count y =>
    (List.range reference.width).foldl (fun count x =>
      if reference.get x y && !learner.get x y then count + 1 else count) count) 0

/-- The share of the reference ink that the learner's ink covers; without reference ink all of
it. -/
def coverage (reference learner : Bitmap) : Float :=
  let total := reference.inkCount
  if total = 0 then 1.0
  else 1.0 - Float.ofNat (uncovered reference learner) / Float.ofNat total

end Bitmap

end PuzzlePlayback
