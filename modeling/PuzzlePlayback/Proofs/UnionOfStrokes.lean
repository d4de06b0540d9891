import Mathlib.Algebra.BigOperators.Intervals
import Mathlib.Data.Finset.Prod
import Mathlib.Data.List.Count
import PuzzlePlayback.World.Ink

/-!
# A drawing is the union of its strokes

Every loop of the rasterizer, over the strokes, over the rows of a box and over the pixels of a
row, does nothing but add ink, and what a turn adds does not depend on the ink that is there
(`Adds`). So a pixel is inked exactly if one of the strokes inks it alone, and neither the order of
the strokes nor their repetition matters.

Nothing of this rests on floating point. A `Brush` gives any box and any test of pixels to a
stroke, and the rasterizer is the drawing of one brush (`ofStrokes_eq_draw`).

Nothing rests either on the proof of size that a bitmap carries. The ink of a `RawBitmap` may have
any size, and an access outside it gives nothing; drawing on it never comes to that
(`RawBitmap.draw?_eq_some`).

Grading counts pixels of the reference that the learner has not inked. A learner who draws more
can only lower this number.

Main result: `drawing_is_union`.
-/

namespace PuzzlePlayback

namespace Bitmap

variable {α : Type} {before after : Bitmap}

/-! ## Pixels and their indices -/

theorem lt_of_get {bitmap : Bitmap} {x y : Nat} (h : bitmap.get x y = true) :
    x < bitmap.width ∧ y < bitmap.height := by
  unfold get at h
  split at h
  · assumption
  · cases h

theorem index_mod {width x y : Nat} (hx : x < width) : (y * width + x) % width = x := by
  rw [Nat.mul_add_mod_self_right, Nat.mod_eq_of_lt hx]

theorem index_div {width x y : Nat} (hx : x < width) : (y * width + x) / width = y := by
  rw [Nat.mul_comm, Nat.mul_add_div (Nat.zero_lt_of_lt hx), Nat.div_eq_of_lt hx, Nat.add_zero]

theorem getElem_ink (bitmap : Bitmap) {i : Nat} (hi : i < bitmap.ink.size) :
    bitmap.ink[i] = bitmap.get (i % bitmap.width) (i / bitmap.width) := by
  have hsize : i < bitmap.width * bitmap.height := bitmap.size_eq ▸ hi
  have hwidth : 0 < bitmap.width := Nat.pos_of_mul_pos_right (Nat.zero_lt_of_lt hsize)
  have hpaper : i % bitmap.width < bitmap.width ∧ i / bitmap.width < bitmap.height :=
    ⟨Nat.mod_lt i hwidth, Nat.div_lt_of_lt_mul hsize⟩
  have hindex : i / bitmap.width * bitmap.width + i % bitmap.width = i := by
    rw [Nat.mul_comm]
    exact Nat.div_add_mod i bitmap.width
  simp only [get, dif_pos hpaper, hindex]

/-- Bitmaps of the same size are equal if they have the same ink. -/
theorem ext_get {a b : Bitmap} (hwidth : a.width = b.width) (hheight : a.height = b.height)
    (h : ∀ x y, a.get x y = b.get x y) : a = b := by
  have hink : a.ink = b.ink := by
    apply Array.ext
    · rw [a.size_eq, b.size_eq, hwidth, hheight]
    · intro i ha hb
      rw [getElem_ink a ha, getElem_ink b hb, h, hwidth]
  cases a
  cases b
  cases hwidth
  cases hheight
  cases hink
  rfl

/-! ## Adding ink -/

/-- Some ink was added to a bitmap, and nothing else happened to it. -/
structure Adds (before after : Bitmap) (ink : Nat → Nat → Prop) : Prop where
  width_eq : after.width = before.width
  height_eq : after.height = before.height
  get_iff (x y : Nat) : after.get x y = true ↔ before.get x y = true ∨ ink x y

theorem adds_set (bitmap : Bitmap) (x y : Nat) :
    Adds bitmap (bitmap.set x y)
      (fun a b => (x < bitmap.width ∧ y < bitmap.height) ∧ x = a ∧ y = b) := by
  refine ⟨?_, ?_, fun a b => ?_⟩
  · unfold set
    split <;> rfl
  · unfold set
    split <;> rfl
  · simp [get_set, and_assoc]

theorem Adds.none (bitmap : Bitmap) : Adds bitmap bitmap (fun _ _ => False) :=
  ⟨rfl, rfl, fun x y => by simp⟩

theorem Adds.congr {ink other : Nat → Nat → Prop} (h : Adds before after ink)
    (hink : ∀ x y, ink x y ↔ other x y) : Adds before after other :=
  ⟨h.width_eq, h.height_eq, fun x y => by rw [h.get_iff, hink]⟩

/-- A loop whose turns add ink adds the ink of all its turns. -/
theorem Adds.foldl {step : Bitmap → α → Bitmap} {ink : α → Nat → Nat → Prop} (before : Bitmap)
    (items : List α) (hstep : ∀ now item, now.width = before.width →
      now.height = before.height → Adds now (step now item) (ink item)) :
    Adds before (items.foldl step before) (fun x y => ∃ item ∈ items, ink item x y) := by
  induction items using List.reverseRecOn with
  | nil => exact (Adds.none before).congr (by simp)
  | append_singleton items item ih =>
    rw [List.foldl_append, List.foldl_cons, List.foldl_nil]
    have hlast := hstep _ item ih.width_eq ih.height_eq
    refine ⟨hlast.width_eq.trans ih.width_eq, hlast.height_eq.trans ih.height_eq, fun x y => ?_⟩
    rw [hlast.get_iff, ih.get_iff, or_assoc]
    simp [or_and_right, exists_or]

theorem mem_span {low high n : Nat} : n ∈ span low high ↔ low ≤ n ∧ n ≤ high := by
  rw [span, List.mem_range'_1]
  omega

/-- A box holds a pixel. -/
def Box.Holds (box : Box) (x y : Nat) : Prop :=
  (box.left ≤ x ∧ x ≤ box.right) ∧ box.top ≤ y ∧ y ≤ box.bottom

/-- Filling a box inks the pixels of the box, on the paper, that pass the test. -/
theorem adds_fill (bitmap : Bitmap) (box : Box) (covers : Nat → Nat → Bool) :
    Adds bitmap (bitmap.fill box covers) (fun x y =>
      (x < bitmap.width ∧ y < bitmap.height) ∧ box.Holds x y ∧ covers x y = true) := by
  have hpixel (now : Bitmap) (x y : Nat) :
      Adds now (if covers x y then now.set x y else now) (fun a b =>
        (x < now.width ∧ y < now.height) ∧ (x = a ∧ y = b) ∧ covers x y = true) := by
    by_cases h : covers x y = true
    · rw [if_pos h]
      exact (adds_set now x y).congr (by simp [h])
    · rw [if_neg h]
      exact (Adds.none now).congr (by simp [h])
  have hrow (now : Bitmap) (y : Nat) := Adds.foldl now (span box.left box.right)
    fun between x hwidth hheight => (hpixel between x y).congr fun a b => by rw [hwidth, hheight]
  have hall := Adds.foldl bitmap (span box.top box.bottom) fun between y hwidth hheight =>
    (hrow between y).congr fun a b => by rw [hwidth, hheight]
  refine hall.congr fun a b => ?_
  simp only [mem_span, Box.Holds]
  constructor
  · rintro ⟨y, hy, x, hx, hpaper, ⟨rfl, rfl⟩, hcovers⟩
    exact ⟨hpaper, ⟨hx, hy⟩, hcovers⟩
  · rintro ⟨hpaper, ⟨hx, hy⟩, hcovers⟩
    exact ⟨b, hy, a, hx, hpaper, ⟨rfl, rfl⟩, hcovers⟩

/-! ## Brushes -/

/-- A way to ink strokes: the box that is looked at, as far as it is on the paper, and the test of
its pixels. -/
structure Brush where
  box : Stroke → Box
  covers : Stroke → Nat → Nat → Bool

/-- The part of a box that is on paper which is not empty. -/
def Box.clip (box : Box) (width height : Nat) : Box :=
  { box with right := min box.right (width - 1), bottom := min box.bottom (height - 1) }

namespace Brush

/-- Ink one stroke. -/
def add (brush : Brush) (bitmap : Bitmap) (stroke : Stroke) : Bitmap :=
  if bitmap.width = 0 ∨ bitmap.height = 0 then bitmap
  else bitmap.fill ((brush.box stroke).clip bitmap.width bitmap.height) (brush.covers stroke)

/-- Ink every stroke of a drawing on fresh paper. -/
def draw (brush : Brush) (strokes : List Stroke) (width height : Nat) : Bitmap :=
  strokes.foldl brush.add (blank width height)

/-- The brush of a given width. -/
def ofWidth (strokeWidth : Float32) : Brush where
  box stroke :=
    let a := Point.ofFloats stroke.x1 stroke.y1
    let b := Point.ofFloats stroke.x2 stroke.y2
    let reach := strokeWidth * 0.5 + 1
    { left := (lesser a.x b.x - reach).floor.toUInt32.toNat
      top := (lesser a.y b.y - reach).floor.toUInt32.toNat
      right := (greater a.x b.x + reach).ceil.toUInt32.toNat
      bottom := (greater a.y b.y + reach).ceil.toUInt32.toNat }
  covers stroke x y :=
    strokeDistance (centre x y) (.ofFloats stroke.x1 stroke.y1) (.ofFloats stroke.x2 stroke.y2)
      (strokeWidth * 0.5) ≤ 0

end Brush

/-- Drawings are made with the brush of their width. -/
theorem ofStrokes_eq_draw (strokes : List Stroke) (width height : Nat) (strokeWidth : Float32) :
    ofStrokes strokes width height strokeWidth =
      (Brush.ofWidth strokeWidth).draw strokes width height := rfl

/-! ## What a brush inks -/

namespace Brush

variable {strokes : List Stroke} {width height : Nat}

/-- A stroke inks a pixel of paper of this size. -/
def Inks (brush : Brush) (width height : Nat) (stroke : Stroke) (x y : Nat) : Prop :=
  (x < width ∧ y < height) ∧ (brush.box stroke).Holds x y ∧ brush.covers stroke x y = true

/-- No pixel of the paper is lost when a box is cut to the paper. -/
theorem holds_clip {box : Box} {x y : Nat} (hx : x < width) (hy : y < height) :
    (box.clip width height).Holds x y ↔ box.Holds x y := by
  simp only [Box.Holds, Box.clip]
  omega

theorem adds_add (brush : Brush) (bitmap : Bitmap) (stroke : Stroke) :
    Adds bitmap (brush.add bitmap stroke) (brush.Inks bitmap.width bitmap.height stroke) := by
  unfold add
  split
  · next hempty =>
    refine (Adds.none bitmap).congr fun x y => iff_of_false id ?_
    rintro ⟨⟨hx, hy⟩, -⟩
    omega
  · refine (adds_fill bitmap _ _).congr fun x y => ?_
    refine and_congr_right fun hpaper => and_congr_left fun _ => ?_
    exact holds_clip hpaper.1 hpaper.2

/-- A drawing has the ink of its strokes. -/
theorem adds_draw (brush : Brush) (strokes : List Stroke) (width height : Nat) :
    Adds (blank width height) (brush.draw strokes width height)
      (fun x y => ∃ stroke ∈ strokes, brush.Inks width height stroke x y) :=
  Adds.foldl (blank width height) strokes fun now stroke hwidth hheight =>
    (brush.adds_add now stroke).congr fun x y => by rw [hwidth, hheight]; rfl

theorem get_draw (brush : Brush) (strokes : List Stroke) (width height x y : Nat) :
    (brush.draw strokes width height).get x y = true ↔
      ∃ stroke ∈ strokes, brush.Inks width height stroke x y := by
  rw [(brush.adds_draw strokes width height).get_iff, get_blank]
  simp

theorem get_draw_singleton (brush : Brush) (stroke : Stroke) (width height x y : Nat) :
    (brush.draw [stroke] width height).get x y = true ↔ brush.Inks width height stroke x y := by
  rw [get_draw]
  simp

end Brush

/-! ## Counting pixels -/

/-- The inked pixels. -/
def inked (bitmap : Bitmap) : Finset (Nat × Nat) :=
  (Finset.range bitmap.width ×ˢ Finset.range bitmap.height).filter fun p => bitmap.get p.1 p.2

theorem mem_inked {bitmap : Bitmap} {p : Nat × Nat} :
    p ∈ bitmap.inked ↔ bitmap.get p.1 p.2 = true := by
  simp only [inked, Finset.mem_filter, Finset.mem_product, Finset.mem_range]
  exact ⟨And.right, fun h => ⟨lt_of_get h, h⟩⟩

/-- The ink, read row by row. -/
theorem toList_ink (bitmap : Bitmap) : bitmap.ink.toList =
    (List.range bitmap.ink.size).map fun i => bitmap.get (i % bitmap.width) (i / bitmap.width) := by
  apply List.ext_getElem
  · simp
  · intro i hi _
    rw [Array.getElem_toList, getElem_ink bitmap hi]
    simp

theorem inkCount_eq_card (bitmap : Bitmap) : bitmap.inkCount = bitmap.inked.card := by
  have hcount : bitmap.inkCount = ((Finset.range bitmap.ink.size).filter fun i =>
      bitmap.get (i % bitmap.width) (i / bitmap.width) = true).card := by
    rw [inkCount, ← Array.count_toList, toList_ink, ← List.toFinset_range,
      List.nodup_range.card_eq_countP, List.count, List.countP_map]
    simp [Function.comp_def]
  rw [hcount]
  apply Finset.card_nbij' (fun i => (i % bitmap.width, i / bitmap.width))
    (fun p => p.2 * bitmap.width + p.1)
  · intro i hi
    exact mem_inked.2 (Finset.mem_filter.1 hi).2
  · intro p hp
    have hp := mem_inked.1 hp
    obtain ⟨hx, hy⟩ := lt_of_get hp
    refine Finset.mem_filter.2 ⟨Finset.mem_range.2 ?_, ?_⟩
    · rw [bitmap.size_eq]
      exact index_lt hx hy
    · rw [index_mod hx, index_div hx]
      exact hp
  · intro i _
    dsimp only
    rw [Nat.mul_comm]
    exact Nat.div_add_mod i bitmap.width
  · intro p hp
    have hx := (lt_of_get (mem_inked.1 hp)).1
    exact Prod.ext (index_mod hx) (index_div hx)

/-- A loop that adds an amount for each number adds up to the sum of the amounts. -/
theorem foldl_range_eq_sum {step : Nat → Nat → Nat} {amount : Nat → Nat}
    (h : ∀ count i, step count i = count + amount i) (n count : Nat) :
    (List.range n).foldl step count = count + ∑ i ∈ Finset.range n, amount i := by
  induction n with
  | zero => rfl
  | succ n ih =>
    rw [List.range_succ, List.foldl_append, List.foldl_cons, List.foldl_nil, ih, h,
      Finset.sum_range_succ, Nat.add_assoc]

theorem sdiff_inked (reference learner : Bitmap) :
    reference.inked \ learner.inked =
      (Finset.range reference.width ×ˢ Finset.range reference.height).filter fun p =>
        reference.get p.1 p.2 = true ∧ learner.get p.1 p.2 = false := by
  ext p
  rw [Finset.mem_sdiff, mem_inked, mem_inked, Finset.mem_filter, Bool.not_eq_true]
  simp only [Finset.mem_product, Finset.mem_range]
  constructor
  · rintro ⟨hreference, hlearner⟩
    exact ⟨lt_of_get hreference, hreference, hlearner⟩
  · rintro ⟨-, huncovered⟩
    exact huncovered

theorem uncovered_eq_card (reference learner : Bitmap) :
    uncovered reference learner = (reference.inked \ learner.inked).card := by
  have hpixel (y count x : Nat) :
      (if reference.get x y && !learner.get x y then count + 1 else count) =
        count + if reference.get x y = true ∧ learner.get x y = false then 1 else 0 := by
    simp only [Bool.and_eq_true, Bool.not_eq_true']
    split <;> rfl
  have hrow (count y : Nat) := foldl_range_eq_sum (hpixel y) reference.width count
  rw [uncovered, foldl_range_eq_sum hrow, Nat.zero_add, sdiff_inked, Finset.card_filter,
    Finset.sum_product_right]

/-! ## Indices stay in the ink -/

/-- A bitmap of which nothing is known. -/
structure RawBitmap where
  width : Nat
  height : Nat
  ink : Array Bool

/-- A bitmap, its size forgotten. -/
def raw (bitmap : Bitmap) : RawBitmap := ⟨bitmap.width, bitmap.height, bitmap.ink⟩

namespace RawBitmap

/-- Ink a pixel, as `Bitmap.set` does; nothing if its index is not in the ink. -/
def set? (bitmap : RawBitmap) (x y : Nat) : Option RawBitmap :=
  if x < bitmap.width ∧ y < bitmap.height then
    let i := y * bitmap.width + x
    if h : i < bitmap.ink.size then some { bitmap with ink := bitmap.ink.set i true h } else none
  else some bitmap

/-- Is a pixel inked? Nothing if its index is not in the ink. -/
def get? (bitmap : RawBitmap) (x y : Nat) : Option Bool :=
  if x < bitmap.width ∧ y < bitmap.height then bitmap.ink[y * bitmap.width + x]? else some false

/-- Ink the pixels of a box that pass a test. -/
def fill? (bitmap : RawBitmap) (box : Box) (covers : Nat → Nat → Bool) : Option RawBitmap :=
  (span box.top box.bottom).foldlM (fun bitmap y =>
    (span box.left box.right).foldlM (fun bitmap x =>
      if covers x y then bitmap.set? x y else some bitmap) bitmap) bitmap

/-- Ink one stroke. -/
def add? (brush : Brush) (bitmap : RawBitmap) (stroke : Stroke) : Option RawBitmap :=
  if bitmap.width = 0 ∨ bitmap.height = 0 then some bitmap
  else bitmap.fill? ((brush.box stroke).clip bitmap.width bitmap.height) (brush.covers stroke)

/-- Ink every stroke of a drawing on fresh paper. -/
def draw? (brush : Brush) (strokes : List Stroke) (width height : Nat) : Option RawBitmap :=
  strokes.foldlM (add? brush) ⟨width, height, Array.replicate (width * height) false⟩

theorem index_lt_size (bitmap : Bitmap) {x y : Nat} (h : x < bitmap.width ∧ y < bitmap.height) :
    y * bitmap.width + x < bitmap.ink.size := by
  rw [bitmap.size_eq]
  exact index_lt h.1 h.2

theorem set?_raw (bitmap : Bitmap) (x y : Nat) :
    bitmap.raw.set? x y = some (bitmap.set x y).raw := by
  unfold Bitmap.set
  split
  · next hpaper => exact (if_pos hpaper).trans (dif_pos (index_lt_size bitmap hpaper))
  · next hpaper => exact if_neg hpaper

theorem get?_raw (bitmap : Bitmap) (x y : Nat) :
    bitmap.raw.get? x y = some (bitmap.get x y) := by
  unfold Bitmap.get
  split
  · next hpaper =>
    exact (if_pos hpaper).trans (Array.getElem?_eq_getElem (index_lt_size bitmap hpaper))
  · next hpaper => exact if_neg hpaper

/-- A loop with accesses that may fail has none that does if none of its turns has. -/
theorem foldlM_raw {step? : RawBitmap → α → Option RawBitmap} {step : Bitmap → α → Bitmap}
    (h : ∀ bitmap item, step? bitmap.raw item = some (step bitmap item).raw) (items : List α)
    (bitmap : Bitmap) : items.foldlM step? bitmap.raw = some (items.foldl step bitmap).raw := by
  induction items generalizing bitmap with
  | nil => rfl
  | cons item rest ih =>
    rw [List.foldlM_cons, h]
    exact ih (step bitmap item)

theorem fill?_raw (bitmap : Bitmap) (box : Box) (covers : Nat → Nat → Bool) :
    bitmap.raw.fill? box covers = some (bitmap.fill box covers).raw := by
  have hpixel (now : Bitmap) (x y : Nat) :
      (if covers x y then now.raw.set? x y else some now.raw) =
        some (if covers x y then now.set x y else now).raw := by
    split
    · exact set?_raw now x y
    · rfl
  have hrow (now : Bitmap) (y : Nat) :
      (span box.left box.right).foldlM (fun bitmap x =>
        if covers x y then set? bitmap x y else some bitmap) now.raw =
      some ((span box.left box.right).foldl (fun bitmap x =>
        if covers x y then bitmap.set x y else bitmap) now).raw :=
    foldlM_raw (fun between x => hpixel between x y) _ now
  exact foldlM_raw hrow _ bitmap

theorem add?_raw (brush : Brush) (bitmap : Bitmap) (stroke : Stroke) :
    add? brush bitmap.raw stroke = some (brush.add bitmap stroke).raw := by
  unfold add? Brush.add
  show (if bitmap.width = 0 ∨ bitmap.height = 0 then some bitmap.raw else _) = _
  split
  · rfl
  · exact fill?_raw bitmap _ _

theorem draw?_eq_some (brush : Brush) (strokes : List Stroke) (width height : Nat) :
    draw? brush strokes width height = some (brush.draw strokes width height).raw :=
  foldlM_raw (add?_raw brush) strokes (blank width height)

end RawBitmap

/-! ## The union -/

theorem inked_draw_subset (brush : Brush) {strokes more : List Stroke} (h : strokes ⊆ more)
    (width height : Nat) :
    (brush.draw strokes width height).inked ⊆ (brush.draw more width height).inked := by
  intro p hp
  rw [mem_inked, Brush.get_draw] at hp ⊢
  obtain ⟨stroke, hstroke, hinks⟩ := hp
  exact ⟨stroke, h hstroke, hinks⟩

/-- **A drawing is the union of its strokes.** Whatever box and whatever test of pixels a brush
gives to a stroke, a pixel of a drawing is inked exactly if it is on the paper and one of the
strokes inks it alone. These are the pixels of the paper that are in the box of a stroke and pass
its test. Drawings of the same strokes, in any order and with any repetition, are
equal. On paper of any size, also on none, no index that is written or read is outside the ink. The
ink count is the number of inked pixels of the paper.

For grading, the pixels that the learner leaves uncovered are counted. There are none if the
learner has all ink of the reference, and there are never more of them when the learner draws more
strokes, wherever among the others.

The rasterizer draws with the brush of its stroke width. -/
theorem drawing_is_union (brush : Brush) (strokes : List Stroke) (width height : Nat) :
    (∀ x y, (brush.draw strokes width height).get x y = true ↔
      x < width ∧ y < height ∧
        ∃ stroke ∈ strokes, (brush.draw [stroke] width height).get x y = true) ∧
    (∀ x y, (brush.draw strokes width height).get x y = true ↔
      ∃ stroke ∈ strokes, brush.Inks width height stroke x y) ∧
    (∀ others : List Stroke, (∀ stroke, stroke ∈ others ↔ stroke ∈ strokes) →
      brush.draw others width height = brush.draw strokes width height) ∧
    RawBitmap.draw? brush strokes width height = some (brush.draw strokes width height).raw ∧
    (∀ (bitmap : Bitmap) (x y : Nat), bitmap.raw.get? x y = some (bitmap.get x y)) ∧
    (∀ bitmap : Bitmap, bitmap.inkCount =
      ((Finset.range bitmap.width ×ˢ Finset.range bitmap.height).filter fun p =>
        bitmap.get p.1 p.2 = true).card) ∧
    (∀ reference learner : Bitmap,
      uncovered reference learner =
        ((Finset.range reference.width ×ˢ Finset.range reference.height).filter fun p =>
          reference.get p.1 p.2 = true ∧ learner.get p.1 p.2 = false).card ∧
      (uncovered reference learner = 0 ↔
        ∀ x y, reference.get x y = true → learner.get x y = true)) ∧
    (∀ (reference : Bitmap) (more : List Stroke), strokes ⊆ more →
      uncovered reference (brush.draw more width height) ≤
        uncovered reference (brush.draw strokes width height)) ∧
    ∀ strokeWidth, ofStrokes strokes width height strokeWidth =
      (Brush.ofWidth strokeWidth).draw strokes width height := by
  refine ⟨fun x y => ?_, brush.get_draw strokes width height, fun others hothers => ?_,
    RawBitmap.draw?_eq_some brush strokes width height, RawBitmap.get?_raw, inkCount_eq_card,
    fun reference learner => ⟨?_, ?_⟩, fun reference more hmore => ?_,
    ofStrokes_eq_draw strokes width height⟩
  · simp only [Brush.get_draw_singleton]
    rw [Brush.get_draw]
    constructor
    · rintro ⟨stroke, hstroke, hinks⟩
      exact ⟨hinks.1.1, hinks.1.2, stroke, hstroke, hinks⟩
    · rintro ⟨-, -, hinks⟩
      exact hinks
  · have hsize := brush.adds_draw others width height
    have hother := brush.adds_draw strokes width height
    apply ext_get
    · exact hsize.width_eq.trans hother.width_eq.symm
    · exact hsize.height_eq.trans hother.height_eq.symm
    · intro x y
      rw [Bool.eq_iff_iff, Brush.get_draw, Brush.get_draw]
      simp only [hothers]
  · rw [uncovered_eq_card, sdiff_inked]
  · rw [uncovered_eq_card, Finset.card_eq_zero, Finset.sdiff_eq_empty_iff_subset]
    constructor
    · intro h x y hxy
      exact mem_inked.1 (h (mem_inked.2 hxy : (x, y) ∈ reference.inked))
    · intro h p hp
      exact mem_inked.2 (h p.1 p.2 (mem_inked.1 hp))
  · rw [uncovered_eq_card, uncovered_eq_card]
    have hsubset := inked_draw_subset brush hmore width height
    exact Finset.card_le_card (Finset.sdiff_subset_sdiff (Finset.Subset.refl _) hsubset)

end Bitmap

end PuzzlePlayback
