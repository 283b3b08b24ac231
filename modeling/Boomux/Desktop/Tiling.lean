import Boomux.Basic.Select
import Boomux.Desktop.Node
import Mathlib.Algebra.Order.Field.Rat
import Mathlib.Order.OrderDual
import Mathlib.Tactic.Linarith
import Mathlib.Tactic.Positivity
import Mathlib.Tactic.Ring

/-!
# The geometry of a tiling

The tiling tree with exact ratios: the rectangles of its panes, the neighbour of a pane on a side,
and whether a divider borders a pane there. A rectangle is seen from each direction by how far it
reaches that way, where it begins, and what it spans across; so one argument serves all four
directions.
-/

set_option autoImplicit false

namespace Boomux.Desktop

namespace Exact

/-! ## Rectangles -/

structure Rect where
  x : ℚ
  y : ℚ
  width : ℚ
  height : ℚ
  deriving DecidableEq

namespace Rect

def center (rect : Rect) : ℚ × ℚ := (rect.x + rect.width / 2, rect.y + rect.height / 2)

def right (rect : Rect) : ℚ := rect.x + rect.width

def bottom (rect : Rect) : ℚ := rect.y + rect.height

/-- The two parts of a rectangle that is split. -/
def halves (rect : Rect) (axis : Axis) (ratio : ℚ) : Rect × Rect :=
  match axis with
  | .horizontal => ({ rect with width := rect.width * ratio },
      { rect with x := rect.x + rect.width * ratio, width := rect.width * (1 - ratio) })
  | .vertical => ({ rect with height := rect.height * ratio },
      { rect with y := rect.y + rect.height * ratio, height := rect.height * (1 - ratio) })

end Rect

def intervalOverlap (aStart aEnd bStart bEnd : ℚ) : ℚ := min aEnd bEnd - max aStart bStart

/-- The whole square. -/
def unit : Rect := ⟨0, 0, 1, 1⟩

/-- Of a pane on the right side: how far away it is, how far to the side, and how much of the border
it shares. -/
def Rect.measure (epsilon : ℚ) (current : Rect) (direction : Direction) (rect : Rect) :
    Option (ℚ × ℚ × ℚ) :=
  let (cx, cy) := current.center
  let (x, y) := rect.center
  match direction with
  | .left =>
      if rect.right ≤ current.x + epsilon then
        some (current.x - rect.right, |cy - y|,
          intervalOverlap current.y current.bottom rect.y rect.bottom)
      else none
  | .right =>
      if rect.x + epsilon ≥ current.right then
        some (rect.x - current.right, |cy - y|,
          intervalOverlap current.y current.bottom rect.y rect.bottom)
      else none
  | .up =>
      if rect.bottom ≤ current.y + epsilon then
        some (current.y - rect.bottom, |cx - x|,
          intervalOverlap current.x current.right rect.x rect.right)
      else none
  | .down =>
      if rect.y + epsilon ≥ current.bottom then
        some (rect.y - current.bottom, |cx - x|,
          intervalOverlap current.x current.right rect.x rect.right)
      else none

/-- A candidate of `neighbor`: the pane, whether it shares no border, and its distances. -/
structure Candidate where
  id : Nat
  apart : Bool
  primary : ℚ
  secondary : ℚ

/-- The order of `min_by`. -/
def Candidate.key (candidate : Candidate) : Bool ×ₗ ℚ ×ₗ ℚ :=
  toLex (candidate.apart, toLex (candidate.primary, candidate.secondary))

end Exact

open Exact

/-! ## Neighbours -/

namespace Node

/-- `collect_rects`. -/
def collectRects (rect : Rect) : Node ℚ → List (Nat × Rect)
  | .pane id => [(id, rect)]
  | .split axis ratio first second =>
      let (a, b) := rect.halves axis ratio
      first.collectRects a ++ second.collectRects b

def rects (node : Node ℚ) : List (Nat × Rect) := node.collectRects unit

/-- The other panes on a side of the focused one. -/
def candidates (epsilon : ℚ) (node : Node ℚ) (focused : Nat) (current : Rect)
    (direction : Direction) : List Candidate :=
  (node.rects.filter (·.1 ≠ focused)).filterMap fun (id, rect) =>
    (Rect.measure epsilon current direction rect).map fun (primary, secondary, overlap) =>
      { id, apart := overlap ≤ epsilon, primary, secondary }

/-- `neighbor`; `epsilon` is `f32::EPSILON`. -/
def neighbor (epsilon : ℚ) (node : Node ℚ) (focused : Nat) (direction : Direction) :
    Option Nat := do
  let (_, current) ← node.rects.find? (·.1 = focused)
  (Select.minBy Candidate.key (node.candidates epsilon focused current direction)).map (·.id)

end Node

/-! ## A rectangle seen from a direction -/

namespace Exact

namespace Rect

variable {rect : Rect} {axis : Axis} {ratio : ℚ} {d : Direction}

/-- How far the rectangle reaches in a direction. -/
def reach (rect : Rect) : Direction → ℚ
  | .left => -rect.x
  | .right => rect.right
  | .up => -rect.y
  | .down => rect.bottom

/-- Where the rectangle begins, going in a direction. -/
def base (rect : Rect) : Direction → ℚ
  | .left => -rect.right
  | .right => rect.x
  | .up => -rect.bottom
  | .down => rect.y

/-- Where the rectangle begins across a direction. -/
def low (rect : Rect) : Direction → ℚ
  | .left | .right => rect.y
  | .up | .down => rect.x

/-- Where the rectangle ends across a direction. -/
def high (rect : Rect) : Direction → ℚ
  | .left | .right => rect.bottom
  | .up | .down => rect.right

/-- Both sides of the rectangle have a length. -/
structure Positive (rect : Rect) : Prop where
  width : 0 < rect.width
  height : 0 < rect.height

theorem Positive.base_lt (h : rect.Positive) (d : Direction) : rect.base d < rect.reach d := by
  have hwidth := h.width
  have hheight := h.height
  cases d <;> simp only [base, reach, right, bottom] <;> linarith

theorem Positive.low_lt (h : rect.Positive) (d : Direction) : rect.low d < rect.high d := by
  have hwidth := h.width
  have hheight := h.height
  cases d <;> simp only [low, high, right, bottom] <;> linarith

/-- The half on the far side of a divider, and the one before it, going in a direction. -/
def ordered (d : Direction) (halves : Rect × Rect) : Rect × Rect :=
  if Node.growsFirst d then halves else halves.swap

theorem Positive.halves (h : rect.Positive) (axis : Axis) (hpos : 0 < ratio) (hlt : ratio < 1) :
    (rect.halves axis ratio).1.Positive ∧ (rect.halves axis ratio).2.Positive := by
  have hrest : 0 < 1 - ratio := by linarith
  cases axis
  · exact ⟨⟨mul_pos h.width hpos, h.height⟩, mul_pos h.width hrest, h.height⟩
  · exact ⟨⟨h.width, mul_pos h.height hpos⟩, h.width, mul_pos h.height hrest⟩

/-- Split along the direction, the halves follow one another and span what the rectangle spans. -/
theorem halves_along (rect : Rect) (ratio : ℚ) (h : d.axis = axis) :
    (ordered d (rect.halves axis ratio)).1.base d = rect.base d
      ∧ (ordered d (rect.halves axis ratio)).1.reach d =
        (ordered d (rect.halves axis ratio)).2.base d
      ∧ (ordered d (rect.halves axis ratio)).2.reach d = rect.reach d
      ∧ ((rect.halves axis ratio).1.low d = rect.low d
        ∧ (rect.halves axis ratio).1.high d = rect.high d)
      ∧ (rect.halves axis ratio).2.low d = rect.low d
        ∧ (rect.halves axis ratio).2.high d = rect.high d := by
  subst h
  cases d <;> simp only [Direction.axis, halves, ordered, Node.growsFirst, base, reach, low, high,
    right, bottom, Prod.swap_prod_mk, if_true, Bool.false_eq_true, if_false, and_self, true_and,
    and_true] <;> ring_nf

/-- Split across the direction, the halves begin and reach as the rectangle does, and span it
between them. -/
theorem halves_across (rect : Rect) (ratio : ℚ) (h : d.axis ≠ axis) :
    ((rect.halves axis ratio).1.base d = rect.base d
      ∧ (rect.halves axis ratio).1.reach d = rect.reach d)
      ∧ ((rect.halves axis ratio).2.base d = rect.base d
        ∧ (rect.halves axis ratio).2.reach d = rect.reach d)
      ∧ (rect.halves axis ratio).1.low d = rect.low d
      ∧ (rect.halves axis ratio).1.high d = (rect.halves axis ratio).2.low d
      ∧ (rect.halves axis ratio).2.high d = rect.high d := by
  cases d <;> cases axis <;> first
    | exact absurd rfl h
    | (simp only [halves, base, reach, low, high, right, bottom, and_self, true_and]
       ring)

/-- Seen from a direction, the inner rectangle is a part of the outer one. -/
structure Within (d : Direction) (inner outer : Rect) : Prop where
  base : outer.base d ≤ inner.base d
  reach : inner.reach d ≤ outer.reach d
  low : outer.low d ≤ inner.low d
  high : inner.high d ≤ outer.high d

theorem Within.refl (d : Direction) (rect : Rect) : Within d rect rect :=
  ⟨le_refl _, le_refl _, le_refl _, le_refl _⟩

theorem Within.trans {a b c : Rect} (h : Within d a b) (h' : Within d b c) : Within d a c where
  base := h'.base.trans h.base
  reach := h.reach.trans h'.reach
  low := h'.low.trans h.low
  high := h.high.trans h'.high

theorem Positive.halves_within (h : rect.Positive) (axis : Axis) (hpos : 0 < ratio)
    (hlt : ratio < 1) (d : Direction) :
    Within d (rect.halves axis ratio).1 rect ∧ Within d (rect.halves axis ratio).2 rect := by
  have hrest : 0 < 1 - ratio := by linarith
  have hw := mul_pos h.width hpos
  have hw' := mul_pos h.width hrest
  have hh := mul_pos h.height hpos
  have hh' := mul_pos h.height hrest
  have hwidth : rect.width * ratio + rect.width * (1 - ratio) = rect.width := by ring
  have hheight : rect.height * ratio + rect.height * (1 - ratio) = rect.height := by ring
  refine ⟨⟨?_, ?_, ?_, ?_⟩, ⟨?_, ?_, ?_, ?_⟩⟩ <;> cases axis <;> cases d <;>
    simp only [Rect.halves, Rect.base, Rect.reach, Rect.low, Rect.high, Rect.right, Rect.bottom]
      <;> linarith

/-- The point lies in the rectangle, its left and upper borders included. -/
def has (rect : Rect) (p : ℚ × ℚ) : Bool :=
  rect.x ≤ p.1 && p.1 < rect.right && rect.y ≤ p.2 && p.2 < rect.bottom

/-- A point of a rectangle lies in one of its halves. -/
theorem Positive.has_halves (h : rect.Positive) (hpos : 0 < ratio) (hlt : ratio < 1) (p : ℚ × ℚ) :
    (if (rect.halves axis ratio).1.has p then 1 else 0) + (if (rect.halves axis ratio).2.has p then
      1 else 0)
      = if rect.has p then 1 else 0 := by
  have hrest : 0 < 1 - ratio := by linarith
  have hw := mul_pos h.width hpos
  have hw' := mul_pos h.width hrest
  have hh := mul_pos h.height hpos
  have hh' := mul_pos h.height hrest
  have hwidth : rect.width * ratio + rect.width * (1 - ratio) = rect.width := by ring
  have hheight : rect.height * ratio + rect.height * (1 - ratio) = rect.height := by ring
  cases axis <;>
    simp only [Rect.halves, has, right, bottom, Bool.and_eq_true, decide_eq_true_iff] <;>
    split_ifs <;> first | rfl | (exfalso; grind)

end Rect

/-- The ratio leaves something to both sides. -/
def Inner (ratio : ℚ) : Prop := 0 < ratio ∧ ratio < 1

theorem unit_positive : unit.Positive := ⟨one_pos, one_pos⟩

end Exact

namespace Node

variable {node : Node ℚ} {rect : Rect} {ratio : ℚ} {entry : Nat × Rect}

/-- Each pane has a rectangle. -/
theorem collectRects_ids (rect : Rect) (node : Node ℚ) :
    (node.collectRects rect).map Prod.fst = node.paneIds := by
  induction node generalizing rect with
  | pane id => rfl
  | split axis ratio first second ihf ihs => rw [collectRects, List.map_append, ihf, ihs, paneIds]

/-- The rectangles of the panes are parts of the whole. -/
theorem collectRects_within (hr : rect.Positive) (h : node.Ratios Inner)
    (hmem : entry ∈ node.collectRects rect) :
    entry.2.Positive ∧ ∀ d, entry.2.Within d rect := by
  induction node generalizing rect with
  | pane id =>
      rw [List.mem_singleton.mp hmem]
      exact ⟨hr, fun d => .refl d rect⟩
  | split axis ratio first second ihf ihs =>
      obtain ⟨hratio, hfirst, hsecond⟩ := h
      obtain ⟨hpos, hpos'⟩ := hr.halves axis hratio.1 hratio.2
      have hwithin (d : Direction) := hr.halves_within axis hratio.1 hratio.2 d
      rcases List.mem_append.mp hmem with hmem | hmem
      · obtain ⟨hentry, hin⟩ := ihf hpos hfirst hmem
        exact ⟨hentry, fun d => (hin d).trans (hwithin d).1⟩
      · obtain ⟨hentry, hin⟩ := ihs hpos' hsecond hmem
        exact ⟨hentry, fun d => (hin d).trans (hwithin d).2⟩

/-- Every point of the whole lies in the rectangle of one pane. -/
theorem collectRects_partition (hr : rect.Positive) (h : node.Ratios Inner) (p : ℚ × ℚ) :
    (node.collectRects rect).countP (·.2.has p) = if rect.has p then 1 else 0 := by
  induction node generalizing rect with
  | pane id => simp [collectRects, List.countP_cons]
  | split axis ratio first second ihf ihs =>
      obtain ⟨hratio, hfirst, hsecond⟩ := h
      obtain ⟨hpos, hpos'⟩ := hr.halves axis hratio.1 hratio.2
      rw [collectRects, List.countP_append, ihf hpos hfirst, ihs hpos' hsecond,
        hr.has_halves hratio.1 hratio.2]

end Node

end Boomux.Desktop
