import Boomux.Basic.Rust
import Mathlib.Data.List.Perm.Basic

/-!
# The tiling tree

A Desktop tiles its panes in a binary tree of splits. The tree and its edits are the same for every
kind of number that the ratios are measured in: the code has single-precision ones, and the geometry
is about exact ones. What the edits do to the panes does not depend on the numbers at all, and a
bound on the ratios is kept by all edits that keep it at one split.
-/

set_option autoImplicit false

namespace Boomux.Desktop

/-! ## The tree -/

inductive Axis
  | horizontal | vertical
  deriving DecidableEq

inductive Direction
  | left | right | up | down
  deriving DecidableEq

def Direction.axis : Direction → Axis
  | .left | .right => .horizontal
  | .up | .down => .vertical

inductive Node (Ratio : Type)
  | pane (id : Nat)
  | split (axis : Axis) (ratio : Ratio) (first second : Node Ratio)
  deriving DecidableEq

/-- The numbers of a tiling, beyond their arithmetic: what the code writes as `1.0`, `0.5`,
`clamp(0.2, 0.8)` and `max`. -/
class RatioArith (Ratio : Type) where
  one : Ratio
  half : Ratio
  clamp : Ratio → Ratio
  max : Ratio → Ratio → Ratio

namespace Node

variable {Ratio : Type}

def contains (target : Nat) : Node Ratio → Bool
  | .pane id => id == target
  | .split _ _ first second => first.contains target || second.contains target

def remove (target : Nat) : Node Ratio → Option (Node Ratio)
  | .pane id => if id ≠ target then some (.pane id) else none
  | .split axis ratio first second =>
      match first.remove target, second.remove target with
      | some first, some second => some (.split axis ratio first second)
      | some node, none => some node
      | none, some node => some node
      | none, none => none

def paneIds : Node Ratio → List Nat
  | .pane id => [id]
  | .split _ _ first second => first.paneIds ++ second.paneIds

/-- `replace_id`: the tree, and whether the old id was found. -/
def replaceId (old new : Nat) : Node Ratio → Node Ratio × Bool
  | .pane id => if id = old then (.pane new, true) else (.pane id, false)
  | .split axis ratio first second =>
      let inFirst := first.replaceId old new
      if inFirst.2 then (.split axis ratio inFirst.1 second, true)
      else
        let inSecond := second.replaceId old new
        (.split axis ratio inFirst.1 inSecond.1, inSecond.2)

/-- `usize::MAX`, which stands for no pane. -/
def usizeMax : Nat := Rust.u64Max

def swapPanes (a b : Nat) (node : Node Ratio) : Node Ratio :=
  (((node.replaceId a usizeMax).1.replaceId b a).1.replaceId usizeMax b).1

/-! ## The edits of a split -/

variable [Add Ratio] [Sub Ratio] [Mul Ratio] [Div Ratio] [Neg Ratio] [RatioArith Ratio]

/-- `split_at`: the tree, and whether the target was found. -/
def splitAt (target newId : Nat) (newAxis : Axis) (before : Bool) : Node Ratio → Node Ratio × Bool
  | .pane id =>
      if id = target then
        (if before then .split newAxis RatioArith.half (.pane newId) (.pane target)
          else .split newAxis RatioArith.half (.pane target) (.pane newId), true)
      else (.pane id, false)
  | .split axis ratio first second =>
      let inFirst := first.splitAt target newId newAxis before
      if inFirst.2 then (.split axis ratio inFirst.1 second, true)
      else
        let inSecond := second.splitAt target newId newAxis before
        (.split axis ratio inFirst.1 inSecond.1, inSecond.2)

/-- What an edit makes of a split, given the span it has and whether its first side holds the
focused pane; `none` where it leaves the split to the ones above. -/
abbrev Act (Ratio : Type) :=
  Ratio → Bool → Axis → Ratio → Node Ratio → Node Ratio → Option (Node Ratio)

/-- The walk to the focused pane that `update_nearest_split_with`, `resize`, `resize_edge_in_span`
and `resize_from_pointer_in_span` share: the deepest split that the edit takes is changed. `narrow`
is the span of the side that is entered. -/
def nearest (focused : Nat) (narrow : Axis → Ratio → Ratio → Ratio) (act : Act Ratio) :
    Ratio → Node Ratio → Node Ratio × Bool
  | _, .pane id => (.pane id, false)
  | span, .split axis ratio first second =>
      let inFirst := first.contains focused
      if !inFirst && !second.contains focused then (.split axis ratio first second, false)
      else
        let childSpan := narrow axis (if inFirst then ratio else RatioArith.one - ratio) span
        let child := if inFirst then first.nearest focused narrow act childSpan
          else second.nearest focused narrow act childSpan
        let entered := if inFirst then split axis ratio child.1 second
          else split axis ratio first child.1
        if child.2 then (entered, true)
        else
          match act span inFirst axis ratio first second with
          | some node => (node, true)
          | none => (entered, false)

/-- The edits that measure no span. -/
def unmeasured : Axis → Ratio → Ratio → Ratio := fun _ _ span => span

/-- A split along the axis divides the span. -/
def measured (target : Axis) : Axis → Ratio → Ratio → Ratio :=
  fun axis part span => if axis = target then span * part else span

def toggleSplit (focused : Nat) : Node Ratio → Node Ratio × Bool :=
  nearest focused unmeasured (fun _ _ axis ratio first second =>
    some (.split (match axis with
      | .horizontal => .vertical
      | .vertical => .horizontal) ratio first second)) RatioArith.one

def equalizeSplit (focused : Nat) : Node Ratio → Node Ratio × Bool :=
  nearest focused unmeasured (fun _ _ axis _ first second =>
    some (.split axis RatioArith.half first second)) RatioArith.one

def swapSplit (focused : Nat) : Node Ratio → Node Ratio × Bool :=
  nearest focused unmeasured (fun _ _ axis ratio first second =>
    some (.split axis (RatioArith.one - ratio) second first)) RatioArith.one

/-- The `delta` of a keyboard resize. -/
def signed (amount : Ratio) : Direction → Ratio
  | .left | .up => -amount
  | .right | .down => amount

/-- Only the divider bordering this side of the first child moves. -/
def growsFirst : Direction → Bool
  | .right | .down => true
  | .left | .up => false

/-- `has_resize_edge`. -/
def hasResizeEdge (focused : Nat) (edge : Direction) : Node Ratio → Bool
  | .pane _ => false
  | .split axis _ first second =>
      let inFirst := first.contains focused
      if !inFirst && !second.contains focused then false
      else
        (if inFirst then first.hasResizeEdge focused edge else second.hasResizeEdge focused edge) ||
          (axis = edge.axis && inFirst == growsFirst edge)

def resize (focused : Nat) (direction : Direction) (amount : Ratio) :
    Node Ratio → Node Ratio × Bool :=
  nearest focused unmeasured (fun _ _ axis ratio first second =>
    if axis ≠ direction.axis then none
    else some (.split axis (RatioArith.clamp (ratio + signed amount direction)) first second))
    RatioArith.one

/-- `resize_edge_in_span`; `epsilon` is `f32::EPSILON`. -/
def resizeEdgeInSpan (epsilon : Ratio) (focused : Nat) (edge : Direction) (delta : Ratio) :
    Ratio → Node Ratio → Node Ratio × Bool :=
  nearest focused (measured edge.axis) fun span inFirst axis ratio first second =>
    if axis = edge.axis && inFirst == growsFirst edge then
      some (.split axis (RatioArith.clamp (ratio + delta / RatioArith.max span epsilon))
        first second)
    else none

def resizeEdgeFromPointer (epsilon : Ratio) (focused : Nat) (edge : Direction) (delta : Ratio) :
    Node Ratio → Node Ratio × Bool :=
  resizeEdgeInSpan epsilon focused edge delta RatioArith.one

/-- `resize_from_pointer` and `resize_from_pointer_in_span`. -/
def resizeFromPointer (epsilon : Ratio) (focused : Nat) (axis : Axis) (delta : Ratio) :
    Node Ratio → Node Ratio × Bool :=
  nearest focused (measured axis) (fun span _ splitAxis ratio first second =>
    if splitAxis = axis then
      some (.split splitAxis (RatioArith.clamp (ratio + delta / RatioArith.max span epsilon))
        first second)
    else none) RatioArith.one

end Node

/-- An edit of a Desktop's tiling. `start` places the first pane. -/
inductive Edit (Ratio : Type)
  | start (id : Nat)
  | splitAt (target newId : Nat) (axis : Axis) (before : Bool)
  | remove (target : Nat)
  | swapPanes (a b : Nat)
  | toggleSplit (focused : Nat)
  | equalizeSplit (focused : Nat)
  | swapSplit (focused : Nat)
  | resize (focused : Nat) (direction : Direction) (amount : Ratio)
  | resizeEdge (focused : Nat) (edge : Direction) (delta : Ratio)
  | resizeFromPointer (focused : Nat) (axis : Axis) (delta : Ratio)

namespace Edit

variable {Ratio : Type} [Add Ratio] [Sub Ratio] [Mul Ratio] [Div Ratio] [Neg Ratio]
  [RatioArith Ratio]

/-- The tree after the edit; `none` once the last pane is removed. -/
def onNode (epsilon : Ratio) : Edit Ratio → Node Ratio → Option (Node Ratio)
  | .start _, node => some node
  | .splitAt target newId axis before, node => some (node.splitAt target newId axis before).1
  | .remove target, node => node.remove target
  | .swapPanes a b, node => some (node.swapPanes a b)
  | .toggleSplit focused, node => some (node.toggleSplit focused).1
  | .equalizeSplit focused, node => some (node.equalizeSplit focused).1
  | .swapSplit focused, node => some (node.swapSplit focused).1
  | .resize focused direction amount, node => some (node.resize focused direction amount).1
  | .resizeEdge focused edge delta, node =>
      some (node.resizeEdgeFromPointer epsilon focused edge delta).1
  | .resizeFromPointer focused axis delta, node =>
      some (node.resizeFromPointer epsilon focused axis delta).1

end Edit

namespace Node

variable {Ratio : Type} {node node' first second : Node Ratio} {allowed : Ratio → Prop}

/-! ## The panes -/

theorem contains_iff (target : Nat) (node : Node Ratio) :
    node.contains target = true ↔ target ∈ node.paneIds := by
  induction node with
  | pane id => rw [contains, paneIds, List.mem_singleton, beq_iff_eq, eq_comm]
  | split axis ratio first second ihf ihs =>
      rw [contains, Bool.or_eq_true, ihf, ihs, paneIds, List.mem_append]

/-- Splitting adds the new pane, where the target is found. -/
theorem splitAt_spec [RatioArith Ratio] (target newId : Nat) (axis : Axis) (before : Bool)
    (node : Node Ratio) :
    (node.splitAt target newId axis before).1.paneIds.Perm
        (if target ∈ node.paneIds then newId :: node.paneIds else node.paneIds)
      ∧ (node.splitAt target newId axis before).2 = decide (target ∈ node.paneIds) := by
  induction node with
  | pane id =>
      unfold splitAt
      by_cases hid : id = target
      · subst hid
        have hmem : id ∈ (pane id : Node Ratio).paneIds := List.mem_singleton_self id
        rw [if_pos rfl, if_pos hmem]
        refine ⟨?_, by simp [paneIds]⟩
        cases before with
        | true => exact .refl _
        | false => exact .swap _ _ _
      · have hmem : target ∉ (pane id : Node Ratio).paneIds :=
          fun hmem => hid (List.mem_singleton.mp hmem).symm
        rw [if_neg hid, if_neg hmem]
        exact ⟨.refl _, (decide_eq_false hmem).symm⟩
  | split a ratio first second ihf ihs =>
      obtain ⟨hfirst, hfound⟩ := ihf
      obtain ⟨hsecond, hfound'⟩ := ihs
      unfold splitAt
      dsimp only
      rw [paneIds, hfound, hfound']
      by_cases hin : target ∈ first.paneIds
      · rw [if_pos hin] at hfirst
        rw [if_pos (decide_eq_true hin), if_pos (List.mem_append_left _ hin)]
        exact ⟨hfirst.append_right _, by simp [hin]⟩
      · rw [if_neg hin] at hfirst
        rw [if_neg (by simp [hin])]
        refine ⟨?_, by simp [hin]⟩
        by_cases hin' : target ∈ second.paneIds
        · rw [if_pos hin'] at hsecond
          rw [if_pos (List.mem_append_right _ hin')]
          exact (hfirst.append hsecond).trans List.perm_middle
        · rw [if_neg hin'] at hsecond
          rw [if_neg (by simp [hin, hin'])]
          exact hfirst.append hsecond

/-- The panes that are left are the others. -/
theorem remove_ids (target : Nat) (node : Node Ratio) :
    ((node.remove target).elim [] paneIds) = node.paneIds.filter (· ≠ target) := by
  induction node with
  | pane id =>
      unfold remove
      by_cases hid : id = target
      · simp [hid, paneIds]
      · simp [hid, paneIds]
  | split axis ratio first second ihf ihs =>
      unfold remove
      rw [paneIds, List.filter_append, ← ihf, ← ihs]
      cases first.remove target <;> cases second.remove target <;> simp [paneIds]

/-- The first pane with the old id has the new one. -/
theorem replaceId_spec (old new : Nat) (node : Node Ratio) :
    (if old ∈ node.paneIds then (old :: (node.replaceId old new).1.paneIds).Perm
      (new :: node.paneIds)
      else (node.replaceId old new).1.paneIds = node.paneIds)
      ∧ (node.replaceId old new).2 = decide (old ∈ node.paneIds) := by
  induction node with
  | pane id =>
      unfold replaceId
      by_cases hid : id = old
      · rw [if_pos hid, if_pos (by simp [paneIds, hid])]
        exact ⟨hid ▸ .swap _ _ _, by simp [paneIds, hid]⟩
      · rw [if_neg hid, if_neg (by simp [paneIds, Ne.symm hid])]
        exact ⟨rfl, by simp [paneIds, Ne.symm hid]⟩
  | split axis ratio first second ihf ihs =>
      obtain ⟨hfirst, hfound⟩ := ihf
      obtain ⟨hsecond, hfound'⟩ := ihs
      unfold replaceId
      dsimp only
      rw [paneIds, hfound, hfound']
      by_cases hin : old ∈ first.paneIds
      · rw [if_pos hin] at hfirst
        rw [if_pos (decide_eq_true hin), if_pos (List.mem_append_left _ hin)]
        exact ⟨hfirst.append_right second.paneIds, by simp [hin]⟩
      · rw [if_neg hin] at hfirst
        rw [if_neg (by simp [hin] : ¬ decide (old ∈ first.paneIds) = true)]
        refine ⟨?_, by simp [hin]⟩
        dsimp only
        rw [paneIds, hfirst]
        by_cases hin' : old ∈ second.paneIds
        · rw [if_pos hin'] at hsecond
          rw [if_pos (List.mem_append_right _ hin')]
          exact List.perm_middle.symm.trans
            ((hsecond.append_left first.paneIds).trans List.perm_middle)
        · rw [if_neg hin'] at hsecond
          rw [if_neg (by simp [hin, hin']), hsecond]

/-- An element exchanged for another that was there leaves the new one there. -/
theorem mem_of_exchange {α : Type*} {x y : α} {l l' : List α} (h : (x :: l').Perm (y :: l))
    (hx : x ∈ l) : y ∈ l' := by
  rcases List.mem_cons.mp (h.mem_iff.mpr List.mem_cons_self) with rfl | hmem
  · exact h.cons_inv.mem_iff.mpr hx
  · exact hmem

/-- Exchanging two panes keeps the panes, also where the id that stands for none is in use. -/
theorem swapPanes_perm {a b : Nat} (ha : a ∈ node.paneIds) (hb : b ∈ node.paneIds) :
    (node.swapPanes a b).paneIds.Perm node.paneIds := by
  unfold swapPanes
  generalize usizeMax = aside
  have hfirst := (replaceId_spec a aside node).1
  rw [if_pos ha] at hfirst
  have hsecond : (b :: ((node.replaceId a aside).1.replaceId b a).1.paneIds).Perm
      (aside :: node.paneIds) := by
    have hreplace := (replaceId_spec b a (node.replaceId a aside).1).1
    by_cases hmem : b ∈ (node.replaceId a aside).1.paneIds
    · rw [if_pos hmem] at hreplace
      exact hreplace.trans hfirst
    · -- The second pane is gone only if it was the first one.
      rw [if_neg hmem] at hreplace
      rcases List.mem_cons.mp (hfirst.mem_iff.mpr (List.mem_cons_of_mem aside hb)) with rfl | hb
      · rw [hreplace]
        exact hfirst
      · exact absurd hb hmem
  have hthird := (replaceId_spec aside b ((node.replaceId a aside).1.replaceId b a).1).1
  rw [if_pos (mem_of_exchange hsecond hb)] at hthird
  exact (hthird.trans hsecond).cons_inv

/-! ## The walk to a pane -/

section Nearest

variable [Sub Ratio] [RatioArith Ratio] {axis : Axis} {ratio span : Ratio} {focused : Nat}
  {narrow : Axis → Ratio → Ratio → Ratio} {act : Act Ratio}

theorem nearest_of_first (h : first.contains focused = true) :
    (split axis ratio first second).nearest focused narrow act span =
      if (first.nearest focused narrow act (narrow axis ratio span)).2 then
        (.split axis ratio (first.nearest focused narrow act (narrow axis ratio span)).1 second,
          true)
      else match act span true axis ratio first second with
        | some node => (node, true)
        | none =>
            (.split axis ratio (first.nearest focused narrow act (narrow axis ratio span)).1 second,
              false) := by
  simp only [nearest, h, Bool.not_true, Bool.false_and, Bool.false_eq_true, if_false, if_true]

theorem nearest_of_second (hnot : first.contains focused = false)
    (h : second.contains focused = true) :
    (split axis ratio first second).nearest focused narrow act span =
      if (second.nearest focused narrow act (narrow axis (RatioArith.one - ratio) span)).2 then
        (.split axis ratio first
          (second.nearest focused narrow act (narrow axis (RatioArith.one - ratio) span)).1, true)
      else match act span false axis ratio first second with
        | some node => (node, true)
        | none =>
            (.split axis ratio first
              (second.nearest focused narrow act (narrow axis (RatioArith.one - ratio) span)).1,
              false) := by
  simp only [nearest, hnot, h, Bool.not_true, Bool.and_false, Bool.false_eq_true, if_false]

end Nearest

/-- Dragging an edge reports whether a divider borders it. -/
theorem resizeEdge_found [Add Ratio] [Sub Ratio] [Mul Ratio] [Div Ratio] [RatioArith Ratio]
    (epsilon : Ratio) (focused : Nat) (edge : Direction) (delta span : Ratio) (node : Node Ratio) :
    (node.resizeEdgeInSpan epsilon focused edge delta span).2 =
      node.hasResizeEdge focused edge := by
  unfold resizeEdgeInSpan
  induction node generalizing span with
  | pane id => rfl
  | split axis ratio first second ihf ihs =>
      cases hin : first.contains focused with
      | true =>
          rw [nearest_of_first hin, ihf, hasResizeEdge, hin]
          cases first.hasResizeEdge focused edge with
          | true => simp
          | false => by_cases haxis : axis = edge.axis <;> cases growsFirst edge <;> simp [haxis]
      | false =>
          cases hin' : second.contains focused with
          | true =>
              rw [nearest_of_second hin hin', ihs, hasResizeEdge, hin, hin']
              cases second.hasResizeEdge focused edge with
              | true => simp
              | false =>
                  by_cases haxis : axis = edge.axis <;> cases growsFirst edge <;> simp [haxis]
          | false =>
              rw [nearest, hasResizeEdge, hin, hin']
              rfl

/-! ## The ratios -/

/-- Every ratio of the tree is allowed. -/
def Ratios (allowed : Ratio → Prop) : Node Ratio → Prop
  | .pane _ => True
  | .split _ ratio first second => allowed ratio ∧ first.Ratios allowed ∧ second.Ratios allowed

theorem Ratios.mono {allowed' : Ratio → Prop} (h : node.Ratios allowed)
    (himp : ∀ ratio, allowed ratio → allowed' ratio) : node.Ratios allowed' := by
  induction node with
  | pane id => exact trivial
  | split axis ratio first second ihf ihs => exact ⟨himp _ h.1, ihf h.2.1, ihs h.2.2⟩

theorem Ratios.splitAt [RatioArith Ratio] (hhalf : allowed RatioArith.half)
    (h : node.Ratios allowed)
    (target newId : Nat) (axis : Axis) (before : Bool) :
    (node.splitAt target newId axis before).1.Ratios allowed := by
  induction node with
  | pane id =>
      unfold Node.splitAt
      split
      · cases before <;> exact ⟨hhalf, trivial, trivial⟩
      · exact trivial
  | split a ratio first second ihf ihs =>
      unfold Node.splitAt
      dsimp only
      split
      · exact ⟨h.1, ihf h.2.1, h.2.2⟩
      · exact ⟨h.1, ihf h.2.1, ihs h.2.2⟩

theorem Ratios.remove (h : node.Ratios allowed) {target : Nat}
    (hr : node.remove target = some node') : node'.Ratios allowed := by
  induction node generalizing node' with
  | pane id =>
      unfold Node.remove at hr
      split at hr <;> cases hr
      exact trivial
  | split axis ratio first second ihf ihs =>
      unfold Node.remove at hr
      split at hr
      case h_1 first' second' hfirst hsecond =>
        obtain rfl := Option.some.inj hr
        exact ⟨h.1, ihf h.2.1 hfirst, ihs h.2.2 hsecond⟩
      case h_2 hfirst _ => exact ihf h.2.1 (hfirst.trans hr)
      case h_3 _ hsecond => exact ihs h.2.2 (hsecond.trans hr)
      case h_4 => cases hr

theorem Ratios.replaceId (h : node.Ratios allowed) (old new : Nat) :
    (node.replaceId old new).1.Ratios allowed := by
  induction node with
  | pane id =>
      unfold Node.replaceId
      split <;> exact trivial
  | split axis ratio first second ihf ihs =>
      unfold Node.replaceId
      dsimp only
      split
      · exact ⟨h.1, ihf h.2.1, h.2.2⟩
      · exact ⟨h.1, ihf h.2.1, ihs h.2.2⟩

/-- An edit that keeps the bound at the split it takes keeps it everywhere. -/
theorem Ratios.nearest [Sub Ratio] [RatioArith Ratio] {focused : Nat}
    {narrow : Axis → Ratio → Ratio → Ratio} {act : Act Ratio}
    (hact : ∀ span inFirst axis ratio first second new,
      act span inFirst axis ratio first second = some new → allowed ratio →
        first.Ratios allowed → second.Ratios allowed → new.Ratios allowed)
    (h : node.Ratios allowed) (span : Ratio) :
    (node.nearest focused narrow act span).1.Ratios allowed := by
  induction node generalizing span with
  | pane id => exact trivial
  | split axis ratio first second ihf ihs =>
      unfold Node.nearest
      dsimp only
      split
      · exact h
      · generalize narrow axis
          (if first.contains focused then ratio else RatioArith.one - ratio) span = childSpan
        cases hin : first.contains focused with
        | true =>
            simp only [if_true]
            split
            · exact ⟨h.1, ihf h.2.1 _, h.2.2⟩
            · split
              next new hnew => exact hact _ _ _ _ _ _ _ hnew h.1 h.2.1 h.2.2
              next => exact ⟨h.1, ihf h.2.1 _, h.2.2⟩
        | false =>
            simp only [Bool.false_eq_true, if_false]
            split
            · exact ⟨h.1, h.2.1, ihs h.2.2 _⟩
            · split
              next new hnew => exact hact _ _ _ _ _ _ _ hnew h.1 h.2.1 h.2.2
              next => exact ⟨h.1, h.2.1, ihs h.2.2 _⟩

theorem Ratios.swapPanes (h : node.Ratios allowed) (a b : Nat) :
    (node.swapPanes a b).Ratios allowed :=
  ((h.replaceId _ _).replaceId _ _).replaceId _ _

end Node

end Boomux.Desktop
