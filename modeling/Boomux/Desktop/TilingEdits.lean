import Boomux.Desktop.TilingNavigation

/-!
# Editing a tiling

The edits of the tiling tree with exact ratios. Whatever the edits, the panes are the ones that were
split off and not removed, each ratio stays within its bounds, and the rectangles of the panes
partition the square. Dragging the edge of a pane moves the one divider that borders it, and leaves
every pane on neither side of that divider where it is.
-/

set_option autoImplicit false

namespace Boomux.Desktop

open Exact

/-! ## The edits -/

namespace Exact

/-- Exact numbers have no `f32::EPSILON`; the edits take it as an argument. -/
instance : RatioArith ℚ where
  one := 1
  half := 1 / 2
  clamp ratio := max (1 / 5) (min ratio (4 / 5))
  max := max

/-- A ratio stays within 0.2 and 0.8. -/
def Middle (ratio : ℚ) : Prop := 1 / 5 ≤ ratio ∧ ratio ≤ 4 / 5

theorem Middle.inner {ratio : ℚ} (h : Middle ratio) : Inner ratio :=
  ⟨lt_of_lt_of_le (by norm_num) h.1, lt_of_le_of_lt h.2 (by norm_num)⟩

theorem middle_half : Middle RatioArith.half := by
  show Middle (1 / 2)
  exact ⟨by norm_num, by norm_num⟩

theorem middle_clamp (ratio : ℚ) : Middle (RatioArith.clamp ratio) :=
  ⟨le_max_left _ _, max_le (by norm_num) (min_le_right _ _)⟩

theorem Middle.rest {ratio : ℚ} (h : Middle ratio) : Middle (RatioArith.one - ratio) := by
  obtain ⟨hlow, hhigh⟩ := h
  show Middle (1 - ratio)
  exact ⟨by linarith, by linarith⟩

theorem clamp_eq {ratio : ℚ} (h : Middle ratio) : RatioArith.clamp ratio = ratio := by
  show max (1 / 5) (min ratio (4 / 5)) = ratio
  rw [min_eq_left h.2, max_eq_right h.1]

end Exact

namespace Edit

/-- A new pane has a fresh id, and the panes that are swapped are there. -/
def Allowed : Edit ℚ → Node ℚ → Prop
  | .splitAt _ newId _ _, node => newId ∉ node.paneIds
  | .swapPanes a b, node => a ∈ node.paneIds ∧ b ∈ node.paneIds
  | _, _ => True

/-- The panes after the edit, given the panes before it. -/
def panesAfter : Edit ℚ → List Nat → List Nat
  | .splitAt target newId _ _, ids => if target ∈ ids then newId :: ids else ids
  | .remove target, ids => ids.erase target
  | _, ids => ids

end Edit

namespace Node

variable {node node' first second : Node ℚ} {rect : Rect} {axis : Axis} {ratio epsilon : ℚ}
    {path : List Bool}
  {id focused : Nat}

/-! ## A place in the tree -/

/-- The part of the tree at the end of a path; `true` enters the first side. -/
def subtree : List Bool → Node ℚ → Option (Node ℚ)
  | [], node => some node
  | _ :: _, .pane _ => none
  | inFirst :: path, .split _ _ first second =>
      if inFirst then first.subtree path else second.subtree path

/-- The tree with the part at the end of a path replaced. -/
def setAt : List Bool → Node ℚ → Node ℚ → Node ℚ
  | [], _, new => new
  | _ :: _, .pane id, _ => .pane id
  | inFirst :: path, .split axis ratio first second, new =>
      if inFirst then .split axis ratio (first.setAt path new) second
      else .split axis ratio first (second.setAt path new)

/-- The rectangle of the part at the end of a path. -/
def rectAt : List Bool → Rect → Node ℚ → Rect
  | [], rect, _ => rect
  | _ :: _, rect, .pane _ => rect
  | inFirst :: path, rect, .split axis ratio first second =>
      if inFirst then first.rectAt path (rect.halves axis ratio).1
      else second.rectAt path (rect.halves axis ratio).2

/-- Replacing a part by one with the same panes keeps the panes. -/
theorem setAt_perm {part new : Node ℚ} (h : node.subtree path = some part)
    (hperm : new.paneIds.Perm part.paneIds) :
    (node.setAt path new).paneIds.Perm node.paneIds := by
  induction path generalizing node with
  | nil =>
      obtain rfl := Option.some.inj h
      exact hperm
  | cons inFirst path ih =>
      cases node with
      | pane id => cases h
      | split axis ratio first second =>
          cases inFirst with
          | true => exact (ih h).append_right _
          | false => exact (ih h).append_left _

theorem setAt_ratios {allowed : ℚ → Prop} {part new : Node ℚ} (h : node.subtree path = some part)
    (hnode : node.Ratios allowed) (hnew : part.Ratios allowed → new.Ratios allowed) :
    (node.setAt path new).Ratios allowed := by
  induction path generalizing node with
  | nil =>
      obtain rfl := Option.some.inj h
      exact hnew hnode
  | cons inFirst path ih =>
      cases node with
      | pane id => cases h
      | split axis ratio first second =>
          obtain ⟨hratio, hfirst, hsecond⟩ := hnode
          cases inFirst with
          | true => exact ⟨hratio, ih h hfirst, hsecond⟩
          | false => exact ⟨hratio, hfirst, ih h hsecond⟩

/-- A pane that is in neither the old part nor the new one keeps its rectangle. -/
theorem setAt_collectRects {part new : Node ℚ} {entry : Nat × Rect}
    (h : node.subtree path = some part)
    (hold : entry.1 ∉ part.paneIds) (hnew : entry.1 ∉ new.paneIds) :
    entry ∈ (node.setAt path new).collectRects rect ↔ entry ∈ node.collectRects rect := by
  induction path generalizing node rect with
  | nil =>
      obtain rfl := Option.some.inj h
      exact iff_of_false (fun hmem => hnew (mem_paneIds hmem)) fun hmem => hold (mem_paneIds hmem)
  | cons inFirst path ih =>
      cases node with
      | pane id => cases h
      | split axis ratio first second =>
          cases inFirst with
          | true => simp only [setAt, if_true, collectRects, List.mem_append, ih h]
          | false =>
              simp only [setAt, Bool.false_eq_true, if_false, collectRects, List.mem_append, ih h]

/-! ## What the edits make of a split -/

/-- A split is turned, moved or has its sides exchanged. -/
inductive Rearranged : Node ℚ → Node ℚ → Prop
  | ratio (axis axis' : Axis) (ratio ratio' : ℚ) (first second : Node ℚ) (h : Middle ratio →
      Middle ratio') :
      Rearranged (.split axis ratio first second) (.split axis' ratio' first second)
  | sides (axis : Axis) (ratio : ℚ) (first second : Node ℚ) :
      Rearranged (.split axis ratio first second)
        (.split axis (RatioArith.one - ratio) second first)

theorem Rearranged.perm (h : Rearranged node node') : node'.paneIds.Perm node.paneIds := by
  cases h with
  | ratio => exact .refl _
  | sides => exact List.perm_append_comm

theorem Rearranged.ratios (h : Rearranged node node') (hnode : node.Ratios Middle) :
    node'.Ratios Middle := by
  cases h with
  | ratio axis axis' ratio ratio' first second h => exact ⟨h hnode.1, hnode.2⟩
  | sides axis ratio first second => exact ⟨hnode.1.rest, hnode.2.2, hnode.2.1⟩

/-- The tree is as before, or one split of it is rearranged. -/
def Rearranges (node node' : Node ℚ) : Prop :=
  node' = node ∨ ∃ path part new, node.subtree path = some part ∧ Rearranged part new
    ∧ node' = node.setAt path new

theorem Rearranges.perm (h : node.Rearranges node') : node'.paneIds.Perm node.paneIds := by
  rcases h with rfl | ⟨path, part, new, hpart, hnew, rfl⟩
  · exact .refl _
  · exact setAt_perm hpart hnew.perm

theorem Rearranges.ratios (h : node.Rearranges node') (hnode : node.Ratios Middle) :
    node'.Ratios Middle := by
  rcases h with rfl | ⟨path, part, new, hpart, hnew, rfl⟩
  · exact hnode
  · exact setAt_ratios hpart hnode hnew.ratios

theorem Rearranges.inFirst {first' : Node ℚ} (h : first.Rearranges first') :
    (split axis ratio first second).Rearranges (.split axis ratio first' second) := by
  rcases h with rfl | ⟨path, part, new, hpart, hnew, rfl⟩
  · exact Or.inl rfl
  · exact Or.inr ⟨true :: path, part, new, hpart, hnew, rfl⟩

theorem Rearranges.inSecond {second' : Node ℚ} (h : second.Rearranges second') :
    (split axis ratio first second).Rearranges (.split axis ratio first second') := by
  rcases h with rfl | ⟨path, part, new, hpart, hnew, rfl⟩
  · exact Or.inl rfl
  · exact Or.inr ⟨false :: path, part, new, hpart, hnew, rfl⟩

/-- The walk to the focused pane rearranges one split at most. -/
theorem nearest_rearranges {narrow : Axis → ℚ → ℚ → ℚ} {act : Act ℚ} (span : ℚ) (node : Node ℚ)
    (hact : ∀ span inFirst axis ratio first second new, act span inFirst axis ratio first second =
      some new →
      Rearranged (.split axis ratio first second) new) :
    node.Rearranges (node.nearest focused narrow act span).1
      ∧ ((node.nearest focused narrow act span).2 = false →
        (node.nearest focused narrow act span).1 = node) := by
  induction node generalizing span with
  | pane id => exact ⟨Or.inl rfl, fun _ => rfl⟩
  | split axis ratio first second ihf ihs =>
      unfold nearest
      dsimp only
      split
      · exact ⟨Or.inl rfl, fun _ => rfl⟩
      · generalize narrow axis (if first.contains focused then ratio
          else 1 - ratio) span = childSpan
        cases hin : first.contains focused with
        | true =>
            obtain ⟨hrearranges, hkept⟩ := ihf childSpan
            simp only [if_true]
            split
            · exact ⟨hrearranges.inFirst, fun h => by cases h⟩
            next hupdated =>
              rw [hkept (Bool.eq_false_iff.mpr hupdated)]
              split
              next new hnew => exact ⟨Or.inr ⟨[], _, new, rfl, hact _ _ _ _ _ _ _ hnew, rfl⟩,
                fun h => by cases h⟩
              next => exact ⟨Or.inl rfl, fun _ => rfl⟩
        | false =>
            obtain ⟨hrearranges, hkept⟩ := ihs childSpan
            simp only [Bool.false_eq_true, if_false]
            split
            · exact ⟨hrearranges.inSecond, fun h => by cases h⟩
            next hupdated =>
              rw [hkept (Bool.eq_false_iff.mpr hupdated)]
              split
              next new hnew => exact ⟨Or.inr ⟨[], _, new, rfl, hact _ _ _ _ _ _ _ hnew, rfl⟩,
                fun h => by cases h⟩
              next => exact ⟨Or.inl rfl, fun _ => rfl⟩

end Node

/-! ## The divider of an edge -/

namespace Exact.Rect

variable {rect current : Rect} {ratio : ℚ} {d : Direction}

/-- The length of the rectangle along an axis. -/
def extent (rect : Rect) : Axis → ℚ
  | .horizontal => rect.width
  | .vertical => rect.height

/-- Where the divider of a split lies that fills the rectangle. -/
def divider (rect : Rect) (axis : Axis) (ratio : ℚ) : ℚ :=
  match axis with
  | .horizontal => rect.x + rect.width * ratio
  | .vertical => rect.y + rect.height * ratio

/-- Where the border of the rectangle in a direction lies. -/
def side (rect : Rect) : Direction → ℚ
  | .left => rect.x
  | .right => rect.right
  | .up => rect.y
  | .down => rect.bottom

theorem Positive.extent_pos (h : rect.Positive) (axis : Axis) : 0 < rect.extent axis := by
  cases axis
  · exact h.width
  · exact h.height

/-- The divider moves with the ratio, over the length of the rectangle. -/
theorem divider_add (rect : Rect) (axis : Axis) (ratio delta : ℚ) :
    rect.divider axis (ratio + delta) = rect.divider axis ratio + delta * rect.extent axis := by
  cases axis <;> simp only [divider, extent] <;> ring

/-- The span that the walk measures is the length of the side it enters. -/
theorem measured_extent (rect : Rect) (target axis : Axis) (ratio : ℚ) :
    Node.measured target axis ratio (rect.extent target) = (rect.halves axis ratio).1.extent target
      ∧ Node.measured target axis (RatioArith.one - ratio) (rect.extent target) =
        (rect.halves axis ratio).2.extent target := by
  cases target <;> cases axis <;> exact ⟨rfl, rfl⟩

/-- A pane that reaches as far as its side of a split does borders the divider. -/
theorem side_eq_divider :
    (Node.growsFirst d = true → current.reach d = (rect.halves d.axis ratio).1.reach d →
        current.side d = rect.divider d.axis ratio)
      ∧ (Node.growsFirst d = false → current.reach d = (rect.halves d.axis ratio).2.reach d →
        current.side d = rect.divider d.axis ratio) := by
  cases d with
  | left => exact ⟨fun h => absurd h (by decide), fun _ h => neg_inj.mp h⟩
  | right => exact ⟨fun _ h => h, fun h => absurd h (by decide)⟩
  | up => exact ⟨fun h => absurd h (by decide), fun _ h => neg_inj.mp h⟩
  | down => exact ⟨fun _ h => h, fun h => absurd h (by decide)⟩

end Exact.Rect

namespace Node

variable {node first second : Node ℚ} {rect current : Rect} {axis : Axis}
    {ratio epsilon delta span : ℚ} {path : List Bool}
  {focused : Nat} {edge : Direction}

/-- Dragging an edge changes nothing where no divider borders it. -/
theorem resizeEdge_kept (epsilon delta span : ℚ) (h : node.hasResizeEdge focused edge = false) :
    (node.resizeEdgeInSpan epsilon focused edge delta span).1 = node := by
  refine (nearest_rearranges span node fun span inFirst axis ratio first second new hnew => ?_).2
    ((resizeEdge_found epsilon focused edge delta span node).trans h)
  split at hnew <;> cases hnew
  exact .ratio axis axis ratio _ first second fun _ => Exact.middle_clamp _

/-- What dragging an edge by `delta` makes of the tree: the split whose divider borders the pane
there has its ratio moved, by the part of its own length that `delta` is. -/
structure Drags (epsilon : ℚ) (focused : Nat) (current : Rect) (edge : Direction) (delta : ℚ)
    (rect : Rect)
    (node node' : Node ℚ) (path : List Bool) (ratio : ℚ) (first second : Node ℚ) : Prop where
  part : node.subtree path = some (.split edge.axis ratio first second)
  under : focused ∈ (split edge.axis ratio first second).paneIds
  borders : current.side edge = (node.rectAt path rect).divider edge.axis ratio
  moved : node' = node.setAt path
    (.split edge.axis (RatioArith.clamp
      (ratio + delta / max ((node.rectAt path rect).extent edge.axis) epsilon)) first second)

/-- Dragging an edge that a divider borders moves that divider. -/
theorem resizeEdge_drags (epsilon delta : ℚ) (hr : rect.Positive) (h : node.Ratios Inner)
    (hids : node.paneIds.Nodup)
    (hmem : (focused, current) ∈ node.collectRects rect)
    (hedge : node.hasResizeEdge focused edge = true) :
    ∃ path ratio first second, Drags epsilon focused current edge delta rect node
      (node.resizeEdgeInSpan epsilon focused edge delta (rect.extent edge.axis)).1 path ratio first
        second := by
  induction node generalizing rect with
  | pane id => cases hedge
  | split axis ratio first second ihf ihs =>
      obtain ⟨hratio, hfirst, hsecond⟩ := h
      obtain ⟨hpos, hpos'⟩ := hr.halves axis hratio.1 hratio.2
      obtain ⟨hnodup, hnodup', hdisjoint⟩ := List.nodup_append'.mp hids
      rcases List.mem_append.mp hmem with hin | hin
      -- The pane is in the first half.
      · have hfocused := mem_paneIds hin
        have hcontains := (contains_iff focused first).mpr hfocused
        have hfound := resizeEdge_found epsilon focused edge delta
          ((rect.halves axis ratio).1.extent edge.axis) first
        rw [hasResizeEdge_of_first hfocused] at hedge
        unfold resizeEdgeInSpan at hfound ⊢
        rw [nearest_of_first hcontains, (Rect.measured_extent rect edge.axis axis ratio).1, hfound]
        cases hchild : first.hasResizeEdge focused edge with
        | true =>
            -- A divider further down borders the edge.
            obtain ⟨path, ratio', a, b, hdrags⟩ := ihf hpos hfirst hnodup hin hchild
            rw [if_pos rfl]
            exact ⟨true :: path, ratio', a, b, hdrags.part, hdrags.under, hdrags.borders,
              congrArg (fun first => Node.split axis ratio first second) hdrags.moved⟩
        | false =>
            -- The divider of this split does: it stands where the first half ends.
            rw [hchild, Bool.false_or, Bool.and_eq_true, decide_eq_true_iff] at hedge
            obtain ⟨rfl, hgrows⟩ := hedge
            have hspec := hasResizeEdge_spec (d := edge) hpos hfirst hnodup hin
            rw [if_neg (by simp [hchild])] at hspec
            simp only [hgrows, decide_true, beq_self_eq_true, Bool.and_self, if_true,
              Bool.false_eq_true, if_false]
            exact ⟨[], ratio, first, second, rfl, List.mem_append_left _ hfocused,
              Rect.side_eq_divider.1 hgrows hspec, rfl⟩
      -- The pane is in the second half.
      · have hfocused := mem_paneIds hin
        have hnot : focused ∉ first.paneIds := fun hmem => hdisjoint hmem hfocused
        have hcontains := (contains_iff focused second).mpr hfocused
        have hcontains' : first.contains focused = false := by
          rw [← Bool.not_eq_true, contains_iff]
          exact hnot
        have hfound := resizeEdge_found epsilon focused edge delta
          ((rect.halves axis ratio).2.extent edge.axis) second
        rw [hasResizeEdge_of_second hnot hfocused] at hedge
        unfold resizeEdgeInSpan at hfound ⊢
        rw [nearest_of_second hcontains' hcontains,
          (Rect.measured_extent rect edge.axis axis ratio).2, hfound]
        cases hchild : second.hasResizeEdge focused edge with
        | true =>
            obtain ⟨path, ratio', a, b, hdrags⟩ := ihs hpos' hsecond hnodup' hin hchild
            rw [if_pos rfl]
            exact ⟨false :: path, ratio', a, b, hdrags.part, hdrags.under, hdrags.borders,
              congrArg (fun second => Node.split axis ratio first second) hdrags.moved⟩
        | false =>
            rw [hchild, Bool.false_or, Bool.and_eq_true, decide_eq_true_iff,
              Bool.not_eq_true'] at hedge
            obtain ⟨rfl, hgrows⟩ := hedge
            -- The divider of this split stands where the second half begins.
            have hspec := hasResizeEdge_spec (d := edge) hpos' hsecond hnodup' hin
            rw [if_neg (by simp [hchild])] at hspec
            simp only [hgrows, decide_true, beq_self_eq_true, Bool.and_self, if_true,
              Bool.false_eq_true, if_false]
            exact ⟨[], ratio, first, second, rfl, List.mem_append_right _ hfocused,
              Rect.side_eq_divider.2 hgrows hspec, rfl⟩

/-- Replacing a part leaves the place of the part where it is. -/
theorem rectAt_setAt (rect : Rect) (path : List Bool) (node new : Node ℚ) :
    (node.setAt path new).rectAt path rect = node.rectAt path rect := by
  induction path generalizing node rect with
  | nil => rfl
  | cons inFirst path ih =>
      cases node with
      | pane id => rfl
      | split axis ratio first second =>
          cases inFirst with
          | true => exact ih _ first
          | false => exact ih _ second

theorem rectAt_positive (hr : rect.Positive) (h : node.Ratios Inner) (path : List Bool) :
    (node.rectAt path rect).Positive := by
  induction path generalizing node rect with
  | nil => exact hr
  | cons inFirst path ih =>
      cases node with
      | pane id => exact hr
      | split axis ratio first second =>
          obtain ⟨hratio, hfirst, hsecond⟩ := h
          obtain ⟨hpos, hpos'⟩ := hr.halves axis hratio.1 hratio.2
          cases inFirst with
          | true => exact ih hpos hfirst
          | false => exact ih hpos' hsecond

/-- The divider that borders the pane on that edge moves: by `delta` when the ratio is not clamped
and the split is at least `epsilon` long, and by less when it is shorter. Every pane not under its
split stays. -/
def MovesDivider (epsilon : ℚ) (focused : Nat) (edge : Direction) (delta : ℚ)
    (node node' : Node ℚ) : Prop :=
  ∃ current path ratio ratio' first second, (focused, current) ∈ node.rects
    ∧ node.subtree path = some (.split edge.axis ratio first second)
    ∧ focused ∈ first.paneIds ++ second.paneIds
    ∧ current.side edge = (node.rectAt path unit).divider edge.axis ratio
    ∧ node' = node.setAt path (.split edge.axis ratio' first second)
    ∧ node'.rectAt path unit = node.rectAt path unit
    ∧ (Middle (ratio + delta / max ((node.rectAt path unit).extent edge.axis) epsilon) →
        (node.rectAt path unit).divider edge.axis ratio' =
          (node.rectAt path unit).divider edge.axis ratio
          + if epsilon ≤ (node.rectAt path unit).extent edge.axis then delta
            else delta * ((node.rectAt path unit).extent edge.axis / epsilon))
    ∧ ∀ id rect, id ∉ first.paneIds ++ second.paneIds →
      ((id, rect) ∈ node'.rects ↔ (id, rect) ∈ node.rects)

theorem movesDivider (hids : node.paneIds.Nodup) (h : node.Ratios Inner)
    (hedge : node.hasResizeEdge focused edge = true) :
    MovesDivider epsilon focused edge delta node
      (node.resizeEdgeFromPointer epsilon focused edge delta).1 := by
  have hfocused := hasResizeEdge_mem hedge
  obtain ⟨⟨focused, current⟩, hmem, rfl⟩ := List.mem_map.mp (collectRects_ids unit node ▸ hfocused)
  have hunit : unit.extent edge.axis = RatioArith.one := by cases edge <;> rfl
  obtain ⟨path, ratio, first, second, hpart, hunder, hborders, hmoved⟩ :=
    resizeEdge_drags epsilon delta unit_positive h hids hmem hedge
  rw [hunit] at hmoved
  have hlength := (rectAt_positive unit_positive h path).extent_pos edge.axis
  refine ⟨current, path, ratio, _, first, second, hmem, hpart, hunder, hborders, hmoved, ?_,
    fun hmiddle => ?_,
    fun id rect hid => ?_⟩
  · rw [resizeEdgeFromPointer, hmoved, rectAt_setAt]
  · rw [clamp_eq hmiddle, Rect.divider_add]
    split
    next hle => rw [max_eq_left hle, div_mul_cancel₀ _ hlength.ne']
    next hlt => rw [max_eq_right (not_le.mp hlt).le, div_mul_eq_mul_div, mul_div_assoc]
  · rw [resizeEdgeFromPointer, hmoved]
    exact setAt_collectRects hpart hid hid

end Node

/-! ## Every run of edits -/

namespace Node

variable {node : Node ℚ}

theorem toggleSplit_rearranges (focused : Nat) : node.Rearranges (node.toggleSplit focused).1 := by
  refine (nearest_rearranges 1 node fun span inFirst axis ratio first second new hnew => ?_).1
  cases hnew
  exact .ratio axis _ ratio ratio first second id

theorem equalizeSplit_rearranges (focused : Nat) :
    node.Rearranges (node.equalizeSplit focused).1 := by
  refine (nearest_rearranges 1 node fun span inFirst axis ratio first second new hnew => ?_).1
  cases hnew
  exact .ratio axis axis ratio _ first second fun _ => Exact.middle_half

theorem swapSplit_rearranges (focused : Nat) : node.Rearranges (node.swapSplit focused).1 := by
  refine (nearest_rearranges 1 node fun span inFirst axis ratio first second new hnew => ?_).1
  cases hnew
  exact .sides axis ratio first second

theorem resize_rearranges (focused : Nat) (direction : Direction) (amount : ℚ) :
    node.Rearranges (node.resize focused direction amount).1 := by
  refine (nearest_rearranges 1 node fun span inFirst axis ratio first second new hnew => ?_).1
  split at hnew <;> cases hnew
  exact .ratio axis axis ratio _ first second fun _ => Exact.middle_clamp _

theorem resizeEdge_rearranges (epsilon : ℚ) (focused : Nat) (edge : Direction) (delta : ℚ) :
    node.Rearranges (node.resizeEdgeFromPointer epsilon focused edge delta).1 := by
  refine (nearest_rearranges 1 node fun span inFirst axis ratio first second new hnew => ?_).1
  split at hnew <;> cases hnew
  exact .ratio axis axis ratio _ first second fun _ => Exact.middle_clamp _

theorem resizeFromPointer_rearranges (epsilon : ℚ) (focused : Nat) (axis : Axis) (delta : ℚ) :
    node.Rearranges (node.resizeFromPointer epsilon focused axis delta).1 := by
  refine (nearest_rearranges 1 node fun span inFirst splitAxis ratio first second new hnew => ?_).1
  split at hnew <;> cases hnew
  exact .ratio splitAxis splitAxis ratio _ first second fun _ => Exact.middle_clamp _

/-- What every run of edits keeps: the panes have distinct ids, and the ratios stay within their
bounds. -/
structure Sound (node : Node ℚ) : Prop where
  ids : node.paneIds.Nodup
  ratios : node.Ratios Middle

theorem Rearranges.sound {node' : Node ℚ} (h : node.Rearranges node') (hnode : node.Sound) :
    node'.Sound :=
  ⟨h.perm.nodup_iff.mpr hnode.ids, h.ratios hnode.ratios⟩

/-- Every point of the square lies in the rectangle of one pane. -/
def Partitions (node : Node ℚ) : Prop :=
  ∀ p, node.rects.countP (·.2.has p) = if unit.has p then 1 else 0

theorem Sound.partitions (h : node.Sound) : node.Partitions :=
  fun p => collectRects_partition unit_positive (h.ratios.mono fun _ => Middle.inner) p

end Node

namespace Edit

variable {e : Edit ℚ} {node node' initial : Node ℚ} {epsilon : ℚ}

/-- The panes after an edit are the ones it is said to leave. -/
theorem apply_panes (epsilon : ℚ) (hnode : node.Sound) (h : e.Allowed node) :
    ((e.onNode epsilon node).elim [] Node.paneIds).Perm (e.panesAfter node.paneIds) := by
  cases e with
  | start id => exact .refl _
  | splitAt target newId axis before => exact (Node.splitAt_spec target newId axis before node).1
  | remove target =>
      rw [onNode, Node.remove_ids, panesAfter, hnode.ids.erase_eq_filter]
      refine List.Perm.of_eq (List.filter_congr fun id _ => ?_)
      by_cases hid : id = target <;> simp [hid]
  | swapPanes a b => exact Node.swapPanes_perm h.1 h.2
  | toggleSplit focused => exact (Node.toggleSplit_rearranges focused).perm
  | equalizeSplit focused => exact (Node.equalizeSplit_rearranges focused).perm
  | swapSplit focused => exact (Node.swapSplit_rearranges focused).perm
  | resize focused direction amount => exact (Node.resize_rearranges focused direction amount).perm
  | resizeEdge focused edge delta =>
      exact (Node.resizeEdge_rearranges epsilon focused edge delta).perm
  | resizeFromPointer focused axis delta =>
      exact (Node.resizeFromPointer_rearranges epsilon focused axis delta).perm

theorem apply_ratios (h : node.Ratios Middle) (hnode : e.onNode epsilon node = some node') :
    node'.Ratios Middle := by
  cases e with
  | start id => exact Option.some.inj hnode ▸ h
  | splitAt target newId axis before =>
      exact Option.some.inj hnode ▸ h.splitAt Exact.middle_half target newId axis before
  | remove target => exact h.remove hnode
  | swapPanes a b => exact Option.some.inj hnode ▸ h.swapPanes a b
  | toggleSplit focused =>
      exact Option.some.inj hnode ▸ (Node.toggleSplit_rearranges focused).ratios h
  | equalizeSplit focused =>
      exact Option.some.inj hnode ▸ (Node.equalizeSplit_rearranges focused).ratios h
  | swapSplit focused => exact Option.some.inj hnode ▸ (Node.swapSplit_rearranges focused).ratios h
  | resize focused direction amount =>
      exact Option.some.inj hnode ▸ (Node.resize_rearranges focused direction amount).ratios h
  | resizeEdge focused edge delta =>
      exact Option.some.inj hnode ▸ (Node.resizeEdge_rearranges epsilon focused edge delta).ratios h
  | resizeFromPointer focused axis delta =>
      exact Option.some.inj hnode ▸
        (Node.resizeFromPointer_rearranges epsilon focused axis delta).ratios h

theorem panesAfter_nodup (hnode : node.paneIds.Nodup) (h : e.Allowed node) :
    (e.panesAfter node.paneIds).Nodup := by
  cases e with
  | splitAt target newId axis before =>
      rw [panesAfter]
      split
      · exact List.nodup_cons.mpr ⟨h, hnode⟩
      · exact hnode
  | remove target => exact hnode.erase target
  | _ => exact hnode

theorem apply_sound (hnode : node.Sound) (h : e.Allowed node)
    (he : e.onNode epsilon node = some node') :
    node'.Sound := by
  have hpanes := apply_panes epsilon hnode h
  rw [he] at hpanes
  exact ⟨hpanes.nodup_iff.mpr (panesAfter_nodup hnode.ids h), apply_ratios hnode.ratios he⟩

/-- The tilings that allowed edits make of one. -/
inductive Reachable (epsilon : ℚ) (initial : Node ℚ) : Node ℚ → Prop
  | initial : Reachable epsilon initial initial
  | edit {node node' : Node ℚ} (e : Edit ℚ) (h : Reachable epsilon initial node)
      (hallowed : e.Allowed node)
      (he : e.onNode epsilon node = some node') : Reachable epsilon initial node'

theorem Reachable.sound (hinitial : initial.Sound) (h : Reachable epsilon initial node) :
    node.Sound := by
  induction h with
  | initial => exact hinitial
  | edit e _ hallowed he ih => exact apply_sound ih hallowed he

/-- Whatever the edits, the ratios stay within their bounds and the rectangles partition the square;
each edit changes the panes as it says; and dragging an edge reports whether a divider borders it,
and moves that one. -/
theorem reachable_edits (hids : initial.paneIds.Nodup) (hratios : initial.Ratios Middle)
    (h : Reachable epsilon initial node) :
    node.Ratios Middle ∧ node.Partitions
      ∧ (∀ e : Edit ℚ, e.Allowed node →
        ((e.onNode epsilon node).elim [] Node.paneIds).Perm (e.panesAfter node.paneIds))
      ∧ ∀ focused edge delta,
        (node.resizeEdgeFromPointer epsilon focused edge delta).2 = node.hasResizeEdge focused edge
          ∧ (node.hasResizeEdge focused edge = true →
            Node.MovesDivider epsilon focused edge delta node
            (node.resizeEdgeFromPointer epsilon focused edge delta).1) := by
  have hnode := h.sound ⟨hids, hratios⟩
  refine ⟨hnode.ratios, hnode.partitions, fun e => apply_panes epsilon hnode,
    fun focused edge delta => ⟨?_, ?_⟩⟩
  · exact Node.resizeEdge_found epsilon focused edge delta 1 node
  · exact Node.movesDivider hnode.ids (hnode.ratios.mono fun _ => Middle.inner)

theorem reachable_edits_of_stacked :
    let node := (Node.stacked.splitAt 2 3 .horizontal false).1
    node.Ratios Middle ∧ node.Partitions
      ∧ (∀ e : Edit ℚ, e.Allowed node →
        ((e.onNode (1 / 2 ^ 23) node).elim [] Node.paneIds).Perm (e.panesAfter node.paneIds))
      ∧ ∀ focused edge delta,
        (node.resizeEdgeFromPointer (1 / 2 ^ 23) focused edge delta).2 =
          node.hasResizeEdge focused edge
          ∧ (node.hasResizeEdge focused edge = true →
            Node.MovesDivider (1 / 2 ^ 23) focused edge delta node
            (node.resizeEdgeFromPointer (1 / 2 ^ 23) focused edge delta).1) :=
  reachable_edits (show Node.stacked.paneIds.Nodup by decide)
    ⟨⟨by norm_num, by norm_num⟩, trivial, ⟨by norm_num, by norm_num⟩, trivial, trivial⟩
    (.edit (.splitAt 2 3 .horizontal false) .initial (show 3 ∉ Node.stacked.paneIds by decide) rfl)

/-- Panes split off beside one another, so that the first ones become ever narrower. -/
def crowded : Nat → Node ℚ
  | 0 => .split .horizontal (1 / 2) (.pane 0) (.pane 1)
  | n + 1 => .split .horizontal (1 / 5) (crowded n) (.pane (n + 2))

theorem crowded_middle (n : Nat) : (crowded n).Ratios Middle := by
  induction n with
  | zero => exact ⟨Exact.middle_half, trivial, trivial⟩
  | succ n ih => exact ⟨⟨le_refl _, by norm_num⟩, ih, trivial⟩

/-- Ten panes away, the divider moves by less than the pointer though its ratio is not clamped: the
span it has is below `f32::EPSILON`, by which the code then divides. -/
theorem crowded_moves_less :
    let path := List.replicate 10 true
    let dragged := (crowded 10).resizeEdgeFromPointer (1 / 2 ^ 23) 0 .right (1 / 2 ^ 26)
    ((crowded 10).paneIds.Nodup ∧ (crowded 10).Ratios Middle)
      ∧ dragged.2 = true
      ∧ (crowded 10).subtree path = some (.split .horizontal (1 / 2) (.pane 0) (.pane 1))
      ∧ dragged.1.subtree path = some (.split .horizontal (5 / 8) (.pane 0) (.pane 1))
      ∧ ((crowded 10).rectAt path unit).divider .horizontal (5 / 8)
        ≠ ((crowded 10).rectAt path unit).divider .horizontal (1 / 2) + 1 / 2 ^ 26 := by
  refine ⟨⟨by decide, crowded_middle 10⟩, ?_, rfl, by decide +kernel, by decide +kernel⟩
  exact Node.resizeEdge_found (1 / 2 ^ 23) 0 .right (1 / 2 ^ 26) 1 (crowded 10)

end Edit

end Boomux.Desktop
