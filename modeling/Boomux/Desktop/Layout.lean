import Boomux.Basic.Float32
import Boomux.Desktop.Node

/-!
# The ratios of a tiling

The tiling tree as the Desktop has it, with single-precision ratios. All edits keep every ratio
between an eighth and seven eighths: a new split starts in the middle, a resize clamps, and
exchanging the sides subtracts the ratio from one.
-/

set_option autoImplicit false

namespace Boomux.Desktop

instance : RatioArith Float32 where
  one := 1.0
  half := 0.5
  clamp ratio := F32.clamp ratio 0.2 0.8
  max := F32.max

namespace Edit

/-- The tiling after an edit. -/
def apply (e : Edit Float32) : Option (Node Float32) → Option (Node Float32)
  | some node => e.onNode F32.epsilon node
  | none =>
      match e with
      | .start id => some (.pane id)
      | _ => none

/-- The caller resizes by a finite amount: a constant, or a distance on the screen divided by a
length of at least one. -/
def Finite : Edit Float32 → Prop
  | .resize _ _ amount => amount.isFinite = true
  | .resizeEdge _ _ delta => delta.isFinite = true
  | .resizeFromPointer _ _ delta => delta.isFinite = true
  | _ => True

end Edit

/-- The tiling that a list of edits builds from nothing. -/
def tiling (edits : List (Edit Float32)) : Option (Node Float32) :=
  edits.foldl (fun layout edit => edit.apply layout) none

namespace Node

open F32

/-- Every split's ratio lies between an eighth and seven eighths. -/
abbrev RatiosMiddle (node : Node Float32) : Prop := node.Ratios Middle

variable {node : Node Float32}

theorem middle_half : Middle (RatioArith.half : Float32) := by
  unfold Middle
  decide

/-- A ratio moved by a number and clamped. -/
theorem middle_clamp {ratio delta : Float32} (h : Middle ratio) (hd : delta.isNaN = false) :
    Middle (RatioArith.clamp (ratio + delta)) := by
  have hsum := isNaN_add h.bounds.1 hd
  obtain ⟨hlow, hhigh⟩ := clamp_bounds hsum (show (0.2 : Float32).isNaN = false by decide)
    (show (0.8 : Float32).isNaN = false by decide) (show (0.2 : Float32) ≤ 0.8 by decide)
  exact .of_bounds hlow hhigh

/-- A pointer's distance over a span is a number. -/
theorem isNaN_div_span {delta : Float32} (hd : delta.isFinite = true) (span : Float32) :
    (delta / RatioArith.max span epsilon).isNaN = false :=
  isNaN_div hd (show unpacked epsilon = .finite .positive (2 ^ 23) (-46) (by decide) from rfl)
    (le_max (by decide))

/-- The keyboard's distance is a number. -/
theorem isNaN_signed {amount : Float32} (ha : amount.isFinite = true) (direction : Direction) :
    (signed amount direction).isNaN = false := by
  cases direction
  · exact isNaN_neg (isNaN_of_isFinite ha)
  · exact isNaN_of_isFinite ha
  · exact isNaN_neg (isNaN_of_isFinite ha)
  · exact isNaN_of_isFinite ha

end Node

/-- Every edit keeps the ratios in the middle. -/
theorem Edit.ratiosMiddle {e : Edit Float32} {layout : Option (Node Float32)}
    {node : Node Float32} (hfinite : e.Finite)
    (h : ∀ node, layout = some node → node.RatiosMiddle) (he : e.apply layout = some node) :
    node.RatiosMiddle := by
  cases layout with
  | none =>
      cases e <;> cases he
      exact trivial
  | some before =>
      have hb := h before rfl
      cases e with
      | start id =>
          obtain rfl := Option.some.inj he
          exact hb
      | splitAt target newId axis side =>
          obtain rfl := Option.some.inj he
          exact hb.splitAt Node.middle_half ..
      | remove target => exact hb.remove he
      | swapPanes a b =>
          obtain rfl := Option.some.inj he
          exact hb.swapPanes a b
      | toggleSplit focused =>
          obtain rfl := Option.some.inj he
          refine hb.nearest (fun span inFirst axis ratio first second new hnew hr hf hs => ?_) _
          cases hnew
          exact ⟨hr, hf, hs⟩
      | equalizeSplit focused =>
          obtain rfl := Option.some.inj he
          refine hb.nearest (fun span inFirst axis ratio first second new hnew hr hf hs => ?_) _
          cases hnew
          exact ⟨Node.middle_half, hf, hs⟩
      | swapSplit focused =>
          obtain rfl := Option.some.inj he
          refine hb.nearest (fun span inFirst axis ratio first second new hnew hr hf hs => ?_) _
          cases hnew
          exact ⟨hr.one_sub, hs, hf⟩
      | resize focused direction amount =>
          obtain rfl := Option.some.inj he
          refine hb.nearest (fun span inFirst axis ratio first second new hnew hr hf hs => ?_) _
          split at hnew <;> cases hnew
          exact ⟨Node.middle_clamp hr (Node.isNaN_signed hfinite direction), hf, hs⟩
      | resizeEdge focused edge delta =>
          obtain rfl := Option.some.inj he
          refine hb.nearest (fun span inFirst axis ratio first second new hnew hr hf hs => ?_) _
          split at hnew <;> cases hnew
          exact ⟨Node.middle_clamp hr (Node.isNaN_div_span hfinite span), hf, hs⟩
      | resizeFromPointer focused axis delta =>
          obtain rfl := Option.some.inj he
          refine hb.nearest (fun span inFirst axis ratio first second new hnew hr hf hs => ?_) _
          split at hnew <;> cases hnew
          exact ⟨Node.middle_clamp hr (Node.isNaN_div_span hfinite span), hf, hs⟩

/-- Whatever the edits, the ratios of the tiling are in the middle. -/
theorem tiling_ratiosMiddle {edits : List (Edit Float32)} (hfinite : ∀ e ∈ edits, e.Finite)
    {node : Node Float32} (h : tiling edits = some node) : node.RatiosMiddle := by
  have hrun (layout : Option (Node Float32))
      (hl : ∀ node, layout = some node → node.RatiosMiddle) :
      ∀ node, edits.foldl (fun layout edit => edit.apply layout) layout = some node →
        node.RatiosMiddle := by
    clear h
    induction edits generalizing layout with
    | nil => exact hl
    | cons e edits ih =>
        obtain ⟨he, hrest⟩ := List.forall_mem_cons.mp hfinite
        exact ih hrest _ fun node hnode => Edit.ratiosMiddle he hl hnode
  exact hrun none nofun node h

end Boomux.Desktop
