import Boomux.Desktop.Tiling
import Mathlib.Tactic.NormNum

/-!
# Moving between the panes of a tiling

`neighbor` compares rectangles and `has_resize_edge` walks the tree. They agree: a divider borders a
pane on a side exactly when another pane touches it there, and then `neighbor` finds one that does.
Along every divider some pane begins wherever the bordered pane spans, which is the heart of it.
-/

set_option autoImplicit false

namespace Boomux.Desktop

open Exact

namespace Node

variable {node : Node ℚ} {rect current : Rect} {focused : Nat} {d : Direction} {a b : ℚ}

/-! ## Along a border -/

/-- Where an interval meets the border at which a tiling begins, some pane of the tiling begins. -/
theorem border_cover (hr : rect.Positive) (h : node.Ratios Inner)
    (hab : max a (rect.low d) < min b (rect.high d)) :
    ∃ entry ∈ node.collectRects rect, entry.2.base d = rect.base d
      ∧ max a (entry.2.low d) < min b (entry.2.high d) := by
  induction node generalizing rect with
  | pane id => exact ⟨(id, rect), List.mem_singleton_self _, rfl, hab⟩
  | split axis ratio first second ihf ihs =>
      obtain ⟨hratio, hfirst, hsecond⟩ := h
      obtain ⟨hpos, hpos'⟩ := hr.halves axis hratio.1 hratio.2
      have hleft (hmeet : max a ((rect.halves axis ratio).1.low d) < min b
          ((rect.halves axis ratio).1.high d))
          (hbase : (rect.halves axis ratio).1.base d = rect.base d) :
          ∃ entry ∈ (Node.split axis ratio first second).collectRects rect,
            entry.2.base d = rect.base d
            ∧ max a (entry.2.low d) < min b (entry.2.high d) := by
        obtain ⟨entry, hmem, he, hmeet⟩ := ihf hpos hfirst hmeet
        exact ⟨entry, List.mem_append_left _ hmem, he.trans hbase, hmeet⟩
      have hright (hmeet : max a ((rect.halves axis ratio).2.low d) < min b
          ((rect.halves axis ratio).2.high d))
          (hbase : (rect.halves axis ratio).2.base d = rect.base d) :
          ∃ entry ∈ (Node.split axis ratio first second).collectRects rect,
            entry.2.base d = rect.base d
            ∧ max a (entry.2.low d) < min b (entry.2.high d) := by
        obtain ⟨entry, hmem, he, hmeet⟩ := ihs hpos' hsecond hmeet
        exact ⟨entry, List.mem_append_right _ hmem, he.trans hbase, hmeet⟩
      by_cases haxis : d.axis = axis
      · -- Only the half before the divider lies along the border.
        obtain ⟨hbase, -, -, ⟨hlow, hhigh⟩, hlow', hhigh'⟩ := Rect.halves_along rect ratio haxis
        unfold Rect.ordered at hbase
        cases hgrows : growsFirst d with
        | true =>
            rw [if_pos hgrows] at hbase
            exact hleft (by rw [hlow, hhigh]; exact hab) hbase
        | false =>
            rw [if_neg (by simp [hgrows])] at hbase
            exact hright (by rw [hlow', hhigh']; exact hab) hbase
      · -- Both halves lie along it, and the interval meets one of them.
        obtain ⟨⟨hbase, -⟩, ⟨hbase', -⟩, hlow, hmid, hhigh⟩ := Rect.halves_across rect ratio haxis
        by_cases hmeet : max a ((rect.halves axis ratio).1.low d) < min b
          ((rect.halves axis ratio).1.high d)
        · exact hleft hmeet hbase
        · refine hright ?_ hbase'
          have hlt := hpos.low_lt d
          rw [hmid] at hmeet hlt
          rw [hlow] at hmeet hlt
          rw [hhigh]
          grind

/-! ## The divider of a pane -/

theorem mem_paneIds (h : (focused, current) ∈ node.collectRects rect) : focused ∈ node.paneIds := by
  rw [← collectRects_ids rect node]
  exact List.mem_map_of_mem h

theorem hasResizeEdge_of_first {axis : Axis} {ratio : ℚ} {first second : Node ℚ}
    (h : focused ∈ first.paneIds) :
    (Node.split axis ratio first second).hasResizeEdge focused d
      = (first.hasResizeEdge focused d || (axis = d.axis && growsFirst d)) := by
  rw [hasResizeEdge, (contains_iff focused first).mpr h]
  simp

theorem hasResizeEdge_of_second {axis : Axis} {ratio : ℚ} {first second : Node ℚ}
    (hfirst : focused ∉ first.paneIds)
    (h : focused ∈ second.paneIds) :
    (Node.split axis ratio first second).hasResizeEdge focused d
      = (second.hasResizeEdge focused d || (axis = d.axis && !growsFirst d)) := by
  have hnot : first.contains focused = false := by
    rw [← Bool.not_eq_true, contains_iff]
    exact hfirst
  rw [hasResizeEdge, hnot, (contains_iff focused second).mpr h]
  simp

theorem hasResizeEdge_mem (h : node.hasResizeEdge focused d = true) : focused ∈ node.paneIds := by
  cases node with
  | pane id => cases h
  | split axis ratio first second =>
      rw [hasResizeEdge] at h
      rw [paneIds, List.mem_append, ← contains_iff, ← contains_iff]
      by_contra hnot
      rw [not_or, Bool.not_eq_true, Bool.not_eq_true] at hnot
      simp [hnot] at h

/-- Beyond a divider along the direction, some pane begins where the bordered pane ends. -/
theorem adjacent_beyond {beyond before : Rect} (hr : beyond.Positive) (h : node.Ratios Inner)
    (hbase : before.reach d = beyond.base d) (hlow : before.low d = beyond.low d)
    (hhigh : before.high d = beyond.high d)
    (hcurrent : current.Positive) (hin : current.Within d before)
    (hreach : current.reach d = before.reach d) :
    ∃ entry ∈ node.collectRects beyond, entry.2.base d = current.reach d
      ∧ max (current.low d) (entry.2.low d) < min (current.high d) (entry.2.high d) := by
  have hlt := hcurrent.low_lt d
  have hmeet : max (current.low d) (beyond.low d) < min (current.high d) (beyond.high d) := by
    rw [max_eq_left (hlow ▸ hin.low), min_eq_left (hhigh ▸ hin.high)]
    exact hlt
  obtain ⟨entry, hmem, he, hmeet⟩ := border_cover hr h hmeet
  exact ⟨entry, hmem, by rw [he, hreach, hbase], hmeet⟩

/-- Where a divider borders a pane, another pane begins there and spans a part of what the pane
spans; elsewhere the pane reaches as far as the whole. -/
theorem hasResizeEdge_spec (hr : rect.Positive) (h : node.Ratios Inner) (hids : node.paneIds.Nodup)
    (hmem : (focused, current) ∈ node.collectRects rect) :
    if node.hasResizeEdge focused d then
      ∃ entry ∈ node.collectRects rect, entry.1 ≠ focused ∧ entry.2.base d = current.reach d
        ∧ max (current.low d) (entry.2.low d) < min (current.high d) (entry.2.high d)
    else current.reach d = rect.reach d := by
  induction node generalizing rect with
  | pane id =>
      obtain ⟨-, rfl⟩ := Prod.mk.inj (List.mem_singleton.mp hmem)
      rfl
  | split axis ratio first second ihf ihs =>
      obtain ⟨hratio, hfirst, hsecond⟩ := h
      obtain ⟨hpos, hpos'⟩ := hr.halves axis hratio.1 hratio.2
      obtain ⟨hnodup, hnodup', hdisjoint⟩ := List.nodup_append'.mp hids
      rcases List.mem_append.mp hmem with hin | hin
      -- The pane is in the first half.
      · have hfocused := mem_paneIds hin
        have hother {entry : Nat × Rect}
            (he : entry ∈ second.collectRects (rect.halves axis ratio).2) :
            entry.1 ≠ focused := by
          intro heq
          exact hdisjoint hfocused (heq ▸ mem_paneIds he)
        have hspec := ihf hpos hfirst hnodup hin
        obtain ⟨hcurrent, hwithin⟩ := collectRects_within hpos hfirst hin
        rw [hasResizeEdge_of_first hfocused]
        cases hchild : first.hasResizeEdge focused d with
        -- The neighbour that it has in this half is one in the whole.
        | true =>
            rw [if_pos hchild] at hspec
            obtain ⟨entry, he, hrest⟩ := hspec
            exact ⟨entry, List.mem_append_left _ he, hrest⟩
        | false =>
            rw [if_neg (by simp [hchild])] at hspec
            -- It reaches the end of its half, where the divider stands, or the end of the whole.
            by_cases haxis : d.axis = axis
            · obtain ⟨-, hmid, hfar, ⟨hlow, hhigh⟩, hlow', hhigh'⟩ :=
                Rect.halves_along rect ratio haxis
              unfold Rect.ordered at hmid hfar
              cases hgrows : growsFirst d with
              | true =>
                  rw [if_pos hgrows] at hmid
                  rw [if_pos (by simp [haxis])]
                  obtain ⟨entry, he, hrest⟩ :=
                    adjacent_beyond hpos' hsecond hmid (hlow.trans hlow'.symm)
                    (hhigh.trans hhigh'.symm) hcurrent (hwithin d) hspec
                  exact ⟨entry, List.mem_append_right _ he, hother he, hrest⟩
              | false =>
                  rw [if_neg (by simp [hgrows])] at hfar
                  rw [if_neg (by simp)]
                  exact hspec.trans hfar
            -- The divider runs the other way, so that the ends of the half are those of the whole.
            · rw [if_neg (by simp [Ne.symm haxis])]
              exact hspec.trans (Rect.halves_across rect ratio haxis).1.2
      -- The pane is in the second half.
      · have hfocused := mem_paneIds hin
        have hnot : focused ∉ first.paneIds := fun hmem => hdisjoint hmem hfocused
        have hother {entry : Nat × Rect}
            (he : entry ∈ first.collectRects (rect.halves axis ratio).1) :
            entry.1 ≠ focused := by
          intro heq
          exact hnot (heq ▸ mem_paneIds he)
        have hspec := ihs hpos' hsecond hnodup' hin
        obtain ⟨hcurrent, hwithin⟩ := collectRects_within hpos' hsecond hin
        rw [hasResizeEdge_of_second hnot hfocused]
        cases hchild : second.hasResizeEdge focused d with
        | true =>
            rw [if_pos hchild] at hspec
            obtain ⟨entry, he, hrest⟩ := hspec
            exact ⟨entry, List.mem_append_right _ he, hrest⟩
        | false =>
            rw [if_neg (by simp [hchild])] at hspec
            by_cases haxis : d.axis = axis
            · obtain ⟨-, hmid, hfar, ⟨hlow, hhigh⟩, hlow', hhigh'⟩ :=
                Rect.halves_along rect ratio haxis
              unfold Rect.ordered at hmid hfar
              cases hgrows : growsFirst d with
              | true =>
                  rw [if_pos hgrows] at hfar
                  rw [if_neg (by simp)]
                  exact hspec.trans hfar
              | false =>
                  rw [if_neg (by simp [hgrows])] at hmid
                  rw [if_pos (by simp [haxis])]
                  obtain ⟨entry, he, hrest⟩ :=
                    adjacent_beyond hpos hfirst hmid (hlow'.trans hlow.symm)
                    (hhigh'.trans hhigh.symm) hcurrent (hwithin d) hspec
                  exact ⟨entry, List.mem_append_left _ he, hother he, hrest⟩
            · rw [if_neg (by simp [Ne.symm haxis])]
              exact hspec.trans (Rect.halves_across rect ratio haxis).2.1.2

/-! ## The nearest pane -/

/-- With no tolerance, a pane is a candidate exactly when it begins beyond the current one. -/
theorem measure_zero (current : Rect) (d : Direction) (rect : Rect) :
    ∃ secondary, Rect.measure 0 current d rect = if current.reach d ≤ rect.base d then
      some (rect.base d - current.reach d, secondary,
        intervalOverlap (current.low d) (current.high d) (rect.low d) (rect.high d)) else none := by
  cases d with
  | left =>
      refine ⟨|current.center.2 - rect.center.2|, ?_⟩
      simp only [Rect.measure, Rect.reach, Rect.base, Rect.low, Rect.high, add_zero, neg_le_neg_iff]
      rw [show -rect.right - -current.x = current.x - rect.right by ring]
  | right =>
      refine ⟨|current.center.2 - rect.center.2|, ?_⟩
      simp only [Rect.measure, Rect.reach, Rect.base, Rect.low, Rect.high, add_zero, ge_iff_le]
      rfl
  | up =>
      refine ⟨|current.center.1 - rect.center.1|, ?_⟩
      simp only [Rect.measure, Rect.reach, Rect.base, Rect.low, Rect.high, add_zero, neg_le_neg_iff]
      rw [show -rect.bottom - -current.y = current.y - rect.bottom by ring]
  | down =>
      refine ⟨|current.center.1 - rect.center.1|, ?_⟩
      simp only [Rect.measure, Rect.reach, Rect.base, Rect.low, Rect.high, add_zero, ge_iff_le]
      rfl

/-- The rectangle on that side of the current one touches its border, along a segment of some
length. -/
def BordersOn : Direction → Rect → Rect → Prop
  | .left, current, rect => rect.right = current.x
      ∧ 0 < intervalOverlap current.y current.bottom rect.y rect.bottom
  | .right, current, rect => rect.x = current.right
      ∧ 0 < intervalOverlap current.y current.bottom rect.y rect.bottom
  | .up, current, rect => rect.bottom = current.y
      ∧ 0 < intervalOverlap current.x current.right rect.x rect.right
  | .down, current, rect => rect.y = current.bottom
      ∧ 0 < intervalOverlap current.x current.right rect.x rect.right

theorem bordersOn_iff : BordersOn d current rect ↔ rect.base d = current.reach d
    ∧ 0 < intervalOverlap (current.low d) (current.high d) (rect.low d) (rect.high d) := by
  cases d <;> simp only [BordersOn, Rect.base, Rect.reach, Rect.low, Rect.high, neg_inj]

theorem neighbor_eq (hids : node.paneIds.Nodup) (hmem : (focused, current) ∈ node.rects)
    (d : Direction) :
    node.neighbor 0 focused d
      = (Select.minBy Candidate.key (node.candidates 0 focused current d)).map (·.id) := by
  have hfind : node.rects.find? (·.1 = focused) = some (focused, current) := by
    obtain ⟨entry, hentry⟩ : ∃ entry, node.rects.find? (·.1 = focused) = some entry := by
      rw [← Option.isSome_iff_exists, List.find?_isSome]
      exact ⟨_, hmem, by simp⟩
    have hid := List.find?_some hentry
    have hsame : entry = (focused, current) := by
      refine List.inj_on_of_nodup_map ?_ (List.mem_of_find?_eq_some hentry) hmem
        (by simpa using hid)
      rw [rects, collectRects_ids]
      exact hids
    rw [hentry, hsame]
  rw [neighbor, hfind]
  rfl

/-- A candidate stands for a pane beyond the current one. -/
theorem mem_candidates {candidate : Candidate}
    (h : candidate ∈ node.candidates 0 focused current d) :
    ∃ rect, (candidate.id, rect) ∈ node.rects ∧ candidate.id ≠ focused
      ∧ current.reach d ≤ rect.base d
      ∧ candidate.primary = rect.base d - current.reach d
      ∧ candidate.apart
        = decide (intervalOverlap (current.low d) (current.high d) (rect.low d) (rect.high d) ≤
          0) := by
  obtain ⟨⟨id, rect⟩, hmem, hmap⟩ := List.mem_filterMap.mp h
  obtain ⟨hmem, hne⟩ := List.mem_filter.mp hmem
  obtain ⟨secondary, hmeasure⟩ := measure_zero current d rect
  dsimp only at hmap
  rw [hmeasure] at hmap
  split at hmap
  next hbeyond =>
      obtain rfl := Option.some.inj hmap
      exact ⟨rect, hmem, by simpa using hne, hbeyond, rfl, rfl⟩
  next => cases hmap

/-- A pane that touches the current one is a candidate at no distance. -/
theorem candidate_of_adjacent {entry : Nat × Rect} (hmem : entry ∈ node.rects)
    (hne : entry.1 ≠ focused)
    (hbase : entry.2.base d = current.reach d)
    (hmeet : max (current.low d) (entry.2.low d) < min (current.high d) (entry.2.high d)) :
    ∃ candidate ∈ node.candidates 0 focused current d, candidate.apart = false
      ∧ candidate.primary = 0 := by
  obtain ⟨secondary, hmeasure⟩ := measure_zero current d entry.2
  have hover :
      ¬ intervalOverlap (current.low d) (current.high d) (entry.2.low d) (entry.2.high d) ≤ 0 := by
    rw [intervalOverlap]
    linarith
  refine ⟨⟨entry.1, false, 0, secondary⟩, List.mem_filterMap.mpr ⟨entry, ?_, ?_⟩, rfl, rfl⟩
  · exact List.mem_filter.mpr ⟨hmem, by simpa using hne⟩
  · dsimp only
    rw [hmeasure, if_pos hbase.ge, Option.map_some]
    simp [hbase, hover]

/-- The best of the candidates touches the current pane, where one of them does. -/
theorem best_touches {best candidate : Candidate} (h : best.key ≤ candidate.key)
    (hapart : candidate.apart = false)
    (hprimary : candidate.primary = 0) : best.apart = false ∧ best.primary ≤ 0 := by
  rw [Candidate.key, Candidate.key, Prod.Lex.toLex_le_toLex, hapart] at h
  rcases h with hlt | ⟨heq, hle⟩
  · exact absurd hlt (by simp)
  · refine ⟨heq, ?_⟩
    rcases Prod.Lex.toLex_le_toLex.mp hle with hlt | ⟨heq, -⟩
    · exact hprimary ▸ hlt.le
    · exact (heq.trans hprimary).le

/-- `neighbor` finds a pane exactly where a divider borders the focused one, and the pane it finds
touches the focused one there. -/
theorem neighbor_iff_hasResizeEdge (hids : node.paneIds.Nodup) (hratios : node.Ratios Inner)
    (focused : Nat)
    (direction : Direction) :
    (node.neighbor 0 focused direction).isSome = node.hasResizeEdge focused direction
      ∧ ∀ id, node.neighbor 0 focused direction = some id →
        ∃ current rect, (focused, current) ∈ node.rects ∧ (id, rect) ∈ node.rects ∧ id ≠ focused
          ∧ BordersOn direction current rect := by
  by_cases hfocused : focused ∈ node.paneIds
  · obtain ⟨⟨focused, current⟩, hmem, rfl⟩ :=
      List.mem_map.mp (collectRects_ids unit node ▸ hfocused)
    have hspec := hasResizeEdge_spec (d := direction) unit_positive hratios hids hmem
    have hneighbor := neighbor_eq hids hmem direction
    cases hedge : node.hasResizeEdge focused direction with
    | true =>
        rw [if_pos hedge] at hspec
        obtain ⟨entry, he, hne, hbase, hmeet⟩ := hspec
        obtain ⟨candidate, hcandidate, hapart, hprimary⟩ := candidate_of_adjacent he hne hbase hmeet
        cases hbest : Select.minBy Candidate.key (node.candidates 0 focused current direction) with
        | none =>
            rw [Select.minBy_eq_none.mp hbest] at hcandidate
            cases hcandidate
        | some best =>
            rw [hbest] at hneighbor
            obtain ⟨hbestmem, hleast⟩ := Select.minBy_spec hbest
            obtain ⟨htouch, hnear⟩ := best_touches (hleast _ hcandidate) hapart hprimary
            obtain ⟨rect, hrect, hid, hbeyond, hdistance, hoverlap⟩ := mem_candidates hbestmem
            refine ⟨by rw [hneighbor]; rfl, fun id hsome => ?_⟩
            obtain rfl := Option.some.inj (hneighbor.symm.trans hsome)
            refine ⟨current, rect, hmem, hrect, hid, bordersOn_iff.mpr ⟨?_, ?_⟩⟩
            · linarith
            · rw [htouch] at hoverlap
              exact not_le.mp (of_decide_eq_false hoverlap.symm)
    | false =>
        rw [if_neg (by simp [hedge])] at hspec
        have hnone : node.candidates 0 focused current direction = [] := by
          rw [List.eq_nil_iff_forall_not_mem]
          intro candidate hcandidate
          obtain ⟨rect, hrect, -, hbeyond, -⟩ := mem_candidates hcandidate
          obtain ⟨hpositive, hwithin⟩ := collectRects_within unit_positive hratios hrect
          have hlt := hpositive.base_lt direction
          have hreach := (hwithin direction).reach
          dsimp only at hlt hreach
          linarith
        rw [hneighbor, hnone]
        exact ⟨rfl, fun id hsome => by cases hsome⟩
  · have hfind : node.rects.find? (·.1 = focused) = none := by
      rw [List.find?_eq_none]
      intro entry he heq
      exact hfocused ((of_decide_eq_true heq) ▸ mem_paneIds he)
    have hneighbor : node.neighbor 0 focused direction = none := by
      rw [neighbor, hfind]
      rfl
    have hedge : node.hasResizeEdge focused direction = false :=
      Bool.eq_false_iff.mpr fun hedge => hfocused (hasResizeEdge_mem hedge)
    rw [hneighbor, hedge]
    exact ⟨rfl, fun id hsome => by cases hsome⟩

/-- A pane beside two that are stacked. -/
def stacked : Node ℚ := .split .horizontal (1 / 2) (.pane 0)
    (.split .vertical (1 / 4) (.pane 1) (.pane 2))

theorem neighbor_of_stacked :
    (stacked.neighbor 0 0 .right).isSome = stacked.hasResizeEdge 0 .right
      ∧ ∀ id, stacked.neighbor 0 0 .right = some id →
        ∃ current rect, (0, current) ∈ stacked.rects ∧ (id, rect) ∈ stacked.rects ∧ id ≠ 0
          ∧ BordersOn .right current rect :=
  neighbor_iff_hasResizeEdge (show stacked.paneIds.Nodup by decide)
    ⟨⟨by norm_num, by norm_num⟩, trivial, ⟨by norm_num, by norm_num⟩, trivial, trivial⟩ 0 .right

end Node

end Boomux.Desktop
