import Boomux.Basic.HashMap
import Boomux.Desktop.Layout
import Boomux.Desktop.LayoutFile
import Mathlib.Data.List.Sort

/-!
# From the live panes to the layout document

`captureArrangement` writes the live tiling, the floating panes and the Shells they show into the
layout document. The writer bounds the number of panes and of arrangements; `Document.validate`
bounds the depth of the tree as well, and reading the file bounds it once more.
-/

set_option autoImplicit false

namespace Boomux.Desktop

open Rust

/-! ## The saved tree -/

def encodeTree : Node Float32 → Tree
  | .pane id => .pane id
  | .split axis ratio first second =>
      .split (axis == .horizontal) ratio (encodeTree first) (encodeTree second)

/-- `none` where the index `ids[id]` would panic. -/
def decodeTree (ids : HashMap Nat Nat) : Tree → Option (Node Float32)
  | .pane id => (ids.lookup id).map .pane
  | .split horizontal ratio first second => do
      let first ← decodeTree ids first
      let second ← decodeTree ids second
      some (.split (if horizontal then .horizontal else .vertical) ratio first second)

/-! ## Live panes -/

structure ShellChoice where
  id : String
  workspaceId : String
  desktopSetup : Bool

structure TerminalPane where
  temporarySetup : Bool
  shell : Option ShellChoice
  restored : Option Pane

namespace TerminalPane

def savedReference (pane : TerminalPane) : Option Pane :=
  if pane.temporarySetup || pane.shell.any ShellChoice.desktopSetup then none
  else
    (pane.shell.map fun shell =>
      { shell := some shell.id, workspace := some shell.workspaceId : Pane }).or
      pane.restored

def blocksWorkspaceCapture (pane : TerminalPane) : Bool :=
  !pane.temporarySetup && !pane.shell.any ShellChoice.desktopSetup &&
    (pane.savedReference.bind Pane.workspace).isNone

end TerminalPane

structure FloatingPane where
  id : Nat
  x : Float32
  y : Float32
  width : Float32
  height : Float32

/-- Finite numbers and a positive size. -/
def FloatingPane.FinitePositive (p : FloatingPane) : Prop :=
  p.x.isFinite = true ∧ p.y.isFinite = true ∧ p.width.isFinite = true ∧ p.height.isFinite = true
    ∧ (0.0 : Float32) < p.width ∧ (0.0 : Float32) < p.height

inductive WorkspacePaneMode
  | workspace | mixed
  deriving DecidableEq

/-- What capturing reads and writes of the window's `Workspace`. `boomuxOverview` has the Shells of
each Workspace in the sidebar. -/
structure Workspace where
  layoutFrozen : Bool
  layoutRestoring : Bool
  pointerDrag : Bool
  workspacePaneMode : WorkspacePaneMode
  focused : Nat
  terminals : HashMap Nat TerminalPane
  layout : Option (Node Float32)
  floating : List FloatingPane
  fullscreen : Option Nat
  layoutCanvas : Float32 × Float32
  layoutDocument : Document
  layoutError : Option String
  workspaceOrder : List String
  minimizedShells : List String
  boomuxOverview : List (List String)

def orderedPaneIds (layout : Option (Node Float32)) (floating : List FloatingPane) : List Nat :=
  layout.elim [] Node.paneIds ++ (floating.map FloatingPane.id).insertionSort (· ≤ ·)

namespace Workspace

/-! ## Capturing -/

def paneIds (w : Workspace) : List Nat := orderedPaneIds w.layout w.floating

/-- The `key` under which the arrangement is saved. -/
def captureKey (w : Workspace) : String :=
  match w.workspacePaneMode with
  | .mixed => "mixed"
  | .workspace =>
      (((w.terminals.lookup w.focused).bind TerminalPane.savedReference).bind Pane.workspace).elim
        w.layoutDocument.active fun workspace => "workspace:" ++ workspace

/-- The entries collected into `panes`. -/
def capturedPanes (w : Workspace) : List (Nat × Pane) :=
  w.paneIds.filterMap fun id =>
    (w.terminals.lookup id).map fun pane => (id, pane.savedReference.getD ⟨none, none⟩)

/-- The `arrangement` before its unbound panes are left out. -/
def liveArrangement (w : Workspace) : Arrangement where
  tree := w.layout.map encodeTree
  floating := w.floating.map fun p => { pane := p.id, rect := #v[p.x, p.y, p.width, p.height] }
  panes := .collect w.capturedPanes
  focused := if w.paneIds.contains w.focused then some w.focused else none
  expanded := w.fullscreen.filter w.paneIds.contains
  canvas := #v[F32.max w.layoutCanvas.1 1.0, F32.max w.layoutCanvas.2 1.0]

/-- The `minimized` Shells of the document: those still minimized, then the new ones in the order of
the sidebar. -/
def listedMinimized (w : Workspace) : List String :=
  w.boomuxOverview.flatten.foldl
    (fun minimized shell =>
      if w.minimizedShells.contains shell && !minimized.contains shell then minimized ++ [shell]
      else minimized)
    (w.layoutDocument.minimized.filter w.minimizedShells.contains)

def layoutLimitReached : String := "Saved layout limit reached"

def captureArrangement (w : Workspace) : Workspace × Bool :=
  if w.layoutFrozen || w.layoutRestoring || w.pointerDrag then (w, false)
  else if w.workspacePaneMode == .workspace &&
      (w.terminals.lookup w.focused).any TerminalPane.blocksWorkspaceCapture then (w, false)
  else
    let key := w.captureKey
    if key.isEmpty then (w, false)
    else
      let arrangement := w.liveArrangement.discardUnboundPanes
      let saved := w.layoutDocument.arrangements
      let retainedPanes := ((saved.entries.filter (·.1 ≠ key)).map fun entry =>
        entry.2.panes.len).sum
      if (decide (256 ≤ saved.len) && !saved.containsKey key) ||
          decide (4096 < retainedPanes + arrangement.panes.len) then
        ({ w with layoutError := some layoutLimitReached }, false)
      else
        ({ w with
            layoutError := w.layoutError.filter (· ≠ layoutLimitReached)
            layoutDocument :=
              { w.layoutDocument with
                active := key
                arrangements := saved.insert key arrangement
                workspaceOrder := w.workspaceOrder
                minimized := w.listedMinimized } }, true)

end Workspace

/-! ## The saved tree and the live one -/

namespace Node

variable {Ratio : Type}

/-- How many splits lie above the deepest pane. -/
def height : Node Ratio → Nat
  | .pane _ => 0
  | .split _ _ first second => max first.height second.height + 1

/-- The tree without the panes that fail a test. -/
def keep (p : Nat → Bool) : Node Ratio → Option (Node Ratio)
  | .pane id => if p id then some (.pane id) else none
  | .split axis ratio first second =>
      match first.keep p, second.keep p with
      | some first, some second => some (.split axis ratio first second)
      | first, second => first.or second

/-- The tree with its panes renamed. -/
def rename (f : Nat → Nat) : Node Ratio → Node Ratio
  | .pane id => .pane (f id)
  | .split axis ratio first second => .split axis ratio (first.rename f) (second.rename f)

variable {node node' : Node Ratio} {p q : Nat → Bool}

theorem keep_congr (h : ∀ id ∈ node.paneIds, p id = q id) : node.keep p = node.keep q := by
  induction node with
  | pane id => rw [keep, keep, h id (List.mem_singleton_self _)]
  | split axis ratio first second ih₁ ih₂ =>
      rw [keep, keep, ih₁ fun id hid => h id (List.mem_append_left _ hid),
        ih₂ fun id hid => h id (List.mem_append_right _ hid)]

theorem keep_of_forall (h : ∀ id ∈ node.paneIds, p id = true) : node.keep p = some node := by
  induction node with
  | pane id => rw [keep, if_pos (h id (List.mem_singleton_self _))]
  | split axis ratio first second ih₁ ih₂ =>
      rw [keep, ih₁ fun id hid => h id (List.mem_append_left _ hid),
        ih₂ fun id hid => h id (List.mem_append_right _ hid)]

theorem Ratios.keep {allowed : Ratio → Prop} (hr : node.Ratios allowed)
    (h : node.keep p = some node') : node'.Ratios allowed := by
  induction node generalizing node' with
  | pane id =>
      rw [Node.keep] at h
      split at h <;> cases h
      exact trivial
  | split axis ratio first second ih₁ ih₂ =>
      obtain ⟨hratio, hr₁, hr₂⟩ := hr
      rw [Node.keep] at h
      split at h
      next first' second' h₁ h₂ =>
        obtain rfl := Option.some.inj h
        exact ⟨hratio, ih₁ hr₁ h₁, ih₂ hr₂ h₂⟩
      next =>
        rcases Option.or_eq_some_iff.mp h with h | ⟨-, h⟩
        · exact ih₁ hr₁ h
        · exact ih₂ hr₂ h

end Node

section Tree

variable (node : Node Float32)

@[simp]
theorem ids_encodeTree : (encodeTree node).ids = node.paneIds := by
  induction node with
  | pane id => rfl
  | split axis ratio first second ih₁ ih₂ => rw [encodeTree, Tree.ids, Node.paneIds, ih₁, ih₂]

@[simp]
theorem height_encodeTree : (encodeTree node).height = node.height := by
  induction node with
  | pane id => rfl
  | split axis ratio first second ih₁ ih₂ => rw [encodeTree, Tree.height, Node.height, ih₁, ih₂]

/-- The panes left out of the saved tree are those left out of the live one. -/
theorem prune_encodeTree (panes : BTreeMap Nat Pane) :
    (encodeTree node).prune panes = (node.keep panes.containsKey).map encodeTree := by
  induction node with
  | pane id =>
      rw [encodeTree, Tree.prune, Node.keep]
      split <;> rfl
  | split axis ratio first second ih₁ ih₂ =>
      rw [encodeTree, Tree.prune, Node.keep, ih₁, ih₂]
      cases first.keep panes.containsKey <;> cases second.keep panes.containsKey <;> rfl

/-- Reading a saved tree gives the tree back, with other names for its panes. -/
theorem decodeTree_encodeTree {ids : HashMap Nat Nat} {f : Nat → Nat}
    (h : ∀ id ∈ node.paneIds, ids.lookup id = some (f id)) :
    decodeTree ids (encodeTree node) = some (node.rename f) := by
  induction node with
  | pane id =>
      rw [encodeTree, decodeTree, h id (List.mem_singleton_self _), Option.map_some, Node.rename]
  | split axis ratio first second ih₁ ih₂ =>
      rw [encodeTree, decodeTree, ih₁ fun id hid => h id (List.mem_append_left _ hid),
        ih₂ fun id hid => h id (List.mem_append_right _ hid), Node.rename]
      cases axis <;> rfl

/-- The ratios in the middle are acceptable. -/
theorem ratiosValid_encodeTree {node : Node Float32} (h : node.RatiosMiddle) :
    (encodeTree node).RatiosValid := by
  induction node with
  | pane id => exact trivial
  | split axis ratio first second ih₁ ih₂ =>
      obtain ⟨hr, h₁, h₂⟩ := h
      refine ⟨?_, ih₁ h₁, ih₂ h₂⟩
      obtain ⟨hfinite, hlow, hhigh⟩ := hr.bounds
      rw [Tree.ratioValid, hfinite, decide_eq_true hlow, decide_eq_true hhigh]
      rfl

end Tree

namespace Workspace

/-! ## The captured arrangement -/

variable {w w' : Workspace}

/-- The Shell that a pane shows or is kept for. -/
def paneShell (w : Workspace) (id : Nat) : Option String :=
  ((w.terminals.lookup id).bind TerminalPane.savedReference).bind Pane.shell

def boundPane (w : Workspace) (id : Nat) : Bool := (w.paneShell id).isSome

/-- The Shells of the live panes. -/
def liveShells (w : Workspace) : List String := w.paneIds.filterMap w.paneShell

/-- The live tiling without the panes that no Shell is bound to. -/
def boundLayout (w : Workspace) : Option (Node Float32) := w.layout.bind (Node.keep w.boundPane)

theorem map_fst_capturedPanes (w : Workspace) :
    w.capturedPanes.map Prod.fst = w.paneIds.filter fun id => (w.terminals.lookup id).isSome := by
  unfold capturedPanes
  induction w.paneIds with
  | nil => rfl
  | cons id ids ih =>
      cases h : w.terminals.lookup id <;> simp [h, ih]

theorem paneIds_perm_ids (w : Workspace) : w.paneIds.Perm w.liveArrangement.ids := by
  have htree : w.liveArrangement.tree.elim [] Tree.ids = w.layout.elim [] Node.paneIds := by
    show (w.layout.map encodeTree).elim [] Tree.ids = w.layout.elim [] Node.paneIds
    cases w.layout with
    | none => rfl
    | some node => exact ids_encodeTree node
  have hfloating : w.liveArrangement.floating.map Floating.pane =
      w.floating.map FloatingPane.id := by
    show (w.floating.map _).map Floating.pane = _
    rw [List.map_map]
    rfl
  rw [paneIds, orderedPaneIds, Arrangement.ids, htree, hfloating]
  exact (List.perm_insertionSort _ _).append_left _

section Distinct

variable (hids : w.paneIds.Nodup)

include hids

theorem panes_perm : w.liveArrangement.panes.entries.Perm w.capturedPanes := by
  refine BTreeMap.entries_collect_perm ?_
  rw [map_fst_capturedPanes]
  exact hids.filter _

/-- A pane of the window has its reference in the arrangement. -/
theorem bound_liveArrangement {id : Nat} (hid : id ∈ w.paneIds) :
    w.liveArrangement.bound id = w.boundPane id := by
  have hmem (pane : Pane) : w.liveArrangement.panes.lookup id = some pane ↔
      (w.terminals.lookup id).map (fun pane => pane.savedReference.getD ⟨none, none⟩) =
        some pane := by
    rw [BTreeMap.lookup_eq_some, (panes_perm hids).mem_iff, capturedPanes, List.mem_filterMap]
    simp only [Option.map_eq_some_iff, Prod.mk.injEq]
    constructor
    · rintro ⟨_, -, pane, hpane, rfl, rfl⟩
      exact ⟨pane, hpane, rfl⟩
    · rintro ⟨pane, hpane, rfl⟩
      exact ⟨id, hid, pane, hpane, rfl, rfl⟩
  rw [Arrangement.bound, Option.ext hmem, boundPane, paneShell]
  cases w.terminals.lookup id with
  | none => rfl
  | some pane => cases h : pane.savedReference <;> simp [h]

theorem liveShells_perm : (boundShells w.liveArrangement.panes.values).Perm w.liveShells := by
  have hperm := ((panes_perm hids).map Prod.snd).filterMap Pane.shell
  refine hperm.trans (.of_eq ?_)
  rw [capturedPanes, liveShells, List.map_filterMap, List.filterMap_filterMap]
  refine List.filterMap_congr fun id _ => ?_
  rw [paneShell]
  cases w.terminals.lookup id with
  | none => rfl
  | some pane => cases h : pane.savedReference <;> simp [h]

theorem mem_paneIds_of_mem_keys {id : Nat} (hid : id ∈ w.liveArrangement.panes.keys) :
    id ∈ w.paneIds := by
  have hmem := ((panes_perm hids).map Prod.fst).mem_iff.mp hid
  rw [map_fst_capturedPanes] at hmem
  exact (List.mem_filter.mp hmem).1

/-- The saved tree is the live one without its unbound panes. -/
theorem tree_discardUnboundPanes :
    w.liveArrangement.discardUnboundPanes.tree = w.boundLayout.map encodeTree := by
  show (w.layout.map encodeTree).bind (Tree.prune w.liveArrangement.discardUnboundPanes.panes)
    = (w.layout.bind (Node.keep w.boundPane)).map encodeTree
  cases hlayout : w.layout with
  | none => rfl
  | some node =>
      show (encodeTree node).prune _ = (node.keep w.boundPane).map encodeTree
      rw [prune_encodeTree, Arrangement.containsKey_discardUnboundPanes]
      congr 1
      refine Node.keep_congr fun id hid => bound_liveArrangement hids ?_
      rw [paneIds, orderedPaneIds, hlayout]
      exact List.mem_append_left _ hid

end Distinct

/-! ## What is captured validates -/

theorem floating_valid {p : FloatingPane} (h : p.FinitePositive) :
    ({ pane := p.id, rect := #v[p.x, p.y, p.width, p.height] } : Floating).Valid := by
  obtain ⟨hx, hy, hw, hh, hwidth, hheight⟩ := h
  refine ⟨?_, F32.not_le_of_lt hwidth, F32.not_le_of_lt hheight⟩
  show (#v[p.x, p.y, p.width, p.height]).all Float32.isFinite = true
  simp [hx, hy, hw, hh]

theorem canvas_valid_iff (w : Workspace) :
    w.liveArrangement.canvas.all (fun v => v.isFinite && decide ((0.0 : Float32) < v)) = true ↔
      (F32.max w.layoutCanvas.1 1.0).isFinite = true
        ∧ (F32.max w.layoutCanvas.2 1.0).isFinite = true := by
  have hpos (side : Float32) : (0.0 : Float32) < F32.max side 1.0 :=
    F32.pos_of_one_le (F32.le_max (show (1.0 : Float32).isNaN = false by decide))
  show (#v[F32.max w.layoutCanvas.1 1.0, F32.max w.layoutCanvas.2 1.0]).all _ = true ↔ _
  simp [hpos]

/-- The bounds that a captured document has to keep. Only the writer's own bound on the panes is
checked when it is captured. -/
structure WithinBounds (w : Workspace) : Prop where
  depth : ∀ node, w.boundLayout = some node → node.height ≤ 64
  shells : ∀ shell ∈ w.liveShells, shell.utf8ByteSize ≤ 1024
  canvas : (F32.max w.layoutCanvas.1 1.0).isFinite = true
    ∧ (F32.max w.layoutCanvas.2 1.0).isFinite = true
  others : w.layoutDocument.OthersValid w.captureKey
  minimized : w.listedMinimized.length ≤ maxPanes
  workspaceOrder : w.workspaceOrder.length ≤ 4096

/-- The document with the arrangement of the live panes under its key. -/
def capturedDocument (w : Workspace) : Document :=
  { w.layoutDocument with
    active := w.captureKey
    arrangements :=
      w.layoutDocument.arrangements.insert w.captureKey w.liveArrangement.discardUnboundPanes
    workspaceOrder := w.workspaceOrder
    minimized := w.listedMinimized }

/-- The bounds within which a captured document, saved under a revision, can be loaded again: its
trees are less deep than the validator allows, and it fits into the file. -/
structure Reloadable (serde : Serde) (w : Workspace) (revision : String) : Prop where
  bounds : w.WithinBounds
  depth : ∀ node, w.boundLayout = some node → node.height ≤ 61
  others : ∀ a ∈ (w.layoutDocument.arrangements.remove w.captureKey).values,
    ∀ t, a.tree = some t → t.height ≤ 61
  size : (serde.toVec { w.capturedDocument with revision := revision }).length ≤ maxBytes

/-- A capture writes the arrangement under its key, within the bound on the panes. -/
theorem captureArrangement_eq (h : w.captureArrangement = (w', true)) :
    w.layoutDocument.otherPanes w.captureKey + w.liveArrangement.discardUnboundPanes.panes.len
        ≤ maxPanes
      ∧ w'.layoutDocument = w.capturedDocument := by
  have hothers : w.layoutDocument.otherPanes w.captureKey
      = ((w.layoutDocument.arrangements.entries.filter
        (·.1 ≠ w.captureKey)).map fun entry => entry.2.panes.len).sum := by
    show (((w.layoutDocument.arrangements.entries.filter (·.1 ≠ w.captureKey)).map Prod.snd).map
      fun a => a.panes.len).sum = _
    rw [List.map_map]
    rfl
  unfold captureArrangement at h
  split at h
  · cases h
  split at h
  · cases h
  dsimp only at h
  split at h
  · cases h
  split at h
  · cases h
  next hlimit =>
  have hw := congrArg (fun r => r.1.layoutDocument) h
  refine ⟨?_, hw.symm⟩
  rw [hothers]
  simp only [Bool.or_eq_true, decide_eq_true_iff, not_or, not_lt] at hlimit
  exact hlimit.2

/-- The saved trees of a window are those of its other arrangements and its own bound tiling. -/
theorem nesting_capturedDocument_iff (hids : w.paneIds.Nodup) (revision : String) :
    ({ w.capturedDocument with revision := revision } : Document).nesting < recursionLimit ↔
      (∀ node, w.boundLayout = some node → node.height ≤ 61)
      ∧ ∀ a ∈ (w.layoutDocument.arrangements.remove w.captureKey).values,
        ∀ t, a.tree = some t → t.height ≤ 61 := by
  have hperm := w.layoutDocument.arrangements.values_insert_perm w.captureKey
    w.liveArrangement.discardUnboundPanes
  rw [Document.nesting_lt_recursionLimit]
  show (∀ a ∈ (w.layoutDocument.arrangements.insert w.captureKey _).values, _) ↔ _
  simp only [hperm.mem_iff, List.forall_mem_cons]
  refine and_congr_left fun _ => ?_
  rw [tree_discardUnboundPanes hids]
  cases w.boundLayout <;> simp

theorem captured_valid_iff (hratios : ∀ node, w.layout = some node → node.RatiosMiddle)
    (hfloating : ∀ p ∈ w.floating, p.FinitePositive) (hids : w.paneIds.Nodup)
    (hshells : w.liveShells.Nodup) (h : w.captureArrangement = (w', true)) :
    w'.layoutDocument.validate = .ok () ↔ w.WithinBounds := by
  obtain ⟨hcount, hdocument⟩ := captureArrangement_eq h
  have hdistinct : w.liveArrangement.ids.Nodup := w.paneIds_perm_ids.nodup_iff.mp hids
  have hkeys (id : Nat) (hid : id ∈ w.liveArrangement.panes.keys) : id ∈ w.liveArrangement.ids :=
    w.paneIds_perm_ids.mem_iff.mp (mem_paneIds_of_mem_keys hids hid)
  have hfloats (f : Floating) (hf : f ∈ w.liveArrangement.floating) : f.Valid := by
    obtain ⟨p, hp, rfl⟩ := List.mem_map.mp hf
    exact floating_valid (hfloating p hp)
  -- The ratios are middle ones in the live layout, so that only the height is left to check.
  have htree : (∀ t, w.liveArrangement.discardUnboundPanes.tree = some t → t.height ≤ 64
      ∧ t.RatiosValid) ↔
      ∀ node, w.boundLayout = some node → node.height ≤ 64 := by
    rw [tree_discardUnboundPanes hids]
    constructor
    · intro ht node hnode
      rw [← height_encodeTree]
      exact (ht _ (by rw [hnode, Option.map_some])).1
    · intro hn t ht
      obtain ⟨node, hnode, rfl⟩ := Option.map_eq_some_iff.mp ht
      refine ⟨(height_encodeTree node).le.trans (hn node hnode), ratiosValid_encodeTree ?_⟩
      obtain ⟨live, hlive, hkeep⟩ := Option.bind_eq_some_iff.mp hnode
      exact (hratios live hlive).keep hkeep
  have hperm := liveShells_perm hids
  have harrangement := Arrangement.discardUnboundPanes_valid_iff hdistinct hkeys hfloats
  rw [htree, canvas_valid_iff, hperm.nodup_iff] at harrangement
  -- The captured arrangement is put over the one of its key, or is one more.
  have hwhole := Document.valid_insert_iff
    { w.layoutDocument with
      active := w.captureKey, workspaceOrder := w.workspaceOrder, minimized := w.listedMinimized }
    w.captureKey w.liveArrangement.discardUnboundPanes
  rw [hdocument, Document.validate_eq_ok]
  unfold capturedDocument
  rw [hwhole, harrangement]
  constructor
  · rintro ⟨hothers, ⟨hdepth, hcanvas, -, hsizes⟩, -, hmin, horder⟩
    exact ⟨hdepth, fun shell hshell => hsizes shell (hperm.mem_iff.mpr hshell), hcanvas,
      ⟨hothers.version, hothers.macWindow, hothers.workspaces, hothers.hidden,
        hothers.conversations, hothers.arrangements⟩, hmin, horder⟩
  · rintro ⟨hdepth, hsizes, hcanvas, hothers, hmin, horder⟩
    exact ⟨⟨hothers.version, hothers.macWindow, hothers.workspaces, hothers.hidden,
        hothers.conversations, hothers.arrangements⟩,
      ⟨hdepth, hcanvas, hshells, fun shell hshell => hsizes shell (hperm.mem_iff.mp hshell)⟩,
      hcount, hmin, horder⟩

/-- With a Shell for every pane the whole tiling is saved. -/
theorem boundLayout_of_bound (h : ∀ id ∈ w.paneIds, w.boundPane id = true) :
    w.boundLayout = w.layout := by
  unfold boundLayout
  cases hlayout : w.layout with
  | none => rfl
  | some node =>
      refine Node.keep_of_forall fun id hid => h id ?_
      rw [paneIds, orderedPaneIds, hlayout]
      exact List.mem_append_left _ hid

/-- The tiling that was saved can be read with any new names for the saved panes. -/
theorem decodeTree_boundLayout (hids : w.paneIds.Nodup) {node : Node Float32}
    (hnode : w.boundLayout = some node)
    {ids : HashMap Nat Nat} {f : Nat → Nat}
    (hf : ∀ id ∈ w.liveArrangement.discardUnboundPanes.panes.keys, ids.lookup id = some (f id)) :
    decodeTree ids (encodeTree node) = some (node.rename f) := by
  have htree : w.liveArrangement.discardUnboundPanes.tree = some (encodeTree node) := by
    rw [tree_discardUnboundPanes hids, hnode, Option.map_some]
  refine decodeTree_encodeTree node fun id hid => hf id ?_
  have hmem : id ∈ w.liveArrangement.discardUnboundPanes.ids := by
    rw [Arrangement.ids, htree]
    exact List.mem_append_left _ (by rwa [Option.elim_some, ids_encodeTree])
  rw [Arrangement.ids_discardUnboundPanes, ← Arrangement.containsKey_discardUnboundPanes] at hmem
  exact BTreeMap.containsKey_iff.mp (List.mem_filter.mp hmem).2

end Workspace

/-- The captured document validates exactly within the bounds, and exactly within the narrower ones
it can also be loaded again; what it saves of the tiling reads back as it was, up to new names of
the panes; and a valid document stays valid without the unbound panes of an arrangement, whose bound
panes keep their order. -/
theorem saved_layout_iff {serde : Serde} (hserde : serde.Faithful) (w : Workspace) :
    (∀ (w' : Workspace) (edits : List (Edit Float32)), (∀ e ∈ edits, e.Finite) →
      w.layout = tiling edits →
      (∀ p ∈ w.floating, p.FinitePositive) → w.paneIds.Nodup → w.liveShells.Nodup →
      w.captureArrangement = (w', true) →
      (w'.layoutDocument.validate = .ok () ↔ w.WithinBounds)
        ∧ (∀ revision, (w'.layoutDocument.validate = .ok ()
            ∧ Reloads serde { w'.layoutDocument with revision := revision })
          ↔ w.Reloadable serde revision)
        ∧ ∃ a, w'.layoutDocument.arrangements.lookup w.captureKey = some a
          ∧ a.tree = w.boundLayout.map encodeTree
          ∧ ((∀ id ∈ w.paneIds, w.boundPane id = true) → w.boundLayout = w.layout)
          ∧ ∀ node, w.boundLayout = some node → ∀ (ids : HashMap Nat Nat) (f : Nat → Nat),
            (∀ id ∈ a.panes.keys, ids.lookup id = some (f id)) →
              decodeTree ids (encodeTree node) = some (node.rename f))
    ∧ ∀ (d : Document) (key : String) (a : Arrangement), d.validate = .ok () →
      d.arrangements.lookup key = some a →
        ({ d with arrangements := d.arrangements.insert key a.discardUnboundPanes }).validate = .ok
          ()
          ∧ a.discardUnboundPanes.ids = a.ids.filter a.bound
          ∧ a.discardUnboundPanes.discardUnboundPanes = a.discardUnboundPanes := by
  constructor
  · intro w' edits hfinite hlayout hfloating hids hshells h
    have hratios (node : Node Float32) (hnode : w.layout = some node) : node.RatiosMiddle :=
      tiling_ratiosMiddle hfinite (hlayout.symm.trans hnode)
    obtain ⟨-, hdocument⟩ := Workspace.captureArrangement_eq h
    have hvalid := Workspace.captured_valid_iff hratios hfloating hids hshells h
    refine ⟨hvalid, fun revision => ?_, w.liveArrangement.discardUnboundPanes, ?_,
      Workspace.tree_discardUnboundPanes hids, Workspace.boundLayout_of_bound,
      fun node hnode ids f hf => Workspace.decodeTree_boundLayout hids hnode hf⟩
    · -- validation does not look at the revision
      have hreload (hok : w'.layoutDocument.validate = .ok ()) :=
        reloads_iff (d := { w'.layoutDocument with revision := revision }) hserde hok
      rw [hdocument, Workspace.nesting_capturedDocument_iff hids] at hreload
      constructor
      · rintro ⟨hok, hloads⟩
        rw [hdocument] at hloads
        obtain ⟨⟨hdepth, hothers⟩, hsize⟩ := (hreload (hdocument ▸ hok)).mp hloads
        exact ⟨hvalid.mp hok, hdepth, hothers, hsize⟩
      · intro hw
        have hok := hvalid.mpr hw.bounds
        rw [hdocument]
        exact ⟨hdocument ▸ hok,
          (hreload (hdocument ▸ hok)).mpr ⟨⟨hw.depth, hw.others⟩, hw.size⟩⟩
    rw [hdocument]
    show (w.layoutDocument.arrangements.insert w.captureKey _).lookup w.captureKey = _
    rw [BTreeMap.lookup_insert, if_pos rfl]
  · intro d key a hd ha
    have hvalid := Document.validate_eq_ok.mp hd
    exact ⟨Document.validate_eq_ok.mpr (hvalid.insert_discardUnboundPanes ha),
      a.ids_discardUnboundPanes,
      a.discardUnboundPanes_discardUnboundPanes⟩

/-! ## Tilings by nested splits -/

/-- A window with all Workspaces together, tiled by these edits with a Shell in each of `n` panes.
-/
def mixedWindow (n : Nat) (edits : List (Edit Float32)) : Workspace where
  layoutFrozen := false
  layoutRestoring := false
  pointerDrag := false
  workspacePaneMode := .mixed
  focused := 0
  terminals := (List.range n).foldl (fun terminals id => terminals.insert id
    { temporarySetup := false
      shell := some { id := toString id, workspaceId := "w", desktopSetup := false }
      restored := none }) ∅
  layout := tiling edits
  floating := []
  fullscreen := none
  layoutCanvas := (1200.0, 800.0)
  layoutDocument := .default
  layoutError := none
  workspaceOrder := ["w"]
  minimizedShells := []
  boomuxOverview := []

/-- The newest pane is split again and again. -/
def nestedSplits (n : Nat) : List (Edit Float32) :=
  .start 0 :: (List.range n).map fun id => .splitAt id (id + 1) .horizontal false

theorem nestedSplits_finite (n : Nat) : ∀ e ∈ nestedSplits n, e.Finite := by
  intro e he
  rcases List.mem_cons.mp he with rfl | he
  · exact trivial
  · obtain ⟨id, -, rfl⟩ := List.mem_map.mp he
    exact trivial

/-- The JSON of two panes side by side, up to the document's revision and from there on. -/
def twoPanesHead : List UInt8 := asBytes "\x7b\"version\":4,\"revision\":\""

def twoPanesTail : List UInt8 :=
  asBytes ("\",\"owner\":\"\",\"active\":\"mixed\",\"arrangements\":\x7b\"mixed\":" ++
    "\x7b\"tree\":\x7b\"Split\":\x7b\"horizontal\":true,\"ratio\":0.5," ++
    "\"first\":\x7b\"Pane\":0\x7d,\"second\":\x7b\"Pane\":1\x7d\x7d\x7d,\"floating\":[]," ++
    "\"panes\":\x7b\"0\":\x7b\"shell\":\"0\",\"workspace\":\"w\"\x7d," ++
    "\"1\":\x7b\"shell\":\"1\",\"workspace\":\"w\"\x7d\x7d,\"focused\":0,\"expanded\":null," ++
    "\"canvas\":[1200.0,800.0]\x7d\x7d,\"minimized\":[],\"workspace_order\":[\"w\"]," ++
    "\"hidden_remote_workspaces\":\x7b\x7d,\"conversations\":[],\"mac_window\":null\x7d")

/-- `serde_json` on the document of two panes side by side. -/
def twoPanesSerde : Serde :=
  .ofTemplate (mixedWindow 2 (nestedSplits 1)).capturedDocument twoPanesHead twoPanesTail

theorem twoPanesSerde_faithful : twoPanesSerde.Faithful :=
  Serde.faithful_ofTemplate (by decide +kernel) rfl

/-- Two panes side by side are captured within the bounds and can be loaded again, and their
document stays valid. -/
theorem saved_layout_two_panes :
    (mixedWindow 2 (nestedSplits 1)).Reloadable twoPanesSerde "5b8d"
      ∧ ∃ a, ({ (mixedWindow 2 (nestedSplits 1)).capturedDocument with
        arrangements := (mixedWindow 2 (nestedSplits 1)).capturedDocument.arrangements.insert
          "mixed" a }).validate = .ok () := by
  have hvalid : (mixedWindow 2 (nestedSplits 1)).capturedDocument.validate = .ok () := by
    decide +kernel
  have hloads : Reloads twoPanesSerde
      { (mixedWindow 2 (nestedSplits 1)).capturedDocument with revision := "5b8d" } :=
    read_toVec twoPanesSerde_faithful hvalid (by decide +kernel) (by decide +kernel)
  obtain ⟨hcaptured, hdiscarded⟩ :=
    saved_layout_iff twoPanesSerde_faithful (mixedWindow 2 (nestedSplits 1))
  obtain ⟨-, hreload, a, ha, -⟩ := hcaptured
    (mixedWindow 2 (nestedSplits 1)).captureArrangement.1 (nestedSplits 1)
    (nestedSplits_finite 1) rfl (fun p hp => by cases hp) (by decide +kernel) (by decide +kernel)
    (Prod.ext rfl (by decide +kernel))
  exact ⟨(hreload "5b8d").mp ⟨hvalid, hloads⟩, _, (hdiscarded _ "mixed" a hvalid ha).1⟩

/-- Sixty-five splits one inside the other are captured and then rejected: the document that would
be saved has a tree that is too deep. Sixty-two are captured, accepted and saved, and can never be
read again. -/
theorem nested_splits_rejected :
    (∀ n, ∀ e ∈ nestedSplits n, e.Finite)
      ∧ (∀ n ∈ [62, 65], (mixedWindow (n + 1) (nestedSplits n)).layout = tiling (nestedSplits n)
        ∧ (∀ p ∈ (mixedWindow (n + 1) (nestedSplits n)).floating, p.FinitePositive)
        ∧ (mixedWindow (n + 1) (nestedSplits n)).paneIds.Nodup
        ∧ (mixedWindow (n + 1) (nestedSplits n)).liveShells.Nodup
        ∧ (∀ id ∈ (mixedWindow (n + 1) (nestedSplits n)).paneIds,
          (mixedWindow (n + 1) (nestedSplits n)).boundPane id = true)
        ∧ (mixedWindow (n + 1) (nestedSplits n)).captureArrangement.2 = true)
      ∧ (mixedWindow 66 (nestedSplits 65)).captureArrangement.1.layoutDocument.validate
        = .error "layout tree exceeds bounds"
      ∧ (mixedWindow 63 (nestedSplits 62)).captureArrangement.1.layoutDocument.validate = .ok ()
      ∧ ∀ serde : Serde, serde.Faithful → ∀ revision, ¬ Reloads serde
        { (mixedWindow 63 (nestedSplits 62)).captureArrangement.1.layoutDocument with
          revision := revision } := by
  refine ⟨nestedSplits_finite, fun n hn => ⟨rfl, fun p hp => (by cases hp), ?_⟩, by decide +kernel,
    by decide +kernel, ?_⟩
  · simp only [List.mem_cons, List.not_mem_nil, or_false] at hn
    rcases hn with rfl | rfl
    · exact ⟨by decide +kernel, by decide +kernel, by decide +kernel, by decide +kernel⟩
    · exact ⟨by decide +kernel, by decide +kernel, by decide +kernel, by decide +kernel⟩
  · rintro serde hserde revision ⟨document, hread, -⟩
    have hlevels := (limits_of_read hserde hread).1
    exact absurd hlevels (show ¬ (mixedWindow 63
      (nestedSplits 62)).captureArrangement.1.layoutDocument.nesting <
        recursionLimit by decide +kernel)

end Boomux.Desktop
