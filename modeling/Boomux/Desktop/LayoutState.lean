import Boomux.Basic.BTreeMap
import Boomux.Basic.Float32
import Boomux.Basic.Rust
import Mathlib.Data.String.Basic

/-!
# The Desktop's layout document

What a Desktop saves of its window: an arrangement of panes for each Workspace, and the sidebar's
preferences. `Document.validate` checks a document before it is written and after it is read, and
`Arrangement.discardUnboundPanes` leaves out the panes that stand for no Shell.
-/

set_option autoImplicit false

namespace Boomux.Desktop

open Rust

/-! ## The document -/

def maxBytes : Nat := 2 * 1024 * 1024

def maxPanes : Nat := 4096

/-- A saved `Pane`: the Shell it is bound to and that Shell's Workspace. -/
structure Pane where
  shell : Option String
  workspace : Option String
  deriving DecidableEq

inductive Tree where
  | pane (id : Nat)
  | split (horizontal : Bool) (ratio : Float32) (first second : Tree)
  deriving DecidableEq

/-- A floating pane with its x, y, width and height. -/
structure Floating where
  pane : Nat
  rect : Vector Float32 4
  deriving DecidableEq

structure Arrangement where
  tree : Option Tree
  floating : List Floating
  panes : BTreeMap Nat Pane
  focused : Option Nat
  expanded : Option Nat
  canvas : Vector Float32 2
  deriving DecidableEq

structure ConversationPreference where
  workspace : String
  integration : String
  session : String
  pinned : Bool
  archived : Bool
  deriving DecidableEq

structure MacWindow where
  display : String
  rect : Vector Float32 4
  deriving DecidableEq

structure Document where
  version : Nat
  revision : String
  owner : String
  active : String
  arrangements : BTreeMap String Arrangement
  minimized : List String
  workspaceOrder : List String
  hiddenRemoteWorkspaces : BTreeMap String String
  conversations : List ConversationPreference
  macWindow : Option MacWindow
  deriving DecidableEq

/-- `Document::default`. -/
def Document.default : Document where
  version := 4
  revision := ""
  owner := ""
  active := ""
  arrangements := .empty
  minimized := []
  workspaceOrder := []
  hiddenRemoteWorkspaces := .empty
  conversations := []
  macWindow := none

/-! ## Unbound panes -/

/-- `prune`: the tree without the panes that have no entry. -/
def Tree.prune (panes : BTreeMap Nat Pane) : Tree → Option Tree
  | .pane id => if panes.containsKey id then some (.pane id) else none
  | .split horizontal ratio first second =>
      match first.prune panes, second.prune panes with
      | some first, some second => some (.split horizontal ratio first second)
      | first, second => first.or second

def Arrangement.discardUnboundPanes (a : Arrangement) : Arrangement :=
  let panes := a.panes.retain fun entry => entry.2.shell.isSome
  { a with
    panes := panes
    tree := a.tree.bind (Tree.prune panes)
    floating := a.floating.filter fun floating => panes.containsKey floating.pane
    focused := (a.focused.filter panes.containsKey).or panes.keys.head?
    expanded := a.expanded.filter panes.containsKey }

/-! ## Validation -/

/-- The recursion of `Tree::validate`, from the panes seen before to the panes seen after. -/
def Tree.validate : Tree → Nat → List Nat → Except String (List Nat)
  | .pane id, depth, ids => do
      require (!(decide (64 < depth) || decide (maxPanes ≤ ids.length)))
        "layout tree exceeds bounds"
      require (!ids.contains id) "duplicate pane"
      .ok (id :: ids)
  | .split _ ratio first second, depth, ids => do
      require (!(decide (64 < depth) || decide (maxPanes ≤ ids.length)))
        "layout tree exceeds bounds"
      require (ratio.isFinite && (decide ((0.01 : Float32) ≤ ratio) && decide
        (ratio ≤ (0.99 : Float32))))
        "invalid split ratio"
      let ids ← first.validate (depth + 1) ids
      second.validate (depth + 1) ids

/-- `window_geometry::valid`. -/
def windowGeometryValid (rect : Vector Float32 4) : Bool :=
  rect.all (fun n => n.isFinite && decide (n.abs ≤ (1000000.0 : Float32))) &&
    decide ((0.0 : Float32) < rect[2]) && decide ((0.0 : Float32) < rect[3])

/-- `remote::identity`: the node and the resource that a qualified key names. -/
def remoteIdentity (key : String) : Option (List Char × List Char) :=
  let label := "remote:".toList
  if label.isPrefixOf key.toList then
    let rest := key.toList.drop label.length
    match rest.dropWhile (· ≠ ':') with
    | _ :: inner => some (rest.takeWhile (· ≠ ':'), inner)
    | [] => none
  else none

def hiddenRemoteWorkspaceValid (key name : String) : Bool :=
  !(decide (1024 < key.utf8ByteSize) || decide (1024 < name.utf8ByteSize) ||
    (remoteIdentity key).all fun id => id.1.isEmpty || id.2.isEmpty)

def ConversationPreference.identity (entry : ConversationPreference) : String × String × String :=
  (entry.workspace, entry.integration, entry.session)

/-- One round of the loop over the conversations. -/
def validateConversation (identities : List (String × String × String))
    (entry : ConversationPreference) : Except String (List (String × String × String)) := do
  require (!([entry.workspace, entry.integration, entry.session].any
      (fun value => value.isEmpty || decide (1024 < value.utf8ByteSize)) ||
      identities.contains entry.identity)) "invalid conversation preference"
  .ok (entry.identity :: identities)

/-- A floating pane with finite numbers and a positive size. -/
def Floating.Valid (f : Floating) : Prop :=
  f.rect.all Float32.isFinite = true ∧ ¬ f.rect[2] ≤ (0.0 : Float32) ∧ ¬ f.rect[3] ≤ (0.0 : Float32)

/-- One round of the loop over the floating panes. -/
def validateFloating (ids : List Nat) (floating : Floating) : Except String (List Nat) := do
  require (!(ids.contains floating.pane || !floating.rect.all Float32.isFinite ||
      decide (floating.rect[2] ≤ (0.0 : Float32)) ||
      decide (floating.rect[3] ≤ (0.0 : Float32)))) "invalid floating pane"
  .ok (floating.pane :: ids)

/-- One round of the loop over the Shells of the panes. -/
def validateShell (shells : List String) (pane : Pane) : Except String (List String) :=
  match pane.shell with
  | some shell => do
      require (!(decide (1024 < shell.utf8ByteSize) || shells.contains shell))
        "duplicate or oversized Shell identity"
      .ok (shell :: shells)
  | none => .ok shells

/-- The check of the tree, if there is one. -/
def Arrangement.validateTree (a : Arrangement) : Except String (List Nat) :=
  match a.tree with
  | some tree => tree.validate 0 []
  | none => .ok []

/-- One round of the loop over the arrangements, from the count of panes before to the count
after. -/
def Arrangement.validate (total : Nat) (a : Arrangement) : Except String Nat := do
  let ids ← a.validateTree
  let ids ← a.floating.foldlM validateFloating ids
  let total := total + ids.length
  require (!(decide (maxPanes < total) || ids.length != a.panes.len ||
      !ids.all a.panes.containsKey)) "invalid pane references"
  require ((a.focused.toList ++ a.expanded.toList).all ids.contains)
    "invalid focused or expanded pane"
  require (a.canvas.all fun v => v.isFinite && decide ((0.0 : Float32) < v))
    "invalid canvas dimensions"
  let _ ← a.panes.values.foldlM validateShell []
  .ok total

def Document.validate (d : Document) : Except String Unit := do
  require (d.version == 4) "unsupported layout state version; saved file retained"
  require (!d.macWindow.any fun window =>
      decide (128 < window.display.utf8ByteSize) || !windowGeometryValid window.rect)
    "invalid saved window geometry"
  require (!(decide (256 < d.arrangements.len) || decide (maxPanes < d.minimized.length) ||
      decide (256 < d.hiddenRemoteWorkspaces.len) || decide (4096 < d.workspaceOrder.length)))
    "layout state exceeds bounds"
  require (d.hiddenRemoteWorkspaces.entries.all fun entry =>
      hiddenRemoteWorkspaceValid entry.1 entry.2) "invalid hidden remote Workspace"
  require (decide (d.conversations.length ≤ 4096)) "too many conversation preferences"
  let _ ← d.conversations.foldlM validateConversation []
  let _ ← d.arrangements.values.foldlM Arrangement.validate 0
  .ok ()

end Boomux.Desktop
