import Boomux.Basic.Bytes
import Boomux.Desktop.LayoutValidity

/-!
# The layout document as a file

A document is written as JSON and read back. How documents are written is a parameter, but two
limits are not: `read` refuses files of more than 2 MiB, and `serde_json` refuses a text of 128
levels of objects and arrays. A split of a saved tree takes two of them, so a tree that
`Document::validate` accepts may still be too deep to be read.
-/

set_option autoImplicit false

namespace Boomux.Desktop

open Rust

/-! ## Levels of objects and arrays -/

/-- The levels of an object or array whose members have these. -/
def nested (members : List Nat) : Nat := members.foldr max 0 + 1

/-- The levels of `{"Pane": id}` and of `{"Split": {..}}`. -/
def Tree.nesting : Tree → Nat
  | .pane _ => nested [0]
  | .split _ _ first second => nested [nested [0, 0, first.nesting, second.nesting]]

def Arrangement.nesting (a : Arrangement) : Nat :=
  nested [a.tree.elim 0 Tree.nesting,
    nested (a.floating.map fun _ => nested [0, nested [0, 0, 0, 0]]),
    nested (a.panes.values.map fun _ => nested [0, 0]), 0, 0, nested [0, 0]]

def Document.nesting (d : Document) : Nat :=
  nested [0, 0, 0, 0, nested (d.arrangements.values.map Arrangement.nesting),
    nested (d.minimized.map fun _ => 0), nested (d.workspaceOrder.map fun _ => 0),
    nested (d.hiddenRemoteWorkspaces.values.map fun _ => 0),
    nested (d.conversations.map fun _ => nested [0, 0, 0, 0, 0]),
    d.macWindow.elim 0 fun _ => nested [0, nested [0, 0, 0, 0]]]

theorem nested_le_iff {members : List Nat} {n : Nat} :
    nested members ≤ n + 1 ↔ ∀ m ∈ members, m ≤ n := by
  rw [nested, Nat.add_le_add_iff_right]
  induction members with
  | nil => simp
  | cons m members ih => rw [List.foldr_cons, max_le_iff, ih, List.forall_mem_cons]

theorem Tree.nesting_eq (t : Tree) : t.nesting = 2 * t.height + 1 := by
  induction t with
  | pane id => rfl
  | split horizontal ratio first second ih₁ ih₂ =>
      simp only [nesting, nested, height, List.foldr_cons, List.foldr_nil, ih₁, ih₂]
      omega

/-- Besides its tree, no part of an arrangement has more than three levels. -/
theorem Arrangement.nesting_le_iff {a : Arrangement} {n : Nat} :
    a.nesting ≤ n + 4 ↔ ∀ t, a.tree = some t → 2 * t.height + 1 ≤ n + 3 := by
  have hfloating :
      nested (a.floating.map fun _ => nested [0, nested [0, 0, 0, 0]]) ≤ n + 3 := by
    refine nested_le_iff.mpr fun m hm => ?_
    obtain ⟨-, -, rfl⟩ := List.mem_map.mp hm
    show 2 ≤ n + 2
    omega
  have hpanes : nested (a.panes.values.map fun _ => nested [0, 0]) ≤ n + 3 := by
    refine nested_le_iff.mpr fun m hm => ?_
    obtain ⟨-, -, rfl⟩ := List.mem_map.mp hm
    show 1 ≤ n + 2
    omega
  have hcanvas : nested [0, 0] ≤ n + 3 := show 1 ≤ n + 3 by omega
  have htree : a.tree.elim 0 Tree.nesting ≤ n + 3 ↔
      ∀ t, a.tree = some t → 2 * t.height + 1 ≤ n + 3 := by
    cases a.tree with
    | none => simp
    | some t => simp only [Option.elim_some, Tree.nesting_eq, Option.some.injEq, forall_eq']
  rw [nesting, nested_le_iff]
  simp only [List.forall_mem_cons, List.not_mem_nil, false_implies, implies_true, and_true,
    hfloating, hpanes, hcanvas, htree, Nat.zero_le]

/-- Besides its trees, no part of a document has more than six levels. -/
theorem Document.nesting_le_iff {d : Document} {n : Nat} :
    d.nesting ≤ n + 6 ↔
      ∀ a ∈ d.arrangements.values, ∀ t, a.tree = some t → 2 * t.height + 1 ≤ n + 3 := by
  have hflat {α : Type} (l : List α) : nested (l.map fun _ => 0) ≤ n + 5 := by
    refine nested_le_iff.mpr fun m hm => ?_
    obtain ⟨-, -, rfl⟩ := List.mem_map.mp hm
    exact Nat.zero_le _
  have hconversations :
      nested (d.conversations.map fun _ => nested [0, 0, 0, 0, 0]) ≤ n + 5 := by
    refine nested_le_iff.mpr fun m hm => ?_
    obtain ⟨-, -, rfl⟩ := List.mem_map.mp hm
    show 1 ≤ n + 4
    omega
  have hwindow : (d.macWindow.elim 0 fun _ => nested [0, nested [0, 0, 0, 0]]) ≤ n + 5 := by
    cases d.macWindow with
    | none => exact Nat.zero_le _
    | some window =>
        show 2 ≤ n + 5
        omega
  have harrangements : nested (d.arrangements.values.map Arrangement.nesting) ≤ n + 5 ↔
      ∀ a ∈ d.arrangements.values, ∀ t, a.tree = some t → 2 * t.height + 1 ≤ n + 3 := by
    rw [nested_le_iff, List.forall_mem_map]
    exact forall₂_congr fun a _ => Arrangement.nesting_le_iff
  rw [nesting, nested_le_iff]
  simp only [List.forall_mem_cons, List.not_mem_nil, false_implies, implies_true, and_true, hflat,
    hconversations, hwindow, harrangements, Nat.zero_le, true_and]

/-! ## Writing and reading -/

/-- `serde_json::to_vec` and `serde_json::from_slice` on documents. -/
structure Serde where
  toVec : Document → List UInt8
  fromSlice : List UInt8 → Except String Document

/-- The `remaining_depth` with which `serde_json` starts. It fails when it comes to zero. -/
def recursionLimit : Nat := 128

/-- What is used of `serde_json`: a valid document within the recursion limit is read as a valid
document of the same revision, and a document beyond the limit is not read. -/
structure Serde.Faithful (serde : Serde) : Prop where
  readable : ∀ d, d.validate = .ok () → d.nesting < recursionLimit →
    ∃ d', serde.fromSlice (serde.toVec d) = .ok d' ∧ d'.validate = .ok () ∧ d'.revision = d.revision
  limited : ∀ d, recursionLimit ≤ d.nesting →
    ∃ error, serde.fromSlice (serde.toVec d) = .error error

/-- The migrations of `read`, from the versions before the fourth. -/
def Document.migrate (d : Document) : Document :=
  let d := if d.version == 1 then
    { d with hiddenRemoteWorkspaces := .empty, version := 2 } else d
  let d := if d.version == 2 then { d with conversations := [], version := 3 } else d
  if d.version == 3 then { d with macWindow := none, version := 4 } else d

/-- `read`, on what the file holds. -/
def read (serde : Serde) : Option (List UInt8) → Except String Document
  | none => .ok .default
  | some bytes => do
      require (decide (bytes.length ≤ maxBytes)) "layout state exceeds 2 MiB"
      let document ← serde.fromSlice bytes
      let document := document.migrate
      document.validate
      .ok document

/-- A file that holds this document can be read. -/
def Reloads (serde : Serde) (d : Document) : Prop :=
  ∃ document, read serde (some (serde.toVec d)) = .ok document ∧ document.revision = d.revision

section Reading

variable {serde : Serde} {d : Document}

/-- The trees of a document that can be read have at most 61 splits above each pane. -/
theorem Document.nesting_lt_recursionLimit : d.nesting < recursionLimit ↔
    ∀ a ∈ d.arrangements.values, ∀ t, a.tree = some t → t.height ≤ 61 := by
  rw [recursionLimit, Nat.lt_succ_iff, Document.nesting_le_iff (n := 121)]
  refine forall₂_congr fun a _ => forall₂_congr fun t _ => ?_
  omega

theorem Document.version_of_valid (h : d.validate = .ok ()) : d.version = 4 := by
  unfold Document.validate at h
  rw [require_bind_eq_ok] at h
  exact eq_of_beq h.1

theorem Document.migrate_of_valid (h : d.validate = .ok ()) : d.migrate = d := by
  simp [Document.migrate, Document.version_of_valid h]

/-- A document that fits into the file and is within the recursion limit is read back, with its
revision. -/
theorem read_toVec (hserde : serde.Faithful) (hvalid : d.validate = .ok ())
    (hlevels : d.nesting < recursionLimit) (hsmall : (serde.toVec d).length ≤ maxBytes) :
    Reloads serde d := by
  obtain ⟨d', hd', hvalid', hrev⟩ := hserde.readable d hvalid hlevels
  refine ⟨d', ?_, hrev⟩
  show (require _ _ >>= fun _ => serde.fromSlice _ >>= _) = _
  rw [require_bind_eq_ok, hd']
  refine ⟨decide_eq_true hsmall, ?_⟩
  show (d'.migrate.validate >>= fun _ => _) = _
  rw [Document.migrate_of_valid hvalid', hvalid']
  rfl

/-- What was written is read within the two limits only. -/
theorem limits_of_read (hserde : serde.Faithful) {document : Document}
    (hread : read serde (some (serde.toVec d)) = .ok document) :
    d.nesting < recursionLimit ∧ (serde.toVec d).length ≤ maxBytes := by
  replace hread : (require _ _ >>= fun _ => serde.fromSlice _ >>= _) = _ := hread
  rw [require_bind_eq_ok] at hread
  obtain ⟨hsmall, hread⟩ := hread
  refine ⟨?_, of_decide_eq_true hsmall⟩
  by_contra hdeep
  obtain ⟨error, herror⟩ := hserde.limited d (not_lt.mp hdeep)
  rw [herror] at hread
  cases hread

/-- A document is read back under its own revision, if it is read at all. -/
theorem revision_of_read (hserde : serde.Faithful) (hvalid : d.validate = .ok ())
    {document : Document} (hread : read serde (some (serde.toVec d)) = .ok document) :
    document.revision = d.revision := by
  obtain ⟨hlevels, hsmall⟩ := limits_of_read hserde hread
  obtain ⟨document', hread', hrev⟩ := read_toVec hserde hvalid hlevels hsmall
  rw [hread] at hread'
  obtain rfl := Except.ok.inj hread'
  exact hrev

theorem reloads_iff (hserde : serde.Faithful) (hvalid : d.validate = .ok ()) :
    Reloads serde d ↔ d.nesting < recursionLimit ∧ (serde.toVec d).length ≤ maxBytes := by
  constructor
  · rintro ⟨document, hread, -⟩
    exact limits_of_read hserde hread
  · rintro ⟨hlevels, hsmall⟩
    exact read_toVec hserde hvalid hlevels hsmall

end Reading

/-! ## Documents that differ in their revision only -/

/-- The writing and reading of one document under any revision, from the JSON before and after the
revision. A text that is too deep is cut down to its opening brackets. -/
def Serde.ofTemplate (base : Document) (head tail : List UInt8) : Serde where
  toVec d :=
    if d.nesting < recursionLimit then head ++ asBytes d.revision ++ tail
    else List.replicate recursionLimit '['.toUInt8
  fromSlice bytes :=
    if head.isPrefixOf bytes && tail.isSuffixOf bytes then
      let revision := (bytes.drop head.length).take (bytes.length - head.length - tail.length)
      .ok { base with revision := fromUtf8Lossy revision }
    else if bytes.head? = some '['.toUInt8 then .error "recursion limit exceeded"
    else .error "expected value"

theorem Serde.faithful_ofTemplate {base : Document} {head tail : List UInt8}
    (hvalid : base.validate = .ok ()) (hhead : head.head? = some '\x7b'.toUInt8) :
    (Serde.ofTemplate base head tail).Faithful := by
  constructor
  · intro d _ hlevels
    refine ⟨{ base with revision := d.revision }, ?_, hvalid, rfl⟩
    have hprefix : head.isPrefixOf (head ++ asBytes d.revision ++ tail) = true := by
      rw [List.isPrefixOf_iff_prefix, List.append_assoc]
      exact List.prefix_append ..
    have hsuffix : tail.isSuffixOf (head ++ asBytes d.revision ++ tail) = true := by
      rw [List.isSuffixOf_iff_suffix]
      exact List.suffix_append ..
    have hmiddle : ((head ++ asBytes d.revision ++ tail).drop head.length).take
        ((head ++ asBytes d.revision ++ tail).length - head.length - tail.length)
        = asBytes d.revision := by
      rw [List.append_assoc, List.drop_left, List.length_append, List.length_append]
      rw [show head.length + ((asBytes d.revision).length + tail.length) - head.length
        - tail.length = (asBytes d.revision).length by omega, List.take_left]
    simp only [ofTemplate, if_pos hlevels, hprefix, hsuffix, hmiddle, Bool.and_self, if_true,
      fromUtf8Lossy_asBytes]
  · intro d hdeep
    have hprefix : head.isPrefixOf (List.replicate recursionLimit '['.toUInt8) = false := by
      cases head with
      | nil => cases hhead
      | cons byte head =>
          obtain rfl := Option.some.inj hhead
          rfl
    refine ⟨"recursion limit exceeded", ?_⟩
    simp only [ofTemplate, if_neg (not_lt.mpr hdeep), hprefix, Bool.false_and, Bool.false_eq_true,
      if_false]
    rfl

end Boomux.Desktop
