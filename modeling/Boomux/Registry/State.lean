import Boomux.Basic.Listing
import Boomux.Basic.Undo
import Boomux.Handoff.Observation
import Boomux.Journal.LocalShell

/-!
# The durable registry

The four maps of the registry. A Shell, a launcher and an agent belong to one Workspace, which lists
its own by id in the order they were created in; what is alike for the three is said once, for a
`Kind`. The runs of a Shell are not here: other threads write them while a mutation runs, and no
undo touches them.
-/

set_option autoImplicit false

namespace Boomux.Registry

open Rust Handoff
open Daemon (AgentInstance AgentInstanceState DaemonError maxNameBytes notFound validateName)
open Journal (ShellSpec TerminalProfile)

/-! ## Records -/

/-- `Workspace`, without the metadata of agent sessions, which no request edits any more. -/
structure Workspace where
  id : String
  revision : Nat
  name : String
  defaultCwd : Option String
  shellIds : List String
  launcherIds : List String
  agentIds : List String
  deriving DecidableEq, Repr

/-- `Shell`, without its runs. -/
structure Shell where
  id : String
  revision : Nat
  workspaceId : String
  name : String
  cwd : String
  command : List String
  deriving DecidableEq, Repr

/-- `WorkspaceLauncher`. -/
structure WorkspaceLauncher where
  id : String
  revision : Nat
  workspaceId : String
  name : String
  cwd : String
  command : List String
  deriving DecidableEq, Repr

/-- `WorkspaceLauncherSpec`. -/
structure WorkspaceLauncherSpec where
  name : String
  cwd : String
  command : List String
  deriving DecidableEq, Repr

/-- `DurableState`. -/
structure DurableState where
  workspaces : HashMap String Workspace
  shells : HashMap String Shell
  launchers : HashMap String WorkspaceLauncher
  agents : HashMap String AgentInstance

/-- A registry without Workspaces. -/
def DurableState.empty : DurableState := ⟨∅, ∅, ∅, ∅⟩

/-! ## The three kinds of records of a Workspace -/

inductive Kind
  | shell | launcher | agent
  deriving DecidableEq, Repr

abbrev Kind.Record : Kind → Type
  | .shell => Shell
  | .launcher => WorkspaceLauncher
  | .agent => AgentInstance

def Kind.id : (k : Kind) → k.Record → String
  | .shell, s => s.id
  | .launcher, l => l.id
  | .agent, a => a.id

def Kind.workspaceId : (k : Kind) → k.Record → String
  | .shell, s => s.workspaceId
  | .launcher, l => l.workspaceId
  | .agent, a => a.workspaceId

def Kind.name : (k : Kind) → k.Record → String
  | .shell, s => s.name
  | .launcher, l => l.name
  | .agent, a => a.name

/-- Whether a Workspace has at most one record of the kind under a name. -/
def Kind.named : Kind → Bool
  | .shell | .launcher => true
  | .agent => false

/-- The word for the kind in the errors of a lookup. -/
def Kind.resource : Kind → String
  | .shell => "shell"
  | .launcher => "workspace launcher"
  | .agent => "agent instance"

namespace Workspace

variable (w : Workspace) (k : Kind) (l : List String) (revision : Nat)

def ids : Kind → List String
  | .shell => w.shellIds
  | .launcher => w.launcherIds
  | .agent => w.agentIds

def withIds (ids : List String) : Kind → Workspace
  | .shell => { w with shellIds := ids }
  | .launcher => { w with launcherIds := ids }
  | .agent => { w with agentIds := ids }

def withRevision : Workspace := { w with revision := revision }

@[simp] theorem ids_withIds : (w.withIds l k).ids k = l := by cases k <;> rfl

theorem ids_withIds_of_ne {k j : Kind} (h : j ≠ k) : (w.withIds l k).ids j = w.ids j := by
  cases k <;> cases j <;> first | rfl | exact absurd rfl h

@[simp] theorem id_withIds : (w.withIds l k).id = w.id := by cases k <;> rfl

@[simp] theorem name_withIds : (w.withIds l k).name = w.name := by cases k <;> rfl

@[simp] theorem revision_withIds : (w.withIds l k).revision = w.revision := by cases k <;> rfl

@[simp] theorem defaultCwd_withIds : (w.withIds l k).defaultCwd = w.defaultCwd := by cases k <;> rfl

@[simp] theorem ids_withRevision : (w.withRevision revision).ids k = w.ids k := by cases k <;> rfl

@[simp] theorem id_withRevision : (w.withRevision revision).id = w.id := rfl

@[simp] theorem name_withRevision : (w.withRevision revision).name = w.name := rfl

@[simp] theorem revision_withRevision : (w.withRevision revision).revision = revision := rfl

@[simp] theorem defaultCwd_withRevision : (w.withRevision revision).defaultCwd = w.defaultCwd := rfl

/-- Editing a list twice, and the revision. -/
theorem withIds_withIds (l' : List String) (revision' : Nat) :
    ((((w.withIds l k).withRevision revision).withIds l' k).withRevision revision') =
      (w.withIds l' k).withRevision revision' := by
  cases k <;> rfl

theorem withIds_ids : (w.withIds (w.ids k) k).withRevision w.revision = w := by cases k <;> rfl

end Workspace

namespace DurableState

variable (d : DurableState) (k : Kind) (ws : HashMap String Workspace) (m : HashMap String k.Record)

def members : (k : Kind) → HashMap String k.Record
  | .shell => d.shells
  | .launcher => d.launchers
  | .agent => d.agents

def withMembers : (k : Kind) → HashMap String k.Record → DurableState
  | .shell, m => { d with shells := m }
  | .launcher, m => { d with launchers := m }
  | .agent, m => { d with agents := m }

def withWorkspaces : DurableState := { d with workspaces := ws }

@[simp] theorem members_withMembers : (d.withMembers k m).members k = m := by cases k <;> rfl

theorem members_withMembers_of_ne {j : Kind} (h : j ≠ k) :
    (d.withMembers k m).members j = d.members j := by
  cases k <;> cases j <;> first | rfl | exact absurd rfl h

@[simp] theorem workspaces_withMembers : (d.withMembers k m).workspaces = d.workspaces := by
  cases k <;> rfl

@[simp] theorem members_withWorkspaces : (d.withWorkspaces ws).members k = d.members k := by
  cases k <;> rfl

@[simp] theorem workspaces_withWorkspaces : (d.withWorkspaces ws).workspaces = ws := rfl

/-- The registries have the same records. -/
structure Same (d d' : DurableState) : Prop where
  workspaces : HashMap.Same d.workspaces d'.workspaces
  members : ∀ k, HashMap.Same (d.members k) (d'.members k)

theorem same_equivalence : Equivalence Same where
  refl _ := ⟨.refl _, fun _ => .refl _⟩
  symm h := ⟨h.workspaces.symm, fun k => (h.members k).symm⟩
  trans h h' := ⟨h.workspaces.trans h'.workspaces, fun k => (h.members k).trans (h'.members k)⟩

/-- The members of one kind and the Workspaces are what was edited. -/
theorem Same.of_edit {d d' : DurableState} {k : Kind} (hw : HashMap.Same d.workspaces d'.workspaces)
    (hk : HashMap.Same (d.members k) (d'.members k))
    (hj : ∀ j, j ≠ k → HashMap.Same (d.members j) (d'.members j)) : Same d d' where
  workspaces := hw
  members j := by
    by_cases h : j = k
    · exact h ▸ hk
    · exact hj j h

end DurableState

/-! ## Checks -/

/-- `validate_terminal_dimensions`. -/
def validateTerminalDimensions (rows cols : Nat) : Except IoError Unit :=
  require (rows ≠ 0 && cols ≠ 0 && decide (rows ≤ 1000) && decide (cols ≤ 1000) &&
      decide (rows * cols ≤ 1000000))
    ⟨.invalidInput, "terminal rows and columns must be nonzero and at most 1000x1000"⟩

/-- `validate_terminal_profile`. -/
def validateTerminalProfile (profile : TerminalProfile) : Except IoError Unit := do
  validateTerminalDimensions profile.rows profile.cols
  require ([profile.term, profile.colorterm, profile.termProgram, profile.termProgramVersion].all
    fun value =>
      value.all fun value =>
        !value.isEmpty && decide (value.utf8ByteSize ≤ 256) && !value.toList.any isControl)
    ⟨.invalidInput, "terminal profile contains an invalid environment value"⟩

section Checks

/- Which paths are directories. -/
variable (isDir : String → Bool)

/-- `validate_cwd`. -/
def validateCwd (cwd : String) : Except IoError Unit :=
  require (isAbsolute cwd && isDir cwd)
    ⟨.invalidInput, "working directory must be an existing absolute directory: " ++ cwd⟩

/-- The check of an optional default directory. -/
def validateDefaultCwd (defaultCwd : Option String) : Except IoError Unit :=
  defaultCwd.elim (.ok ()) (validateCwd isDir)

/-- One turn of the loop of `validate_shell_specs`, after the names that it has seen. -/
def checkShellSpec (names : List String) (spec : ShellSpec) : Except IoError (List String) := do
  validateName spec.name
  require (!names.contains spec.name) ⟨.alreadyExists, "duplicate shell name: " ++ spec.name⟩
  .ok (spec.name :: names)

/-- `validate_shell_specs`. -/
def validateShellSpecs (specs : List ShellSpec) : Except IoError Unit := do
  let _ ← specs.foldlM checkShellSpec []
  .ok ()

/-- `validate_launcher_command`. -/
def validateLauncherCommand (command : List String) : Except IoError Unit :=
  require (command.head?.any fun executable => !executable.isEmpty)
    ⟨.invalidInput, "workspace launcher command requires a non-empty executable"⟩

/-- The Shell that `create_pending_shell_with_id` makes. -/
def Shell.pending (workspaceId id : String) (spec : ShellSpec) : Shell :=
  ⟨id, 1, workspaceId, spec.name, spec.cwd, spec.command⟩

/-- `create_pending_shell_with_id`. -/
def createPendingShell (workspaceId id : String) (spec : ShellSpec) : Except IoError Shell := do
  validateName spec.name
  validateCwd isDir spec.cwd
  .ok (.pending workspaceId id spec)

/-- The launcher that `create_launcher` makes. -/
def WorkspaceLauncher.new (workspaceId id : String) (spec : WorkspaceLauncherSpec) :
    WorkspaceLauncher :=
  ⟨id, 1, workspaceId, spec.name, spec.cwd, spec.command⟩

/-- The checks on a launcher. -/
def validateLauncherSpec (spec : WorkspaceLauncherSpec) : Except IoError Unit := do
  validateName spec.name
  validateCwd isDir spec.cwd
  validateLauncherCommand spec.command

end Checks

/-! ## Revisions -/

/-- `bump_revision`. -/
def bumpRevision (resource : String) (revision : Nat) : Except IoError Nat :=
  match checkedAdd revision 1 with
  | some revision => .ok revision
  | none => .error (.ofMessage (resource ++ " revision exhausted"))

/-- `rollback_bump`. -/
def rollbackBump (revision : Nat) : Nat := max (revision - 1) 1

theorem bumpRevision_eq_ok {resource : String} {revision bumped : Nat} :
    bumpRevision resource revision = .ok bumped ↔ revision + 1 ≤ u64Max
      ∧ bumped = revision + 1 := by
  unfold bumpRevision
  rw [← checkedAdd_eq_some]
  cases checkedAdd revision 1 with
  | none => simp
  | some n => simp [eq_comm]

theorem rollbackBump_succ {revision : Nat} (h : 0 < revision) :
    rollbackBump (revision + 1) = revision := by
  unfold rollbackBump
  omega

/-! ## Looking up -/

/-- The record with an id. -/
def find {α : Type} (kind : String) (m : HashMap String α) (id : String) : Except IoError α :=
  match m.lookup id with
  | some a => .ok a
  | none => .error (notFound kind id)

theorem find_eq_ok {α : Type} {kind : String} {m : HashMap String α} {id : String} {a : α} :
    find kind m id = .ok a ↔ m.lookup id = some a := by
  unfold find
  cases m.lookup id <;> simp

/-- Whether one of the listed records of a kind has the name. -/
def nameTaken (k : Kind) (d : DurableState) (ids : List String) (name : String) : Bool :=
  (ids.filterMap fun id => (d.members k).lookup id).any fun r => k.name r = name

theorem nameTaken_eq_false {k : Kind} {d : DurableState} {ids : List String} {name : String} :
    nameTaken k d ids name = false ↔
      ∀ id ∈ ids, ∀ r, (d.members k).lookup id = some r → k.name r ≠ name := by
  unfold nameTaken
  rw [List.any_eq_false]
  simp only [List.mem_filterMap, forall_exists_index, and_imp, decide_eq_true_eq]
  constructor
  · intro h id hid r hr
    exact h r id hid hr
  · intro h r id hid hr
    exact h id hid r hr

end Boomux.Registry
