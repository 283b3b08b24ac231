import Boomux.Daemon.Stream
import Mathlib.Data.List.Nodup

/-!
# The handoff manifest

`Manifest` is what the old daemon tells its replacement before the descriptors follow, and
`validateManifest` what the replacement demands of it. A `HashSet` that every insertion must
extend is a list without duplicates. The notification settings and the focused terminal, which
no check reads, are left out.
-/

set_option autoImplicit false

namespace Boomux.Handoff

open Rust Daemon

/-! ## Data -/

/-- `EventStreamManifest`. -/
structure EventStreamManifest where
  streamId : String
  latestId : Nat
  events : List DaemonEvent
  deriving DecidableEq, Repr

/-- `RuntimeManifest`. -/
structure RuntimeManifest where
  shellId : String
  runId : Option String
  outputRevision : Option Nat
  profile : TerminalProfile
  pid : Nat
  deriving DecidableEq, Repr

/-- `ExitedManifest`. -/
structure ExitedManifest where
  shellId : String
  runId : String
  outputRevision : Nat
  profile : TerminalProfile
  code : Option Nat
  deriving DecidableEq, Repr

/-- `OpenCodeRuntimeManifest`. -/
structure OpenCodeRuntimeManifest where
  generationId : String
  port : Nat
  pid : Nat
  deriving DecidableEq, Repr

/-- `KiroLaunchHolderManifest`. -/
structure KiroLaunchHolderManifest where
  holderId : String
  pid : Nat
  startTime : Nat
  processGroupLeader : Bool
  shellId : String
  runId : String
  sessions : List (String × String)
  deriving DecidableEq, Repr

/-- `ClaudeRemoteControlBindingSnapshot`. -/
structure ClaudeRemoteControlBindingSnapshot where
  agentId : String
  shellId : String
  runId : String
  bridgeSessionId : String
  deriving DecidableEq, Repr

/-- `QualifiedIdentity`. -/
structure QualifiedIdentity where
  nodeId : String
  innerId : String
  deriving DecidableEq, Repr

/-- `QualifiedFocusedTerminalSnapshot`. -/
structure QualifiedFocusedTerminalSnapshot where
  revision : Nat
  shell : QualifiedIdentity
  deriving DecidableEq, Repr

/-- `Manifest`. -/
structure Manifest where
  runtimes : List RuntimeManifest
  exited : List ExitedManifest
  eventStream : EventStreamManifest
  presentedFocusedTerminal : Option QualifiedFocusedTerminalSnapshot
  opencodeRuntime : Option OpenCodeRuntimeManifest
  claudeRemoteControlBindings : List ClaudeRemoteControlBindingSnapshot
  kiroLaunchHolders : List KiroLaunchHolderManifest
  deriving DecidableEq, Repr

/-! ## Limits -/

/-- The most runtimes and exited Shells of a manifest. -/
def maxRuntimes : Nat := 1024

/-- `MAX_CLAUDE_REMOTE_CONTROL_BINDINGS`. -/
def maxClaudeRemoteControlBindings : Nat := 4096

/-- `MAX_CLAUDE_BRIDGE_SESSION_ID_BYTES`. -/
def maxClaudeBridgeSessionIdBytes : Nat := 256

/-- `MAX_KIRO_LAUNCH_HOLDERS`. -/
def maxKiroLaunchHolders : Nat := 256

/-- `MAX_KIRO_HOLDER_SESSIONS`. -/
def maxKiroHolderSessions : Nat := 16

/-- `MAX_KIRO_SESSION_ID_BYTES`. -/
def maxKiroSessionIdBytes : Nat := 256

/-! ## Checks -/

/-- A text that is not empty, is at most `limit` bytes long and has no control character. -/
def plainText (limit : Nat) (text : String) : Bool :=
  !text.isEmpty && decide (text.utf8ByteSize ≤ limit) && !text.toList.any isControl

/-- What is checked of an OpenCode runtime. -/
def OpenCodeRuntimeManifest.valid (runtime : OpenCodeRuntimeManifest) : Bool :=
  runtime.port ≠ 0 && runtime.pid ≠ 0 && uuidParses runtime.generationId

/-- What is checked of the presented terminal focus. -/
def QualifiedFocusedTerminalSnapshot.valid (focused : QualifiedFocusedTerminalSnapshot) : Bool :=
  focused.revision ≠ 0 && uuidParses focused.shell.nodeId && uuidParses focused.shell.innerId

/-- What is checked of one Kiro launch holder. -/
def KiroLaunchHolderManifest.valid (holder : KiroLaunchHolderManifest) : Bool :=
  holder.pid ≠ 0 && holder.startTime ≠ 0 && uuidParses holder.holderId &&
    uuidParses holder.shellId && uuidParses holder.runId &&
    decide (holder.sessions.length ≤ maxKiroHolderSessions) &&
    (holder.sessions.all fun session =>
      plainText maxKiroSessionIdBytes session.1 && uuidParses session.2) &&
    decide (holder.sessions.map (·.1)).Nodup

/-- What is checked of one Claude Remote Control binding. -/
def ClaudeRemoteControlBindingSnapshot.valid (binding : ClaudeRemoteControlBindingSnapshot) :
    Bool :=
  uuidParses binding.agentId && uuidParses binding.shellId && uuidParses binding.runId &&
    plainText maxClaudeBridgeSessionIdBytes binding.bridgeSessionId

/-- The ids of two neighbours of the stream: `windows(2)`. -/
def consecutive : List DaemonEvent → Bool
  | first :: second :: rest =>
      checkedAdd first.id 1 = some second.id && consecutive (second :: rest)
  | _ => true

/-- What is checked of the event stream. -/
def EventStreamManifest.valid (stream : EventStreamManifest) : Bool :=
  uuidParses stream.streamId && decide (stream.events.length ≤ 8192) &&
    consecutive stream.events && stream.events.getLast?.all (·.id = stream.latestId)

/-- An `InvalidData` error unless `condition` holds. -/
def demand (condition : Bool) (message : String) : Except IoError Unit :=
  if condition then .ok () else .error ⟨.invalidData, message⟩

namespace Manifest

/-- The run ids of the runtimes that have one. -/
def runtimeRunIds (manifest : Manifest) : List String := manifest.runtimes.filterMap (·.runId)

/-- `validate_manifest`. -/
def validateManifest (manifest : Manifest) : Except IoError Unit := do
  demand (manifest.opencodeRuntime.all (·.valid))
    "handoff manifest contains an invalid OpenCode runtime"
  demand (manifest.presentedFocusedTerminal.all (·.valid))
    "handoff manifest contains invalid presented terminal focus"
  demand (saturatingAdd manifest.runtimes.length manifest.exited.length ≤ maxRuntimes)
    "handoff manifest contains too many runtimes"
  demand (manifest.claudeRemoteControlBindings.length ≤ maxClaudeRemoteControlBindings)
    "handoff manifest contains too many Claude Remote Control bindings"
  demand
    (manifest.kiroLaunchHolders.length ≤ maxKiroLaunchHolders &&
      manifest.kiroLaunchHolders.all (·.valid) &&
      decide (manifest.kiroLaunchHolders.map (·.holderId)).Nodup)
    "handoff manifest contains invalid Kiro launch holders"
  demand
    (manifest.claudeRemoteControlBindings.all (·.valid) &&
      decide (manifest.claudeRemoteControlBindings.map (·.agentId)).Nodup &&
      decide (manifest.claudeRemoteControlBindings.map (·.bridgeSessionId)).Nodup)
    "handoff manifest contains an invalid Claude Remote Control binding"
  demand
    ((manifest.runtimes.all fun runtime => runtime.pid ≠ 0 && runtime.runId.all uuidParses) &&
      decide (manifest.runtimes.map (·.shellId)).Nodup && decide manifest.runtimeRunIds.Nodup)
    "handoff manifest contains an invalid runtime"
  demand
    ((manifest.exited.all fun exited => uuidParses exited.runId) &&
      decide (manifest.runtimes.map (·.shellId) ++ manifest.exited.map (·.shellId)).Nodup &&
      decide (manifest.runtimeRunIds ++ manifest.exited.map (·.runId)).Nodup)
    "handoff manifest contains an invalid exited shell"
  demand manifest.eventStream.valid "handoff manifest contains an invalid event stream"

end Manifest

/-! ## What an accepted manifest satisfies -/

@[simp] theorem demand_eq_ok {condition : Bool} {message : String} {u : Unit} :
    demand condition message = .ok u ↔ condition = true := by
  unfold demand
  split <;> simp_all

/-- One check, and then the others. -/
theorem demand_bind_eq_ok {condition : Bool} {message : String} {next : Unit → Except IoError Unit}
    {u : Unit} :
    (demand condition message >>= next) = .ok u ↔ condition = true ∧ next () = .ok u := by
  unfold demand
  split <;> simp_all [bind, Except.bind]

/-- What `validateManifest` demands. -/
structure Manifest.Accepted (manifest : Manifest) : Prop where
  opencode : manifest.opencodeRuntime.all (·.valid) = true
  presented : manifest.presentedFocusedTerminal.all (·.valid) = true
  runtimes_le : saturatingAdd manifest.runtimes.length manifest.exited.length ≤ maxRuntimes
  bindings_le : manifest.claudeRemoteControlBindings.length ≤ maxClaudeRemoteControlBindings
  holders_le : manifest.kiroLaunchHolders.length ≤ maxKiroLaunchHolders
  holders : manifest.kiroLaunchHolders.all (·.valid) = true
  holders_nodup : (manifest.kiroLaunchHolders.map (·.holderId)).Nodup
  bindings : manifest.claudeRemoteControlBindings.all (·.valid) = true
  bindings_agents : (manifest.claudeRemoteControlBindings.map (·.agentId)).Nodup
  bindings_bridges : (manifest.claudeRemoteControlBindings.map (·.bridgeSessionId)).Nodup
  runtimes : (manifest.runtimes.all fun runtime =>
    runtime.pid ≠ 0 && runtime.runId.all uuidParses) = true
  exited : (manifest.exited.all fun exited => uuidParses exited.runId) = true
  shells : (manifest.runtimes.map (·.shellId) ++ manifest.exited.map (·.shellId)).Nodup
  runs : (manifest.runtimeRunIds ++ manifest.exited.map (·.runId)).Nodup
  stream : manifest.eventStream.valid = true

/-- The checks, all at once. -/
theorem Manifest.validateManifest_eq_ok {manifest : Manifest} :
    manifest.validateManifest = .ok () ↔ manifest.Accepted := by
  unfold Manifest.validateManifest
  simp only [demand_bind_eq_ok, demand_eq_ok, Bool.and_eq_true, decide_eq_true_eq]
  constructor
  · rintro ⟨h₁, h₂, h₃, h₄, ⟨⟨h₅, h₆⟩, h₇⟩, ⟨⟨h₈, h₉⟩, h₁₀⟩, ⟨⟨h₁₁, -⟩, -⟩, ⟨⟨h₁₂, h₁₃⟩, h₁₄⟩, h₁₅⟩
    exact ⟨h₁, h₂, h₃, h₄, h₅, h₆, h₇, h₈, h₉, h₁₀, h₁₁, h₁₂, h₁₃, h₁₄, h₁₅⟩
  · intro h
    exact ⟨h.opencode, h.presented, h.runtimes_le, h.bindings_le,
      ⟨⟨h.holders_le, h.holders⟩, h.holders_nodup⟩,
      ⟨⟨h.bindings, h.bindings_agents⟩, h.bindings_bridges⟩,
      ⟨⟨h.runtimes, h.shells.of_append_left⟩, h.runs.of_append_left⟩,
      ⟨⟨h.exited, h.shells⟩, h.runs⟩, h.stream⟩

/-- Neighbours with consecutive ids: the ids count up from the first one. -/
theorem ids_of_consecutive {first : DaemonEvent} {rest : List DaemonEvent}
    (h : consecutive (first :: rest) = true) :
    (first :: rest).map (·.id) = List.range' first.id (rest.length + 1) := by
  induction rest generalizing first with
  | nil => rfl
  | cons second rest ih =>
      simp only [consecutive, Bool.and_eq_true, decide_eq_true_eq] at h
      obtain ⟨-, hid⟩ := checkedAdd_eq_some.mp h.1
      rw [List.map_cons, ih h.2, hid]
      rfl

/-- The ids of an accepted stream are consecutive and end in its latest id. -/
theorem EventStreamManifest.ids_of_valid {stream : EventStreamManifest}
    (h : stream.valid = true) :
    stream.events.map (·.id) =
        List.range' (stream.latestId + 1 - stream.events.length) stream.events.length ∧
      stream.events.length ≤ stream.latestId + 1 := by
  simp only [EventStreamManifest.valid, Bool.and_eq_true] at h
  obtain ⟨⟨-, hcons⟩, hlast⟩ := h
  cases hevents : stream.events with
  | nil => exact ⟨rfl, Nat.zero_le _⟩
  | cons first rest =>
      rw [hevents] at hcons hlast
      have hids := ids_of_consecutive hcons
      have hend : first.id + rest.length = stream.latestId := by
        have hlen : rest.length < ((first :: rest).map (·.id)).length := by simp
        have hget : ((first :: rest).map (·.id))[rest.length] = first.id + rest.length := by
          simp only [hids, List.getElem_range', Nat.one_mul]
        rw [List.getLast?_eq_getElem?] at hlast
        simp only [List.length_cons, Nat.add_sub_cancel] at hlast
        rw [List.getElem_map] at hget
        rw [List.getElem?_eq_getElem (by simp)] at hlast
        simp only [Option.all_some, decide_eq_true_eq] at hlast
        omega
      rw [hids, List.length_cons, ← hend]
      have hstart : first.id + rest.length + 1 - (rest.length + 1) = first.id := by omega
      rw [hstart]
      exact ⟨rfl, by omega⟩

end Boomux.Handoff
