import Boomux.Basic.Bytes
import Boomux.Basic.Select
import Boomux.Workspaces.Snapshot
import Mathlib.Data.String.Basic
import Mathlib.Order.OrderDual
import Mathlib.Data.Sum.Order
import Mathlib.Order.WithBot

/-!
# Sessions

The agents of a Workspace that report one external session are its occurrences; an agent that
reports none is a session of its own. A catalog of the harnesses' own sessions renames the sessions
it finds and adds those of the Workspaces' directories that no agent has reported. Names that the
user has given and sessions that the user has hidden are found by what identifies a session.
-/

set_option autoImplicit false

namespace Boomux.Workspaces

open Rust Select

/-! ## Data -/

structure SessionOccurrence where
  agentId : String
  shellId : String
  runId : String
  startedAtMs : Nat
  endedAtMs : Option Nat
  observation : AgentObservationSnapshot
  isCurrent : Bool
  retainedShellName : Option String
  retainedShellCwd : Option String
  sourceCwd : Option String
  deriving DecidableEq

structure SessionProjection where
  id : String
  workspaceId : String
  workspaceName : String
  integration : String
  externalSessionId : Option String
  description : String
  userDisplayName : Option String
  workspaceRevision : Nat
  state : AgentState
  stateIsCurrent : Bool
  startedAtMs : Nat
  lastAtMs : Nat
  sourceCwd : Option String
  occurrences : List SessionOccurrence
  deriving DecidableEq

/-- A session that a harness keeps itself. -/
structure HostSession where
  integration : String
  rootId : String
  title : String
  directory : String
  createdAtMs : Nat
  updatedAtMs : Nat
  deriving DecidableEq

/-- What identifies the external session of a projection: the Workspace, the harness and its id. -/
def SessionProjection.identity (session : SessionProjection) :
    Option (String ×ₗ String ×ₗ String) :=
  session.externalSessionId.map fun id =>
    toLex (session.workspaceId, toLex (session.integration, id))

/-! ## Ids -/

/-- The bytes that a session's id is made from: a version tag, then the fields behind their lengths.
-/
def sessionName (workspaceId integration identity : String) : List UInt8 :=
  asBytes "boomux.session/v1" ++ [workspaceId, integration, identity].flatMap lengthPrefixed

/-- `stable_session_id`; `newV5` is the text of the UUID that the namespace gives to a name. -/
def stableSessionId (newV5 : List UInt8 → String) (workspaceId integration identity : String) :
    String :=
  newV5 (sessionName workspaceId integration identity)

/-- What an agent's session is called among those of its harness. -/
def AgentInstanceSnapshot.identity (agent : AgentInstanceSnapshot) : String :=
  match agent.externalSessionId with
  | some externalId => "external:" ++ externalId
  | none => "instance:" ++ agent.id

/-! ## Projecting a Workspace -/

/-- `agent_is_active_for_run`. -/
def agentIsActiveForRun (agent : AgentInstanceSnapshot) (shellId runId : String) : Bool :=
  agent.shellId = shellId && agent.runId = runId && agent.endedAtMs.isNone &&
    !(agent.observation.state = .inactive || agent.observation.state = .done)

/-- `state_priority`. -/
def statePriority : AgentState → Nat
  | .blocked => 0
  | .working => 1
  | .idle => 2
  | .inactive => 3
  | .done => 4
  | .unknown => 5

namespace AgentInstanceSnapshot

/-- Agents by when they started. -/
def started (agent : AgentInstanceSnapshot) : Nat ×ₗ String := toLex (agent.startedAtMs, agent.id)

/-- Agents by when they were observed. -/
def observed (agent : AgentInstanceSnapshot) : Nat ×ₗ Nat ×ₗ String :=
  toLex (agent.observation.observedAtMs, toLex (agent.startedAtMs, agent.id))

/-- Agents by what their state says about the session: the most pressing first, the latest of
several. -/
def pressing (agent : AgentInstanceSnapshot) : Nat ×ₗ Natᵒᵈ ×ₗ String :=
  toLex (statePriority agent.observation.state,
    toLex (OrderDual.toDual agent.observation.observedAtMs, agent.id))

def lastAtMs (agent : AgentInstanceSnapshot) : Nat :=
  max (agent.endedAtMs.getD agent.observation.observedAtMs) agent.observation.observedAtMs

end AgentInstanceSnapshot

namespace WorkspaceSnapshot

variable (w : WorkspaceSnapshot)

/-- The `shells` of a Workspace by id. -/
def shellMap : BTreeMap String ShellSnapshot :=
  BTreeMap.collect (w.shells.map fun shell => (shell.id, shell))

/-- The `current_runs` of a Workspace: the runs of its running Shells. -/
def currentRuns : BTreeMap String String :=
  BTreeMap.collect ((w.shells.filter (·.status = .running)).filterMap fun shell =>
    shell.run.map fun run => (shell.id, run.id))

/-- `occurrence_is_current`. -/
def occurrenceIsCurrent (agent : AgentInstanceSnapshot) : Bool :=
  agent.workspaceId = w.id && (w.currentRuns.lookup agent.shellId).any
    (agentIsActiveForRun agent agent.shellId)

/-- The occurrence that an agent is. -/
def occurrence (agent : AgentInstanceSnapshot) : SessionOccurrence :=
  let retainedShell := w.shellMap.lookup agent.shellId
  { agentId := agent.id
    shellId := agent.shellId
    runId := agent.runId
    startedAtMs := agent.startedAtMs
    endedAtMs := agent.endedAtMs
    observation := agent.observation
    isCurrent := w.occurrenceIsCurrent agent
    retainedShellName := retainedShell.map (·.name)
    retainedShellCwd := retainedShell.map (·.cwd)
    sourceCwd := agent.cwd.or (retainedShell.map (·.cwd)) }

/-- The `groups` of the agents, by harness and session. -/
def groups : BTreeMap (String ×ₗ String) (List AgentInstanceSnapshot) :=
  group (fun agent => toLex (agent.integration, agent.identity)) w.agents

end WorkspaceSnapshot

/-- `agents_source_cwd`. -/
def agentsSourceCwd (occurrences : List SessionOccurrence) : Option String :=
  occurrences.reverse.findSome? (·.sourceCwd)

/-- The session of one group of agents; none if the group is empty, where the code would panic. -/
def projectGroup (newV5 : List UInt8 → String) (w : WorkspaceSnapshot)
    (entry : (String ×ₗ String) × List AgentInstanceSnapshot) : Option SessionProjection := do
  let (integration, identity) := ofLex entry.1
  let agents := sortBy AgentInstanceSnapshot.started entry.2
  let first ← agents.head?
  let latestAgent ← maxBy AgentInstanceSnapshot.started agents
  let latestObservation ← maxBy AgentInstanceSnapshot.observed agents
  let active := minBy AgentInstanceSnapshot.pressing (agents.filter w.occurrenceIsCurrent)
  let occurrences := agents.map w.occurrence
  some
    { id := stableSessionId newV5 w.id integration identity
      workspaceId := w.id
      workspaceName := w.name
      integration := integration
      externalSessionId := first.externalSessionId
      description := latestAgent.name
      userDisplayName := none
      workspaceRevision := w.revision
      state := (active.getD latestObservation).observation.state
      stateIsCurrent := active.isSome
      startedAtMs := first.startedAtMs
      lastAtMs := (agents.map (·.lastAtMs)).max?.getD first.startedAtMs
      sourceCwd := agentsSourceCwd occurrences
      occurrences := occurrences }

/-- `project_workspace`; none where the code would panic. -/
def projectWorkspace (newV5 : List UInt8 → String) (w : WorkspaceSnapshot) :
    Option (List SessionProjection) :=
  w.groups.entries.mapM (projectGroup newV5 w)

/-! ## Merging the catalog -/

/-- `normalize_absolute`: the path without `.` and `..`. -/
def normalizeAbsolute (path : String) : Option String :=
  if isAbsolute path then
    let normalized := (pathComponents path).2.foldl (fun normalized component =>
      if component = ['.', '.'] then normalized.dropLast else normalized ++ [component]) []
    some ("/" ++ "/".intercalate (normalized.map String.ofList))
  else none

/-- `workspace_directories`. -/
def workspaceDirectories (w : WorkspaceSnapshot) : List String :=
  ((w.shells.map (·.cwd) ++ w.launchers.map (·.cwd) ++ w.agents.filterMap (·.cwd)).filterMap
    normalizeAbsolute).dedup

/-- `workspaces_by_directory`: under each directory the Workspaces that have it. -/
def workspacesByDirectory (workspaces : List WorkspaceSnapshot) : BTreeMap String (List Nat) :=
  (workspaces.zipIdx.flatMap fun (w, index) => (workspaceDirectories w).map fun directory =>
    (directory, index)).foldl (fun m pair =>
      m.insert pair.1 ((m.lookup pair.1).getD [] ++ [pair.2])) .empty

/-- The sessions while the catalog is merged into them, and where each external session is. -/
structure Merge where
  sessions : List SessionProjection
  byIdentity : BTreeMap (String ×ₗ String ×ₗ String) Nat

/-- The sessions before the merge; of several of one identity the first is found. -/
def Merge.start (sessions : List SessionProjection) : Merge where
  sessions := sessions
  byIdentity := .collectFirst (sessions.zipIdx.filterMap fun (session, index) =>
    session.identity.map fun key => (key, index))

/-- What the catalog says of a session that is there. -/
def SessionProjection.retitled (record : HostSession) (directory : String)
    (session : SessionProjection) :
    SessionProjection :=
  { session with description := record.title, sourceCwd := session.sourceCwd.or (some directory) }

/-- The session that the catalog adds. -/
def HostSession.projection (newV5 : List UInt8 → String) (record : HostSession) (directory : String)
    (w : WorkspaceSnapshot) : SessionProjection where
  id := stableSessionId newV5 w.id record.integration ("external:" ++ record.rootId)
  workspaceId := w.id
  workspaceName := w.name
  integration := record.integration
  externalSessionId := some record.rootId
  description := record.title
  userDisplayName := none
  workspaceRevision := w.revision
  state := .unknown
  stateIsCurrent := false
  startedAtMs := record.createdAtMs
  lastAtMs := record.updatedAtMs
  sourceCwd := some directory
  occurrences := []

/-- One record of the catalog and one Workspace that has its directory. -/
def Merge.add (newV5 : List UInt8 → String) (record : HostSession) (directory : String) (m : Merge)
    (w : WorkspaceSnapshot) : Merge :=
  let key := toLex (w.id, toLex (record.integration, record.rootId))
  match m.byIdentity.lookup key with
  | some index => { m with sessions := m.sessions.modify index (·.retitled record directory) }
  | none =>
      if ((byKey record.integration).bind (·.titles)).any (·.providesCatalog) then
        { sessions := m.sessions ++ [record.projection newV5 directory w]
          byIdentity := m.byIdentity.insert key m.sessions.length }
      else m

/-- One record of the catalog. -/
def Merge.addRecord (newV5 : List UInt8 → String) (workspaces : List WorkspaceSnapshot) (m : Merge)
    (record : HostSession) : Merge :=
  match normalizeAbsolute record.directory with
  | none => m
  | some directory =>
      match (workspacesByDirectory workspaces).lookup directory with
      | none => m
      | some indices =>
          (indices.filterMap (workspaces[·]?)).foldl (Merge.add newV5 record directory) m

/-- `merge_catalog`. -/
def mergeCatalog (newV5 : List UInt8 → String) (workspaces : List WorkspaceSnapshot)
    (sessions : List SessionProjection) (catalog : List HostSession) : List SessionProjection :=
  (catalog.foldl (Merge.addRecord newV5 workspaces) (Merge.start sessions)).sessions

/-! ## Names and hidden sessions -/

/-- `SessionMetadataIdentity`. -/
inductive SessionMetadataIdentity
  | external (id : String)
  | agent (id : Option String)

/-- The order that the source derives: external identities first, no agent before any agent. -/
def SessionMetadataIdentity.ordered : SessionMetadataIdentity → String ⊕ₗ WithBot String
  | external id => toLex (.inl id)
  | agent none => toLex (.inr ⊥)
  | agent (some id) => toLex (.inr (id : WithBot String))

theorem SessionMetadataIdentity.ordered_injective : Function.Injective ordered := by
  intro a b h
  rcases a with id | _ | id <;> rcases b with id' | _ | id' <;>
    simp [ordered] at h <;> simp [h]

instance : LinearOrder SessionMetadataIdentity :=
  LinearOrder.lift' SessionMetadataIdentity.ordered SessionMetadataIdentity.ordered_injective

/-- `SessionMetadataIdentity::new`. -/
def SessionMetadataIdentity.new (externalSessionId agentId : Option String) :
    SessionMetadataIdentity :=
  match externalSessionId with
  | some id => .external id
  | none => .agent agentId

/-- By what the user's records of a session are found. -/
abbrev MetadataKey := String ×ₗ String ×ₗ SessionMetadataIdentity

/-- `metadata_key`. -/
def SessionProjection.metadataKey (session : SessionProjection) : MetadataKey :=
  toLex (session.workspaceId, toLex (session.integration,
    .new session.externalSessionId (session.occurrences.head?.map (·.agentId))))

/-- `HiddenSessionMetadata`. -/
structure HiddenSessionMetadata where
  workspaceId : String
  integration : String
  externalSessionId : Option String
  agentId : Option String
  deriving DecidableEq

def HiddenSessionMetadata.key (record : HiddenSessionMetadata) : MetadataKey :=
  toLex (record.workspaceId,
    toLex (record.integration, .new record.externalSessionId record.agentId))

/-- `SessionDisplayNameMetadata`. -/
structure SessionDisplayNameMetadata extends HiddenSessionMetadata where
  displayName : String
  deriving DecidableEq

def SessionProjection.named (session : SessionProjection) (displayName : String) :
    SessionProjection :=
  { session with userDisplayName := some displayName, description := displayName }

/-- The loop of `apply_display_names` for one record. -/
def applyDisplayName (sessions : List SessionProjection) (record : SessionDisplayNameMetadata) :
    List SessionProjection :=
  sessions.map fun session =>
    if session.metadataKey = record.key then session.named record.displayName else session

/-- The loop of `apply_display_names` for the index of several records. -/
def applyIndexedNames (sessions : List SessionProjection)
    (metadata : List SessionDisplayNameMetadata) :
    List SessionProjection :=
  let names := BTreeMap.collectFirst (metadata.map fun record => (record.key, record.displayName))
  sessions.map fun session => ((names.lookup session.metadataKey).map session.named).getD session

/-- `apply_display_names`. -/
def applyDisplayNames (sessions : List SessionProjection)
    (metadata : List SessionDisplayNameMetadata) :
    List SessionProjection :=
  if sessions.isEmpty || metadata.isEmpty then sessions
  else
    match metadata with
    | [record] => applyDisplayName sessions record
    | metadata => applyIndexedNames sessions metadata

/-- The `retain` of `filter_hidden` for one record. -/
def filterHiddenRecord (sessions : List SessionProjection) (record : HiddenSessionMetadata) :
    List SessionProjection :=
  sessions.filter fun session => session.metadataKey ≠ record.key

/-- The `retain` of `filter_hidden` for the set of several records. -/
def filterIndexed (sessions : List SessionProjection) (metadata : List HiddenSessionMetadata) :
    List SessionProjection :=
  let hidden := BTreeMap.collect (metadata.map fun record => (record.key, ()))
  sessions.filter fun session => !hidden.containsKey session.metadataKey

/-- `filter_hidden`. -/
def filterHidden (sessions : List SessionProjection) (metadata : List HiddenSessionMetadata) :
    List SessionProjection :=
  if sessions.isEmpty || metadata.isEmpty then sessions
  else
    match metadata with
    | [record] => filterHiddenRecord sessions record
    | metadata => filterIndexed sessions metadata

/-! ## The sessions of the groups -/

section Projected

variable {newV5 : List UInt8 → String} {w w' : WorkspaceSnapshot}

/-- A text that memory can hold: of at most `isize::MAX` bytes. -/
def Fits (text : String) : Prop := (asBytes text).length < 2 ^ 63

/-- The texts that the snapshot's session ids are made from are texts that memory can hold. -/
structure WorkspaceSnapshot.Fits (w : WorkspaceSnapshot) : Prop where
  id : Workspaces.Fits w.id
  agentIds : ∀ agent ∈ w.agents, Workspaces.Fits agent.id
  integrations : ∀ agent ∈ w.agents, Workspaces.Fits agent.integration
  externalIds : ∀ agent ∈ w.agents, ∀ id, agent.externalSessionId = some id → Workspaces.Fits id

/-- A name gives back the fields it is made from. -/
theorem sessionName_inj
    {workspaceId integration identity workspaceId' integration' identity' : String}
    (hfits : ∀ text ∈ [workspaceId, integration, identity], (asBytes text).length ≤ u64Max)
    (hfits' : ∀ text ∈ [workspaceId', integration', identity'], (asBytes text).length ≤ u64Max)
    (h : sessionName workspaceId integration identity =
      sessionName workspaceId' integration' identity') :
    workspaceId = workspaceId' ∧ integration = integration' ∧ identity = identity' := by
  have htexts := flatMap_lengthPrefixed_inj hfits hfits' (List.append_cancel_left h)
  simpa using htexts

/-- Of a group of agents: the agents share the key. -/
theorem mem_groups {entry : (String ×ₗ String) × List AgentInstanceSnapshot}
    (h : entry ∈ w.groups.entries) :
    entry.2 ≠ [] ∧ ∀ agent ∈ entry.2, agent ∈ w.agents
      ∧ (ofLex entry.1).1 = agent.integration ∧ (ofLex entry.1).2 = agent.identity := by
  have hentry := entries_group (fun agent : AgentInstanceSnapshot =>
    toLex (agent.integration, agent.identity))
    w.agents
  have hkey : entry.1 ∈ w.groups.keys := BTreeMap.mem_keys_of_mem h
  obtain ⟨agent, hagent, hname⟩ := mem_keys_group.mp hkey
  obtain ⟨k, -, rfl⟩ := List.mem_map.mp (hentry ▸ h : entry ∈ _)
  refine ⟨List.ne_nil_of_mem (List.mem_filter.mpr ⟨hagent, decide_eq_true hname⟩),
    fun agent hagent => ?_⟩
  obtain ⟨hmem, hname⟩ := List.mem_filter.mp hagent
  rw [← of_decide_eq_true hname]
  exact ⟨hmem, rfl, rfl⟩

/-- What the session of a group says of the group. -/
structure OfGroup (newV5 : List UInt8 → String) (w : WorkspaceSnapshot)
    (entry : (String ×ₗ String) × List AgentInstanceSnapshot) (session : SessionProjection) :
      Prop where
  mem : entry ∈ w.groups.entries
  id : session.id = stableSessionId newV5 w.id (ofLex entry.1).1 (ofLex entry.1).2
  workspaceId : session.workspaceId = w.id
  integration : session.integration = (ofLex entry.1).1
  external : ∀ id, session.externalSessionId = some id → (ofLex entry.1).2 = "external:" ++ id
  occurrences : session.occurrences = (sortBy AgentInstanceSnapshot.started entry.2).map
    w.occurrence

/-- Every group has a session. -/
theorem projectGroup_of_mem {entry : (String ×ₗ String) × List AgentInstanceSnapshot}
    (h : entry ∈ w.groups.entries) : ∃ session, projectGroup newV5 w entry = some session
      ∧ OfGroup newV5 w entry session := by
  obtain ⟨hne, hagents⟩ := mem_groups h
  have hsorted : sortBy AgentInstanceSnapshot.started entry.2 ≠ [] := fun hnil =>
    hne (List.nil_perm.mp (hnil ▸ sortBy_perm AgentInstanceSnapshot.started entry.2))
  obtain ⟨first, hfirst⟩ : ∃ first, (sortBy AgentInstanceSnapshot.started entry.2).head? =
      some first :=
    Option.isSome_iff_exists.mp (List.isSome_head?.mpr hsorted)
  obtain ⟨latest, hlatest⟩ := maxBy_of_ne_nil AgentInstanceSnapshot.started hsorted
  obtain ⟨observed, hobserved⟩ := maxBy_of_ne_nil AgentInstanceSnapshot.observed hsorted
  have hproject : ∃ session, projectGroup newV5 w entry = some session
      ∧ session.id = stableSessionId newV5 w.id (ofLex entry.1).1 (ofLex entry.1).2
      ∧ session.workspaceId = w.id ∧ session.integration = (ofLex entry.1).1
      ∧ session.externalSessionId = first.externalSessionId
      ∧ session.occurrences = (sortBy AgentInstanceSnapshot.started entry.2).map w.occurrence := by
    unfold projectGroup
    simp only [hfirst, hlatest, hobserved, Option.bind_eq_bind, Option.bind_some]
    exact ⟨_, rfl, rfl, rfl, rfl, rfl, rfl⟩
  obtain ⟨session, hsession, hid, hworkspace, hintegration, hexternal, hoccurrences⟩ := hproject
  refine ⟨session, hsession, ⟨h, hid, hworkspace, hintegration, fun id hsome => ?_, hoccurrences⟩⟩
  obtain ⟨-, -, hidentity⟩ := hagents first (mem_sortBy.mp (List.mem_of_head? hfirst))
  rw [hidentity, AgentInstanceSnapshot.identity, ← hexternal, hsome]

/-- The state of a session is that of the most pressing of its current agents, or of the agent
observed last. -/
theorem projectGroup_state {entry : (String ×ₗ String) × List AgentInstanceSnapshot}
    {session : SessionProjection}
    (h : projectGroup newV5 w entry = some session) :
      ∃ agent ∈ entry.2, session.state = agent.observation.state ∧
      if session.stateIsCurrent then w.occurrenceIsCurrent agent = true
        ∧ ∀ other ∈ entry.2, w.occurrenceIsCurrent other = true → agent.pressing ≤ other.pressing
      else ∀ other ∈ entry.2, w.occurrenceIsCurrent other = false
        ∧ other.observed ≤ agent.observed := by
  unfold projectGroup at h
  simp only [Option.bind_eq_bind, Option.bind_eq_some_iff, Option.some.injEq] at h
  obtain ⟨first, -, latest, -, observed, hobserved, rfl⟩ := h
  obtain ⟨hmem, hmax⟩ := maxBy_spec hobserved
  cases hactive : minBy AgentInstanceSnapshot.pressing
      ((sortBy AgentInstanceSnapshot.started entry.2).filter w.occurrenceIsCurrent) with
  | some agent =>
      obtain ⟨hagent, hmin⟩ := minBy_spec hactive
      obtain ⟨hsorted, hcurrent⟩ := List.mem_filter.mp hagent
      exact ⟨agent, mem_sortBy.mp hsorted, rfl, hcurrent, fun other hother hoc =>
        hmin other (List.mem_filter.mpr ⟨mem_sortBy.mpr hother, hoc⟩)⟩
  | none =>
      have hnone := minBy_eq_none.mp hactive
      refine ⟨observed, mem_sortBy.mp hmem, rfl, fun other hother =>
        ⟨?_, hmax other (mem_sortBy.mpr hother)⟩⟩
      exact Bool.eq_false_iff.mpr (List.filter_eq_nil_iff.mp hnone other (mem_sortBy.mpr hother))

/-- Mapping with a function that gives a related result for each element. -/
theorem mapM_forall₂ {α β : Type} {f : α → Option β} {r : α → β → Prop} {l : List α}
    (h : ∀ a ∈ l, ∃ b, f a = some b ∧ r a b) : ∃ bs, l.mapM f = some bs ∧ List.Forall₂ r l bs := by
  induction l with
  | nil => exact ⟨[], rfl, .nil⟩
  | cons a l ih =>
      obtain ⟨⟨b, hb, hr⟩, hrest⟩ := List.forall_mem_cons.mp h
      obtain ⟨bs, hbs, hall⟩ := ih hrest
      exact ⟨b :: bs, by simp [List.mapM_cons, hb, hbs], .cons hr hall⟩

/-- What holds between the elements of a list holds, through a relation, between those of the other.
-/
theorem pairwise_of_forall₂ {α β : Type} {r : α → β → Prop} {p : α → α → Prop} {q : β → β → Prop}
    {l : List α} {l' : List β} (h : List.Forall₂ r l l') (hp : l.Pairwise p)
    (hpq : ∀ a a' b b', r a b → r a' b' → p a a' → q b b') : l'.Pairwise q := by
  obtain ⟨hlength, hget⟩ := List.forall₂_iff_get.mp h
  rw [List.pairwise_iff_getElem] at hp ⊢
  intro i j hi hj hij
  exact hpq _ _ _ _ (hget i (hlength ▸ hi) hi) (hget j (hlength ▸ hj) hj)
    (hp i j (hlength ▸ hi) (hlength ▸ hj) hij)

/-- A Workspace is projected to a session for each of its groups. -/
theorem projectWorkspace_spec (newV5 : List UInt8 → String) (w : WorkspaceSnapshot) :
    ∃ sessions, projectWorkspace newV5 w = some sessions
      ∧ List.Forall₂ (OfGroup newV5 w) w.groups.entries sessions :=
  mapM_forall₂ fun _ => projectGroup_of_mem

theorem occurrences_perm {entries : List ((String ×ₗ String) × List AgentInstanceSnapshot)}
    {sessions : List SessionProjection} (h : List.Forall₂ (OfGroup newV5 w) entries sessions) :
    (sessions.flatMap (·.occurrences)).Perm ((entries.map Prod.snd).flatten.map w.occurrence) := by
  induction h with
  | nil => exact .refl _
  | cons hgroup _ ih =>
      rw [List.flatMap_cons, List.map_cons, List.flatten_cons, List.map_append, hgroup.occurrences]
      exact ((sortBy_perm _ _).map _).append ih

/-- The name of the session of an agent. -/
def WorkspaceSnapshot.nameOf (w : WorkspaceSnapshot) (agent : AgentInstanceSnapshot) : List UInt8 :=
  sessionName w.id agent.integration agent.identity

theorem WorkspaceSnapshot.Fits.nameOf (h : w.Fits) {agent : AgentInstanceSnapshot}
    (hagent : agent ∈ w.agents) :
    ∀ text ∈ [w.id, agent.integration, agent.identity], (asBytes text).length ≤ u64Max := by
  have hworkspace := h.id
  have hintegration := h.integrations agent hagent
  have hid := h.agentIds agent hagent
  have hexternal := h.externalIds agent hagent
  have htag : (asBytes "external:").length = 9 ∧ (asBytes "instance:").length = 9 := by
    decide +kernel
  unfold Workspaces.Fits at hworkspace hintegration hid hexternal
  have hidentity : (asBytes agent.identity).length ≤ u64Max := by
    unfold AgentInstanceSnapshot.identity u64Max
    split
    next id hsome =>
      have := hexternal id hsome
      rw [asBytes_append, List.length_append]
      omega
    next =>
      rw [asBytes_append, List.length_append]
      omega
  unfold u64Max at hidentity ⊢
  simp only [List.forall_mem_cons]
  exact ⟨by omega, by omega, hidentity, fun _ h => absurd h List.not_mem_nil⟩

/-- Groups under different keys have sessions of different ids, if the ids of different names
differ. -/
theorem OfGroup.id_ne (hv5 : ∀ a ∈ w.agents, ∀ b ∈ w.agents,
    newV5 (w.nameOf a) = newV5 (w.nameOf b) →
    w.nameOf a = w.nameOf b) (hw : w.Fits)
    {entry entry' : (String ×ₗ String) × List AgentInstanceSnapshot}
    {session session' : SessionProjection}
    (h : OfGroup newV5 w entry session) (h' : OfGroup newV5 w entry' session')
    (hne : entry.1 ≠ entry'.1) :
    session.id ≠ session'.id := by
  have hagent {entry} (hmem : entry ∈ w.groups.entries) : ∃ agent ∈ w.agents,
      (ofLex entry.1).1 = agent.integration ∧ (ofLex entry.1).2 = agent.identity := by
    obtain ⟨hnil, hagents⟩ := mem_groups hmem
    obtain ⟨agent, hagent⟩ := List.exists_mem_of_ne_nil _ hnil
    exact ⟨agent, hagents agent hagent⟩
  obtain ⟨a, ha, hintegration, hidentity⟩ := hagent h.mem
  obtain ⟨b, hb, hintegration', hidentity'⟩ := hagent h'.mem
  intro hid
  rw [h.id, h'.id, hintegration, hidentity, hintegration', hidentity'] at hid
  obtain ⟨-, hi, hs⟩ := sessionName_inj (hw.nameOf ha) (hw.nameOf hb) (hv5 a ha b hb hid)
  refine hne (ofLex.injective (Prod.ext ?_ ?_))
  · rw [hintegration, hintegration', hi]
  · rw [hidentity, hidentity', hs]

/-- Groups under different keys have sessions of different external identities. -/
theorem OfGroup.identity_ne {entry entry' : (String ×ₗ String) × List AgentInstanceSnapshot}
    {session session' : SessionProjection} (h : OfGroup newV5 w entry session)
    (h' : OfGroup newV5 w entry' session') (hne : entry.1 ≠ entry'.1) :
    ∀ key, session.identity = some key → ∀ key', session'.identity = some key' → key ≠ key' := by
  intro key hkey key' hkey' heq
  subst heq
  obtain ⟨id, hid, hkey⟩ := Option.map_eq_some_iff.mp hkey
  obtain ⟨id', hid', hkey'⟩ := Option.map_eq_some_iff.mp hkey'
  have hpair := Prod.mk.inj
    (toLex.injective (Prod.mk.inj (toLex.injective (hkey.trans hkey'.symm))).2)
  refine hne (ofLex.injective (Prod.ext ?_ ?_))
  · rw [← h.integration, ← h'.integration, hpair.1]
  · rw [h.external id hid, h'.external id' hid', hpair.2]

/-! ## The order of agents and Shells -/

section Reordered

variable (hw : w.Distinct) (h : w.Reordered w')

include hw h

theorem Reordered.shellMap : w.shellMap = w'.shellMap := by
  refine BTreeMap.collect_eq_of_perm ?_ (h.shells.map _)
  rw [List.map_map]
  exact hw.shells

theorem Reordered.currentRuns : w.currentRuns = w'.currentRuns := by
  refine BTreeMap.collect_eq_of_perm ?_ ((h.shells.filter _).filterMap _)
  rw [List.Nodup, List.pairwise_map, List.pairwise_filterMap]
  refine ((List.pairwise_map.mp hw.shells).filter _).imp fun hne pair hpair pair' hpair' => ?_
  obtain ⟨run, -, rfl⟩ := Option.map_eq_some_iff.mp hpair
  obtain ⟨run', -, rfl⟩ := Option.map_eq_some_iff.mp hpair'
  exact hne

theorem Reordered.occurrenceIsCurrent : w.occurrenceIsCurrent = w'.occurrenceIsCurrent := by
  funext agent
  unfold WorkspaceSnapshot.occurrenceIsCurrent
  rw [h.id, Reordered.currentRuns hw h]

theorem Reordered.occurrence : w.occurrence = w'.occurrence := by
  funext agent
  unfold WorkspaceSnapshot.occurrence
  rw [Reordered.shellMap hw h, Reordered.occurrenceIsCurrent hw h]

/-- A group's session depends on its agents, not on their order: the order in which they started is
total. -/
theorem Reordered.projectGroup (key : String ×ₗ String)
    {agents agents' : List AgentInstanceSnapshot}
    (hagents : ∀ agent ∈ agents, agent ∈ w.agents) (hp : agents.Perm agents') :
    projectGroup newV5 w (key, agents) = projectGroup newV5 w' (key, agents') := by
  have htotal : Total AgentInstanceSnapshot.started agents :=
    Total.subset (Total.of_nodup hw.agents fun a b he => (Prod.mk.inj (toLex.injective he)).2)
      hagents
  unfold Workspaces.projectGroup
  rw [sortBy_eq_of_perm htotal hp, Reordered.occurrenceIsCurrent hw h, Reordered.occurrence hw h,
    h.id,
    h.name, h.revision]

/-- The sessions do not depend on the order of the agents and the Shells. -/
theorem Reordered.projectWorkspace : projectWorkspace newV5 w = projectWorkspace newV5 w' := by
  unfold Workspaces.projectWorkspace WorkspaceSnapshot.groups
  rw [entries_group, entries_group, keys_group_of_perm h.agents, List.mapM_map, List.mapM_map]
  congr 1
  funext key
  exact Reordered.projectGroup hw h key (fun _ => List.mem_of_mem_filter) (h.agents.filter _)

end Reordered

end Projected

/-! ## What a merge keeps -/

section Merged

variable {newV5 : List UInt8 → String} {before : List SessionProjection} {m : Merge}

/-- A session after the catalog was merged: all but its description, and its directory if it has
one, is kept. -/
def SessionProjection.Kept (session session' : SessionProjection) : Prop :=
  session' = { session with description := session'.description, sourceCwd := session'.sourceCwd }
    ∧ ∀ directory, session.sourceCwd = some directory → session'.sourceCwd = some directory

theorem SessionProjection.Kept.refl (session : SessionProjection) : session.Kept session :=
  ⟨rfl, fun _ h => h⟩

theorem SessionProjection.Kept.retitled {session session' : SessionProjection}
    (h : session.Kept session')
    (record : HostSession) (directory : String) :
      session.Kept (session'.retitled record directory) := by
  obtain ⟨hfields, hcwd⟩ := h
  refine ⟨?_, fun directory' hdirectory => ?_⟩
  · conv_lhs => rw [hfields]
    rfl
  · rw [SessionProjection.retitled, hcwd directory' hdirectory]
    rfl

/-- The session is one that the catalog added. -/
def SessionProjection.FromCatalog (session : SessionProjection) : Prop :=
  session.occurrences = [] ∧ session.state = .unknown ∧ session.stateIsCurrent = false
    ∧ session.identity.isSome = true

/-- The merge keeps the sessions that it started from, adds sessions of its own behind them, one for
an identity that has none yet, and its index finds every external session. -/
structure Merge.Sound (before : List SessionProjection) (m : Merge) : Prop where
  kept : ∀ (i : Nat) (session : SessionProjection), before[i]? = some session →
    ∃ session', m.sessions[i]? = some session' ∧ session.Kept session'
  found : ∀ key i, m.byIdentity.lookup key = some i →
    ∃ session : SessionProjection, m.sessions[i]? = some session ∧ session.identity = some key
  indexed : ∀ session ∈ m.sessions, ∀ key, session.identity = some key →
    m.byIdentity.lookup key ≠ none
  before_identities : (m.sessions.map (·.identity)).take before.length = before.map (·.identity)
  added : ∀ (i : Nat) (session : SessionProjection), before.length ≤ i →
    m.sessions[i]? = some session → session.FromCatalog
  distinct : ((m.sessions.map (·.identity)).drop before.length).Nodup
  new : ∀ identity ∈ (m.sessions.map (·.identity)).drop before.length,
    identity ∉ before.map (·.identity)

theorem Merge.Sound.start (sessions : List SessionProjection) :
    (Merge.start sessions).Sound sessions where
  kept i session h := ⟨session, h, .refl session⟩
  found key i h := by
    rw [Merge.start, BTreeMap.lookup_collectFirst] at h
    obtain ⟨pair, hpair, rfl⟩ := Option.map_eq_some_iff.mp h
    obtain ⟨⟨session, index⟩, hsession, hkey⟩ :=
      List.mem_filterMap.mp (List.mem_of_find?_eq_some hpair)
    obtain ⟨key', hidentity, rfl⟩ := Option.map_eq_some_iff.mp hkey
    have hsame : key' = key := by simpa using List.find?_some hpair
    exact ⟨session, List.mem_zipIdx_iff_getElem?.mp hsession, hsame ▸ hidentity⟩
  indexed session h key hkey := by
    obtain ⟨i, hi⟩ := List.mem_iff_getElem?.mp h
    rw [Merge.start, BTreeMap.lookup_collectFirst, ← Option.isSome_iff_ne_none, Option.isSome_map,
      List.find?_isSome]
    refine ⟨(key, i), List.mem_filterMap.mpr ⟨(session, i), List.mem_zipIdx_iff_getElem?.mpr hi,
      ?_⟩,
      decide_eq_true rfl⟩
    show session.identity.map _ = _
    rw [hkey]
    rfl
  before_identities := by
    show (sessions.map _).take sessions.length = _
    rw [List.take_of_length_le (by rw [List.length_map])]
  added i session hi h := by
    have hnone : sessions[i]? = none := List.getElem?_eq_none hi
    cases hnone.symm.trans h
  distinct := by
    show ((sessions.map _).drop sessions.length).Nodup
    rw [List.drop_of_length_le (by rw [List.length_map])]
    exact .nil
  new identity h := by
    change identity ∈ (sessions.map _).drop sessions.length at h
    rw [List.drop_of_length_le (by rw [List.length_map])] at h
    cases h

theorem Merge.Sound.length_le (h : m.Sound before) : before.length ≤ m.sessions.length := by
  have := congrArg List.length h.before_identities
  simp only [List.length_take, List.length_map] at this
  omega

/-- A session that is there is renamed. -/
theorem Merge.Sound.retitle (h : m.Sound before) (record : HostSession) (directory : String)
    (index : Nat) : Merge.Sound before
      { m with sessions := m.sessions.modify index (·.retitled record directory) } := by
  have hget (i : Nat) : (m.sessions.modify index (·.retitled record directory))[i]? =
      m.sessions[i]?.map fun session =>
      if index = i then session.retitled record directory else session := by
    rw [List.getElem?_modify]
    by_cases hi : index = i <;> simp [hi]
  have hidentity (i : Nat) (session : SessionProjection) :
      (if index = i then session.retitled record directory else session).identity =
        session.identity := by
    split <;> rfl
  -- The new title leaves the identities as they are.
  have hidentities : (m.sessions.modify index (·.retitled record directory)).map (·.identity)
      = m.sessions.map (·.identity) := by
    refine List.ext_getElem? fun i => ?_
    rw [List.getElem?_map, List.getElem?_map, hget, Option.map_map]
    exact congrArg (Option.map · _) (funext fun session => hidentity i session)
  refine ⟨fun i session hi => ?_, fun key i hkey => ?_, fun session hsession key hkey => ?_, ?_,
    fun i session hi hsession => ?_, ?_, ?_⟩
  · obtain ⟨session', hsession', hkept⟩ := h.kept i session hi
    refine ⟨_, (hget i).trans (congrArg (Option.map _) hsession'), ?_⟩
    split
    · exact hkept.retitled record directory
    · exact hkept
  · obtain ⟨session, hsession, hidentity'⟩ := h.found key i hkey
    exact ⟨_, (hget i).trans (congrArg (Option.map _) hsession),
      (hidentity i session).trans hidentity'⟩
  · obtain ⟨i, hi⟩ := List.mem_iff_getElem?.mp hsession
    obtain ⟨session', hsession', rfl⟩ := Option.map_eq_some_iff.mp ((hget i).symm.trans hi)
    exact h.indexed session' (List.mem_of_getElem? hsession') key
      ((hidentity i session').symm.trans hkey)
  · rw [hidentities]
    exact h.before_identities
  · obtain ⟨session', hsession', rfl⟩ := Option.map_eq_some_iff.mp ((hget i).symm.trans hsession)
    have hadded := h.added i session' hi hsession'
    split <;> exact hadded
  · rw [hidentities]
    exact h.distinct
  · rw [hidentities]
    exact h.new

/-- A session of an identity that no session has is added. -/
theorem Merge.Sound.push (h : m.Sound before) {session : SessionProjection}
    {key : String ×ₗ String ×ₗ String}
    (hkey : session.identity = some key) (hadded : session.FromCatalog)
    (hnew : m.byIdentity.lookup key = none) :
    Merge.Sound before
      { sessions := m.sessions ++ [session],
        byIdentity := m.byIdentity.insert key m.sessions.length } := by
  have hfresh : some key ∉ m.sessions.map (·.identity) := by
    intro hmem
    obtain ⟨old, hold, hidentity⟩ := List.mem_map.mp hmem
    exact h.indexed old hold key hidentity hnew
  have hlength := h.length_le
  have hmap : (m.sessions ++ [session]).map (·.identity) = m.sessions.map (·.identity) ++
      [some key] := by
    rw [List.map_append, List.map_singleton, hkey]
  -- The sessions that the catalog adds, without those of before.
  have hdrop : ((m.sessions ++ [session]).map (·.identity)).drop before.length
      = (m.sessions.map (·.identity)).drop before.length ++ [some key] := by
    rw [hmap, List.drop_append_of_le_length (by rwa [List.length_map])]
  refine ⟨fun i old hi => ?_, fun key' i hkey' => ?_, fun old hold key' hkey' => ?_, ?_,
    fun i old hi hold => ?_, ?_, ?_⟩
  · obtain ⟨session', hsession', hkept⟩ := h.kept i old hi
    exact ⟨session', List.getElem?_append_left
      (List.getElem?_eq_some_iff.mp hsession').1 ▸ hsession', hkept⟩
  -- The index finds the new session under its key, and the others as before.
  · rw [BTreeMap.lookup_insert] at hkey'
    split at hkey'
    next heq =>
      obtain rfl := Option.some.inj hkey'
      exact ⟨session, List.getElem?_concat_length, heq ▸ hkey⟩
    next =>
      obtain ⟨old, hold, hidentity⟩ := h.found key' i hkey'
      exact ⟨old, List.getElem?_append_left (List.getElem?_eq_some_iff.mp hold).1 ▸ hold, hidentity⟩
  · rw [BTreeMap.lookup_insert]
    split
    next => exact Option.some_ne_none _
    next hne =>
      rcases List.mem_append.mp hold with hold | hold
      · exact h.indexed old hold key' hkey'
      · rw [List.mem_singleton.mp hold] at hkey'
        exact absurd (Option.some.inj (hkey'.symm.trans hkey)) hne
  · rw [hmap, List.take_append_of_le_length (by rwa [List.length_map])]
    exact h.before_identities
  · rw [List.getElem?_append] at hold
    split at hold
    next => exact h.added i old hi hold
    next => exact List.mem_singleton.mp (List.mem_of_getElem? hold) ▸ hadded
  -- The new identity is none that was there.
  · rw [hdrop, List.nodup_append]
    refine ⟨h.distinct, List.nodup_singleton _, fun a ha b hb heq => ?_⟩
    exact hfresh (List.mem_singleton.mp hb ▸ heq ▸ List.mem_of_mem_drop ha)
  · rw [hdrop]
    intro identity hidentity hold
    rcases List.mem_append.mp hidentity with hidentity | hidentity
    · exact h.new identity hidentity hold
    · rw [List.mem_singleton.mp hidentity, ← h.before_identities] at hold
      exact hfresh (List.mem_of_mem_take hold)

theorem Merge.Sound.add (h : m.Sound before) (record : HostSession) (directory : String)
    (w : WorkspaceSnapshot) :
    (Merge.add newV5 record directory m w).Sound before := by
  unfold Merge.add
  dsimp only
  split
  next index _ => exact h.retitle record directory index
  next hnew =>
    split
    · exact h.push rfl ⟨rfl, rfl, rfl, rfl⟩ hnew
    · exact h

theorem Merge.Sound.addRecord (h : m.Sound before) (workspaces : List WorkspaceSnapshot)
    (record : HostSession) :
    (Merge.addRecord newV5 workspaces m record).Sound before := by
  unfold Merge.addRecord
  split
  · exact h
  next directory _ =>
    split
    · exact h
    next indices _ =>
      exact List.foldlRecOn _ _ h fun m hm w _ => hm.add record directory w

/-- The whole catalog. -/
theorem mergeCatalog_sound (newV5 : List UInt8 → String) (workspaces : List WorkspaceSnapshot)
    (sessions : List SessionProjection) (catalog : List HostSession) :
    (catalog.foldl (Merge.addRecord newV5 workspaces) (Merge.start sessions)).Sound sessions :=
  List.foldlRecOn _ _ (.start sessions) fun _ hm record _ => hm.addRecord workspaces record

end Merged

/-! ## The paths of one record -/

theorem applyDisplayNames_eq_indexed (sessions : List SessionProjection)
    (metadata : List SessionDisplayNameMetadata) :
    applyDisplayNames sessions metadata = applyIndexedNames sessions metadata := by
  unfold applyDisplayNames
  split
  next hempty =>
    rcases Bool.or_eq_true_iff.mp hempty with hnil | hnil
    · rw [List.isEmpty_iff.mp hnil]
      rfl
    · rw [List.isEmpty_iff.mp hnil]
      exact (List.map_id _).symm
  next =>
    split
    next _ record _ =>
      refine List.map_congr_left fun session _ => ?_
      rw [BTreeMap.lookup_collectFirst]
      by_cases hkey : session.metadataKey = record.key
      · simp [hkey]
      · simp [hkey, Ne.symm hkey]
    next => rfl

theorem filterHidden_eq_indexed (sessions : List SessionProjection)
    (metadata : List HiddenSessionMetadata) :
    filterHidden sessions metadata = filterIndexed sessions metadata := by
  unfold filterHidden
  split
  next hempty =>
    rcases Bool.or_eq_true_iff.mp hempty with hnil | hnil
    · rw [List.isEmpty_iff.mp hnil]
      rfl
    · rw [List.isEmpty_iff.mp hnil]
      exact (List.filter_eq_self.mpr fun _ _ => rfl).symm
  next =>
    split
    next _ record _ =>
      refine List.filter_congr fun session _ => ?_
      rw [Bool.eq_iff_iff, decide_eq_true_iff, Bool.not_eq_true', ← Bool.not_eq_true,
        BTreeMap.containsKey_iff]
      show _ ↔ ¬session.metadataKey ∈ (BTreeMap.insert BTreeMap.empty record.key ()).keys
      rw [BTreeMap.mem_keys_insert]
      simp [BTreeMap.keys, BTreeMap.empty]
    next => rfl

/-- Session projection. Every agent of a Workspace is one occurrence of one session, for the
occurrences of the sessions are those of the agents in some order; no two sessions share an id or an
external identity; the order of agents and Shells is of no account. A catalog keeps the sessions it
is merged into, up to description and missing directory, and adds sessions without occurrences, one
for an identity that had none. One record of the user's is applied as an index of records is. -/
theorem sessions_projected (newV5 : List UInt8 → String) (w : WorkspaceSnapshot) :
    (∃ sessions, projectWorkspace newV5 w = some sessions
      ∧ (sessions.flatMap (·.occurrences)).Perm (w.agents.map w.occurrence)
      ∧ ((∀ a ∈ w.agents, ∀ b ∈ w.agents, newV5 (w.nameOf a) = newV5 (w.nameOf b) →
        w.nameOf a = w.nameOf b) →
        w.Fits → (sessions.map (·.id)).Nodup)
      ∧ (sessions.filterMap (·.identity)).Nodup)
    ∧ (w.Distinct → ∀ w', w.Reordered w' → projectWorkspace newV5 w = projectWorkspace newV5 w')
    ∧ ∀ sessions : List SessionProjection,
      (∀ workspaces catalog, let merged := mergeCatalog newV5 workspaces sessions catalog
        (∀ (i : Nat) (session : SessionProjection), sessions[i]? = some session →
          ∃ session', merged[i]? = some session' ∧ session.Kept session')
        ∧ (∀ session ∈ merged.drop sessions.length, session.FromCatalog
          ∧ session.identity ∉ sessions.map (·.identity))
        ∧ ((merged.drop sessions.length).map (·.identity)).Nodup)
      ∧ (∀ metadata, applyDisplayNames sessions metadata = applyIndexedNames sessions metadata)
      ∧ ∀ metadata, filterHidden sessions metadata = filterIndexed sessions metadata := by
  refine ⟨?_, fun hw w' h => Reordered.projectWorkspace hw h, fun sessions =>
    ⟨fun workspaces catalog => ?_, applyDisplayNames_eq_indexed sessions,
      filterHidden_eq_indexed sessions⟩⟩
  · obtain ⟨sessions, hproject, hgroups⟩ := projectWorkspace_spec newV5 w
    -- The groups have different keys, and so the sessions have different names and identities.
    have hkeys : w.groups.entries.Pairwise fun entry entry' => entry.1 ≠ entry'.1 :=
      w.groups.sorted.imp ne_of_lt
    refine ⟨sessions, hproject, ?_, fun hv5 hfits => ?_, ?_⟩
    · exact (occurrences_perm hgroups).trans ((flatten_group_perm _ w.agents).map w.occurrence)
    · rw [List.Nodup, List.pairwise_map]
      exact pairwise_of_forall₂ hgroups hkeys fun _ _ _ _ h h' => h.id_ne hv5 hfits h'
    · rw [List.Nodup, List.pairwise_filterMap]
      exact pairwise_of_forall₂ hgroups hkeys fun _ _ _ _ h h' => h.identity_ne h'
  -- What the merge keeps, and what it adds.
  · have hsound := mergeCatalog_sound newV5 workspaces sessions catalog
    refine ⟨hsound.kept, fun session hsession => ⟨?_, ?_⟩, ?_⟩
    · obtain ⟨i, hi⟩ := List.mem_iff_getElem?.mp hsession
      rw [List.getElem?_drop] at hi
      exact hsound.added _ session (Nat.le_add_right _ _) hi
    · refine hsound.new _ ?_
      rw [← List.map_drop]
      exact List.mem_map_of_mem hsession
    · rw [List.map_drop]
      exact hsound.distinct

/-! ## Two sessions of one Workspace -/

/-- An agent that works in a running Shell. -/
def workingAgent : AgentInstanceSnapshot where
  id := "a1"
  workspaceId := "workspace-a"
  shellId := "s1"
  runId := "r1"
  name := "Investigate issue"
  integration := "codex"
  externalSessionId := some "thread-1"
  cwd := none
  startedAtMs := 1
  endedAtMs := none
  observation := ⟨1, .working, .lifecycleIntegration, "", 100, 2⟩

def activeShell : ShellSnapshot where
  id := "s1"
  workspaceId := "workspace-a"
  name := "amber-bear"
  cwd := "/tmp"
  command := ["codex"]
  status := .running
  run := some ⟨"r1"⟩

/-- Beside the agent one that has reported no session. -/
def activeWorkspace : WorkspaceSnapshot where
  id := "workspace-a"
  revision := 1
  name := "Project"
  defaultCwd := some "/tmp"
  shells := [activeShell]
  launchers := []
  agents :=
    [workingAgent, { workingAgent with id := "a2", runId := "r0", externalSessionId := none }]

/-- The UUIDs of the names of the two sessions. -/
def activeIds (name : List UInt8) : String :=
  if name = sessionName "workspace-a" "codex" "external:thread-1" then
    "fcf9ea51-ba20-556f-97fb-955aef55fb1b"
  else "2533a82e-3c39-58e7-90ef-d1497c37aee8"

/-- The two agents are two sessions with ids of their own, in either order of the agents. -/
theorem activeWorkspace_projected :
    (∃ sessions, projectWorkspace activeIds activeWorkspace = some sessions
      ∧ (sessions.map (·.id)).Nodup)
    ∧ projectWorkspace activeIds activeWorkspace
      = projectWorkspace activeIds
        { activeWorkspace with agents := activeWorkspace.agents.reverse } := by
  obtain ⟨⟨sessions, hproject, -, hids, -⟩, horder, -⟩ :=
    sessions_projected activeIds activeWorkspace
  refine ⟨⟨sessions, hproject, hids (by decide +kernel) ⟨?_, ?_, ?_, ?_⟩⟩, ?_⟩
  · unfold Workspaces.Fits
    decide +kernel
  · unfold Workspaces.Fits
    decide +kernel
  · unfold Workspaces.Fits
    decide +kernel
  · intro agent hagent id hid
    rcases List.mem_cons.mp hagent with rfl | hagent
    · obtain rfl := Option.some.inj hid
      unfold Workspaces.Fits
      decide +kernel
    · rw [List.mem_singleton.mp hagent] at hid
      cases hid
  · exact horder ⟨by decide +kernel, by decide +kernel⟩ _
      ⟨rfl, rfl, rfl, rfl, rfl, .refl _, (List.reverse_perm _).symm⟩

end Boomux.Workspaces
