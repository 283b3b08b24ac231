import Boomux.Daemon.Agents
import Boomux.Daemon.Projection
import Boomux.Nodes.Cache

/-!
# The owner of a projection

The agents of a Node and its event stream, as far as another Node sees them. A mutation changes the
agents in memory; then a save runs without the locks, and once it has answered the events of the
mutation are appended, or the agents are put back. A sync may come at any time. `AgentTable.used`
and `ProjectionOwner.streams` are not in the source: they are the UUIDs that have been given so far.

`AgentTable.Operated` says what a mutation does to the revisions that have already been published:
an agent comes back to none of them, and does not show an attention of one again.
-/

set_option autoImplicit false

namespace Boomux.Nodes

open Rust
open Daemon

/-! ## Data -/

/-- The agents, with the ids that have been given to agents. -/
structure AgentTable where
  agents : List AgentInstance
  used : List String
  deriving DecidableEq, Repr

/-- What a mutation does to an agent. A closed Shell or Workspace removes its agents. -/
inductive AgentOperation
  | register (agentId workspaceId shellId runId : String) (cwd : Option String) (now : Nat)
      (spec : AgentRegistrationSpec)
  | report (agentId runId : String) (now : Nat) (report : AgentReport)
  | acknowledge (agentId : String) (observationRevision : Nat)
  | observeWorkingContext (agentId : String) (now : Nat) (context : AgentWorkingContextSnapshot)
  | close (agentIds : List String)
  deriving DecidableEq, Repr

/-- `saving` is the change that a save runs for: the agents before it, and its events. -/
structure ProjectionOwner where
  table : AgentTable
  saving : Option (List AgentInstance × List DaemonEventKind)
  events : EventStreamState
  streams : List String
  deriving DecidableEq, Repr

inductive OwnerAction
  | mutate (operations : List AgentOperation)
  | finish (saved : Bool)
  | publish (kinds : List DaemonEventKind)
  | restart (streamId : String) (agents : List AgentInstance)
  deriving DecidableEq, Repr

/-- `NodeProjectionAgent`, with the fields that the cache does not read. -/
structure ObservedAgent extends NodeProjectionAgent where
  state : AgentState
  observationRevision : Nat
  deriving DecidableEq, Repr

/-- `NodeProjectionSync`; `observed` are the agents of the projection. -/
structure NodeSync where
  mode : NodeProjectionSyncMode
  cursor : EventCursor
  projection : NodeProjectionSnapshot
  observed : List ObservedAgent
  transitions : List NodeProjectionTransition
  capabilities : List String
  deriving DecidableEq, Repr

/-! ## Mutations -/

/-- The agent and the revision that an `Agent` transition names. -/
def agentChange (kind : DaemonEventKind) : Option (String × Nat) :=
  match kind.reduce with
  | some (.agent _ agentId revision) => some (agentId, revision)
  | _ => none

/-- The events of a registration. -/
def registeredEvents (agent : AgentInstance) : List DaemonEventKind :=
  .agentRegistered agent.workspaceId agent.shellId agent.snapshot ::
    if agent.state.endedAtMs.isSome then
      [.agentCompleted agent.workspaceId agent.shellId agent.snapshot]
    else []

/-- The events of a report. -/
def reportedEvents (agent : AgentInstance) (changed completed : Bool) : List DaemonEventKind :=
  if !changed then []
  else if completed then [.agentCompleted agent.workspaceId agent.shellId agent.snapshot]
  else [.agentStateChanged agent.workspaceId agent.shellId agent.snapshot]

namespace AgentTable

variable (t : AgentTable)

/-- Writing an agent's state. -/
def set (agent : AgentInstance) : AgentTable :=
  { t with agents := Keyed.adjust AgentInstance.id t.agents agent.id fun _ => agent }

/-- One operation, with its events. -/
def operate : AgentOperation → Option (AgentTable × List DaemonEventKind)
  | .register agentId workspaceId shellId runId cwd now spec =>
      match validateAgentRegistration spec,
        validateExternalAgentAuthority spec.report.authority with
      | .ok (), .ok () =>
          if agentId ∈ t.used then none
          else
            let agent := AgentInstance.new agentId workspaceId shellId runId cwd now spec
            some (⟨Keyed.upsert AgentInstance.id t.agents agent, agentId :: t.used⟩,
              registeredEvents agent)
      | _, _ => none
  | .report agentId runId now report =>
      match validateAgentReport report, validateExternalAgentAuthority report.authority,
        Keyed.get AgentInstance.id t.agents agentId with
      | .ok (), .ok (), some agent =>
          if agent.runId ≠ runId then none
          else
            match agent.state.report agent.startedAtMs now report with
            | .error _ => none
            | .ok outcome =>
                let agent := { agent with state := outcome.state }
                some (t.set agent, reportedEvents agent outcome.changed outcome.completed)
      | _, _, _ => none
  | .acknowledge agentId observationRevision =>
      match Keyed.get AgentInstance.id t.agents agentId with
      | none => none
      | some agent =>
          match agent.state.acknowledge observationRevision with
          | .error _ => none
          | .ok (state, changed) =>
              let agent := { agent with state := state }
              some (t.set agent, if changed then
                [.agentAttentionAcknowledged agent.workspaceId agent.shellId agent.snapshot]
              else [])
  | .observeWorkingContext agentId now context =>
      match validateWorkingContext context, Keyed.get AgentInstance.id t.agents agentId with
      | .ok (), some agent =>
          let (state, changed) := agent.state.observeWorkingContext agent.startedAtMs now context
          let agent := { agent with state := state }
          some (t.set agent, if changed then
            [.agentWorkingContextObserved agent.workspaceId agent.shellId agent.snapshot]
          else [])
      | _, _ => none
  | .close agentIds => some ({ t with agents := t.agents.filter (·.id ∉ agentIds) }, [])

/-- The operations of one mutation. -/
def operateAll (t : AgentTable) :
    List AgentOperation → Option (AgentTable × List DaemonEventKind)
  | [] => some (t, [])
  | operation :: operations =>
      (t.operate operation).bind fun (u, kinds) =>
        (operateAll u operations).map fun (v, more) => (v, kinds ++ more)

end AgentTable

/-! ## Runs of the owner -/

/-- `AgentInstance::node_projection`. -/
def nodeProjection (agent : AgentInstance) : ObservedAgent where
  id := agent.id
  workspaceId := agent.workspaceId
  shellId := agent.shellId
  name := agent.name
  attention := agent.state.attention.map fun attention =>
    ⟨attention.reason, attention.observation.revision, attention.observation.observedAtMs⟩
  state := agent.state.observation.state
  observationRevision := agent.state.observation.revision

namespace ProjectionOwner

variable (o : ProjectionOwner)

/-- The agents once the running save has failed. -/
def committed : List AgentInstance := (o.saving.map (·.1)).getD o.table.agents

/-- `mutate` runs under the mutation lock up to the save, `finish` from its answer on; `publish` is
every other append, and `restart` begins a new stream with what was restored. -/
def step : OwnerAction → Option ProjectionOwner
  | .mutate operations =>
      if o.saving.isSome then none
      else
        (o.table.operateAll operations).map fun (table, kinds) =>
          { o with table := table, saving := some (o.table.agents, kinds) }
  | .finish saved =>
      o.saving.map fun (previous, kinds) =>
        if saved then
          { o with saving := none, events := appendBatchLocked none o.events kinds }
        else { o with saving := none, table := { o.table with agents := previous } }
  | .publish kinds =>
      if kinds.all fun kind => (agentChange kind).isNone then
        some { o with events := appendBatchLocked none o.events kinds }
      else none
  | .restart streamId agents =>
      if streamId ∈ o.streams ∨ ¬ (agents.map (·.id)).Nodup then none
      else
        some
          { table := ⟨agents, agents.map (·.id) ++ o.table.used⟩
            saving := none
            events := ⟨streamId, 0, [], []⟩
            streams := streamId :: o.streams }

/-- `node_projection_sync`; the rest of the projection is an argument. -/
def sync (frame : NodeProjectionSnapshot) (capabilities : List String)
    (after : Option EventCursor) : NodeSync :=
  let cursor : EventCursor := ⟨o.events.streamId, o.events.latestId⟩
  let (mode, transitions) := projectionTransitions o.events after cursor
  let observed := o.table.agents.map nodeProjection
  { mode := mode
    cursor := cursor
    projection := { frame with agents := observed.map (·.toNodeProjectionAgent) }
    observed := observed
    transitions := transitions
    capabilities := capabilities }

end ProjectionOwner

/-! ## Published revisions -/

/-- The agent shows an attention of its present revision. -/
def shows (agent : AgentInstance) (revision : Nat) : Prop :=
  agent.state.observation.revision = revision ∧
    ∃ attention, agent.state.attention = some attention ∧
      attention.observation.revision = revision

/-- The agent is at the revision, beyond it, or gone. -/
def Passed (agents : List AgentInstance) (agentId : String) (revision : Nat) : Prop :=
  ∀ agent, Keyed.get AgentInstance.id agents agentId = some agent →
    revision ≤ agent.state.observation.revision

/-- The agent does not show the attention of the revision. -/
def Spent (agents : List AgentInstance) (agentId : String) (revision : Nat) : Prop :=
  ∀ agent, Keyed.get AgentInstance.id agents agentId = some agent → ¬ shows agent revision

namespace AgentTable

/-- The agents have different ids, which have been given. -/
structure Ok (t : AgentTable) : Prop where
  distinct : Keyed.Distinct AgentInstance.id t.agents
  used : ∀ agent ∈ t.agents, agent.id ∈ t.used

/-- What operations do to the revisions published before them, and what their events name. -/
structure Operated (t u : AgentTable) (kinds : List DaemonEventKind) : Prop where
  ok : t.Ok → u.Ok
  used : t.used ⊆ u.used
  passed : ∀ agentId revision, agentId ∈ t.used → Passed t.agents agentId revision →
    Passed u.agents agentId revision
  spent : ∀ agentId revision, agentId ∈ t.used → Passed t.agents agentId revision →
    Spent t.agents agentId revision → Spent u.agents agentId revision
  named : ∀ kind ∈ kinds, ∀ agentId revision, agentChange kind = some (agentId, revision) →
    agentId ∈ u.used ∧ Passed u.agents agentId revision ∧
      (agentId ∈ t.used → Passed t.agents agentId revision → Spent u.agents agentId revision)

variable {t u v : AgentTable} {kinds more : List DaemonEventKind}

theorem Operated.refl (t : AgentTable) : Operated t t [] :=
  ⟨id, List.Subset.refl _, fun _ _ _ h => h, fun _ _ _ _ h => h, nofun⟩

theorem Operated.trans (h : Operated t u kinds) (h' : Operated u v more) :
    Operated t v (kinds ++ more) where
  ok ht := h'.ok (h.ok ht)
  used := List.Subset.trans h.used h'.used
  passed agentId revision hu hp := h'.passed _ _ (h.used hu) (h.passed _ _ hu hp)
  spent agentId revision hu hp hs :=
    h'.spent _ _ (h.used hu) (h.passed _ _ hu hp) (h.spent _ _ hu hp hs)
  named kind hk agentId revision hc := by
    rcases List.mem_append.mp hk with hk | hk
    · obtain ⟨hu, hp, hspent⟩ := h.named kind hk _ _ hc
      exact ⟨h'.used hu, h'.passed _ _ hu hp, fun hold hpassed =>
        h'.spent _ _ hu hp (hspent hold hpassed)⟩
    · obtain ⟨hu, hp, hspent⟩ := h'.named kind hk _ _ hc
      exact ⟨hu, hp, fun hold hpassed => hspent (h.used hold) (h.passed _ _ hold hpassed)⟩

/-- One agent is written: its revision does not go back, and an attention that it did not show
before is of a later revision. -/
theorem Operated.set {old new : AgentInstance}
    (hget : Keyed.get AgentInstance.id t.agents old.id = some old) (hid : new.id = old.id)
    (hle : old.state.observation.revision ≤ new.state.observation.revision)
    (hshow : ∀ revision, shows new revision →
      shows old revision ∨ old.state.observation.revision < revision)
    (hkinds : ∀ kind ∈ kinds, ∀ agentId revision, agentChange kind = some (agentId, revision) →
      agentId = old.id ∧ revision = new.state.observation.revision ∧
        (shows new revision → old.state.observation.revision < revision)) (ht : t.Ok) :
    Operated t (t.set new) kinds := by
  have hmem : old.id ∈ t.used := ht.used old (Keyed.mem_of_get hget)
  have hget' : ∀ k, Keyed.get AgentInstance.id (t.set new).agents k =
      if k = old.id then some new else Keyed.get AgentInstance.id t.agents k := by
    intro k
    unfold AgentTable.set
    dsimp only
    rw [hid, Keyed.get_adjust fun _ _ _ => hid]
    by_cases hk : k = old.id
    · rw [if_pos hk, if_pos hk, hk, hget]
      rfl
    · rw [if_neg hk, if_neg hk]
  refine ⟨fun _ => ⟨?_, ?_⟩, List.Subset.refl _, ?_, ?_, ?_⟩
  · unfold AgentTable.set
    exact ht.distinct.adjust fun _ _ _ => rfl
  · intro agent hagent
    rcases Keyed.mem_adjust.mp hagent with ⟨hagent, -⟩ | ⟨-, -, -, rfl⟩
    · exact ht.used agent hagent
    · rw [hid]
      exact hmem
  · intro agentId revision _ hp agent hagent
    rw [hget'] at hagent
    split at hagent
    next heq =>
      cases hagent
      rw [heq] at hp
      exact (hp old hget).trans hle
    next => exact hp agent hagent
  · intro agentId revision _ hp hs agent hagent hshows
    rw [hget'] at hagent
    split at hagent
    next heq =>
      cases hagent
      rw [heq] at hp hs
      rcases hshow revision hshows with hold | hlt
      · exact hs old hget hold
      · exact absurd (hp old hget) (by omega)
    next => exact hs agent hagent hshows
  · intro kind hk agentId revision hc
    obtain ⟨rfl, rfl, hnew⟩ := hkinds kind hk _ _ hc
    refine ⟨hmem, ?_, ?_⟩
    · intro agent hagent
      rw [hget', if_pos rfl] at hagent
      cases hagent
      exact le_rfl
    · intro _ hp agent hagent hshows
      rw [hget', if_pos rfl] at hagent
      cases hagent
      exact absurd (hp old hget) (by have := hnew hshows; omega)

/-- A write that names no revision leaves what the agent shows. -/
theorem Operated.set_same {old new : AgentInstance}
    (hget : Keyed.get AgentInstance.id t.agents old.id = some old) (hid : new.id = old.id)
    (hrevision : new.state.observation.revision = old.state.observation.revision)
    (hattention : new.state.attention = old.state.attention ∨ new.state.attention = none)
    (hkinds : ∀ kind ∈ kinds, ∀ agentId revision, agentChange kind = some (agentId, revision) →
      agentId = old.id ∧ revision = new.state.observation.revision ∧ ¬ shows new revision)
    (ht : t.Ok) : Operated t (t.set new) kinds := by
  refine .set hget hid hrevision.ge (fun revision hshows => ?_) (fun kind hk agentId revision hc =>
    ?_) ht
  · obtain ⟨hr, attention, hsome, ha⟩ := hshows
    rcases hattention with hsame | hnone
    · exact .inl ⟨hrevision ▸ hr, attention, hsame ▸ hsome, ha⟩
    · rw [hnone] at hsome
      cases hsome
  · obtain ⟨hagent, hr, hnot⟩ := hkinds kind hk agentId revision hc
    exact ⟨hagent, hr, fun hshows => absurd hshows hnot⟩

theorem agentChange_registeredEvents {agent : AgentInstance} :
    ∀ kind ∈ registeredEvents agent,
      agentChange kind = some (agent.id, agent.state.observation.revision) := by
  intro kind hk
  unfold registeredEvents at hk
  rcases List.mem_cons.mp hk with rfl | hk
  · rfl
  · split at hk
    · rw [List.mem_singleton.mp hk]
      rfl
    · cases hk

theorem agentChange_reportedEvents {agent : AgentInstance} {changed completed : Bool} :
    ∀ kind ∈ reportedEvents agent changed completed, changed = true ∧
      agentChange kind = some (agent.id, agent.state.observation.revision) := by
  intro kind hk
  unfold reportedEvents at hk
  split at hk
  · cases hk
  next hchanged =>
    refine ⟨by simpa using hchanged, ?_⟩
    split at hk <;>
      · rw [List.mem_singleton.mp hk]
        rfl

/-- An accepted report is at the next revision. -/
theorem operated_report {agent : AgentInstance} {now : Nat} {report : AgentReport}
    {outcome : ReportOutcome} (hget : Keyed.get AgentInstance.id t.agents agent.id = some agent)
    (h : agent.state.report agent.startedAtMs now report = .ok outcome) (ht : t.Ok) :
    Operated t (t.set { agent with state := outcome.state })
      (reportedEvents { agent with state := outcome.state } outcome.changed outcome.completed) := by
  rcases agent.state.report_cases h with ⟨hsame, hunchanged⟩ | ⟨-, -, -, hstate⟩
  · rw [hsame]
    refine .set_same hget rfl rfl (.inl rfl) (fun kind hk => ?_) ht
    have := (agentChange_reportedEvents kind hk).1
    rw [hunchanged] at this
    cases this
  · have hrevision : outcome.state.observation.revision = agent.state.observation.revision + 1 := by
      rw [hstate]
      rfl
    refine .set hget rfl (by rw [hrevision]; omega) (fun revision hshows => ?_)
      (fun kind hk agentId revision hc => ?_) ht
    · have hr : outcome.state.observation.revision = revision := hshows.1
      exact .inr (by omega)
    · have := (agentChange_reportedEvents kind hk).2
      rw [hc] at this
      obtain ⟨rfl, rfl⟩ := Prod.mk.inj (Option.some.inj this)
      exact ⟨rfl, rfl, fun _ => by show _ < outcome.state.observation.revision; omega⟩

theorem operated_acknowledge {agent : AgentInstance} {observationRevision : Nat}
    {state : AgentInstanceState} {changed : Bool}
    (hget : Keyed.get AgentInstance.id t.agents agent.id = some agent)
    (h : agent.state.acknowledge observationRevision = .ok (state, changed)) (ht : t.Ok) :
    Operated t (t.set { agent with state := state }) (if changed then
      [.agentAttentionAcknowledged agent.workspaceId agent.shellId
        ({ agent with state := state } : AgentInstance).snapshot] else []) := by
  unfold AgentInstanceState.acknowledge at h
  split at h
  · cases h
    exact .set_same hget rfl rfl (.inl rfl) (fun kind hk => by cases hk) ht
  next attention hattention =>
    split at h
    · cases h
    · cases h
      refine .set_same hget rfl rfl (.inr rfl) (fun kind hk agentId revision hc => ?_) ht
      rw [if_pos rfl, List.mem_singleton] at hk
      subst hk
      obtain ⟨rfl, rfl⟩ := Prod.mk.inj (Option.some.inj hc)
      exact ⟨rfl, rfl, fun ⟨_, _, hsome, _⟩ => by cases hsome⟩

theorem operated_observeWorkingContext {agent : AgentInstance} {now : Nat}
    {context : AgentWorkingContextSnapshot} {state : AgentInstanceState} {changed : Bool}
    (hget : Keyed.get AgentInstance.id t.agents agent.id = some agent)
    (h : agent.state.observeWorkingContext agent.startedAtMs now context = (state, changed))
    (ht : t.Ok) : Operated t (t.set { agent with state := state }) (if changed then
      [.agentWorkingContextObserved agent.workspaceId agent.shellId
        ({ agent with state := state } : AgentInstance).snapshot] else []) := by
  have hkept : state.observation = agent.state.observation ∧
      state.attention = agent.state.attention := by
    unfold AgentInstanceState.observeWorkingContext at h
    dsimp only at h
    split at h <;>
      · cases h
        exact ⟨rfl, rfl⟩
  refine .set_same hget rfl (congrArg _ hkept.1) (.inl hkept.2) (fun kind hk agentId revision hc =>
    ?_) ht
  split at hk
  · rw [List.mem_singleton.mp hk] at hc
    cases hc
  · cases hk

/-- A new agent has an id that was not given before. -/
theorem operated_register {agent : AgentInstance} (hnew : agent.id ∉ t.used) (ht : t.Ok) :
    Operated t ⟨Keyed.upsert AgentInstance.id t.agents agent, agent.id :: t.used⟩
      (registeredEvents agent) := by
  have hget : ∀ k, k ≠ agent.id →
      Keyed.get AgentInstance.id (Keyed.upsert AgentInstance.id t.agents agent) k =
        Keyed.get AgentInstance.id t.agents k := fun k hk => by
    rw [Keyed.get_upsert, if_neg hk.symm]
  have hold : ∀ k ∈ t.used, k ≠ agent.id := fun k hk heq => hnew (heq ▸ hk)
  refine ⟨fun _ => ⟨ht.distinct.upsert, fun other hother => ?_⟩, List.subset_cons_self _ _,
    fun k revision hk hp => ?_, fun k revision hk hp hs => ?_, fun kind hk agentId revision hc =>
      ?_⟩
  · rcases Keyed.mem_upsert.mp hother with rfl | ⟨hother, -⟩
    · exact List.mem_cons_self
    · exact List.mem_cons_of_mem _ (ht.used other hother)
  · intro other hother
    rw [hget k (hold k hk)] at hother
    exact hp other hother
  · intro other hother
    rw [hget k (hold k hk)] at hother
    exact hs other hother
  · rw [agentChange_registeredEvents kind hk] at hc
    obtain ⟨rfl, rfl⟩ := Prod.mk.inj (Option.some.inj hc)
    refine ⟨List.mem_cons_self, fun other hother => ?_, fun hu => absurd hu hnew⟩
    rw [Keyed.get_upsert, if_pos rfl] at hother
    cases hother
    exact le_rfl

theorem operated_close (agentIds : List String) (ht : t.Ok) :
    Operated t { t with agents := t.agents.filter (·.id ∉ agentIds) } [] := by
  have hsub : ∀ {k : String} {agent : AgentInstance}, Keyed.get AgentInstance.id
      (t.agents.filter (·.id ∉ agentIds)) k = some agent →
        Keyed.get AgentInstance.id t.agents k = some agent := by
    intro k agent hagent
    rw [ht.distinct.get_filter, Option.filter_eq_some_iff] at hagent
    exact hagent.1
  exact ⟨fun _ => ⟨ht.distinct.filter _, fun agent hagent =>
      ht.used agent (List.mem_filter.mp hagent).1⟩, List.Subset.refl _,
    fun _ _ _ hp agent hagent => hp agent (hsub hagent),
    fun _ _ _ _ hs agent hagent => hs agent (hsub hagent), nofun⟩

theorem operate_operated {operation : AgentOperation}
    (h : t.operate operation = some (u, kinds)) (ht : t.Ok) : Operated t u kinds := by
  cases operation with
  | register agentId workspaceId shellId runId cwd now spec =>
      simp only [operate] at h
      split at h
      · split at h
        · cases h
        next hnew =>
          cases h
          exact operated_register
            hnew ht
      · cases h
  | report agentId runId now report =>
      simp only [operate] at h
      split at h
      next agent _ _ hget =>
        obtain rfl : agent.id = agentId := Keyed.key_of_get hget
        split at h
        · cases h
        · split at h
          · cases h
          next outcome hreport =>
            cases h
            exact operated_report hget hreport ht
      · cases h
  | acknowledge agentId observationRevision =>
      simp only [operate] at h
      split at h
      · cases h
      next agent hget =>
        obtain rfl : agent.id = agentId := Keyed.key_of_get hget
        split at h
        · cases h
        next state changed hack =>
          cases h
          exact operated_acknowledge hget hack ht
  | observeWorkingContext agentId now context =>
      simp only [operate] at h
      split at h
      next agent _ hget =>
        obtain rfl : agent.id = agentId := Keyed.key_of_get hget
        cases h
        exact operated_observeWorkingContext hget rfl ht
      · cases h
  | close agentIds =>
      simp only [operate, Option.some.injEq, Prod.mk.injEq] at h
      obtain ⟨rfl, rfl⟩ := h
      exact operated_close agentIds ht

theorem operateAll_operated {operations : List AgentOperation}
    (h : t.operateAll operations = some (u, kinds)) (ht : t.Ok) : Operated t u kinds := by
  induction operations generalizing t kinds with
  | nil =>
      cases h
      exact .refl _
  | cons operation operations ih =>
      obtain ⟨⟨v, first⟩, hv, h⟩ := Option.bind_eq_some_iff.mp h
      obtain ⟨⟨u', rest⟩, hu, heq⟩ := Option.map_eq_some_iff.mp h
      cases heq
      have hfirst := operate_operated hv ht
      exact hfirst.trans (ih hu (hfirst.ok ht))

end AgentTable

/-! ## Steps of the owner -/

/-- The events of a longer log are the old ones and those appended. -/
theorem mem_appendBatchLocked {transition : Option Nat} {s : EventStreamState}
    {kinds : List DaemonEventKind} {e : DaemonEvent}
    (h : e ∈ (appendBatchLocked transition s kinds).log) : e ∈ s.log ∨ e.kind ∈ kinds := by
  obtain ⟨rest, hrest⟩ := (EventStreamState.Grows.appendBatchLocked s transition kinds).log
  have hstamps := appendBatchLocked_stamps transition s kinds
  rw [EventStreamState.stamps, EventStreamState.stamps, ← hrest, List.map_append,
    List.append_cancel_left_eq] at hstamps
  rw [← hrest] at h
  rcases List.mem_append.mp h with h | h
  · exact .inl h
  · have hmem : e.stamp ∈ kinds.map (transition, ·) := by
      rw [← hstamps]
      exact List.mem_map_of_mem h
    obtain ⟨kind, hk, heq⟩ := List.mem_map.mp hmem
    exact .inr ((Prod.mk.inj heq).2 ▸ hk)

theorem mem_log_le {s : EventStreamState} (h : s.Contiguous) : ∀ e ∈ s.log, e.id ≤ s.latestId := by
  intro e he
  have hid : e.id ∈ s.log.map (·.id) := List.mem_map_of_mem he
  have hle := h.le
  rw [h.ids, List.mem_range'_1] at hid
  omega

namespace ProjectionOwner

variable {o u : ProjectionOwner} {agentId : String} {revision mark : Nat}

/-- The stream has an event with the revision of the agent. -/
def Published (o : ProjectionOwner) (agentId : String) (revision : Nat) : Prop :=
  ∃ e ∈ o.events.log, agentChange e.kind = some (agentId, revision)

/-- An event of the revision after the mark finds its attention no longer shown. -/
def Final (o : ProjectionOwner) (agentId : String) (revision mark : Nat) : Prop :=
  ∀ e ∈ o.events.log, agentChange e.kind = some (agentId, revision) → mark < e.id →
    Spent o.table.agents agentId revision ∧ Spent o.committed agentId revision

/-- What holds of an owner: a published revision has been passed, and a running save is of
operations on the agents that it may put back. -/
structure Ok (o : ProjectionOwner) : Prop where
  contiguous : o.events.Contiguous
  stream : o.events.streamId ∈ o.streams
  table : o.table.Ok
  published : ∀ agentId revision, o.Published agentId revision → agentId ∈ o.table.used ∧
    Passed o.table.agents agentId revision ∧ Passed o.committed agentId revision
  saving : ∀ previous kinds, o.saving = some (previous, kinds) → ∃ used,
    (⟨previous, used⟩ : AgentTable).Ok ∧ AgentTable.Operated ⟨previous, used⟩ o.table kinds ∧
      ∀ agentId revision, o.Published agentId revision → agentId ∈ used

theorem committed_of_idle (h : o.saving = none) : o.committed = o.table.agents := by
  rw [committed, h]
  rfl

theorem committed_of_saving {previous : List AgentInstance} {kinds : List DaemonEventKind}
    (h : o.saving = some (previous, kinds)) : o.committed = previous := by
  rw [committed, h]
  rfl

/-- One step: the facts about a revision published before it stay. -/
theorem Ok.step {action : OwnerAction} (h : o.Ok) (hs : o.step action = some u) :
    u.Ok ∧ o.streams ⊆ u.streams ∧
      (u.events.streamId = o.events.streamId →
        o.events.latestId ≤ u.events.latestId ∧ ∀ agentId revision,
          o.Published agentId revision → u.Published agentId revision ∧
            ∀ mark, o.Final agentId revision mark → u.Final agentId revision mark) ∧
      (u.events.streamId ≠ o.events.streamId → u.events.streamId ∉ o.streams) := by
  cases action with
  | mutate operations =>
      simp only [ProjectionOwner.step] at hs
      split at hs
      · cases hs
      next hidle =>
        obtain ⟨⟨table, kinds⟩, hall, rfl⟩ := Option.map_eq_some_iff.mp hs
        have hidle : o.saving = none := by simpa using hidle
        have hoperated := AgentTable.operateAll_operated hall h.table
        have hcommitted := committed_of_idle hidle
        -- The table changes and nothing is published yet; the save decides.
        refine ⟨⟨h.contiguous, h.stream, hoperated.ok h.table, fun k r hp => ?_, ?_⟩,
          List.Subset.refl _, fun _ => ⟨le_rfl, fun k r hp => ⟨hp, fun m hf e he hc hm => ?_⟩⟩,
          fun hne => absurd rfl hne⟩
        · obtain ⟨hu, hpassed, -⟩ := h.published k r hp
          exact ⟨hoperated.used hu, hoperated.passed k r hu hpassed, hpassed⟩
        · rintro previous kinds' heq
          cases heq
          exact ⟨o.table.used, h.table, hoperated, fun k r hp => (h.published k r hp).1⟩
        · obtain ⟨hu, hpassed, -⟩ := h.published k r hp
          have hspent := (hf e he hc hm).1
          exact ⟨hoperated.spent k r hu hpassed hspent, hspent⟩
  | finish saved =>
      obtain ⟨⟨previous, kinds⟩, hsaving, rfl⟩ := Option.map_eq_some_iff.mp hs
      obtain ⟨used, hprevious, hoperated, hused⟩ := h.saving previous kinds hsaving
      have hcommitted := committed_of_saving hsaving
      cases saved with
      | false =>
          -- The save failed: the table is the one before, which all that is published is about.
          refine ⟨⟨h.contiguous, h.stream, ⟨hprevious.distinct, fun agent ha =>
              hoperated.used (hprevious.used agent ha)⟩, fun k r hp => ?_, nofun⟩,
            List.Subset.refl _, fun _ => ⟨le_rfl, fun k r hp => ⟨hp, fun m hf e he hc hm => ?_⟩⟩,
            fun hne => absurd rfl hne⟩
          · obtain ⟨hu, -, hpassed⟩ := h.published k r hp
            rw [hcommitted] at hpassed
            exact ⟨hu, hpassed, hpassed⟩
          · have hspent := (hf e he hc hm).2
            rw [hcommitted] at hspent
            exact ⟨hspent, hspent⟩
      | true =>
          have hgrows := EventStreamState.Grows.appendBatchLocked o.events none kinds
          -- The batch is published: its events name revisions that the new table has used.
          refine ⟨⟨hgrows.contiguous h.contiguous, ?_, h.table, fun k r hp => ?_, nofun⟩,
            List.Subset.refl _, fun _ => ⟨?_, fun k r hp => ⟨?_, fun m hf e he hc hm => ?_⟩⟩,
            fun hne => absurd hgrows.streamId hne⟩
          · show (appendBatchLocked none o.events kinds).streamId ∈ o.streams
            rw [hgrows.streamId]
            exact h.stream
          · obtain ⟨e, he, hc⟩ := hp
            rcases mem_appendBatchLocked he with he | hk
            · obtain ⟨hu, hpassed, -⟩ := h.published k r ⟨e, he, hc⟩
              exact ⟨hu, hpassed, hpassed⟩
            · obtain ⟨hu, hpassed, -⟩ := hoperated.named e.kind hk k r hc
              exact ⟨hu, hpassed, hpassed⟩
          · show _ ≤ (appendBatchLocked none o.events kinds).latestId
            rw [appendBatchLocked_latestId]
            omega
          · obtain ⟨e, he, hc⟩ := hp
            exact ⟨e, hgrows.log.subset he, hc⟩
          · -- an event of the batch is about an agent that had passed the revision before
            rcases mem_appendBatchLocked he with he | hk
            · exact ⟨(hf e he hc hm).1, (hf e he hc hm).1⟩
            · obtain ⟨-, -, hpassed⟩ := h.published k r hp
              rw [hcommitted] at hpassed
              have hspent := (hoperated.named e.kind hk k r hc).2.2 (hused k r hp) hpassed
              exact ⟨hspent, hspent⟩
  | publish kinds =>
      simp only [ProjectionOwner.step] at hs
      split at hs
      next hkinds =>
        cases hs
        have hgrows := EventStreamState.Grows.appendBatchLocked o.events none kinds
        -- None of these events is about an agent.
        have hold : ∀ e ∈ (appendBatchLocked none o.events kinds).log, ∀ k r,
            agentChange e.kind = some (k, r) → e ∈ o.events.log := by
          intro e he k r hc
          rcases mem_appendBatchLocked he with he | hk
          · exact he
          · have hnone := List.all_eq_true.mp hkinds e.kind hk
            rw [hc] at hnone
            cases hnone
        refine ⟨⟨hgrows.contiguous h.contiguous, ?_, h.table, fun k r ⟨e, he, hc⟩ =>
            h.published k r ⟨e, hold e he k r hc, hc⟩, fun previous kinds' heq => ?_⟩,
          List.Subset.refl _, fun _ => ⟨?_, fun k r hp => ⟨?_, fun m hf e he hc hm => ?_⟩⟩,
          fun hne => absurd hgrows.streamId hne⟩
        · show (appendBatchLocked none o.events kinds).streamId ∈ o.streams
          rw [hgrows.streamId]
          exact h.stream
        · obtain ⟨used, hprevious, hoperated, hused⟩ := h.saving previous kinds' heq
          exact ⟨used, hprevious, hoperated, fun k r ⟨e, he, hc⟩ =>
            hused k r ⟨e, hold e he k r hc, hc⟩⟩
        · show _ ≤ (appendBatchLocked none o.events kinds).latestId
          rw [appendBatchLocked_latestId]
          omega
        · obtain ⟨e, he, hc⟩ := hp
          exact ⟨e, hgrows.log.subset he, hc⟩
        · exact hf e (hold e he k r hc) hc hm
      next => cases hs
  | restart streamId agents =>
      simp only [ProjectionOwner.step] at hs
      split at hs
      · cases hs
      next hnew =>
        cases hs
        simp only [not_or, not_not] at hnew
        -- A new stream has no events, so that there is nothing published to keep.
        refine ⟨⟨⟨Nat.zero_le _, rfl⟩, List.mem_cons_self, ⟨hnew.2, fun agent ha =>
            List.mem_append_left _ (List.mem_map_of_mem ha)⟩, ?_, nofun⟩,
          List.subset_cons_self _ _, fun hsame => ?_, fun _ => hnew.1⟩
        · rintro k r ⟨e, he, -⟩
          cases he
        · exact absurd h.stream (hsame ▸ hnew.1)

end ProjectionOwner

end Boomux.Nodes
