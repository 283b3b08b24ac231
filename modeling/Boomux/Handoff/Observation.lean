import Boomux.Daemon.PersistedAgent
import Boomux.Handoff.Authority

/-!
# The observation of an agent

Runs of the calls that create, report, observe and acknowledge agents, beside Shells that start
and end their runs at any time. `ObservedAgents.log` is not in the source: it lists for each
agent the observations that were accepted and the acknowledgments, in order. `observed_sound`
says what every agent of every run keeps with respect to its log.
-/

set_option autoImplicit false

namespace Boomux.Handoff

open Rust Daemon Transition

/-! ## Histories -/

inductive AgentEvent
  | observed (observation : AgentObservationSnapshot)
  | acknowledged
  deriving DecidableEq, Repr

def AgentEvent.observation? : AgentEvent → Option AgentObservationSnapshot
  | observed o => some o
  | acknowledged => none

/-- The accepted observations. -/
def observations (log : List AgentEvent) : List AgentObservationSnapshot :=
  log.filterMap (·.observation?)

/-- An event after which no earlier attention stands: an acknowledgment, a report of new work,
or an observation that asks for attention itself. -/
def AgentEvent.Resolves : AgentEvent → Prop
  | observed o => o.state = .working ∨ o.state = .blocked ∨ o.state = .done
  | acknowledged => True

/-- The attention of the latest observation that asked for it and was not resolved since. -/
def Unresolved (log : List AgentEvent) (attention : AgentAttentionSnapshot) : Prop :=
  ∃ before o after, log = before ++ .observed o :: after ∧
    attentionForObservation o = some attention ∧ ∀ event ∈ after, ¬ event.Resolves

/-! ## Runs -/

structure ObservedAgents where
  authority : Authority
  log : String → List AgentEvent

/-- The reading of `unix_time_ms` when `millis` milliseconds have passed since the epoch. -/
def unixTimeMs (millis : Nat) : Nat := min millis u64Max

/-- A call, with the fresh UUID and the clock that it reads; `cwd` is the working directory of
the Shell. `lifecycles` is anything that happens to the Shells. -/
inductive AgentCall
  | register (id : String) (millis : Nat) (cwd shellId runId : String)
      (spec : AgentRegistrationSpec)
  | ensure (id : String) (millis : Nat) (cwd shellId runId : String)
      (spec : AgentRegistrationSpec)
  | report (millis : Nat) (agentId runId : String) (report : AgentReport)
  | observeWorkingContext (millis : Nat) (agentId shellId runId : String)
      (context : AgentWorkingContextSnapshot)
  | acknowledge (agentId : String) (observationRevision : Nat)
  | lifecycles (shells : Shells)

namespace ObservedAgents

variable (w : ObservedAgents)

/-- A UUID that no agent has, and a working directory that the Shell's creation accepted. -/
def canCreate (id cwd : String) : Bool :=
  (agentOf w.authority.agents id).isNone && isAbsolute cwd

/-- The log after an event of an agent. -/
def note (agentId : String) (events : List AgentEvent) : String → List AgentEvent :=
  Function.update w.log agentId (w.log agentId ++ events)

/-- A new agent begins its history with the observation it registers. -/
def created (authority : Authority) (agent : AgentInstance) : ObservedAgents :=
  ⟨authority, Function.update w.log agent.id [.observed agent.state.observation]⟩

/-- One call; a call that fails changes nothing. -/
def step : AgentCall → Option ObservedAgents
  | .register id millis cwd shellId runId spec =>
      if !w.canCreate id cwd then none
      else match w.authority.registerAgent id (unixTimeMs millis) (some cwd) shellId runId spec with
        | .error _ => some w
        | .ok (authority, agent) => some (w.created authority agent)
  | .ensure id millis cwd shellId runId spec =>
      if !w.canCreate id cwd then none
      else match w.authority.ensureAgent id (unixTimeMs millis) (some cwd) shellId runId spec with
        | .error _ => some w
        | .ok (authority, agent, true) => some (w.created authority agent)
        | .ok (authority, _, false) => some { w with authority := authority }
  | .report millis agentId runId report =>
      match w.authority.reportAgent (unixTimeMs millis) agentId runId report with
      | .error _ => some w
      | .ok (authority, outcome) => some ⟨authority, w.note agentId
          (if outcome.changed then [.observed outcome.state.observation] else [])⟩
  | .observeWorkingContext millis agentId shellId runId context =>
      match w.authority.observeAgentWorkingContext (unixTimeMs millis) agentId shellId runId
          context with
      | .error _ => some w
      | .ok authority => some { w with authority := authority }
  | .acknowledge agentId observationRevision =>
      match w.authority.acknowledgeAgentAttention agentId observationRevision with
      | .error _ => some w
      | .ok authority => some ⟨authority, w.note agentId
          (if (agentOf w.authority.agents agentId).any (·.state.attention.isSome) then
            [.acknowledged] else [])⟩
  | .lifecycles shells => some { w with authority := { w.authority with shells := shells } }

/-- Before the first agent is registered. -/
def initial (shells : Shells) : ObservedAgents := ⟨⟨shells, [], [], []⟩, fun _ => []⟩

end ObservedAgents

/-! ## What an agent keeps -/

/-- What an agent is with respect to its history. -/
structure AgentSound (log : List AgentEvent) (agent : AgentInstance) : Prop where
  /-- The observation is the last one accepted. -/
  latest : (observations log).getLast? = some agent.state.observation
  /-- The revisions of the accepted observations are 1, 2, 3 and so on. -/
  numbered : (observations log).map (·.revision) = List.range' 1 (observations log).length
  /-- Their authority never gets lower. -/
  ranked : (observations log).Pairwise fun a b =>
    agentAuthorityRank a.authority ≤ agentAuthorityRank b.authority
  /-- Nothing is accepted after Done. -/
  finished : ∀ o ∈ (observations log).dropLast, o.state ≠ .done
  ended : agent.state.endedAtMs.isSome = true ↔ agent.state.observation.state = .done
  attended : ∀ attention, agent.state.attention = some attention ↔ Unresolved log attention
  attention_le : ∀ attention ∈ agent.state.attention,
    attention.observation.revision ≤ agent.state.observation.revision
  roots : (agent.state.workingContexts.map fun c => pathComponents c.worktreeRoot).Nodup
  newest_first : agent.state.workingContexts.Pairwise fun a b => b.observedAtMs ≤ a.observedAtMs
  length_le : agent.state.workingContexts.length ≤ maxAgentWorkingContexts
  valid : validatePersistedAgent agent = .ok ()

/-- The part that the proofs carry along: the history, and that the agent can be stored. -/
structure Tracked (log : List AgentEvent) (agent : AgentInstance) : Prop where
  latest : (observations log).getLast? = some agent.state.observation
  numbered : (observations log).map (·.revision) = List.range' 1 (observations log).length
  ranked : (observations log).Pairwise fun a b =>
    agentAuthorityRank a.authority ≤ agentAuthorityRank b.authority
  finished : ∀ o ∈ (observations log).dropLast, o.state ≠ .done
  attended : ∀ attention, agent.state.attention = some attention ↔ Unresolved log attention
  storable : Storable agent
  clock : agent.startedAtMs ≤ u64Max ∧ agent.state.observation.observedAtMs ≤ u64Max

theorem Tracked.sound {log : List AgentEvent} {agent : AgentInstance} (h : Tracked log agent) :
    AgentSound log agent where
  latest := h.latest
  numbered := h.numbered
  ranked := h.ranked
  finished := h.finished
  ended := h.storable.ended_iff_done
  attended := h.attended
  attention_le attention hattention := (h.storable.attention attention hattention).revision_le
  roots := h.storable.contexts.roots
  newest_first := h.storable.contexts.newest_first
  length_le := h.storable.contexts.length_le
  valid := h.storable.validatePersistedAgent

/-! ## Attention and the history -/

variable {log : List AgentEvent} {agent : AgentInstance} {event : AgentEvent}
  {attention : AgentAttentionSnapshot} {o : AgentObservationSnapshot}

theorem observations_append_observed :
    observations (log ++ [.observed o]) = observations log ++ [o] := by
  simp [observations, AgentEvent.observation?]

theorem observations_append_acknowledged :
    observations (log ++ [.acknowledged]) = observations log := by
  simp [observations, AgentEvent.observation?]

/-- An event either asks for attention itself, or leaves what it does not resolve. -/
theorem unresolved_append : Unresolved (log ++ [event]) attention ↔
    (∃ o, event = .observed o ∧ attentionForObservation o = some attention) ∨
      (Unresolved log attention ∧ ¬ event.Resolves) := by
  constructor
  · rintro ⟨before, o, after, hlog, ho, hafter⟩
    rcases List.eq_nil_or_concat after with rfl | ⟨rest, last, rfl⟩
    · obtain ⟨-, he⟩ := List.append_inj' hlog rfl
      exact .inl ⟨o, (List.singleton_inj.mp he), ho⟩
    · have hsplit : log ++ [event] = (before ++ .observed o :: rest) ++ [last] := by
        rw [hlog]
        simp
      obtain ⟨hbefore, he⟩ := List.append_inj' hsplit rfl
      obtain rfl := List.singleton_inj.mp he
      refine .inr ⟨⟨before, o, rest, hbefore, ho, fun e hmem => ?_⟩, ?_⟩
      · exact hafter e (by simp [hmem])
      · exact hafter event (by simp)
  · rintro (⟨o, rfl, ho⟩ | ⟨⟨before, o, after, rfl, ho, hafter⟩, hnot⟩)
    · exact ⟨log, o, [], rfl, ho, fun e hmem => absurd hmem List.not_mem_nil⟩
    · refine ⟨before, o, after ++ [event], by simp, ho, fun e hmem => ?_⟩
      rcases List.mem_append.mp hmem with hmem | hmem
      · exact hafter e hmem
      · exact List.mem_singleton.mp hmem ▸ hnot

theorem observation_of_attention (h : attentionForObservation o = some attention) :
    attention.observation = o := by
  unfold attentionForObservation at h
  split at h <;> cases h <;> rfl

theorem resolves_of_attention (h : attentionForObservation o = some attention) :
    (AgentEvent.observed o).Resolves := by
  unfold attentionForObservation at h
  split at h
  next hstate => exact .inr (.inl hstate)
  next hstate => exact .inr (.inr hstate)
  next => cases h

/-! ## The calls on one agent -/

section Calls

variable {millis : Nat} {report : AgentReport} {outcome : ReportOutcome}
  {spec : AgentRegistrationSpec}

theorem unixTimeMs_le (millis : Nat) : unixTimeMs millis ≤ u64Max := Nat.min_le_right _ _

theorem validateAgentRegistration_eq_ok : validateAgentRegistration spec = .ok () ↔
    validateName spec.name = .ok () ∧
      validateRequiredAgentString "integration" spec.integration maxNameBytes = .ok () ∧
      (∀ id ∈ spec.externalSessionId,
        validateRequiredAgentString "external_session_id" id maxNameBytes = .ok ()) ∧
      validateAgentReport spec.report = .ok () := by
  unfold validateAgentRegistration
  cases spec.externalSessionId with
  | none => simp [bind_eq_ok, Unique.exists_iff]
  | some id => simp [bind_eq_ok, Unique.exists_iff]

theorem new_tracked (millis : Nat) (id workspaceId shellId runId : String) {cwd : String}
    (hspec : validateAgentRegistration spec = .ok ()) (hcwd : isAbsolute cwd = true) :
    Tracked
      [.observed (AgentInstance.new id workspaceId shellId runId (some cwd) (unixTimeMs millis)
        spec).state.observation]
      (AgentInstance.new id workspaceId shellId runId (some cwd) (unixTimeMs millis) spec) where
  latest := rfl
  numbered := rfl
  ranked := List.pairwise_singleton _ _
  finished o ho := absurd ho List.not_mem_nil
  attended attention := by
    have happend : Unresolved ([] ++ [.observed (AgentInstance.new id workspaceId shellId runId
        (some cwd) (unixTimeMs millis) spec).state.observation]) attention ↔ _ :=
      unresolved_append
    rw [List.nil_append] at happend
    rw [happend]
    constructor
    · exact fun h => .inl ⟨_, rfl, h⟩
    · rintro (⟨o, he, ho⟩ | ⟨⟨before, o, after, hlog, -⟩, -⟩)
      · cases he
        exact ho
      · simp at hlog
  clock := ⟨unixTimeMs_le millis, unixTimeMs_le millis⟩
  storable :=
    { registration := hspec
      cwd := by
        rintro c ⟨⟩
        exact hcwd
      contexts := ⟨by simp [AgentInstance.new], by simp [AgentInstance.new],
        by simp [AgentInstance.new], .nil, .nil, Nat.zero_le _⟩
      revision_pos := Nat.one_pos
      started_le := Nat.le_refl _
      ended := by
        intro endedAtMs h
        unfold AgentInstance.new at h ⊢
        dsimp only at h ⊢
        split at h
        next => cases h; exact Nat.le_refl _
        next => cases h
      ended_iff_done := AgentInstance.new_endedIffDone ..
      attention := by
        intro attention h
        have hobservation : attention.observation = (AgentInstance.new id workspaceId shellId runId
            (some cwd) (unixTimeMs millis) spec).state.observation :=
          observation_of_attention h
        have hreport := (validateAgentRegistration_eq_ok.mp hspec).2.2.2
        refine ⟨?_, ?_, ?_, ?_, ?_, ?_, fun _ => hobservation, fun _ => hobservation⟩
        all_goals rw [hobservation]
        · exact hreport
        · exact h
        · exact Nat.one_pos
        all_goals exact Nat.le_refl _ }

/-- A new observation of an agent that has not ended. -/
theorem attended_observed (hattended : ∀ a, agent.state.attention = some a ↔ Unresolved log a)
    (hvalid : ∀ a ∈ agent.state.attention, Attends agent a)
    (hdone : agent.state.observation.state ≠ .done) (attention : AgentAttentionSnapshot) :
    agent.state.attentionAfter o = some attention ↔
      Unresolved (log ++ [.observed o]) attention := by
  rw [unresolved_append, ← hattended]
  unfold AgentInstanceState.attentionAfter
  cases hnew : attentionForObservation o with
  | some a =>
      constructor
      · intro h
        exact .inl ⟨o, rfl, hnew.trans h⟩
      · rintro (⟨o', he, ho'⟩ | ⟨-, hnot⟩)
        · cases he
          exact hnew.symm.trans ho'
        · exact absurd (resolves_of_attention hnew) hnot
  | none =>
      have hfirst : ¬ ∃ o', AgentEvent.observed o = .observed o' ∧
          attentionForObservation o' = some attention := by
        rintro ⟨o', he, ho'⟩
        cases he
        cases hnew.symm.trans ho'
      have hresolves : (AgentEvent.observed o).Resolves ↔ o.state = .working := by
        unfold attentionForObservation at hnew
        constructor
        · rintro (hstate | hstate | hstate)
          · exact hstate
          · simp [hstate] at hnew
          · simp [hstate] at hnew
        · exact .inl
      rw [or_iff_right hfirst, hresolves]
      by_cases hworking : o.state = .working
      · have hblocked : ∀ a ∈ agent.state.attention, a.reason = .blocked := by
          intro a ha
          cases hreason : a.reason with
          | blocked => rfl
          | completed =>
              have hof := (hvalid a ha).of_observation
              have hsame := (hvalid a ha).completed hreason
              rw [hsame] at hof
              unfold attentionForObservation at hof
              split at hof
              next => rw [← Option.some.inj hof] at hreason; cases hreason
              next hstate => exact absurd hstate hdone
              next => cases hof
        cases hcurrent : agent.state.attention with
        | none => simp [hworking]
        | some a => simp [hworking, hblocked a hcurrent]
      · simp [hworking]

theorem observed_tracked (h : Tracked log agent) (hnone : agent.state.endedAtMs = none)
    (hreport : validateAgentReport report = .ok ())
    (hrank : agentAuthorityRank agent.state.observation.authority ≤
      agentAuthorityRank report.authority) :
    Tracked (log ++ [.observed (agent.state.observed agent.startedAtMs (unixTimeMs millis) report)])
      { agent with state := { agent.state with
          endedAtMs := if report.state = .done then
            some (agent.state.observed agent.startedAtMs (unixTimeMs millis) report).observedAtMs
            else none
          observation := agent.state.observed agent.startedAtMs (unixTimeMs millis) report
          attention := agent.state.attentionAfter
            (agent.state.observed agent.startedAtMs (unixTimeMs millis) report) } } := by
  obtain ⟨hlatest, hnumbered, hranked, hfinished, hattended, hstorable, hclock⟩ := h
  -- An agent that has not ended is not done, so that its next observation is the next number.
  have hdone : agent.state.observation.state ≠ .done := by
    intro hdone
    have := hstorable.ended_iff_done.mpr hdone
    rw [hnone] at this
    cases this
  obtain ⟨before, hbefore⟩ : ∃ before,
      observations log = before ++ [agent.state.observation] :=
    ⟨_, (List.dropLast_append_getLast? _ hlatest).symm⟩
  -- The observations are numbered from one, so the last one tells how many there are.
  have hlength : (observations log).length = agent.state.observation.revision := by
    have hlast := congrArg List.getLast? hnumbered
    rw [List.getLast?_map, hlatest, List.getLast?_range'] at hlast
    rw [hbefore] at hlast ⊢
    simp at hlast
    simp [hlast]
  have hobserved : agent.state.observation.observedAtMs ≤
      (agent.state.observed agent.startedAtMs (unixTimeMs millis) report).observedAtMs :=
    Nat.le_max_right _ _
  have hstarted : agent.startedAtMs ≤
      (agent.state.observed agent.startedAtMs (unixTimeMs millis) report).observedAtMs :=
    hstorable.started_le.trans hobserved
  refine ⟨?_, ?_, ?_, ?_, ?_, ?_, ?_⟩
  · rw [observations_append_observed, List.getLast?_append]
    rfl
  · rw [observations_append_observed, List.map_append, hnumbered, List.length_append,
      List.length_singleton, List.range'_concat, hlength, Nat.one_mul, Nat.add_comm 1]
    rfl
  -- The rank of an observation is at least that of the last one, and so of all before.
  · rw [observations_append_observed, List.pairwise_append]
    refine ⟨hranked, List.pairwise_singleton _ _, fun a ha b hb => ?_⟩
    obtain rfl := List.mem_singleton.mp hb
    refine le_trans ?_ hrank
    rw [hbefore, List.pairwise_append] at hranked
    rw [hbefore] at ha
    rcases List.mem_append.mp ha with hmem | hmem
    · exact hranked.2.2 a hmem _ (List.mem_singleton_self _)
    · rw [List.mem_singleton.mp hmem]
  · rw [observations_append_observed, List.dropLast_concat]
    intro o ho
    rw [hbefore] at ho hfinished
    rw [List.dropLast_concat] at hfinished
    rcases List.mem_append.mp ho with hmem | hmem
    · exact hfinished o hmem
    · rw [List.mem_singleton.mp hmem]
      exact hdone
  · exact attended_observed hattended hstorable.attention hdone
  · refine ⟨?_, hstorable.cwd, hstorable.contexts, Nat.succ_pos _, hstarted, ?_, ?_, ?_⟩
    · obtain ⟨hname, hintegration, hsession, -⟩ :=
        validateAgentRegistration_eq_ok.mp hstorable.registration
      exact validateAgentRegistration_eq_ok.mpr ⟨hname, hintegration, hsession, hreport⟩
    · intro endedAtMs hended
      dsimp only at hended
      split at hended
      next => cases hended; exact hstarted
      next => cases hended
    · unfold AgentInstanceState.EndedIffDone
      show _ ↔ report.state = .done
      by_cases hd : report.state = .done <;> simp [hd]
    · intro attention hattention
      have hafter : agent.state.attentionAfter
          (agent.state.observed agent.startedAtMs (unixTimeMs millis) report) = some attention :=
        hattention
      unfold AgentInstanceState.attentionAfter at hafter
      split at hafter
      -- The attention is the new observation's.
      next a hnew =>
        obtain rfl := Option.some.inj hafter
        have hsame := observation_of_attention hnew
        refine ⟨?_, ?_, ?_, ?_, ?_, ?_, fun _ => hsame, fun _ => hsame⟩
        all_goals rw [hsame]
        · exact hreport
        · exact hnew
        · exact Nat.succ_pos _
        · exact hstarted
      -- The attention is the one before, about an older observation that was not a done one.
      next hnew =>
        have hold : agent.state.attention = some attention := by
          split at hafter
          next => cases hafter
          next => exact hafter
        have hattends := hstorable.attention attention hold
        have hlt : attention.observation.revision <
            (agent.state.observed agent.startedAtMs (unixTimeMs millis) report).revision :=
          Nat.lt_succ_of_le hattends.revision_le
        refine ⟨hattends.report, hattends.of_observation, hattends.revision_pos, hlt.le,
          hattends.started_le, hattends.observed_le.trans hobserved, fun he => ?_, fun hc => ?_⟩
        · exact absurd he hlt.ne
        · have hof := hattends.of_observation
          rw [hattends.completed hc] at hof
          unfold attentionForObservation at hof
          split at hof
          next => rw [← Option.some.inj hof] at hc; cases hc
          next hstate => exact absurd hstate hdone
          next => cases hof
  · refine ⟨hclock.1, ?_⟩
    exact max_le (max_le (unixTimeMs_le millis) hclock.1) hclock.2

theorem report_tracked (h : Tracked log agent) (hreport : validateAgentReport report = .ok ())
    (hok : agent.state.report agent.startedAtMs (unixTimeMs millis) report = .ok outcome) :
    Tracked (log ++ if outcome.changed then [.observed outcome.state.observation] else [])
      { agent with state := outcome.state } := by
  obtain ⟨hstate, hchanged⟩ | ⟨hnone, hchanged, hrank, hstate⟩ := agent.state.report_cases hok
  · rw [hstate, hchanged]
    simpa using h
  · rw [hstate, hchanged]
    exact observed_tracked h hnone hreport hrank

theorem acknowledge_tracked (h : Tracked log agent) {state : AgentInstanceState} {changed : Bool}
    {revision : Nat} (hok : agent.state.acknowledge revision = .ok (state, changed)) :
    Tracked (log ++ if agent.state.attention.isSome then [.acknowledged] else [])
      { agent with state := state } := by
  unfold AgentInstanceState.acknowledge at hok
  split at hok
  next hnone =>
    cases hok
    rw [hnone]
    simpa using h
  next attention hsome =>
    split at hok
    next => cases hok
    next =>
      cases hok
      rw [hsome]
      obtain ⟨hlatest, hnumbered, hranked, hfinished, -, hstorable, hclock⟩ := h
      simp only [Option.isSome_some, if_true]
      refine ⟨?_, ?_, ?_, ?_, fun a => ?_, ?_, hclock⟩
      · rwa [observations_append_acknowledged]
      · rwa [observations_append_acknowledged]
      · rwa [observations_append_acknowledged]
      · rwa [observations_append_acknowledged]
      · rw [unresolved_append]
        simp [AgentEvent.Resolves]
      · obtain ⟨hreg, hcwd, hcontexts, hpos, hstarted, hended, hdone, -⟩ := hstorable
        exact ⟨hreg, hcwd, hcontexts, hpos, hstarted, hended, hdone, by simp⟩

/-- The new context goes first, with the latest of all the clocks. -/
theorem observeWorkingContext_ranked (millis : Nat) (h : Tracked log agent)
    {context : AgentWorkingContextSnapshot} (hcontext : validateWorkingContext context = .ok ()) :
    Ranked agent.startedAtMs (agent.state.observeWorkingContext agent.startedAtMs
      (unixTimeMs millis) context).1.workingContexts := by
  have hranked := h.storable.contexts
  unfold AgentInstanceState.observeWorkingContext
  dsimp only
  split
  next => exact hranked
  next =>
    set observedAtMs := max (max (max (unixTimeMs millis) agent.startedAtMs)
      agent.state.observation.observedAtMs)
      ((agent.state.workingContexts.head?.map (·.observedAtMs)).getD 0) with hdef
    have hsublist : (agent.state.workingContexts.filter
        (!samePath ·.worktreeRoot context.worktreeRoot)).Sublist agent.state.workingContexts :=
      List.filter_sublist
    have hstarted : agent.startedAtMs ≤ observedAtMs := by omega
    have hfirst : ∀ c ∈ agent.state.workingContexts, c.observedAtMs ≤ observedAtMs := by
      intro c hc
      cases hcontexts : agent.state.workingContexts with
      | nil => rw [hcontexts] at hc; cases hc
      | cons first rest =>
          have hnewest := hranked.newest_first
          rw [hcontexts] at hc hnewest
          have hle : first.observedAtMs ≤ observedAtMs := by
            rw [hdef, hcontexts]
            exact Nat.le_max_right _ _
          rcases List.mem_cons.mp hc with rfl | hmem
          · exact hle
          · exact ((List.pairwise_cons.mp hnewest).1 c hmem).trans hle
    have hclock : observedAtMs ≤ u64Max := by
      refine max_le (max_le (max_le (unixTimeMs_le millis) h.clock.1) h.clock.2) ?_
      cases hcontexts : agent.state.workingContexts with
      | nil => exact Nat.zero_le _
      | cons first rest =>
          exact hranked.clock first (by rw [hcontexts]; exact List.mem_cons_self)
    refine ⟨fun c hc => ?_, fun c hc => ?_, fun c hc => ?_, ?_, ?_, ?_⟩
    · rcases List.mem_cons.mp (List.mem_of_mem_take hc) with rfl | hmem
      · exact hcontext
      · exact hranked.checked c (hsublist.subset hmem)
    · rcases List.mem_cons.mp (List.mem_of_mem_take hc) with rfl | hmem
      · exact hstarted
      · exact hranked.started_le c (hsublist.subset hmem)
    · rcases List.mem_cons.mp (List.mem_of_mem_take hc) with rfl | hmem
      · exact hclock
      · exact hranked.clock c (hsublist.subset hmem)
    · refine List.Pairwise.sublist (List.take_sublist _ _) (List.pairwise_cons.mpr ⟨?_, ?_⟩)
      · exact fun c hc => hfirst c (hsublist.subset hc)
      · exact hranked.newest_first.sublist hsublist
    · refine List.Nodup.sublist ((List.take_sublist _ _).map _) ?_
      rw [List.map_cons]
      refine List.nodup_cons.mpr ⟨fun hmem => ?_, hranked.roots.sublist (hsublist.map _)⟩
      obtain ⟨c, hc, he⟩ := List.mem_map.mp hmem
      have hdiffer := (List.mem_filter.mp hc).2
      rw [Bool.not_eq_true', ← Bool.not_eq_true, samePath_iff] at hdiffer
      exact hdiffer he
    · rw [List.length_take]
      exact Nat.min_le_left _ _

theorem observeWorkingContext_tracked (millis : Nat) (h : Tracked log agent)
    {context : AgentWorkingContextSnapshot} (hcontext : validateWorkingContext context = .ok ()) :
    Tracked log { agent with state := (agent.state.observeWorkingContext agent.startedAtMs
      (unixTimeMs millis) context).1 } := by
  have hranked := observeWorkingContext_ranked millis h hcontext
  obtain ⟨hlatest, hnumbered, hrank, hfinished, hattended, hstorable, hclock⟩ := h
  have hrest : ∃ contexts, (agent.state.observeWorkingContext agent.startedAtMs
      (unixTimeMs millis) context).1 = { agent.state with workingContexts := contexts } := by
    unfold AgentInstanceState.observeWorkingContext
    dsimp only
    split
    next => exact ⟨_, rfl⟩
    next => exact ⟨_, rfl⟩
  obtain ⟨contexts, he⟩ := hrest
  rw [he] at hranked ⊢
  obtain ⟨hreg, hcwd, -, hpos, hstarted, hended, hdone, hattention⟩ := hstorable
  refine ⟨hlatest, hnumbered, hrank, hfinished, hattended,
    ⟨hreg, hcwd, hranked, hpos, hstarted, hended, hdone, fun a ha => ?_⟩, hclock⟩
  obtain ⟨h1, h2, h3, h4, h5, h6, h7, h8⟩ := hattention a ha
  exact ⟨h1, h2, h3, h4, h5, h6, h7, h8⟩

end Calls

/-! ## The agents of a run -/

/-- What every run keeps. -/
structure ObservedAgents.Kept (w : ObservedAgents) : Prop where
  distinct : Keyed.Distinct AgentInstance.id w.authority.agents
  tracked : ∀ agent ∈ w.authority.agents, Tracked (w.log agent.id) agent

namespace ObservedAgents

variable {w u : ObservedAgents} {authority : Authority} {millis : Nat}
  {id cwd shellId runId agentId : String} {spec : AgentRegistrationSpec}

theorem initial_kept (shells : Shells) : (initial shells).Kept where
  distinct := List.nodup_nil
  tracked _ h := absurd h List.not_mem_nil

/-- A Shell may do anything. -/
theorem Kept.shells (h : w.Kept) (shells : Shells) :
    Kept { w with authority := { w.authority with shells := shells } } :=
  ⟨h.distinct, h.tracked⟩

theorem created_kept (h : w.Kept) (hcan : w.canCreate id cwd = true)
    (hok : w.authority.registerAgent id (unixTimeMs millis) (some cwd) shellId runId spec =
      .ok (authority, agent)) : (w.created authority agent).Kept := by
  obtain ⟨hfresh, hcwd⟩ : agentOf w.authority.agents id = none ∧ isAbsolute cwd = true := by
    simpa [canCreate] using hcan
  simp only [Authority.registerAgent, bind_eq_ok, liftIo, mapError_eq_ok] at hok
  obtain ⟨_, hspec, _, -, hok⟩ := hok
  split at hok
  next => cases hok
  next shell hshell =>
    split at hok
    next => cases hok
    next =>
      simp only [require_bind_eq_ok, Except.ok.injEq, Prod.mk.injEq] at hok
      obtain ⟨-, rfl, rfl⟩ := hok
      have hnew := new_tracked millis id shell.workspaceId shellId runId hspec hcwd
      refine ⟨h.distinct.append_singleton hfresh, fun agent hmem => ?_⟩
      rcases List.mem_append.mp hmem with hold | hlast
      · have hne : agent.id ≠ id := Keyed.get_eq_none.mp hfresh agent hold
        show Tracked (Function.update w.log id _ agent.id) agent
        rw [Function.update_of_ne hne]
        exact h.tracked agent hold
      · obtain rfl := List.mem_singleton.mp hlast
        show Tracked (Function.update w.log id _ id) _
        rw [Function.update_self]
        exact hnew

/-- One agent's state is replaced, and its log goes on. -/
theorem set_kept (h : w.Kept) {state : AgentInstanceState} (events : List AgentEvent)
    (hagent : agentOf w.authority.agents agentId = some agent)
    (htracked : Tracked (w.log agentId ++ events) { agent with state := state }) :
    Kept ⟨w.authority.setAgentState agentId state, w.note agentId events⟩ := by
  refine ⟨h.distinct.adjust fun _ _ he => he, fun b hb => ?_⟩
  rcases Keyed.mem_adjust.mp hb with ⟨hmem, hne⟩ | ⟨a, hmem, hid, rfl⟩
  · show Tracked (Function.update w.log agentId _ b.id) b
    rw [Function.update_of_ne hne]
    exact h.tracked b hmem
  · obtain ⟨hmem', hid'⟩ := h.distinct.get_eq_some.mp hagent
    obtain rfl : a = agent := List.inj_on_of_nodup_map h.distinct hmem hmem' (hid.trans hid'.symm)
    show Tracked (Function.update w.log agentId _ a.id) _
    subst hid
    rw [Function.update_self]
    exact htracked

theorem Kept.of_agent (h : w.Kept) (hagent : agentOf w.authority.agents agentId = some agent) :
    Tracked (w.log agentId) agent := by
  have htracked := h.tracked agent (Keyed.mem_of_get hagent)
  rwa [Keyed.key_of_get hagent] at htracked

theorem ensured_kept {created : Bool} (h : w.Kept) (hcan : w.canCreate id cwd = true)
    (hok : w.authority.ensureAgent id (unixTimeMs millis) (some cwd) shellId runId spec =
      .ok (authority, agent, created)) :
    if created then (w.created authority agent).Kept
    else Kept { w with authority := authority } := by
  simp only [Authority.ensureAgent, bind_eq_ok] at hok
  obtain ⟨-, -, -, -, hok⟩ := hok
  split at hok
  next => cases hok
  next =>
    split at hok
    next =>
      obtain ⟨⟨t, new⟩, hnew, he⟩ := bind_eq_ok.mp hok
      cases he
      exact created_kept h hcan hnew
    next =>
      cases hok
      exact h
    next =>
      split at hok
      next =>
        cases hok
        exact h
      next => cases hok

theorem reported_kept {report : AgentReport} {outcome : ReportOutcome} (h : w.Kept)
    (hok : w.authority.reportAgent (unixTimeMs millis) agentId runId report =
      .ok (authority, outcome)) :
    Kept ⟨authority, w.note agentId
      (if outcome.changed then [.observed outcome.state.observation] else [])⟩ := by
  simp only [Authority.reportAgent, bind_eq_ok, liftIo, mapError_eq_ok] at hok
  obtain ⟨_, hreport, _, -, hok⟩ := hok
  split at hok
  next => cases hok
  next agent hagent =>
    rw [require_bind_eq_ok, bind_eq_ok] at hok
    obtain ⟨-, outcome', houtcome, he⟩ := hok
    cases he
    exact set_kept h _ hagent (report_tracked (h.of_agent hagent) hreport houtcome)

theorem acknowledged_kept {revision : Nat} (h : w.Kept)
    (hok : w.authority.acknowledgeAgentAttention agentId revision = .ok authority) :
    Kept ⟨authority, w.note agentId
      (if (agentOf w.authority.agents agentId).any (·.state.attention.isSome) then
        [.acknowledged] else [])⟩ := by
  unfold Authority.acknowledgeAgentAttention at hok
  split at hok
  next => cases hok
  next agent hagent =>
    obtain ⟨⟨state, changed⟩, hstate, he⟩ := bind_eq_ok.mp hok
    cases he
    rw [hagent]
    exact set_kept h _ hagent (acknowledge_tracked (h.of_agent hagent) hstate)

theorem contextObserved_kept {context : AgentWorkingContextSnapshot} (h : w.Kept)
    (hok : w.authority.observeAgentWorkingContext (unixTimeMs millis) agentId shellId runId
      context = .ok authority) : Kept { w with authority := authority } := by
  simp only [Authority.observeAgentWorkingContext, bind_eq_ok, liftIo, mapError_eq_ok] at hok
  obtain ⟨_, hcontext, hok⟩ := hok
  split at hok
  next => cases hok
  next agent hagent =>
    simp only [require_bind_eq_ok, Except.ok.injEq] at hok
    obtain ⟨-, -, -, -, rfl⟩ := hok
    have htracked := observeWorkingContext_tracked millis (h.of_agent hagent) hcontext
    have hkept := set_kept h [] hagent (by rwa [List.append_nil])
    have hlog : w.note agentId [] = w.log := by
      unfold note
      rw [List.append_nil, Function.update_eq_self]
    rwa [hlog] at hkept

theorem step_kept {call : AgentCall} (h : w.Kept) (hs : w.step call = some u) : u.Kept := by
  cases call with
  | register id millis cwd shellId runId spec =>
      simp only [step] at hs
      split at hs
      next => cases hs
      next hcan =>
        split at hs
        next => cases hs; exact h
        next hok => cases hs; exact created_kept h (by simpa using hcan) hok
  | ensure id millis cwd shellId runId spec =>
      simp only [step] at hs
      split at hs
      next => cases hs
      next hcan =>
        split at hs
        next => cases hs; exact h
        next hok => cases hs; exact ensured_kept h (by simpa using hcan) hok
        next hok => cases hs; exact ensured_kept h (by simpa using hcan) hok
  | report millis agentId runId report =>
      simp only [step] at hs
      split at hs
      next => cases hs; exact h
      next hok => cases hs; exact reported_kept h hok
  | observeWorkingContext millis agentId shellId runId context =>
      simp only [step] at hs
      split at hs
      next => cases hs; exact h
      next hok => cases hs; exact contextObserved_kept h hok
  | acknowledge agentId observationRevision =>
      simp only [step] at hs
      split at hs
      next => cases hs; exact h
      next hok => cases hs; exact acknowledged_kept h hok
  | lifecycles shells =>
      cases hs
      exact h.shells shells

end ObservedAgents

/-- Every agent of every run is sound with respect to its own history. -/
theorem observed_sound (shells : Shells) (calls : List AgentCall) (w : ObservedAgents)
    (h : exec ObservedAgents.step (.initial shells) calls = some w) :
    ∀ agent ∈ w.authority.agents, AgentSound (w.log agent.id) agent := by
  have hkept : w.Kept := Reach.invariant (ObservedAgents.initial_kept shells)
    (fun t call u ht _ hs => ObservedAgents.step_kept ht hs) (reach_of_exec_true h)
  exact fun agent hmem => (hkept.tracked agent hmem).sound

/-- A Shell that runs `r`. -/
private def runningShells : Shells :=
  AList.singleton "s" ⟨"w", none, .running ⟨none, none, none, none, 24, 80, 0, 0⟩ ⟨"r", 1, none, 0⟩⟩

/-- An agent works, is blocked, is acknowledged, gets a new context and is done. -/
private def agentCalls : List AgentCall :=
  [.register "a" 5 "/w" "s" "r" ⟨"n", "i", none, ⟨.working, .processAdapter, "e", 50⟩⟩,
    .report 7 "a" "r" ⟨.blocked, .processAdapter, "e", 50⟩,
    .acknowledge "a" 2,
    .observeWorkingContext 6 "a" "s" "r" ⟨"/w", "r", "b", 0⟩,
    .report 6 "a" "r" ⟨.done, .lifecycleIntegration, "e", 50⟩]

theorem observed_sound_done : ∃ w, exec ObservedAgents.step (.initial runningShells) agentCalls =
    some w ∧ w.authority.agents.map (·.state.endedAtMs) = [some 7] ∧
      ∀ agent ∈ w.authority.agents, AgentSound (w.log agent.id) agent := by
  have hsome : ((exec ObservedAgents.step (.initial runningShells) agentCalls).map
      fun w => w.authority.agents.map (·.state.endedAtMs)) = some [some 7] := by decide +kernel
  obtain ⟨w, hw, hended⟩ := Option.map_eq_some_iff.mp hsome
  exact ⟨w, hw, hended, observed_sound runningShells agentCalls w hw⟩

end Boomux.Handoff
