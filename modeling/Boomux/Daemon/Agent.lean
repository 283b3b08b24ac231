import Boomux.Daemon.Error

/-!
# Agent instances

What the registry keeps of an agent, the checks on a registration and on a report, and what a
report does to an agent. A path is the text of its bytes. The functions on `AgentInstanceState`
are what the source does under the agent's mutex; who the agent is never changes.
-/

set_option autoImplicit false

namespace Boomux.Daemon

open Rust

/-! ## Data -/

/-- `AgentState`. -/
inductive AgentState
  | unknown | working | blocked | idle | inactive | done
  deriving DecidableEq, Repr

/-- `AgentAuthority`. -/
inductive AgentAuthority
  | lifecycleIntegration | processAdapter | terminalHeuristic | daemonLifecycle
  deriving DecidableEq, Repr

/-- `AgentReport`. -/
structure AgentReport where
  state : AgentState
  authority : AgentAuthority
  evidence : String
  confidence : Nat
  deriving DecidableEq, Repr

/-- `AgentRegistrationSpec`. -/
structure AgentRegistrationSpec where
  name : String
  integration : String
  externalSessionId : Option String
  report : AgentReport
  deriving DecidableEq, Repr

/-- `AgentObservationSnapshot`. -/
structure AgentObservationSnapshot where
  revision : Nat
  state : AgentState
  authority : AgentAuthority
  evidence : String
  confidence : Nat
  observedAtMs : Nat
  deriving DecidableEq, Repr

/-- `AgentAttentionReason`. -/
inductive AgentAttentionReason
  | blocked | completed
  deriving DecidableEq, Repr

/-- `AgentAttentionSnapshot`. -/
structure AgentAttentionSnapshot where
  reason : AgentAttentionReason
  observation : AgentObservationSnapshot
  deriving DecidableEq, Repr

/-- `AgentWorkingContextSnapshot`. -/
structure AgentWorkingContextSnapshot where
  worktreeRoot : String
  repository : String
  branch : String
  observedAtMs : Nat
  deriving DecidableEq, Repr

/-- `AgentInstanceState`. -/
structure AgentInstanceState where
  endedAtMs : Option Nat
  observation : AgentObservationSnapshot
  attention : Option AgentAttentionSnapshot
  workingContexts : List AgentWorkingContextSnapshot
  deriving DecidableEq, Repr

/-- `AgentInstance`. -/
structure AgentInstance where
  id : String
  workspaceId : String
  shellId : String
  runId : String
  name : String
  integration : String
  externalSessionId : Option String
  cwd : Option String
  startedAtMs : Nat
  state : AgentInstanceState
  deriving DecidableEq, Repr

/-- `MAX_NAME_BYTES`. -/
def maxNameBytes : Nat := 256

/-- `MAX_AGENT_EVIDENCE_BYTES`. -/
def maxAgentEvidenceBytes : Nat := 4 * 1024

/-- `MAX_AGENT_WORKING_CONTEXTS`. -/
def maxAgentWorkingContexts : Nat := 8

/-! ## Checks -/

/-- `value.trim().is_empty()`. -/
def isBlank (text : String) : Bool := text.toList.all isWhitespace

/-- `validate_name`. -/
def validateName (name : String) : Except IoError Unit :=
  if isBlank name || maxNameBytes < name.utf8ByteSize || name.toList.any isControl then
    .error ⟨.invalidInput,
      "name must be nonempty, contain no control characters, and be at most " ++
      toString maxNameBytes ++ " bytes"⟩
  else .ok ()

/-- `validate_required_agent_string`. -/
def validateRequiredAgentString (kind value : String) (maxBytes : Nat) : Except IoError Unit :=
  if isBlank value || maxBytes < value.utf8ByteSize then
    .error ⟨.invalidInput,
      "agent " ++ kind ++ " must be nonempty and at most " ++ toString maxBytes ++ " bytes"⟩
  else .ok ()

/-- `validate_agent_report`. -/
def validateAgentReport (report : AgentReport) : Except IoError Unit := do
  validateRequiredAgentString "evidence" report.evidence maxAgentEvidenceBytes
  if 100 < report.confidence then
    .error ⟨.invalidInput, "agent report confidence must be between 0 and 100"⟩

/-- `validate_agent_registration`. -/
def validateAgentRegistration (spec : AgentRegistrationSpec) : Except IoError Unit := do
  validateName spec.name
  validateRequiredAgentString "integration" spec.integration maxNameBytes
  if let some externalSessionId := spec.externalSessionId then
    validateRequiredAgentString "external_session_id" externalSessionId maxNameBytes
  validateAgentReport spec.report

/-- `validate_external_agent_authority`. -/
def validateExternalAgentAuthority (authority : AgentAuthority) : Except IoError Unit :=
  if authority = .daemonLifecycle then
    .error ⟨.invalidInput, "daemon_lifecycle authority is reserved for daemon observations"⟩
  else .ok ()

/-- `validate_working_context`. -/
def validateWorkingContext (context : AgentWorkingContextSnapshot) : Except IoError Unit := do
  if !isAbsolute context.worktreeRoot ||
      4 * 1024 < context.worktreeRoot.utf8ByteSize then
    .error ⟨.invalidInput, "Agent working-context root must be a bounded absolute path"⟩
  validateRequiredAgentString "repository" context.repository maxNameBytes
  validateRequiredAgentString "branch" context.branch maxNameBytes

/-! ## Reports -/

/-- `observation_matches_report`. -/
def observationMatchesReport (observation : AgentObservationSnapshot)
    (report : AgentReport) : Bool :=
  observation.state = report.state && observation.authority = report.authority &&
    observation.evidence = report.evidence && observation.confidence = report.confidence

/-- `attention_for_observation`. -/
def attentionForObservation (observation : AgentObservationSnapshot) :
    Option AgentAttentionSnapshot :=
  match observation.state with
  | .blocked => some ⟨.blocked, observation⟩
  | .done => some ⟨.completed, observation⟩
  | _ => none

/-- `agent_authority_rank`. -/
def agentAuthorityRank : AgentAuthority → Nat
  | .lifecycleIntegration => 3
  | .processAdapter => 2
  | .terminalHeuristic => 1
  | .daemonLifecycle => 4

/-- The agent that `register_agent` builds, under the fresh UUID `id`. -/
def AgentInstance.new (id workspaceId shellId runId : String) (cwd : Option String)
    (startedAtMs : Nat) (spec : AgentRegistrationSpec) : AgentInstance :=
  let observation : AgentObservationSnapshot :=
    ⟨1, spec.report.state, spec.report.authority, spec.report.evidence, spec.report.confidence,
      startedAtMs⟩
  { id := id
    workspaceId := workspaceId
    shellId := shellId
    runId := runId
    name := spec.name
    integration := spec.integration
    externalSessionId := spec.externalSessionId
    cwd := cwd
    startedAtMs := startedAtMs
    state :=
      { endedAtMs := if spec.report.state = .done then some startedAtMs else none
        observation := observation
        attention := attentionForObservation observation
        workingContexts := [] } }

/-- What a `report_agent` leaves of the agent: its state, and whether it changed. -/
structure ReportOutcome where
  state : AgentInstanceState
  changed : Bool
  completed : Bool
  deriving DecidableEq, Repr

/-- The attention after an accepted report with this observation. -/
def AgentInstanceState.attentionAfter (state : AgentInstanceState)
    (observation : AgentObservationSnapshot) : Option AgentAttentionSnapshot :=
  match attentionForObservation observation with
  | some attention => some attention
  | none =>
      if observation.state = .working && state.attention.any (·.reason = .blocked) then none
      else state.attention

/-- `report_agent` under the agent's mutex, at the time `now`. -/
def AgentInstanceState.report (state : AgentInstanceState) (startedAtMs now : Nat)
    (report : AgentReport) : Except DaemonError ReportOutcome :=
  if state.endedAtMs.isSome then
    if observationMatchesReport state.observation report then .ok ⟨state, false, true⟩
    else .error (.ofIo ⟨.invalidInput, "completed agent instance cannot be reported again"⟩)
  else
    let repeatedWorking :=
      state.observation.state = .working && report.state = .working &&
        state.observation.authority = report.authority &&
        state.observation.confidence = report.confidence
    if observationMatchesReport state.observation report || repeatedWorking ||
        agentAuthorityRank report.authority < agentAuthorityRank state.observation.authority then
      .ok ⟨state, false, false⟩
    else
      match checkedAdd state.observation.revision 1 with
      | none => .error (.ofIo (.ofMessage "agent observation revision exhausted"))
      | some revision =>
          let observedAtMs := max (max now startedAtMs) state.observation.observedAtMs
          let observation : AgentObservationSnapshot :=
            ⟨revision, report.state, report.authority, report.evidence, report.confidence,
              observedAtMs⟩
          let completed := report.state = .done
          .ok ⟨{ state with
              endedAtMs := if completed then some observedAtMs else state.endedAtMs
              observation := observation
              attention := state.attentionAfter observation }, true, completed⟩

/-- `acknowledge_agent_attention` under the agent's mutex; the flag says whether it changed. -/
def AgentInstanceState.acknowledge (state : AgentInstanceState) (observationRevision : Nat) :
    Except DaemonError (AgentInstanceState × Bool) :=
  match state.attention with
  | none => .ok (state, false)
  | some attention =>
      if attention.observation.revision ≠ observationRevision then
        .error (.lifecycle .revisionAhead
          ("agent attention observation revision is " ++
            toString attention.observation.revision ++ "; acknowledgment supplied " ++
            toString observationRevision))
      else .ok ({ state with attention := none }, true)

/-- `observe_agent_working_context` under the agent's mutex, at the time `now`. -/
def AgentInstanceState.observeWorkingContext (state : AgentInstanceState) (startedAtMs now : Nat)
    (context : AgentWorkingContextSnapshot) : AgentInstanceState × Bool :=
  let current := state.workingContexts.head?
  if current.any fun current =>
      samePath current.worktreeRoot context.worktreeRoot &&
        current.repository = context.repository && current.branch = context.branch then
    (state, false)
  else
    let observedAtMs := max (max (max now startedAtMs) state.observation.observedAtMs)
      ((current.map (·.observedAtMs)).getD 0)
    let others := state.workingContexts.filter (!samePath ·.worktreeRoot context.worktreeRoot)
    ({ state with
        workingContexts :=
          ({ context with observedAtMs := observedAtMs } :: others).take maxAgentWorkingContexts },
      true)

/-! ## Agents that are over -/

/-- An agent that can no longer hold anything for its process. -/
def AgentInstanceState.over (state : AgentInstanceState) : Bool :=
  state.endedAtMs.isSome || state.observation.state = .inactive || state.observation.state = .done

/-- Only an agent that is done has ended. -/
def AgentInstanceState.EndedIffDone (state : AgentInstanceState) : Prop :=
  state.endedAtMs.isSome = true ↔ state.observation.state = .done

theorem AgentInstance.new_endedIffDone (id workspaceId shellId runId : String)
    (cwd : Option String) (startedAtMs : Nat) (spec : AgentRegistrationSpec) :
    (AgentInstance.new id workspaceId shellId runId cwd startedAtMs spec).state.EndedIffDone := by
  unfold AgentInstanceState.EndedIffDone AgentInstance.new
  by_cases h : spec.report.state = .done <;> simp [h]

/-- The observation of an accepted report. -/
def AgentInstanceState.observed (state : AgentInstanceState) (startedAtMs now : Nat)
    (report : AgentReport) : AgentObservationSnapshot :=
  ⟨state.observation.revision + 1, report.state, report.authority, report.evidence,
    report.confidence, max (max now startedAtMs) state.observation.observedAtMs⟩

/-- What a report can do: nothing, or replace the observation of an agent that has not ended. -/
theorem AgentInstanceState.report_cases {state : AgentInstanceState} {startedAtMs now : Nat}
    {report : AgentReport} {outcome : ReportOutcome}
    (h : state.report startedAtMs now report = .ok outcome) :
    (outcome.state = state ∧ outcome.changed = false) ∨
    (state.endedAtMs = none ∧ outcome.changed = true ∧
      agentAuthorityRank state.observation.authority ≤ agentAuthorityRank report.authority ∧
      outcome.state = { state with
        endedAtMs := if report.state = .done then
          some (state.observed startedAtMs now report).observedAtMs else none
        observation := state.observed startedAtMs now report
        attention := state.attentionAfter (state.observed startedAtMs now report) }) := by
  unfold AgentInstanceState.report at h
  split at h
  next => split at h <;> cases h; exact .inl ⟨rfl, rfl⟩
  next hended =>
    dsimp only at h
    split at h
    next => cases h; exact .inl ⟨rfl, rfl⟩
    next hnot =>
      split at h <;> cases h
      next revision hr =>
        obtain ⟨-, rfl⟩ := checkedAdd_eq_some.mp hr
        have hnone : state.endedAtMs = none := by simpa using hended
        simp only [Bool.or_eq_true, decide_eq_true_eq, not_or, Nat.not_lt] at hnot
        refine .inr ⟨hnone, rfl, hnot.2, ?_⟩
        simp [AgentInstanceState.observed, hnone]

theorem AgentInstanceState.report_eq_ok {state : AgentInstanceState} {startedAtMs now : Nat}
    {report : AgentReport} {outcome : ReportOutcome}
    (h : state.report startedAtMs now report = .ok outcome) :
    (outcome.state = state ∧ outcome.changed = false) ∨
    (state.endedAtMs = none ∧ outcome.changed = true ∧
      outcome.state.observation.revision = state.observation.revision + 1 ∧
      outcome.state.observation.state = report.state ∧
      outcome.state.observation.authority = report.authority ∧
      (outcome.state.endedAtMs.isSome = true ↔ report.state = .done) ∧
      outcome.state.workingContexts = state.workingContexts) := by
  obtain hsame | ⟨hnone, hchanged, -, hstate⟩ := state.report_cases h
  · exact .inl hsame
  · refine .inr ⟨hnone, hchanged, ?_⟩
    rw [hstate]
    refine ⟨rfl, rfl, rfl, ?_, rfl⟩
    by_cases hd : report.state = .done <;> simp [hd]

theorem AgentInstanceState.report_endedIffDone {state : AgentInstanceState} {startedAtMs now : Nat}
    {report : AgentReport} {outcome : ReportOutcome} (hd : state.EndedIffDone)
    (h : state.report startedAtMs now report = .ok outcome) : outcome.state.EndedIffDone := by
  obtain ⟨hs, -⟩ | ⟨-, -, -, hstate, -, hended, -⟩ := state.report_eq_ok h
  · rwa [hs]
  · unfold AgentInstanceState.EndedIffDone
    rw [hended, hstate]

end Boomux.Daemon
