import Boomux.Basic.Run
import Boomux.Daemon.Agents
import Mathlib.Data.String.Basic

/-!
# Claims on OpenCode sessions

The coordinator of the shared OpenCode runtime: its runtime, and who has claimed which root
session. `ensure`, `release` and `report` are durable mutations that hold the coordinator with an
`OpenCodeClaimsMutation`: unless they commit it, they put the claims back. A call is given what its
environment answers: the times, the fresh UUIDs, whether the runtime's process has exited, and how
the saves before and after it go.

`OpenCodeWorld.origin` is not in the source: it has the generation under which a root was last
claimed.
-/

set_option autoImplicit false

namespace Boomux.Daemon

open Rust

/-! ## Data -/

/-- `OpenCodeClaimHolder`. -/
structure OpenCodeClaimHolder where
  expiresAt : Nat
  expiresAtMs : Nat
  deriving DecidableEq, Repr

/-- `OpenCodeRootClaim`. -/
structure OpenCodeRootClaim where
  claimId : String
  workspaceId : String
  shellId : String
  runId : String
  agentId : String
  selectedHolderId : String
  holders : List (String × OpenCodeClaimHolder)
  deriving DecidableEq, Repr

/-- The `HashMap` of the claims, by root session. -/
abbrev OpenCodeClaims : Type := List (String × OpenCodeRootClaim)

/-- `OpenCodeRuntime`, without its process. -/
structure OpenCodeRuntime where
  generationId : String
  port : Nat
  pid : Nat
  deriving DecidableEq, Repr

/-- `OpenCodeCoordinatorState`. -/
structure OpenCodeCoordinatorState where
  runtime : Option OpenCodeRuntime
  claims : OpenCodeClaims
  deriving DecidableEq, Repr

/-- `OpenCodeSessionClaimSnapshot`. -/
structure OpenCodeSessionClaimSnapshot where
  generationId : String
  claimId : String
  holderId : String
  rootSessionId : String
  workspaceId : String
  shellId : String
  runId : String
  agentId : String
  holderCount : Nat
  holderExpiresAtMs : Nat
  deriving DecidableEq, Repr

/-- `OpenCodeClaimsMutation`. -/
structure OpenCodeClaimsMutation where
  state : OpenCodeCoordinatorState
  previous : OpenCodeClaims

/-- `MAX_OPENCODE_CLAIM_ROOTS`. -/
def maxOpenCodeClaimRoots : Nat := 1024

/-- `MAX_OPENCODE_CLAIM_HOLDERS`. -/
def maxOpenCodeClaimHolders : Nat := 4096

/-- `OPENCODE_CLAIM_HOLDER_TTL`, in milliseconds. -/
def openCodeClaimHolderTtl : Nat := 5 * 60 * 1000

/-- Why a call fails: it is refused, one of its saves fails, or `snapshot` does. -/
inductive OpenCodeFailure
  | refused (error : DaemonError)
  | unsaved (error : DaemonError)
  | snapshot (error : IoError)
  deriving DecidableEq, Repr

def OpenCodeFailure.toDaemonError : OpenCodeFailure → DaemonError
  | refused error | unsaved error => error
  | snapshot error => .ofIo error

/-- `Response`, as far as these calls send it. -/
inductive OpenCodeResponse
  | sessionClaim (claim : OpenCodeSessionClaimSnapshot) (agent : AgentInstance)
  | sessionClaimReleased (released : Bool)
  | agent (agent : AgentInstance)
  | runtime (runtime : Option OpenCodeRuntime)
  deriving DecidableEq, Repr

/-- What the environment answers to a call. `entryError` is of the checkpoint and the flush before
the mutation, `saveError` of the reservation of its events and of the save after it. -/
structure OpenCodeEnvironment where
  /-- `Instant::now`, in milliseconds -/
  now : Nat
  unixMs : Nat
  claimId : String
  agentId : String
  /-- the answer of `has_exited` -/
  exited : Except IoError Bool
  entryError : Option DaemonError
  saveError : Option DaemonError

/-! ## The claims -/

/-- The holders of all the claims. -/
def holderIds (claims : OpenCodeClaims) : List String :=
  claims.flatMap fun entry => entry.2.holders.map (·.1)

/-- `holders.keys().min()`, or an empty string. -/
def leastHolder (holders : List (String × OpenCodeClaimHolder)) : String :=
  ((holders.map (·.1)).min?).getD ""

/-- What `prune_claims` makes of a claim. -/
def OpenCodeRootClaim.prune (now : Nat) (claim : OpenCodeRootClaim) : OpenCodeRootClaim :=
  let holders := claim.holders.filter fun holder => now < holder.2.expiresAt
  { claim with
    holders := holders
    selectedHolderId :=
      if claim.selectedHolderId ∈ holders.map (·.1) then claim.selectedHolderId
      else leastHolder holders }

/-- `prune_claims`. -/
def pruneClaims (now : Nat) (claims : OpenCodeClaims) : OpenCodeClaims :=
  (claims.map fun entry => (entry.1, entry.2.prune now)).filter fun entry =>
    !entry.2.holders.isEmpty

/-- Removing a holder from every claim. -/
def removeHolder (holderId : String) (claims : OpenCodeClaims) : OpenCodeClaims :=
  claims.map fun entry =>
    (entry.1, { entry.2 with holders := Keyed.remove Prod.fst entry.2.holders holderId })

namespace OpenCodeCoordinatorState

variable (state : OpenCodeCoordinatorState)

/-- `reap_exited`. -/
def reapExited (exited : Except IoError Bool) : Except IoError Unit × OpenCodeCoordinatorState :=
  match state.runtime with
  | none => (.ok (), state)
  | some _ =>
      match exited with
      | .error error => (.error error, state)
      | .ok true => (.ok (), ⟨none, []⟩)
      | .ok false => (.ok (), state)

/-- `require_generation`. -/
def requireGeneration (exited : Except IoError Bool) (generationId : String) :
    Except DaemonError Unit × OpenCodeCoordinatorState :=
  match state.reapExited exited with
  | (.error error, state) => (.error (.ofIo error), state)
  | (.ok (), state) =>
      if state.runtime.any (·.generationId = generationId) then (.ok (), state)
      else (.error (.lifecycle .notFound "OpenCode shared runtime generation is not active"), state)

/-- `snapshot`. -/
def snapshot (generationId rootSessionId holderId : String) :
    Except IoError OpenCodeSessionClaimSnapshot :=
  match Keyed.get Prod.fst state.claims rootSessionId with
  | none => .error ⟨.notFound, "OpenCode claim not found"⟩
  | some (_, claim) =>
      match Keyed.get Prod.fst claim.holders holderId with
      | none => .error ⟨.notFound, "OpenCode claim holder not found"⟩
      | some (_, holder) =>
          .ok ⟨generationId, claim.claimId, holderId, rootSessionId, claim.workspaceId,
            claim.shellId, claim.runId, claim.agentId, min claim.holders.length (2 ^ 32 - 1),
            holder.expiresAtMs⟩

end OpenCodeCoordinatorState

/-- The claims that the holder's move to a root leaves without holders. -/
def vacated (rootSessionId : String) (claims : OpenCodeClaims) : OpenCodeClaims :=
  claims.filter fun entry => entry.1 ≠ rootSessionId ∧ entry.2.holders.isEmpty

/-- The claims without those. -/
def occupied (rootSessionId : String) (claims : OpenCodeClaims) : OpenCodeClaims :=
  claims.filter fun entry => ¬ (entry.1 ≠ rootSessionId ∧ entry.2.holders.isEmpty)

/-- The capacity check of `ensure_opencode_session_claim`. -/
def hasCapacity (rootSessionId holderId : String) (claims : OpenCodeClaims) : Bool :=
  let newRoot := (Keyed.get Prod.fst claims rootSessionId).isNone
  let oldHolderOnlyRoot := claims.any fun entry =>
    entry.2.holders.length = 1 ∧ holderId ∈ entry.2.holders.map (·.1) ∧ newRoot
  let projectedRoots := claims.length + newRoot.toNat - oldHolderOnlyRoot.toNat
  let holderAlreadyPresent := claims.any fun entry => holderId ∈ entry.2.holders.map (·.1)
  !(maxOpenCodeClaimRoots < projectedRoots ||
    (maxOpenCodeClaimHolders ≤ (holderIds claims).length && !holderAlreadyPresent))

/-- The claim that `ensure_opencode_session_claim` inserts or renews. -/
def placedClaim (claims : OpenCodeClaims) (rootSessionId holderId claimId : String)
    (agent : AgentInstance) (shellId runId : String) (holder : OpenCodeClaimHolder) :
    OpenCodeRootClaim :=
  let claim : OpenCodeRootClaim := ((Keyed.get Prod.fst claims rootSessionId).map (·.2)).getD
    ⟨claimId, agent.workspaceId, shellId, runId, agent.id, holderId, []⟩
  { claim with
    workspaceId := agent.workspaceId
    agentId := agent.id
    selectedHolderId := holderId
    holders := Keyed.upsert Prod.fst claim.holders (holderId, holder) }

/-! ## Checks against the registry -/

/-- `validate_current_running_shell`. -/
def validateCurrentRunningShell (d : AgentRegistry) (shellId runId : String) :
    Except DaemonError Unit :=
  if (d.shells.get shellId).isNone then
    .error (.lifecycle .runChanged "authority shell does not exist")
  else if d.runningRun shellId = some runId then .ok ()
  else .error (.lifecycle .runChanged "authority does not match the current running ShellRun")

/-- `opencode_claim_authority`. -/
def openCodeClaimAuthority (d : AgentRegistry) (rootSessionId : String)
    (claim : OpenCodeRootClaim) : Except DaemonError AgentInstance :=
  if (d.shells.get claim.shellId).isNone then
    .error (.lifecycle .runChanged "OpenCode claim shell no longer exists")
  else if d.runningRun claim.shellId = some claim.runId then
    let active := d.agents.filter fun agent =>
      agent.integration = "opencode" ∧ agent.externalSessionId = some rootSessionId ∧
        agent.shellId = claim.shellId ∧ agent.runId = claim.runId ∧
        agent.state.endedAtMs.isNone ∧ agent.state.observation.state ≠ .done
    match active with
    | [] => .error (.lifecycle .notFound "exact active OpenCode Agent for claim was not found")
    | [agent] =>
        if agent.id = claim.agentId then .ok agent
        else .error (.lifecycle .alreadyExists "OpenCode claim Agent is missing or ambiguous")
    | _ => .error (.lifecycle .alreadyExists "OpenCode claim Agent is missing or ambiguous")
  else
    .error (.lifecycle .runChanged "OpenCode claim no longer matches the current running ShellRun")

/-- `validate_opencode_uuid`. -/
def validateOpenCodeUuid (label value : String) : Except DaemonError Unit :=
  if uuidParses value then .ok () else .error (.validation (label ++ " must be a UUID"))

/-- `validate_opencode_claim_id`. -/
def validateOpenCodeClaimId (label value : String) : Except DaemonError Unit :=
  (validateRequiredAgentString label value maxNameBytes).mapError .ofIo

/-- `validate_id`. -/
def validateId (kind id : String) : Except IoError Unit :=
  if uuidParses id then .ok ()
  else .error ⟨.invalidData, "persisted " ++ kind ++ " ID is invalid: " ++ id⟩

/-! ## Mutations of the claims -/

/-- What an operation under `durable_mutation_outcome` leaves when it succeeds. -/
structure OpenCodeMutation where
  claims : OpenCodeClaims
  registry : AgentRegistry
  undo : List (AgentRegistry → AgentRegistry)
  mutation : DurableMutation
  /-- The answer of `report_claimed_opencode_agent` may be an error. -/
  response : Except OpenCodeFailure OpenCodeResponse

/-- Changed when there are events. -/
def DurableMutation.ofEvents : List DaemonEventKind → DurableMutation
  | [] => .unchanged
  | events => .changed events

/-- `inactivate_released_opencode_agents`: the registry, the undo and the events. `handled` are the
agents that the loop has seen. -/
def inactivateReleasedOpenCodeAgents (unixMs : Nat) (d : AgentRegistry) (handled : List String) :
    List OpenCodeRootClaim → Except DaemonError
      (AgentRegistry × List (AgentRegistry → AgentRegistry) × List DaemonEventKind)
  | [] => .ok (d, [], [])
  | claim :: removed =>
      if claim.agentId ∈ handled ∨ (Keyed.get AgentInstance.id d.agents claim.agentId).isNone then
        inactivateReleasedOpenCodeAgents unixMs d (claim.agentId :: handled) removed
      else do
        let reported ← d.reportAgent unixMs claim.agentId claim.runId
          ⟨.inactive, .lifecycleIntegration, "OpenCode session claim released", 100⟩
        let (d, undo, events) ← inactivateReleasedOpenCodeAgents unixMs reported.registry
          (claim.agentId :: handled) removed
        .ok (d, reported.undo ++ undo,
          if reported.changed then
            .agentStateChanged reported.agent.workspaceId reported.agent.shellId
              reported.agent.snapshot :: events
          else events)

/-- The checks of `ensure_opencode_session_claim` on its arguments. -/
def validateEnsure (generationId holderId rootSessionId shellId runId : String)
    (spec : AgentRegistrationSpec) : Except DaemonError Unit := do
  validateOpenCodeUuid "OpenCode runtime generation ID" generationId
  validateOpenCodeClaimId "OpenCode claim holder ID" holderId
  validateOpenCodeClaimId "OpenCode root session ID" rootSessionId
  (validateId "shell" shellId).mapError .ofIo
  (validateId "run" runId).mapError .ofIo
  require (spec.integration = "opencode" ∧ spec.externalSessionId = some rootSessionId)
    (.validation
      "OpenCode claim spec must use integration opencode and the exact root session ID")
  (validateAgentRegistration spec).mapError .ofIo
  (validateExternalAgentAuthority spec.report.authority).mapError .ofIo
  require (spec.report.state ≠ .done)
    (.validation "OpenCode claim spec must describe a non-completed Agent")

/-- The claims without one of the root whose authority is lost; an error when the root is claimed
by another ShellRun. -/
def settleExisting (d : AgentRegistry) (rootSessionId shellId runId : String)
    (claims : OpenCodeClaims) : Except DaemonError OpenCodeClaims :=
  match Keyed.get Prod.fst claims rootSessionId with
  | none => .ok claims
  | some (_, existing) =>
      match openCodeClaimAuthority d rootSessionId existing with
      | .error _ => .ok (Keyed.remove Prod.fst claims rootSessionId)
      | .ok _ =>
          if existing.shellId ≠ shellId ∨ existing.runId ≠ runId then
            .error (.lifecycle .busy "OpenCode root session is claimed by a different ShellRun")
          else .ok claims

/-- The claims after the holder has moved to the root. -/
def movedClaims (claims : OpenCodeClaims) (env : OpenCodeEnvironment)
    (rootSessionId holderId : String) (agent : AgentInstance) (shellId runId : String) :
    OpenCodeClaims :=
  let claims := occupied rootSessionId (removeHolder holderId claims)
  Keyed.upsert Prod.fst claims (rootSessionId,
    placedClaim claims rootSessionId holderId env.claimId agent shellId runId
      ⟨env.now + openCodeClaimHolderTtl, saturatingAdd env.unixMs openCodeClaimHolderTtl⟩)

/-- The operation of `ensure_opencode_session_claim`, once the generation is known to be active. -/
def ensureOpenCodeSessionClaim (env : OpenCodeEnvironment)
    (generationId holderId rootSessionId shellId runId : String) (spec : AgentRegistrationSpec)
    (state : OpenCodeCoordinatorState) (d : AgentRegistry) :
    Except OpenCodeFailure OpenCodeMutation := do
  let claims ← (settleExisting d rootSessionId shellId runId
    (pruneClaims env.now state.claims)).mapError .refused
  (validateCurrentRunningShell d shellId runId).mapError .refused
  require (hasCapacity rootSessionId holderId claims)
    (.refused (.lifecycle .busy "OpenCode claim capacity is exhausted"))
  let ensured ← (d.ensureAgent env.agentId env.unixMs shellId runId spec).mapError .refused
  require (ensured.agent.state.endedAtMs.isNone ∧ ensured.agent.state.observation.state ≠ .done)
    (.refused (.lifecycle .notFound "exact active OpenCode Agent was not found"))
  let registered := if ensured.changed then
    [.agentRegistered ensured.agent.workspaceId ensured.agent.shellId ensured.agent.snapshot]
      else []
  let removed := vacated rootSessionId (removeHolder holderId claims)
  let (d, undo, inactivated) ← (inactivateReleasedOpenCodeAgents env.unixMs ensured.registry []
    (removed.map (·.2))).mapError .refused
  let claims := movedClaims claims env rootSessionId holderId ensured.agent shellId runId
  let claim ← (OpenCodeCoordinatorState.snapshot ⟨state.runtime, claims⟩ generationId rootSessionId
    holderId).mapError .snapshot
  .ok
    { claims := claims
      registry := d
      undo := ensured.undo ++ undo
      mutation := .ofEvents (registered ++ inactivated)
      response := .ok (.sessionClaim claim ensured.agent) }

/-- The claims after a release: those that are left, those that are removed, and whether the holder
was there. -/
def releasedClaims (holderId claimId : String) (claims : OpenCodeClaims) :
    OpenCodeClaims × List OpenCodeRootClaim × Bool :=
  match claims.find? fun entry =>
    entry.2.claimId = claimId ∧ holderId ∈ entry.2.holders.map (·.1) with
  | none => (claims, [], false)
  | some (root, claim) =>
      let holders := Keyed.remove Prod.fst claim.holders holderId
      if holders.isEmpty then
        (Keyed.remove Prod.fst claims root, [{ claim with holders := holders }], true)
      else
        (Keyed.adjust Prod.fst claims root fun entry => (entry.1,
          { entry.2 with
            holders := holders
            selectedHolderId :=
              if claim.selectedHolderId = holderId then leastHolder holders
              else claim.selectedHolderId }), [], true)

/-- The operation of `release_opencode_session_claim`. -/
def releaseOpenCodeSessionClaim (env : OpenCodeEnvironment) (holderId claimId : String)
    (state : OpenCodeCoordinatorState) (d : AgentRegistry) :
    Except OpenCodeFailure OpenCodeMutation := do
  let (claims, removed, released) := releasedClaims holderId claimId
    (pruneClaims env.now state.claims)
  let (d, undo, events) ← (inactivateReleasedOpenCodeAgents env.unixMs d []
    removed).mapError .refused
  .ok ⟨claims, d, undo, .ofEvents events, .ok (.sessionClaimReleased released)⟩

/-- The operation of `report_claimed_opencode_agent`. -/
def reportClaimedOpenCodeAgent (env : OpenCodeEnvironment) (rootSessionId : String)
    (report : AgentReport) (state : OpenCodeCoordinatorState) (d : AgentRegistry) :
    Except OpenCodeFailure OpenCodeMutation :=
  let claims := pruneClaims env.now state.claims
  match Keyed.get Prod.fst claims rootSessionId with
  | none => .error (.refused (.lifecycle .notFound "OpenCode session claim not found"))
  | some (_, claim) =>
      match openCodeClaimAuthority d rootSessionId claim with
      | .error error =>
          .ok ⟨Keyed.remove Prod.fst claims rootSessionId, d, [], .unchanged,
            .error (.refused error)⟩
      | .ok _ => do
          (validateCurrentRunningShell d claim.shellId claim.runId).mapError .refused
          let reported ← (d.reportAgent env.unixMs claim.agentId claim.runId
            report).mapError .refused
          let event := if reported.completed then DaemonEventKind.agentCompleted
            else .agentStateChanged
          .ok
            { claims := if reported.completed then Keyed.remove Prod.fst claims rootSessionId
                else claims
              registry := reported.registry
              undo := reported.undo
              mutation := if reported.changed then
                  .changed [event reported.agent.workspaceId reported.agent.shellId
                    reported.agent.snapshot]
                else .unchanged
              response := .ok (.agent reported.agent) }

/-! ## The world -/

structure OpenCodeWorld where
  coordinator : OpenCodeCoordinatorState
  registry : AgentRegistry
  origin : String → String

/-- The requests, and what else happens to the coordinator and to the registry. -/
inductive OpenCodeAction
  | ensure (env : OpenCodeEnvironment) (generationId holderId rootSessionId shellId runId : String)
      (spec : AgentRegistrationSpec)
  | resolve (env : OpenCodeEnvironment) (generationId rootSessionId : String)
  | release (env : OpenCodeEnvironment) (generationId holderId claimId : String)
  | report (env : OpenCodeEnvironment) (generationId rootSessionId : String)
      (agentReport : AgentReport)
  /-- the main loop, `get_runtime` and `prepare_handoff` -/
  | reapExited (exited : Except IoError Bool)
  /-- `ensure_runtime`, with the runtime that it adopts, discovers or starts -/
  | ensureRuntime (exited : Except IoError Bool) (port : Nat)
      (found : Except DaemonError OpenCodeRuntime)
  | shutdown
  /-- any other change of the registry -/
  | edit (registry : AgentRegistry)

namespace OpenCodeWorld

variable (w : OpenCodeWorld)

/-- `durable_mutation_outcome` of an operation that holds the claims: unless it succeeds, what it
did to the registry is undone, and dropping the `OpenCodeClaimsMutation` puts the claims back. -/
def mutate (env : OpenCodeEnvironment) (generationId : String)
    (operation : OpenCodeCoordinatorState → AgentRegistry →
      Except OpenCodeFailure OpenCodeMutation) :
    Except OpenCodeFailure OpenCodeResponse × OpenCodeWorld :=
  match env.entryError with
  | some error => (.error (.unsaved error), w)
  | none =>
      let claims : OpenCodeClaimsMutation := ⟨w.coordinator, w.coordinator.claims⟩
      let (generation, state) := claims.state.requireGeneration env.exited generationId
      let dropped : OpenCodeWorld := { w with coordinator := ⟨state.runtime, claims.previous⟩ }
      match generation with
      | .error error => (.error (.refused error), dropped)
      | .ok () =>
          match operation state w.registry with
          | .error failure => (.error failure, dropped)
          | .ok m =>
              let committed : OpenCodeWorld :=
                { w with coordinator := ⟨state.runtime, m.claims⟩, registry := m.registry }
              let undone : OpenCodeWorld :=
                { dropped with registry := rollback m.undo m.registry }
              match m.mutation, m.undo.isEmpty with
              | .unchanged, true => (m.response, committed)
              | .unchanged, false =>
                  (.error (.refused (.ofIo
                    (.ofMessage "unchanged durable mutation recorded undo"))), undone)
              | .changed _, true =>
                  (.error (.refused (.ofIo
                    (.ofMessage "changed durable mutation did not record undo"))), undone)
              | .changed _, false =>
                  match env.saveError with
                  | some error => (.error (.unsaved error), undone)
                  | none => (m.response, committed)

/-- `resolve_opencode_session_claim`, once the generation is known to be active. -/
def resolve (env : OpenCodeEnvironment) (generationId rootSessionId : String) :
    Except OpenCodeFailure OpenCodeResponse × OpenCodeWorld :=
  match w.coordinator.requireGeneration env.exited generationId with
  | (.error error, state) => (.error (.refused error), { w with coordinator := state })
  | (.ok (), state) =>
      let state := { state with claims := pruneClaims env.now state.claims }
      let w := { w with coordinator := state }
      match Keyed.get Prod.fst state.claims rootSessionId with
      | none =>
          (.error (.refused (.lifecycle .notFound "OpenCode session claim not found")), w)
      | some (_, claim) =>
          match openCodeClaimAuthority w.registry rootSessionId claim with
          | .error error =>
              (.error (.refused error), { w with
                coordinator.claims := Keyed.remove Prod.fst state.claims rootSessionId })
          | .ok agent =>
              match state.snapshot generationId rootSessionId claim.selectedHolderId with
              | .error error => (.error (.snapshot error), w)
              | .ok claim => (.ok (.sessionClaim claim agent), w)

/-- `ensure_runtime`. -/
def ensureRuntime (exited : Except IoError Bool) (port : Nat)
    (found : Except DaemonError OpenCodeRuntime) :
    Except OpenCodeFailure OpenCodeResponse × OpenCodeWorld :=
  match w.coordinator.reapExited exited with
  | (.error error, state) => (.error (.refused (.ofIo error)), { w with coordinator := state })
  | (.ok (), state) =>
      let busy : OpenCodeFailure :=
        .refused (.lifecycle .busy "OpenCode shared runtime is active on a different port")
      match state.runtime, found with
      | some runtime, _ =>
          (if runtime.port ≠ port then .error busy else .ok (.runtime (some runtime)),
            { w with coordinator := state })
      | none, .error error => (.error (.refused error), { w with coordinator := state })
      | none, .ok runtime =>
          (if runtime.port ≠ port then .error busy else .ok (.runtime (some runtime)),
            { w with coordinator := ⟨some runtime, []⟩ })

end OpenCodeWorld

namespace OpenCodeAction

/-- The checks of a request on its arguments. -/
def validate : OpenCodeAction → Except DaemonError Unit
  | .ensure _ generationId holderId rootSessionId shellId runId spec =>
      validateEnsure generationId holderId rootSessionId shellId runId spec
  | .release _ generationId holderId claimId => do
      validateOpenCodeUuid "OpenCode runtime generation ID" generationId
      validateOpenCodeClaimId "OpenCode claim holder ID" holderId
      validateOpenCodeUuid "OpenCode claim ID" claimId
  | .resolve _ generationId rootSessionId
  | .report _ generationId rootSessionId _ => do
      validateOpenCodeUuid "OpenCode runtime generation ID" generationId
      validateOpenCodeClaimId "OpenCode root session ID" rootSessionId
  | .ensureRuntime _ port _ =>
      require (port ≠ 0) (.validation "OpenCode shared runtime port must be nonzero")
  | _ => .ok ()

/-- What a request with valid arguments does. -/
def run (w : OpenCodeWorld) : OpenCodeAction →
    Except OpenCodeFailure OpenCodeResponse × OpenCodeWorld
  | .ensure env generationId holderId rootSessionId shellId runId spec =>
      match w.mutate env generationId
        (ensureOpenCodeSessionClaim env generationId holderId rootSessionId shellId runId spec) with
      | (.ok response, w) =>
          (.ok response, { w with origin := Function.update w.origin rootSessionId generationId })
      | failed => failed
  | .resolve env generationId rootSessionId => w.resolve env generationId rootSessionId
  | .release env generationId holderId claimId =>
      w.mutate env generationId (releaseOpenCodeSessionClaim env holderId claimId)
  | .report env generationId rootSessionId agentReport =>
      w.mutate env generationId (reportClaimedOpenCodeAgent env rootSessionId agentReport)
  | .reapExited exited =>
      let (result, state) := w.coordinator.reapExited exited
      (match result with
        | .ok () => .ok (.runtime state.runtime)
        | .error error => .error (.refused (.ofIo error)),
        { w with coordinator := state })
  | .ensureRuntime exited port found => w.ensureRuntime exited port found
  | .shutdown => (.ok (.runtime none), { w with coordinator := ⟨none, []⟩ })
  | .edit registry => (.ok (.runtime w.coordinator.runtime), { w with registry := registry })

/-- A request, with its answer. -/
def call (w : OpenCodeWorld) (a : OpenCodeAction) :
    Except OpenCodeFailure OpenCodeResponse × OpenCodeWorld :=
  match a.validate with
  | .error error => (.error (.refused error), w)
  | .ok () => a.run w

end OpenCodeAction

/-- Every request can be made in every world. -/
def OpenCodeWorld.step (w : OpenCodeWorld) (a : OpenCodeAction) : Option OpenCodeWorld :=
  some (a.call w).2

end Boomux.Daemon
