import Boomux.Basic.Keyed
import Boomux.Basic.Rust

/-!
# The Node registration manager

The in-memory state of the manager and every call on it, as one critical section of the
manager's lock computes it. `Instant::now()` is the argument `now`. Writing the registration
file can fail, so the calls that write it take the outcome of the write as the argument
`saved`. A call that drains (`retarget`, `forget`, `begin_upgrade_maintenance_if`) gives up
the lock while it waits: `beginDrain` and `beginMaintenance` are the section before its loop,
`DrainCall.poll` is one turn of the loop, and `DrainCall.wakeTimedOut` is the turn after a
wait that ran into its timeout.
-/

set_option autoImplicit false

namespace Boomux.Nodes

open Rust

def maxRegistrations : Nat := 128
def maxAliasBytes : Nat := 128
def maxSshTargetBytes : Nat := 1024

/-! ## Data -/

structure NodeRegistrationSnapshot where
  nodeId : String
  nodeAlias : String
  target : String
  revision : Nat
  tombstoneEpoch : Nat
  deriving DecidableEq, Repr

/-- A lease; the token is the fresh UUID that the holder has to present. -/
structure MaintenanceLease where
  token : Nat
  deadline : Nat
  deriving DecidableEq, Repr

structure Registration where
  snapshot : NodeRegistrationSnapshot
  admissionOpen : Bool
  admissionEpoch : Nat
  admitted : Nat
  maintenance : Option MaintenanceLease
  deriving DecidableEq, Repr

structure RegistrationState where
  revision : Nat
  tombstoneEpoch : Nat
  registrations : List Registration
  deriving DecidableEq, Repr

/-- The result of a call together with the state that it leaves behind the lock. -/
abbrev Call (β : Type) := Except IoError β × RegistrationState

/-! ## Checks -/

def validateAlias (nodeAlias : String) : Except IoError Unit :=
  if nodeAlias.isEmpty || maxAliasBytes < nodeAlias.utf8ByteSize || nodeAlias.toList.any isControl
      || nodeAlias.toList.any isWhitespace || isCanonicalUuid nodeAlias then
    .error ⟨.invalidInput,
      "Node alias must be bounded, nonempty, whitespace-free, and not a canonical Node ID"⟩
  else .ok ()

/-- `SshTarget::parse`. -/
def validateTarget (target : String) : Except IoError Unit :=
  if target.isEmpty || maxSshTargetBytes < target.utf8ByteSize || target.toList.head? == some '-'
      || target.toList.any isWhitespace || target.toList.any isControl then
    .error ⟨.invalidInput,
      "SSH target must be a bounded non-option argument without whitespace"⟩
  else .ok ()

def validateNodeId (nodeId : String) : Except IoError Unit :=
  if !uuidParses nodeId then .error ⟨.invalidInput, "invalid Node ID"⟩
  else if !isCanonicalUuid nodeId then
    .error ⟨.invalidInput, "Node ID must use canonical UUID syntax"⟩
  else .ok ()

def next (value : Nat) (label : String) : Except IoError Nat :=
  match checkedAdd value 1 with
  | some n => .ok n
  | none => .error (.ofMessage (label ++ " exhausted"))

def notFound : IoError := ⟨.notFound, "Node registration not found"⟩

def drainTimedOut : IoError :=
  ⟨.timedOut, "timed out draining active Node registration operations"⟩

def requireRevision (registration : Registration) (expected : Nat) : Except IoError Unit :=
  if registration.snapshot.revision = expected then .ok ()
  else .error ⟨.invalidInput,
    "Node registration revision changed: expected " ++ toString expected ++ ", current " ++
      toString registration.snapshot.revision⟩

/-- The seconds are those left on the lease, rounded up; `Instant` counts nanoseconds. -/
def registrationBusy (now : Nat) (registration : Registration) : IoError :=
  match registration.maintenance with
  | some lease => ⟨.wouldBlock,
      "This Node is reserved by an update or uninstall; its local maintenance lease expires in "
        ++ toString ((lease.deadline - now + 999999999) / 1000000000) ++
        " seconds unless renewed. A failed update may retain this lease while remote recovery " ++
        "settles; wait and retry."⟩
  | none => ⟨.wouldBlock,
      "Node registration change is already in progress; wait for it to finish and retry"⟩

/-! ## Finding and changing a registration -/

def Registration.named (selector : String) (registration : Registration) : Bool :=
  registration.snapshot.nodeAlias == selector || registration.snapshot.nodeId == selector

def Registration.nodeId (registration : Registration) : String := registration.snapshot.nodeId

/-- The first registration with a property, and its index. -/
def locate (p : Registration → Bool) (state : RegistrationState) : Option (Nat × Registration) :=
  (state.registrations.findIdx? p).bind fun index =>
    state.registrations[index]?.map fun registration => (index, registration)

/-- The registration that a selector names. -/
def findIndex (state : RegistrationState) (selector : String) : Option (Nat × Registration) :=
  locate (Registration.named selector) state

/-- The registration of a Node, with its index. -/
def position (state : RegistrationState) (nodeId : String) : Option (Nat × Registration) :=
  locate (·.nodeId == nodeId) state

/-- The registration of a Node. -/
def lookup (state : RegistrationState) (nodeId : String) : Option Registration :=
  Keyed.get Registration.nodeId state.registrations nodeId

def modifyAt (state : RegistrationState) (index : Nat) (f : Registration → Registration) :
    RegistrationState :=
  { state with registrations := state.registrations.modify index f }

/-- A registration whose lease has run out at `now`. -/
def Registration.expired (now : Nat) (registration : Registration) : Bool :=
  registration.maintenance.any fun lease => lease.deadline ≤ now

def Registration.expire (now : Nat) (registration : Registration) : Registration :=
  if registration.expired now then
    { registration with maintenance := none, admissionOpen := true }
  else registration

def expireMaintenance (now : Nat) (state : RegistrationState) : RegistrationState :=
  { state with registrations := state.registrations.map (Registration.expire now) }

/-! ## Observing and admitting -/

/-- The checks that `with_current` and `observe` make. -/
def Registration.current (expected : NodeRegistrationSnapshot) (registration : Registration) :
    Bool :=
  registration.snapshot.revision == expected.revision
    && registration.snapshot.tombstoneEpoch == expected.tombstoneEpoch
    && registration.snapshot.target == expected.target
    && registration.admissionOpen

def observe (now : Nat) (state : RegistrationState) (expected : NodeRegistrationSnapshot) :
    Call (Option Nat) :=
  let state := expireMaintenance now state
  match lookup state expected.nodeId with
  | none => (.ok none, state)
  | some registration =>
      if registration.current expected then (.ok (some registration.admissionEpoch), state)
      else (.ok none, state)

/-- `with_current`; the result says whether the operation runs. -/
def withCurrent (now : Nat) (state : RegistrationState) (expected : NodeRegistrationSnapshot) :
    Call Bool :=
  let state := expireMaintenance now state
  match lookup state expected.nodeId with
  | none => (.ok false, state)
  | some registration => (.ok (registration.current expected), state)

/-- `with_observation`; the result says whether the operation runs. -/
def withObservation (now : Nat) (state : RegistrationState)
    (expected : NodeRegistrationSnapshot) (admissionEpoch : Nat) : Call Bool :=
  let state := expireMaintenance now state
  match lookup state expected.nodeId with
  | none => (.ok false, state)
  | some registration =>
      (.ok (registration.current expected && registration.admissionEpoch == admissionEpoch),
        state)

def hasActiveUpgradeMaintenance (now : Nat) (state : RegistrationState) : Call Bool :=
  let state := expireMaintenance now state
  (.ok (state.registrations.any (·.maintenance.isSome)), state)

def admitOperation (now : Nat) (state : RegistrationState) (expected : NodeRegistrationSnapshot) :
    Call Bool :=
  let state := expireMaintenance now state
  match position state expected.nodeId with
  | none => (.ok false, state)
  | some (index, registration) =>
      if registration.snapshot.revision ≠ expected.revision
          ∨ registration.snapshot.tombstoneEpoch ≠ expected.tombstoneEpoch
          ∨ registration.admissionOpen = false then
        (.ok false, state)
      else
        match checkedAdd registration.admitted 1 with
        | none => (.error (.ofMessage "Node registration admission exhausted"), state)
        | some admitted => (.ok true, modifyAt state index ({ · with admitted }))

/-- `release` finds the registration by its Node, and then asks for the same revision. -/
def release (state : RegistrationState) (expected : NodeRegistrationSnapshot) :
    RegistrationState :=
  match position state expected.nodeId with
  | none => state
  | some (index, registration) =>
      if registration.snapshot.revision = expected.revision then
        modifyAt state index fun r => { r with admitted := r.admitted - 1 }
      else state

/-! ## Adding and renaming -/

def add (state : RegistrationState) (nodeAlias target nodeId localNodeId : String) (saved : Bool) :
    Call NodeRegistrationSnapshot :=
  match validateAlias nodeAlias, validateTarget target, validateNodeId nodeId with
  | .error e, _, _ => (.error e, state)
  | .ok _, .error e, _ => (.error e, state)
  | .ok _, .ok _, .error e => (.error e, state)
  | .ok _, .ok _, .ok _ =>
      if nodeId = localNodeId then
        (.error ⟨.invalidInput, "a Boomux Node cannot register itself"⟩, state)
      else
        match state.registrations.find? fun r => r.snapshot.nodeAlias == nodeAlias
            || r.snapshot.target == target || r.snapshot.nodeId == nodeId with
        | some existing =>
            if existing.snapshot.nodeAlias = nodeAlias ∧ existing.snapshot.target = target
                ∧ existing.snapshot.nodeId = nodeId then
              (.ok existing.snapshot, state)
            else
              (.error ⟨.alreadyExists,
                "Node alias, target, or Node ID is already registered"⟩, state)
        | none =>
            if maxRegistrations ≤ state.registrations.length then
              (.error ⟨.invalidInput, "registered Node limit reached"⟩, state)
            else
              match next state.revision "registration revision" with
              | .error e => (.error e, state)
              | .ok revision =>
                  let snapshot : NodeRegistrationSnapshot :=
                    { nodeAlias, target, nodeId, revision, tombstoneEpoch := state.tombstoneEpoch }
                  if saved then
                    (.ok snapshot, { state with
                      revision
                      registrations := state.registrations ++ [{
                        snapshot, admissionOpen := true, admissionEpoch := 0, admitted := 0,
                        maintenance := none }] })
                  else (.error (.ofMessage "could not save Node registrations"), state)

def rename (now : Nat) (state : RegistrationState) (selector nodeAlias : String)
    (expectedRevision : Nat) (saved : Bool) : Call NodeRegistrationSnapshot :=
  match validateAlias nodeAlias with
  | .error e => (.error e, state)
  | .ok _ =>
      let state := expireMaintenance now state
      match findIndex state selector with
      | none => (.error notFound, state)
      | some (index, registration) =>
          match requireRevision registration expectedRevision with
          | .error e => (.error e, state)
          | .ok _ =>
              if registration.admissionOpen = false then
                (.error ⟨.wouldBlock,
                  "Node registration maintenance is in progress"⟩, state)
              else if registration.snapshot.nodeAlias = nodeAlias then
                (.ok registration.snapshot, state)
              else if (state.registrations.eraseIdx index).any
                  (·.snapshot.nodeAlias == nodeAlias) then
                (.error ⟨.alreadyExists, "Node alias is already registered"⟩, state)
              else
                match next state.revision "registration revision" with
                | .error e => (.error e, state)
                | .ok revision =>
                    let snapshot := { registration.snapshot with nodeAlias, revision }
                    if saved then
                      (.ok snapshot, { modifyAt state index ({ · with snapshot }) with
                        revision })
                    else
                      (.error (.ofMessage "could not save Node registrations"), state)

/-! ## Draining

A waiting call keeps only its own arguments: it finds the registration again, by the same
selector, each time it wakes up. -/

/-- What a draining call does once nothing is admitted any more. -/
inductive DrainKind
  | retarget (target verifiedNodeId : String)
  | forget
  | maintenance (token : Nat)
  deriving DecidableEq, Repr

def DrainKind.isMaintenance : DrainKind → Bool
  | .maintenance _ => true
  | _ => false

/-- A draining call while it waits. -/
structure DrainCall where
  kind : DrainKind
  selector : String
  expectedRevision : Nat
  deadline : Nat
  deriving DecidableEq, Repr

/-- A call that returned, with the snapshot it returns; a maintenance call also returns the
token that it chose at its start. -/
abbrev Returned := Except IoError NodeRegistrationSnapshot

/-- Admission after a drain that did not commit: a maintenance call drops its lease, the other
calls leave admission closed for a lease that exists. -/
def DrainKind.reopen (kind : DrainKind) (registration : Registration) : Registration :=
  if kind.isMaintenance then { registration with admissionOpen := true, maintenance := none }
  else { registration with admissionOpen := registration.maintenance.isNone }

/-- `prepare_drain_commit` up to its loop. The result is the index of the registration whose
admission is closed. -/
def beginDrain (now : Nat) (state : RegistrationState) (kind : DrainKind) (selector : String)
    (expectedRevision : Nat) : Call Nat :=
  let state := expireMaintenance now state
  match findIndex state selector with
  | none => (.error notFound, state)
  | some (index, registration) =>
      match requireRevision registration expectedRevision with
      | .error e => (.error e, state)
      | .ok _ =>
          let bypassMaintenance := kind = .forget ∧ registration.maintenance.isSome
          if registration.admissionOpen = false ∧ ¬ bypassMaintenance then
            (.error (registrationBusy now registration), state)
          else
            match next registration.admissionEpoch "registration admission epoch" with
            | .error e => (.error e, state)
            | .ok admissionEpoch =>
                (.ok index, modifyAt state index
                  ({ · with admissionEpoch, admissionOpen := false }))

/-- `begin_upgrade_maintenance_if` up to its loop. -/
def beginMaintenance (now : Nat) (state : RegistrationState) (selector : String)
    (expectedRevision leaseDuration token : Nat) (transitionIdle : Bool) : Call Nat :=
  let state := expireMaintenance now state
  if transitionIdle = false then
    (.error ⟨.wouldBlock, "a daemon transition is already in progress"⟩, state)
  else
    match findIndex state selector with
    | none => (.error notFound, state)
    | some (index, registration) =>
        match requireRevision registration expectedRevision with
        | .error e => (.error e, state)
        | .ok _ =>
            if registration.admissionOpen = false then
              (.error (registrationBusy now registration), state)
            else
              match next registration.admissionEpoch "registration admission epoch" with
              | .error e => (.error e, state)
              | .ok admissionEpoch =>
                  (.ok index, modifyAt state index ({ · with
                    admissionEpoch
                    admissionOpen := false
                    maintenance := some ⟨token, now + leaseDuration⟩ }))

/-- The `mutate` argument of `prepare_drain_commit`, on the copy of the state. -/
def DrainKind.mutate (kind : DrainKind) (state : RegistrationState) (index : Nat)
    (registration : Registration) :
    Except IoError (NodeRegistrationSnapshot × RegistrationState) :=
  match kind with
  | .retarget target verifiedNodeId =>
      if registration.snapshot.nodeId ≠ verifiedNodeId then
        .error ⟨.permissionDenied,
          "new SSH target resolved to a different Boomux Node identity"⟩
      else if registration.snapshot.target = target then .ok (registration.snapshot, state)
      else if (state.registrations.eraseIdx index).any (·.snapshot.target == target) then
        .error ⟨.alreadyExists, "SSH target is already registered"⟩
      else
        match next state.revision "registration revision" with
        | .error e => .error e
        | .ok revision =>
            let snapshot := { registration.snapshot with target, revision }
            .ok (snapshot, { modifyAt state index ({ · with snapshot }) with revision })
  | .forget =>
      match next state.tombstoneEpoch "registration tombstone epoch" with
      | .error e => .error e
      | .ok tombstoneEpoch =>
          .ok ({ registration.snapshot with tombstoneEpoch },
            { state with
              tombstoneEpoch
              registrations := state.registrations.eraseIdx index })
  | .maintenance _ => .ok (registration.snapshot, state)

/-- The rest of `prepare_drain_commit`, reached with nothing admitted on the registration. -/
def DrainCall.commit (call : DrainCall) (state : RegistrationState) (index : Nat)
    (registration : Registration) (saved : Bool) : Returned × RegistrationState :=
  if call.kind.isMaintenance then (.ok registration.snapshot, state)
  else
    match call.kind.mutate state index registration with
    | .error e => (.error e, modifyAt state index call.kind.reopen)
    | .ok (result, replacement) =>
        if saved then
          match position replacement result.nodeId with
          | none => (.ok result, replacement)
          | some (found, _) => (.ok result, modifyAt replacement found call.kind.reopen)
        else
          (.error (.ofMessage "could not save Node registrations"),
            modifyAt state index call.kind.reopen)

/-- One turn of the loop; `none` says that the call waits. -/
def DrainCall.poll (call : DrainCall) (now : Nat) (state : RegistrationState) (saved : Bool) :
    Option Returned × RegistrationState :=
  match findIndex state call.selector with
  | none => (some (.error notFound), state)
  | some (index, registration) =>
      match requireRevision registration call.expectedRevision with
      | .error e => (some (.error e), state)
      | .ok _ =>
          if registration.admitted = 0 then
            let (result, state) := call.commit state index registration saved
            (some result, state)
          else if call.deadline < now then
            (some (.error drainTimedOut), modifyAt state index call.kind.reopen)
          else (none, state)

/-- The turn after a wait that reports `timed_out`. It looks neither at the revision nor at
the counter. -/
def DrainCall.wakeTimedOut (call : DrainCall) (state : RegistrationState) :
    Returned × RegistrationState :=
  match findIndex state call.selector with
  | none => (.error notFound, state)
  | some (index, _) => (.error drainTimedOut, modifyAt state index call.kind.reopen)

/-! ## Leases -/

/-- A maintenance lease that the token opens. -/
def Registration.holds (token : Nat) (registration : Registration) : Bool :=
  registration.maintenance.any fun lease => lease.token == token

def finishUpgradeMaintenance (now : Nat) (state : RegistrationState) (nodeId : String)
    (token : Nat) : Call Unit :=
  let state := expireMaintenance now state
  match position state nodeId with
  | none => (.error notFound, state)
  | some (index, registration) =>
      if registration.holds token = false then
        (.error ⟨.permissionDenied, "Node upgrade maintenance lease is not current"⟩, state)
      else
        (.ok (), modifyAt state index
          ({ · with maintenance := none, admissionOpen := true }))

def finishUninstallMaintenance (now : Nat) (state : RegistrationState) (nodeId : String)
    (token : Nat) (saved : Bool) : Call NodeRegistrationSnapshot :=
  let state := expireMaintenance now state
  match position state nodeId with
  | none => (.error notFound, state)
  | some (index, registration) =>
      if registration.holds token = false then
        (.error ⟨.permissionDenied,
          "Node uninstall maintenance lease is not current"⟩, state)
      else if registration.admitted ≠ 0 then
        (.error ⟨.resourceBusy,
          "Node uninstall maintenance still has admitted operations"⟩, state)
      else
        match next state.tombstoneEpoch "registration tombstone epoch" with
        | .error e => (.error e, state)
        | .ok tombstoneEpoch =>
            if saved then
              (.ok { registration.snapshot with tombstoneEpoch },
                { state with
                  tombstoneEpoch
                  registrations := state.registrations.eraseIdx index })
            else (.error (.ofMessage "could not save Node registrations"), state)

def renewUpgradeMaintenance (now : Nat) (state : RegistrationState) (nodeId : String)
    (token leaseDuration : Nat) : Call Unit :=
  let state := expireMaintenance now state
  match position state nodeId with
  | none => (.error notFound, state)
  | some (index, registration) =>
      if registration.holds token = false then
        (.error ⟨.permissionDenied, "Node upgrade maintenance lease is not current"⟩, state)
      else
        (.ok (), modifyAt state index
          ({ · with maintenance := some ⟨token, now + leaseDuration⟩ }))

/-! ## Loading -/

/-- A registration that is new to this daemon. -/
def Registration.ofSnapshot (snapshot : NodeRegistrationSnapshot) : Registration :=
  { snapshot, admissionOpen := true, admissionEpoch := 0, admitted := 0, maintenance := none }

/-- `invalid_persisted`. -/
def invalidPersisted (error : IoError) : IoError := ⟨.invalidData, error.message⟩

/-- One turn of the loop of `validate_persisted`; the three sets are those of the registrations
before it. -/
def validateSnapshot (revision tombstoneEpoch : Nat) (registrations : List Registration)
    (snapshot : NodeRegistrationSnapshot) : Except IoError (List Registration) := do
  (validateAlias snapshot.nodeAlias).mapError invalidPersisted
  (validateTarget snapshot.target).mapError invalidPersisted
  (validateNodeId snapshot.nodeId).mapError invalidPersisted
  require
    (snapshot.revision ≠ 0 && snapshot.revision ≤ revision &&
      snapshot.tombstoneEpoch ≤ tombstoneEpoch &&
      !registrations.any (·.snapshot.nodeAlias = snapshot.nodeAlias) &&
      !registrations.any (·.snapshot.target = snapshot.target) &&
      !registrations.any (·.nodeId = snapshot.nodeId))
    ⟨.invalidData, "Boomux Node registration store contains invalid or duplicate data"⟩
  .ok (registrations ++ [.ofSnapshot snapshot])

/-- `validate_persisted`. -/
def validatePersisted (revision tombstoneEpoch : Nat) (snapshots : List NodeRegistrationSnapshot) :
    Except IoError RegistrationState := do
  require (snapshots.length ≤ maxRegistrations)
    ⟨.invalidData, "Boomux Node registration store contains too many registrations"⟩
  let registrations ← snapshots.foldlM (validateSnapshot revision tombstoneEpoch) []
  .ok ⟨revision, tombstoneEpoch, registrations⟩

end Boomux.Nodes
