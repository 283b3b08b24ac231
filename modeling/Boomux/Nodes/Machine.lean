import Boomux.Basic.Run
import Boomux.Nodes.Manager

/-!
# Interleavings of calls on the registration manager

A `World` is the manager behind its lock, the clock, the draining calls that wait, and three
ghosts: the operations admitted and not yet released, how often each Node was added, and the
supply of tokens. An action is one critical section. A draining call that does not return in
its first critical section is put on `waiting`; `wake` is its next turn, after a notification
or a spurious wake-up, or with `timedOut` once its deadline has passed.
-/

set_option autoImplicit false

namespace Boomux.Nodes

/-! ## The world -/

/-- A waiting call, with the registration whose admission it closed: the Node, and the how
manieth registration of that Node it was. -/
structure Waiting where
  call : DrainCall
  nodeId : String
  born : Nat
  deriving DecidableEq, Repr

/-- An admitted operation: the snapshot it was admitted under, which it will pass to
`release`, and the registration it was admitted on. -/
structure Admission where
  snapshot : NodeRegistrationSnapshot
  born : Nat
  deriving DecidableEq, Repr

structure World where
  manager : RegistrationState
  now : Nat
  tokens : Nat
  waiting : List Waiting
  admitted : List Admission
  added : String → Nat

inductive Action
  | tick (duration : Nat)
  | observe (expected : NodeRegistrationSnapshot)
  | withCurrent (expected : NodeRegistrationSnapshot)
  | withObservation (expected : NodeRegistrationSnapshot) (admissionEpoch : Nat)
  | hasActiveUpgradeMaintenance
  | admitOperation (expected : NodeRegistrationSnapshot)
  | release (index : Nat)
  | add (nodeAlias target nodeId localNodeId : String) (saved : Bool)
  | rename (selector nodeAlias : String) (expectedRevision : Nat) (saved : Bool)
  | retarget (selector target verifiedNodeId : String) (expectedRevision timeout : Nat)
      (saved : Bool)
  | forget (selector : String) (expectedRevision timeout : Nat) (saved : Bool)
  | beginUpgradeMaintenance (selector : String) (expectedRevision drainTimeout : Nat)
      (leaseDuration : Nat) (transitionIdle : Bool)
  | finishUpgradeMaintenance (nodeId : String) (token : Nat)
  | finishUninstallMaintenance (nodeId : String) (token : Nat) (saved : Bool)
  | renewUpgradeMaintenance (nodeId : String) (token leaseDuration : Nat)
  | wake (index : Nat) (timedOut saved : Bool)
  deriving DecidableEq, Repr

/-- The operations admitted on the present registration of a Node and not yet released. -/
def World.outstanding (w : World) (nodeId : String) : Nat :=
  w.admitted.countP fun op => op.snapshot.nodeId == nodeId && op.born == w.added nodeId

/-- A waiting call drains `registration`: it is still the one that the call closed. -/
def World.Drains (w : World) (d : Waiting) (registration : Registration) : Prop :=
  lookup w.manager d.nodeId = some registration ∧ w.added d.nodeId = d.born

/-! ## Steps -/

/-- The first turn of the loop of a call that has just closed admission. -/
def World.start (w : World) (call : DrainCall) (begun : Call Nat) (saved : Bool) : World :=
  match begun with
  | (.error _, state) => { w with manager := state }
  | (.ok index, state) =>
      match state.registrations[index]? with
      | none => { w with manager := state }
      | some registration =>
          match call.poll w.now state saved with
          | (some _, state) => { w with manager := state }
          | (none, state) => { w with
              manager := state
              waiting := w.waiting ++ [{
                call, nodeId := registration.nodeId, born := w.added registration.nodeId }] }

/-- The draining call that an action starts, and the state and result of its first section. -/
def World.starts (w : World) : Action → Option (DrainCall × Call Nat × Bool)
  | .retarget selector target verifiedNodeId expectedRevision timeout saved =>
      match validateTarget target, validateNodeId verifiedNodeId with
      | .ok _, .ok _ =>
          let kind := .retarget target verifiedNodeId
          some (⟨kind, selector, expectedRevision, w.now + timeout⟩,
            beginDrain w.now w.manager kind selector expectedRevision, saved)
      | _, _ => none
  | .forget selector expectedRevision timeout saved =>
      some (⟨.forget, selector, expectedRevision, w.now + timeout⟩,
        beginDrain w.now w.manager .forget selector expectedRevision, saved)
  | .beginUpgradeMaintenance selector expectedRevision drainTimeout leaseDuration idle =>
      some (⟨.maintenance w.tokens, selector, expectedRevision, w.now + drainTimeout⟩,
        beginMaintenance w.now w.manager selector expectedRevision leaseDuration w.tokens idle,
        true)
  | _ => none

def World.step (w : World) (a : Action) : Option World :=
  match a with
  | .tick duration => some { w with now := w.now + duration }
  | .observe expected => some { w with manager := (observe w.now w.manager expected).2 }
  | .withCurrent expected => some { w with manager := (withCurrent w.now w.manager expected).2 }
  | .withObservation expected epoch =>
      some { w with manager := (withObservation w.now w.manager expected epoch).2 }
  | .hasActiveUpgradeMaintenance =>
      some { w with manager := (hasActiveUpgradeMaintenance w.now w.manager).2 }
  | .admitOperation expected =>
      match admitOperation w.now w.manager expected with
      | (.ok true, state) => some { w with
          manager := state
          admitted := w.admitted ++ [⟨expected, w.added expected.nodeId⟩] }
      | (_, state) => some { w with manager := state }
  | .release index =>
      w.admitted[index]?.map fun op => { w with
        manager := release w.manager op.snapshot
        admitted := w.admitted.eraseIdx index }
  | .add nodeAlias target nodeId localNodeId saved =>
      let state := (add w.manager nodeAlias target nodeId localNodeId saved).2
      some { w with
        manager := state
        added := fun n =>
          if n = nodeId ∧ state.registrations.length ≠ w.manager.registrations.length then
            w.added n + 1
          else w.added n }
  | .rename selector nodeAlias expectedRevision saved =>
      some { w with
        manager := (rename w.now w.manager selector nodeAlias expectedRevision saved).2 }
  | .retarget .. | .forget .. =>
      match w.starts a with
      | none => some w
      | some (call, begun, saved) => some (w.start call begun saved)
  | .beginUpgradeMaintenance .. =>
      match w.starts a with
      | none => some w
      | some (call, begun, saved) =>
          some { w.start call begun saved with tokens := w.tokens + 1 }
  | .finishUpgradeMaintenance nodeId token =>
      some { w with manager := (finishUpgradeMaintenance w.now w.manager nodeId token).2 }
  | .finishUninstallMaintenance nodeId token saved =>
      some { w with
        manager := (finishUninstallMaintenance w.now w.manager nodeId token saved).2 }
  | .renewUpgradeMaintenance nodeId token leaseDuration =>
      some { w with
        manager := (renewUpgradeMaintenance w.now w.manager nodeId token leaseDuration).2 }
  | .wake index timedOut saved =>
      match w.waiting[index]? with
      | none => none
      | some d =>
          if timedOut then
            if d.call.deadline ≤ w.now then
              some { w with
                manager := (d.call.wakeTimedOut w.manager).2
                waiting := w.waiting.eraseIdx index }
            else none
          else
            match d.call.poll w.now w.manager saved with
            | (some _, state) => some { w with
                manager := state
                waiting := w.waiting.eraseIdx index }
            | (none, state) => some { w with manager := state }

/-- A manager as `load_at` leaves it, before the first call. -/
structure World.Loaded (w : World) : Prop where
  distinct : Keyed.Distinct Registration.nodeId w.manager.registrations
  idle : ∀ r ∈ w.manager.registrations, r.admitted = 0
  waiting : w.waiting = []
  admitted : w.admitted = []

/-- The manager of a daemon without a registration file. -/
def World.fresh : World :=
  { manager := ⟨0, 0, []⟩, now := 0, tokens := 0, waiting := [], admitted := [],
    added := fun _ => 0 }

theorem World.fresh_loaded : World.fresh.Loaded :=
  ⟨List.nodup_nil, nofun, rfl, rfl⟩

end Boomux.Nodes
