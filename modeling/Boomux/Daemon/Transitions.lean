import Boomux.Daemon.Error
import Boomux.Nodes.Freshness
import Mathlib.Data.List.Infix

/-!
# Daemon transitions and Node maintenance

A rekey, a shutdown and a restart are transitions: each takes the transition flag when it is
idle, and has to put it back on every exit that does not end the daemon. Connections run the
steps of their transitions in any order, beside the calls on the registration manager; the main
loop runs the last steps of a restart. A call that an exit depends on may fail at any time: its
result is part of the action. The begin of a maintenance reads the flag while it has the manager's
lock, and goes on after that; a transition takes the flag without the lock and may come between.
`TransitionWorld.log` is not in the source; it lists for each transition what happened to the flag.
-/

set_option autoImplicit false

namespace Boomux.Daemon

open Rust Transition

/-! ## Data -/

/-- The values of the transition flag. -/
inductive TransitionFlag
  | idle | restart | shutdown | rekey
  deriving DecidableEq, Repr

/-- A request for a transition. What a restart asks for is checked before anything else, and
`prepared` is the result. -/
inductive TransitionRequest
  | rekeyNode (federation : Bool)
  | shutdown
  | shutdownIfNodeIdentity (expectedNodeId : String)
  | restart (prepared : Except DaemonError Unit)

/-- The flag that a request takes. -/
def TransitionRequest.flag : TransitionRequest → TransitionFlag
  | rekeyNode _ => .rekey
  | shutdown | shutdownIfNodeIdentity _ => .shutdown
  | restart _ => .restart

/-- The step that a transition takes next. From `stopReaders` on, a restart is the main loop's:
it stops the projection workers, launches the replacement, and starts the workers again when the
launch failed with an error. -/
inductive TransitionPhase
  | rekey
  | identity (expectedNodeId : String)
  | shutdownCheck
  | stopWorkers
  | shutdown
  | restartCheck
  | checkpoint
  | send
  | coordinatorStop
  | launch
  | startWorkers (failure : DaemonError)
  deriving DecidableEq, Repr

namespace TransitionPhase

def flag : TransitionPhase → TransitionFlag
  | rekey => .rekey
  | identity _ | shutdownCheck | stopWorkers | shutdown => .shutdown
  | restartCheck | checkpoint | send | coordinatorStop | launch => .restart
  | startWorkers _ => .idle

/-- The transition has taken the flag and not put it back. -/
def holds (phase : TransitionPhase) : Bool := phase.flag ≠ .idle

/-- The maintenance check is behind it. -/
def checked : TransitionPhase → Bool
  | stopWorkers | shutdown | checkpoint | send | coordinatorStop | launch => true
  | _ => false

/-- The step takes the manager's lock. -/
def checks : TransitionPhase → Bool
  | shutdownCheck | restartCheck => true
  | _ => false

/-- The step is the main loop's. -/
def coordinated : TransitionPhase → Bool
  | coordinatorStop | launch | startWorkers _ => true
  | _ => false

end TransitionPhase

/-- The step after the flag is taken. -/
def TransitionRequest.phase : TransitionRequest → TransitionPhase
  | rekeyNode _ => .rekey
  | shutdown => .shutdownCheck
  | shutdownIfNodeIdentity expectedNodeId => .identity expectedNodeId
  | restart _ => .restartCheck

theorem TransitionRequest.phase_flag (request : TransitionRequest) :
    request.phase.flag = request.flag := by
  cases request <;> rfl

/-- A transition that is under way. `waiting` says that its connection still waits for the
reply: a restart answers with a timeout and goes on. -/
structure RunningTransition where
  id : Nat
  phase : TransitionPhase
  waiting : Bool
  deriving DecidableEq, Repr

/-- An error of a call that a transition makes. -/
inductive Failure
  | io (error : IoError)
  | daemon (error : DaemonError)
  deriving DecidableEq, Repr

def Failure.toDaemonError : Failure → DaemonError
  | io error => .ofIo error
  | daemon error => error

/-- `Response`, as far as transitions send it. -/
inductive TransitionResponse
  | ok
  | nodeIdentity (nodeId : String)
  | error (error : DaemonError)
  deriving DecidableEq, Repr

inductive TransitionEvent
  | acquired | released | ended
  deriving DecidableEq, Repr

structure TransitionWorld where
  flag : TransitionFlag
  running : List RunningTransition
  nodes : Nodes.World
  /-- A begin of a maintenance has the manager's lock and has read whether the flag is idle. -/
  reading : Option Bool
  /-- Whether the daemon has a Node identity. -/
  hasIdentity : Bool
  nextId : Nat
  replies : List TransitionResponse
  log : List (Nat × TransitionEvent)

inductive TransitionAction
  | request (request : TransitionRequest)
  /-- The transition at the index makes its next call, with this result. -/
  | proceed (index : Nat) (result : Except Failure String)
  /-- The connection of a restart stops waiting. -/
  | timeOut (index : Nat) (message : String)
  /-- The begin of a maintenance takes the manager's lock and reads the flag. -/
  | readFlag
  /-- A call on the registration manager, of a begin its part after the reading. -/
  | nodes (action : Nodes.Action)

/-! ## Errors -/

def transitionInProgress : DaemonError :=
  .lifecycle .busy "another daemon transition is already in progress"

def restartInProgress : DaemonError :=
  .lifecycle .busy "daemon restart is already in progress"

def nodeUpgradeInProgress : DaemonError :=
  .lifecycle .busy "a registered Node upgrade is in progress"

def nodeIdentityUnavailable : DaemonError :=
  .lifecycle .nodeIdentityUnavailable "Boomux Node identity is unavailable"

/-- `node_registration_error`. -/
def nodeRegistrationError (error : IoError) : DaemonError :=
  if error.kind = .unsupported then .lifecycle .nodeRegistrationUnavailable error.message
  else if error.kind = .permissionDenied ∧
      "different Boomux Node identity".toList <:+: error.message.toList then
    .lifecycle .nodeIdentityChanged error.message
  else if error.kind = .invalidInput ∧
      "registration revision changed".toList <:+: error.message.toList then
    .lifecycle .revisionChanged error.message
  else if error.kind = .timedOut then .lifecycle .busy error.message
  else if error.kind = .permissionDenied ∨ error.kind = .other then .persistence error
  else .ofIo error

/-- The error of a rekey. -/
def rekeyError : Failure → DaemonError
  | .io error =>
      if error.kind = .timedOut then .lifecycle .busy error.message else .ofIo error
  | .daemon error => error

/-- `node_upgrade_maintenance_active`, when the manager's lock is not poisoned. -/
def nodeUpgradeMaintenanceActive (nodes : Nodes.World) : Bool × Nodes.World :=
  let (active, manager) := Nodes.hasActiveUpgradeMaintenance nodes.now nodes.manager
  (active.toOption.getD false, { nodes with manager := manager })

/-! ## Steps -/

namespace TransitionWorld

variable (w : TransitionWorld)

def reply (response : TransitionResponse) : TransitionWorld :=
  { w with replies := w.replies ++ [response] }

/-- The answer goes to a connection that still waits. -/
def answer (t : RunningTransition) (response : TransitionResponse) : TransitionWorld :=
  if t.waiting then w.reply response else w

/-- `compare_exchange` from idle. -/
def acquire (request : TransitionRequest) (busy : DaemonError) : TransitionWorld :=
  if w.flag = .idle then
    { w with
      flag := request.flag
      running := w.running ++ [⟨w.nextId, request.phase, true⟩]
      nextId := w.nextId + 1
      log := w.log ++ [(w.nextId, .acquired)] }
  else w.reply (.error busy)

/-- The transition at the index goes on with another step. -/
def advance (index : Nat) (phase : TransitionPhase) : TransitionWorld :=
  { w with running := w.running.modify index fun t => { t with phase := phase } }

/-- The transition at the index is over. -/
def drop (index : Nat) : TransitionWorld := { w with running := w.running.eraseIdx index }

/-- `transition.store(TRANSITION_IDLE)`. -/
def store (t : RunningTransition) : TransitionWorld :=
  { w with flag := .idle, log := w.log ++ [(t.id, .released)] }

/-- The daemon's main loop ends. -/
def terminate (t : RunningTransition) : TransitionWorld :=
  { w with log := w.log ++ [(t.id, .ended)] }

/-- The maintenance check of a shutdown or of a restart. -/
def check (index : Nat) (t : RunningTransition) (result : Except Failure String)
    (next : TransitionPhase) : TransitionWorld :=
  match result with
  | .error (.io error) => ((w.store t).drop index).answer t (.error (nodeRegistrationError error))
  | .error (.daemon error) => ((w.store t).drop index).answer t (.error error)
  | .ok _ =>
      let (active, nodes) := nodeUpgradeMaintenanceActive w.nodes
      let w := { w with nodes := nodes }
      if active then ((w.store t).drop index).answer t (.error nodeUpgradeInProgress)
      else w.advance index next

/-- The next step of the transition at the index. -/
def proceed (index : Nat) (t : RunningTransition) (result : Except Failure String) :
    TransitionWorld :=
  match t.phase with
  | .rekey =>
      let response := if !w.hasIdentity then .error nodeIdentityUnavailable else
        match result with
        | .ok nodeId => .nodeIdentity nodeId
        | .error failure => .error (rekeyError failure)
      ((w.store t).drop index).answer t response
  | .identity expectedNodeId =>
      if !w.hasIdentity then
        ((w.store t).drop index).answer t (.error nodeIdentityUnavailable)
      else
        match result with
        | .ok nodeId =>
            if nodeId = expectedNodeId then w.advance index .shutdownCheck
            else ((w.store t).drop index).answer t (.error (.lifecycle .nodeIdentityChanged
              "daemon Node identity changed from the authorized uninstall target"))
        | .error failure => ((w.store t).drop index).answer t (.error failure.toDaemonError)
  | .shutdownCheck => w.check index t result .stopWorkers
  | .stopWorkers =>
      match result with
      | .ok _ => w.advance index .shutdown
      -- `stop_node_projection_workers()?`: the handler returns as it is
      | .error _ => w.drop index
  | .shutdown =>
      match result with
      | .ok _ => ((w.terminate t).drop index).answer t .ok
      | .error failure => ((w.store t).drop index).answer t (.error (.lifecycle
          failure.toDaemonError.code
          ("could not stop Boomux daemon: " ++ failure.toDaemonError.message)))
  | .restartCheck => w.check index t result .checkpoint
  | .checkpoint =>
      match result with
      | .ok _ => w.advance index .send
      | .error _ => ((w.store t).drop index).answer t (.error ⟨.persistenceFailed,
          "could not checkpoint local Shell transactions before restart"⟩)
  | .send =>
      match result with
      | .ok _ => w.advance index .coordinatorStop
      | .error _ => (w.store t).drop index
  | .coordinatorStop =>
      match result with
      | .ok _ => w.advance index .launch
      -- the main loop returns the error
      | .error _ => (w.terminate t).drop index
  | .launch =>
      match result with
      | .ok _ => ((w.terminate t).drop index).answer t .ok
      | .error failure => (w.store t).advance index (.startWorkers failure.toDaemonError)
  | .startWorkers failure =>
      match result with
      | .ok _ => (w.drop index).answer t (.error failure)
      | .error _ => (w.terminate t).drop index

/-- A maintenance check waits for the manager's lock. -/
def waits (t : RunningTransition) (result : Except Failure String) : Bool :=
  w.reading.isSome && t.phase.checks && result.isOk

/-- Whether a call on the registrations can happen: a begin goes on with what it has read, and other
calls wait for the lock. The time that passes meanwhile is part of the durations of the begin. -/
def unlocked : Nodes.Action → Bool
  | .beginUpgradeMaintenance _ _ _ _ transitionIdle => w.reading == some transitionIdle
  | _ => w.reading.isNone

def step : TransitionAction → Option TransitionWorld
  | .request request =>
      some (match request with
        | .rekeyNode true =>
            w.reply (.error (.validation "Node rekey cannot use a federation channel"))
        | .restart (.error error) => w.reply (.error error)
        | .restart (.ok _) => w.acquire request restartInProgress
        | request => w.acquire request transitionInProgress)
  | .proceed index result =>
      (w.running[index]?.filter fun t => !w.waits t result).map fun t => w.proceed index t result
  | .timeOut index message =>
      match w.running[index]? with
      | none => none
      | some t =>
          if t.phase.coordinated then
            some (({ w with
              running := w.running.modify index fun t => { t with waiting := false } }).answer t
              (.error (.lifecycle .timeout ("daemon restart timed out: " ++ message))))
          else none
  | .readFlag =>
      if w.reading.isSome then none else some { w with reading := some (w.flag == .idle) }
  | .nodes action =>
      if w.unlocked action then
        (w.nodes.step action).map fun nodes => { w with nodes := nodes, reading := none }
      else none

/-- A daemon that begins to serve. -/
structure Started (w : TransitionWorld) : Prop where
  flag : w.flag = .idle
  running : w.running = []
  log : w.log = []
  reading : w.reading = none
  nodes : w.nodes.Restored

end TransitionWorld

/-! ## What a run keeps -/

namespace TransitionWorld

/-- How often a transition has put the flag back, and whether it ended the daemon. -/
def releases (w : TransitionWorld) (id : Nat) : Nat := w.log.count (id, .released)

/-- Some transition ended the daemon. -/
def Ended (w : TransitionWorld) : Prop := ∃ id, (id, .ended) ∈ w.log

/-- A transition that holds the flag. -/
def Holding (w : TransitionWorld) (id : Nat) : Prop :=
  ∃ t ∈ w.running, t.id = id ∧ t.phase.holds = true

/-- Transitions exclude each other and Node maintenance, and leave the flag as they found it. -/
structure Orderly (w : TransitionWorld) : Prop where
  /-- At most one transition holds the flag, and the flag shows it. -/
  one : ∀ id id', w.Holding id → w.Holding id' → id = id'
  shown : ∀ t ∈ w.running, t.phase.holds = true → w.flag = t.phase.flag
  /-- No lease is held when a shutdown or restart has passed its check. -/
  unleased : ∀ t ∈ w.running, t.phase.checked = true →
    ∀ r ∈ w.nodes.manager.registrations, r.maintenance = none
  held : ∀ id, w.Holding id → w.releases id = 0
  /-- A transition puts the flag back once, unless it ends the daemon. -/
  once : ∀ id, (id, .acquired) ∈ w.log → ¬ w.Holding id →
    w.releases id = 1 ∨ (w.releases id = 0 ∧ (id, .ended) ∈ w.log)
  /-- The next transition is admitted. -/
  admits : (∀ id, ¬ w.Holding id) → ¬ w.Ended → w.flag = .idle

/-- What holds of every world, orderly or not. -/
structure Indexed (w : TransitionWorld) : Prop where
  distinct : Keyed.Distinct RunningTransition.id w.running
  fresh : ∀ id event, (id, event) ∈ w.log → id < w.nextId
  acquired : ∀ t ∈ w.running, (t.id, .acquired) ∈ w.log
  lives : ∀ t ∈ w.running, (t.id, .ended) ∉ w.log
  sound : w.nodes.manager.Sound

/-- While a begin that has read an idle flag has the lock, no check has been passed. -/
def Unchecked (w : TransitionWorld) : Prop :=
  w.reading = some true → ∀ t ∈ w.running, t.phase.checked = false

/-- No registration is leased. -/
def Leaseless (nodes : Nodes.World) : Prop :=
  ∀ r ∈ nodes.manager.registrations, r.maintenance = none

theorem leaseless_iff {nodes : Nodes.World} :
    Leaseless nodes ↔ ∀ token, ¬ nodes.manager.Leased token := by
  constructor
  · rintro h token ⟨r, hr, lease, hl, -⟩
    rw [h r hr] at hl
    cases hl
  · intro h r hr
    by_contra hsome
    obtain ⟨lease, hl⟩ := Option.ne_none_iff_exists'.mp hsome
    exact h lease.token ⟨r, hr, lease, hl, rfl⟩

variable {w u : TransitionWorld} {t : RunningTransition} {i : Nat}

/-! ### The moves of a transition -/

theorem drop_indexed (hw : w.Indexed) : (w.drop i).Indexed where
  distinct := hw.distinct.eraseIdx
  fresh := hw.fresh
  acquired q hq := hw.acquired q (List.mem_of_mem_eraseIdx hq)
  lives q hq := hw.lives q (List.mem_of_mem_eraseIdx hq)
  sound := hw.sound

/-- The identifiers of the log stay below the next one. -/
theorem noted_fresh (hw : w.Indexed) (ht : t ∈ w.running) {event : TransitionEvent} :
    ∀ id e, (id, e) ∈ w.log ++ [(t.id, event)] → id < w.nextId := by
  intro id e he
  rcases List.mem_append.mp he with hold | hlast
  · exact hw.fresh id e hold
  · cases List.mem_singleton.mp hlast
    exact hw.fresh t.id .acquired (hw.acquired t ht)

theorem store_indexed (hw : w.Indexed) (ht : t ∈ w.running) : (w.store t).Indexed where
  distinct := hw.distinct
  fresh := noted_fresh hw ht
  acquired q hq := List.mem_append_left _ (hw.acquired q hq)
  lives q hq he := by
    rcases List.mem_append.mp he with hold | hlast
    · exact hw.lives q hq hold
    · cases (Prod.mk.inj (List.mem_singleton.mp hlast)).2
  sound := hw.sound

theorem terminate_indexed (hw : w.Indexed) (hi : w.running[i]? = some t) :
    ((w.terminate t).drop i).Indexed where
  distinct := hw.distinct.eraseIdx
  fresh := noted_fresh hw (List.mem_of_getElem? hi)
  acquired q hq := List.mem_append_left _ (hw.acquired q (List.mem_of_mem_eraseIdx hq))
  lives q hq he := by
    obtain ⟨hmem, hne⟩ := (hw.distinct.mem_eraseIdx hi).mp hq
    rcases List.mem_append.mp he with hold | hlast
    · exact hw.lives q hmem hold
    · exact hne (Prod.mk.inj (List.mem_singleton.mp hlast)).1
  sound := hw.sound

theorem modify_indexed {f : RunningTransition → RunningTransition} (hw : w.Indexed)
    (hi : w.running[i]? = some t) (hf : (f t).id = t.id) :
    Indexed { w with running := w.running.modify i f } := by
  have hmem : ∀ q ∈ w.running.modify i f, ∃ q' ∈ w.running, q.id = q'.id := by
    intro q hq
    rcases (hw.distinct.mem_modify hi hf).mp hq with rfl | ⟨hold, -⟩
    · exact ⟨t, List.mem_of_getElem? hi, hf⟩
    · exact ⟨q, hold, rfl⟩
  refine ⟨hw.distinct.modify hi hf, hw.fresh, fun q hq => ?_, fun q hq => ?_, hw.sound⟩
  · obtain ⟨q', hq', hid⟩ := hmem q hq
    exact hid ▸ hw.acquired q' hq'
  · obtain ⟨q', hq', hid⟩ := hmem q hq
    exact hid ▸ hw.lives q' hq'

/-- Only the dropped transition stops holding the flag. -/
theorem drop_holding (hw : w.Indexed) (hi : w.running[i]? = some t) (id : Nat) :
    (w.drop i).Holding id ↔ w.Holding id ∧ id ≠ t.id := by
  constructor
  · rintro ⟨q, hq, rfl, hholds⟩
    obtain ⟨hmem, hne⟩ := (hw.distinct.mem_eraseIdx hi).mp hq
    exact ⟨⟨q, hmem, rfl, hholds⟩, hne⟩
  · rintro ⟨⟨q, hmem, rfl, hholds⟩, hne⟩
    exact ⟨q, (hw.distinct.mem_eraseIdx hi).mpr ⟨hmem, hne⟩, rfl, hholds⟩

/-- When the holder is dropped nobody holds the flag. -/
theorem drop_not_holding (hw : w.Indexed) (h : w.Orderly) (hi : w.running[i]? = some t)
    (hholds : t.phase.holds = true) (id : Nat) : ¬ (w.drop i).Holding id := by
  rw [drop_holding hw hi]
  rintro ⟨hid, hne⟩
  exact hne (h.one id t.id hid ⟨t, List.mem_of_getElem? hi, rfl, hholds⟩)

theorem releases_noted (id : Nat) (event : TransitionEvent) (flag : TransitionFlag)
    (running : List RunningTransition) :
    releases { w with flag := flag, running := running, log := w.log ++ [(t.id, event)] } id =
      w.releases id + if id = t.id ∧ event = .released then 1 else 0 := by
  unfold releases
  rw [List.count_append, List.count_singleton]
  congr 1
  by_cases h : id = t.id ∧ event = .released
  · simp [h.1, h.2]
  · rw [if_neg h, if_neg]
    intro he
    obtain ⟨h₁, h₂⟩ := Prod.mk.inj (beq_iff_eq.mp he)
    exact h ⟨h₁.symm, h₂⟩

/-- A holder that puts the flag back, and is over or runs on without it. -/
theorem release_orderly {running : List RunningTransition} (h : w.Orderly)
    (ht : t ∈ w.running) (hholds : t.phase.holds = true)
    (hnot : ∀ q ∈ running, q.phase.holds = false)
    (hchecked : ∀ q ∈ running, q.phase.checked = true → q ∈ w.running) :
    Orderly { w with
      flag := .idle, running := running, log := w.log ++ [(t.id, .released)] } := by
  have hholding : w.Holding t.id := ⟨t, ht, rfl, hholds⟩
  have hnobody : ∀ id, ¬ Holding { w with
      flag := .idle, running := running, log := w.log ++ [(t.id, .released)] } id := by
    rintro id ⟨q, hq, -, hq'⟩
    rw [hnot q hq] at hq'
    cases hq'
  refine ⟨fun id id' hid => absurd hid (hnobody id), fun q hq hq' => ?_, fun q hq hc => ?_,
    fun id hid => absurd hid (hnobody id), fun id hacquired _ => ?_, fun _ _ => rfl⟩
  · rw [hnot q hq] at hq'
    cases hq'
  · exact h.unleased q (hchecked q hq hc) hc
  · rw [releases_noted]
    by_cases hid : id = t.id
    · subst hid
      rw [h.held t.id hholding, if_pos ⟨rfl, rfl⟩]
      exact .inl rfl
    · rw [if_neg fun he => hid he.1]
      have hold : (id, TransitionEvent.acquired) ∈ w.log := by simpa using hacquired
      have hnot' : ¬ w.Holding id := fun hid' => hid (h.one id t.id hid' hholding)
      exact (h.once id hold hnot').imp_right (And.imp_right (List.mem_append_left _))

/-- A transition that ends the daemon. -/
theorem terminate_orderly (hw : w.Indexed) (h : w.Orderly) (hi : w.running[i]? = some t) :
    ((w.terminate t).drop i).Orderly := by
  have hholding : ∀ id, ((w.terminate t).drop i).Holding id ↔ w.Holding id ∧ id ≠ t.id :=
    fun id => drop_holding hw hi id
  have hreleases : ∀ id, ((w.terminate t).drop i).releases id = w.releases id := by
    intro id
    have hnoted := releases_noted (w := w) (t := t) id .ended w.flag (w.running.eraseIdx i)
    rwa [if_neg (by simp), Nat.add_zero] at hnoted
  have hended : (t.id, TransitionEvent.ended) ∈ ((w.terminate t).drop i).log := by
    simp [drop, terminate]
  refine ⟨fun id id' hid hid' => ?_, fun q hq hholds => ?_, fun q hq hc => ?_, fun id hid => ?_,
    fun id hacquired hnot => ?_, fun _ hnot => absurd ⟨t.id, hended⟩ hnot⟩
  · exact h.one id id' ((hholding id).mp hid).1 ((hholding id').mp hid').1
  · exact h.shown q (List.mem_of_mem_eraseIdx hq) hholds
  · exact h.unleased q (List.mem_of_mem_eraseIdx hq) hc
  · rw [hreleases]
    exact h.held id ((hholding id).mp hid).1
  · rw [hreleases]
    by_cases hid : w.Holding id
    · have hself : id = t.id := by
        by_contra hne
        exact hnot ((hholding id).mpr ⟨hid, hne⟩)
      exact .inr ⟨h.held id hid, hself ▸ hended⟩
    · have hold : (id, TransitionEvent.acquired) ∈ w.log := by
        simpa [drop, terminate] using hacquired
      exact (h.once id hold hid).imp_right (And.imp_right (List.mem_append_left _))

/-- A transition that runs on, or that only its connection leaves. -/
theorem modify_orderly {f : RunningTransition → RunningTransition} (hw : w.Indexed)
    (h : w.Orderly) (hi : w.running[i]? = some t) (hid : (f t).id = t.id)
    (hflag : (f t).phase.flag = t.phase.flag)
    (hchecked : (f t).phase.checked = true → t.phase.checked = true ∨ Leaseless w.nodes) :
    Orderly { w with running := w.running.modify i f } := by
  have ht : t ∈ w.running := List.mem_of_getElem? hi
  have hholds : (f t).phase.holds = t.phase.holds := by
    unfold TransitionPhase.holds
    rw [hflag]
  have hmem : ∀ q, q ∈ w.running.modify i f ↔ q = f t ∨ (q ∈ w.running ∧ q.id ≠ t.id) :=
    fun q => hw.distinct.mem_modify hi hid
  have hholding : ∀ id, Holding { w with running := w.running.modify i f } id ↔ w.Holding id := by
    intro id
    constructor
    · rintro ⟨q, hq, rfl, hq'⟩
      rcases (hmem q).mp hq with rfl | ⟨hold, -⟩
      · exact ⟨t, ht, hid.symm, hholds ▸ hq'⟩
      · exact ⟨q, hold, rfl, hq'⟩
    · rintro ⟨q, hq, rfl, hq'⟩
      by_cases hsame : q.id = t.id
      · obtain rfl : q = t := List.inj_on_of_nodup_map hw.distinct hq ht hsame
        exact ⟨f q, (hmem _).mpr (.inl rfl), hid, hholds ▸ hq'⟩
      · exact ⟨q, (hmem _).mpr (.inr ⟨hq, hsame⟩), rfl, hq'⟩
  refine ⟨fun id id' h₁ h₂ => ?_, fun q hq hq' => ?_, fun q hq hc => ?_, fun id h₁ => ?_,
    fun id hacquired hnot => ?_, fun hnobody hnot => ?_⟩
  · exact h.one id id' ((hholding id).mp h₁) ((hholding id').mp h₂)
  · rcases (hmem q).mp hq with rfl | ⟨hold, -⟩
    · rw [hflag]
      exact h.shown t ht (hholds ▸ hq')
    · exact h.shown q hold hq'
  · rcases (hmem q).mp hq with rfl | ⟨hold, -⟩
    · exact (hchecked hc).elim (h.unleased t ht) id
    · exact h.unleased q hold hc
  · exact h.held id ((hholding id).mp h₁)
  · exact h.once id hacquired fun hid' => hnot ((hholding id).mpr hid')
  · exact h.admits (fun id hid' => hnobody id ((hholding id).mpr hid')) hnot

/-- A transition that has put the flag back is over. -/
theorem drop_orderly (hw : w.Indexed) (h : w.Orderly) (hi : w.running[i]? = some t)
    (hnot : t.phase.holds = false) : (w.drop i).Orderly := by
  have hself : ¬ w.Holding t.id := by
    rintro ⟨q, hq, hid, hholds⟩
    obtain rfl : q = t := List.inj_on_of_nodup_map hw.distinct hq (List.mem_of_getElem? hi) hid
    rw [hnot] at hholds
    cases hholds
  have hholding : ∀ id, (w.drop i).Holding id ↔ w.Holding id := by
    intro id
    rw [drop_holding hw hi]
    exact ⟨And.left, fun hid => ⟨hid, fun he => hself (he ▸ hid)⟩⟩
  refine ⟨fun id id' h₁ h₂ => ?_, fun q hq => ?_, fun q hq => ?_, fun id h₁ => ?_,
    fun id hacquired hnot => ?_, fun hnobody hnot => ?_⟩
  · exact h.one id id' ((hholding id).mp h₁) ((hholding id').mp h₂)
  · exact h.shown q (List.mem_of_mem_eraseIdx hq)
  · exact h.unleased q (List.mem_of_mem_eraseIdx hq)
  · exact h.held id ((hholding id).mp h₁)
  · exact h.once id hacquired fun hid' => hnot ((hholding id).mpr hid')
  · exact h.admits (fun id hid' => hnobody id ((hholding id).mpr hid')) hnot

/-- A transition that leaves with the flag: nobody will put it back. -/
theorem drop_not_orderly (hw : w.Indexed) (h : w.Orderly) (hi : w.running[i]? = some t)
    (hholds : t.phase.holds = true) : ¬ (w.drop i).Orderly := by
  intro horderly
  have ht : t ∈ w.running := List.mem_of_getElem? hi
  have hreleases : w.releases t.id = 0 := h.held t.id ⟨t, ht, rfl, hholds⟩
  have honce := horderly.once t.id (hw.acquired t ht) (drop_not_holding hw h hi hholds t.id)
  rcases honce with hone | ⟨-, hended⟩
  · have hzero : (w.drop i).releases t.id = 0 := hreleases
    omega
  · exact hw.lives t ht hended

/-! ### Taking the flag, and calls on the registrations -/

/-- The flag is idle, so nobody holds it. -/
theorem Orderly.not_holding (h : w.Orderly) (hidle : w.flag = .idle) (id : Nat) :
    ¬ w.Holding id := by
  rintro ⟨t, ht, -, hholds⟩
  have hshown := h.shown t ht hholds
  rw [hidle] at hshown
  unfold TransitionPhase.holds at hholds
  rw [← hshown] at hholds
  simp at hholds

theorem acquire_indexed (hw : w.Indexed) (request : TransitionRequest) (busy : DaemonError) :
    (w.acquire request busy).Indexed := by
  unfold acquire
  split
  next =>
    have hnew : ∀ id event, (id, event) ∈ w.log → id ≠ w.nextId := fun id event he =>
      (hw.fresh id event he).ne
    refine ⟨hw.distinct.append_singleton (Keyed.get_eq_none.mpr fun q hq =>
      hnew q.id _ (hw.acquired q hq)), fun id e he => ?_, fun q hq => ?_, fun q hq he => ?_,
        hw.sound⟩
    · rcases List.mem_append.mp he with hold | hlast
      · exact (hw.fresh id e hold).trans (Nat.lt_succ_self _)
      · cases List.mem_singleton.mp hlast
        exact Nat.lt_succ_self _
    · rcases List.mem_append.mp hq with hold | hlast
      · exact List.mem_append_left _ (hw.acquired q hold)
      · rw [List.mem_singleton.mp hlast]
        exact List.mem_append_right _ (List.mem_singleton_self _)
    · have hlog : (q.id, TransitionEvent.ended) ∈ w.log := by simpa using he
      rcases List.mem_append.mp hq with hold | hlast
      · exact hw.lives q hold hlog
      · rw [List.mem_singleton.mp hlast] at hlog
        exact hnew _ _ hlog rfl
  next => exact ⟨hw.distinct, hw.fresh, hw.acquired, hw.lives, hw.sound⟩

theorem acquire_orderly (hw : w.Indexed) (h : w.Orderly) (request : TransitionRequest)
    (busy : DaemonError) : (w.acquire request busy).Orderly := by
  unfold acquire
  split
  next hidle =>
    have hnobody := h.not_holding hidle
    have hmem : ∀ q, q ∈ w.running ++ [⟨w.nextId, request.phase, true⟩] →
        q.phase.holds = true → q = ⟨w.nextId, request.phase, true⟩ := by
      intro q hq hholds
      rcases List.mem_append.mp hq with hold | hlast
      · exact absurd ⟨q, hold, rfl, hholds⟩ (hnobody q.id)
      · exact List.mem_singleton.mp hlast
    have hreleases : ∀ id, (w.log ++ [(w.nextId, TransitionEvent.acquired)]).count (id, .released) =
        w.releases id := by
      intro id
      rw [List.count_append, List.count_singleton]
      simp [releases]
    refine ⟨?_, fun q hq hholds => ?_, fun q hq hc => ?_, ?_, fun id hacquired hnot => ?_,
      fun hnot => ?_⟩
    · rintro id id' ⟨q, hq, rfl, hholds⟩ ⟨q', hq', rfl, hholds'⟩
      rw [hmem q hq hholds, hmem q' hq' hholds']
    · rw [hmem q hq hholds]
      exact (request.phase_flag).symm
    · rcases List.mem_append.mp hq with hold | hlast
      · exact h.unleased q hold hc
      · rw [List.mem_singleton.mp hlast] at hc
        cases request <;> cases hc
    · rintro id ⟨q, hq, rfl, hholds⟩
      rw [hmem q hq hholds]
      show (w.log ++ _).count _ = 0
      rw [hreleases]
      exact List.count_eq_zero.mpr fun he => absurd (hw.fresh _ _ he) (lt_irrefl _)
    · show (w.log ++ _).count _ = 1 ∨ ((w.log ++ _).count _ = 0 ∧ _)
      rw [hreleases]
      rcases List.mem_append.mp hacquired with hold | hlast
      · exact (h.once id hold (hnobody id)).imp_right (And.imp_right (List.mem_append_left _))
      · obtain rfl : id = w.nextId := (Prod.mk.inj (List.mem_singleton.mp hlast)).1
        refine absurd ⟨⟨w.nextId, request.phase, true⟩, by simp, rfl, ?_⟩ hnot
        cases request <;> rfl
    · refine absurd ⟨⟨w.nextId, request.phase, true⟩, by simp, rfl, ?_⟩ (hnot w.nextId)
      cases request <;> rfl
  next => exact ⟨h.one, h.shown, h.unleased, h.held, h.once, h.admits⟩

theorem nodes_indexed {nodes : Nodes.World} (hw : w.Indexed) (h : nodes.manager.Sound)
    (reading : Option Bool) : Indexed { w with nodes := nodes, reading := reading } :=
  ⟨hw.distinct, hw.fresh, hw.acquired, hw.lives, h⟩

theorem nodes_orderly {nodes : Nodes.World} (h : w.Orderly)
    (hleaseless : ∀ t ∈ w.running, t.phase.checked = true → Leaseless nodes)
    (reading : Option Bool) : Orderly { w with nodes := nodes, reading := reading } :=
  ⟨h.one, h.shown, hleaseless, h.held, h.once, h.admits⟩

/-- What a shutdown or restart that has passed its check knows of the flag. -/
theorem TransitionPhase.holds_of_checked {phase : TransitionPhase} (h : phase.checked = true) :
    phase.holds = true := by
  cases phase <;> first | rfl | cases h

/-- A begin that goes on would find its registration, at the revision it expects and open. -/
def Grantable (nodes : Nodes.World) (selector : String) (expectedRevision : Nat) : Prop :=
  ∃ found ∈ Nodes.findIndex (Nodes.expireMaintenance nodes.now nodes.manager) selector,
    found.2.snapshot.revision = expectedRevision ∧ found.2.admissionOpen = true

/-- Any other begin only lets expired leases go. -/
theorem beginMaintenance_of_not_grantable {nodes : Nodes.World} {selector : String}
    {expectedRevision : Nat} (h : ¬ Grantable nodes selector expectedRevision)
    (leaseDuration token : Nat) (transitionIdle : Bool) : ∃ e,
      Nodes.beginMaintenance nodes.now nodes.manager selector expectedRevision leaseDuration token
        transitionIdle = (.error e, Nodes.expireMaintenance nodes.now nodes.manager) := by
  unfold Nodes.beginMaintenance
  dsimp only
  split
  · exact ⟨_, rfl⟩
  split
  · exact ⟨_, rfl⟩
  next i r hfound =>
  split
  · exact ⟨_, rfl⟩
  next hrevision =>
  split
  · exact ⟨_, rfl⟩
  next hopen =>
  exact absurd ⟨(i, r), hfound, Nodes.requireRevision_eq_ok hrevision, by simpa using hopen⟩ h

/-- A call on the registrations grants a lease only for a begin that has read an idle flag and
finds its registration. -/
theorem granted_spec {action : Nodes.Action} {nodes : Nodes.World} (hw : w.Indexed)
    (hs : w.nodes.step action = some nodes) (token : Nat) (hleased : nodes.manager.Leased token) :
    w.nodes.manager.Leased token ∨ ∃ selector expectedRevision drainTimeout leaseDuration,
      action = .beginUpgradeMaintenance selector expectedRevision drainTimeout leaseDuration true ∧
        Grantable w.nodes selector expectedRevision := by
  have hproceeds := Nodes.World.step_proceeds hw.sound hs
  rcases hproceeds.granted token hleased with hgrant | hold
  · cases action with
    | beginUpgradeMaintenance selector revision drain lease idle =>
        obtain ⟨rfl, -⟩ := hgrant
        by_cases hgrantable : Grantable w.nodes selector revision
        · exact .inr ⟨selector, revision, drain, lease, rfl, hgrantable⟩
        · obtain ⟨e, hbegin⟩ :=
            beginMaintenance_of_not_grantable hgrantable lease w.nodes.tokens true
          simp only [Nodes.World.step, Nodes.World.starts, hbegin, Nodes.World.start,
            Option.some.injEq] at hs
          subst hs
          exact .inl (((Nodes.expireMaintenance_proceeds (C := fun _ => False)
            (G := fun _ => False) w.nodes.now hw.sound).granted token hleased).resolve_left id)
    | _ => exact hgrant.elim
  · exact .inl hold

theorem nodes_step_orderly {action : Nodes.Action} {nodes : Nodes.World} (hw : w.Indexed)
    (h : w.Orderly) (hu : w.Unchecked) (hunlocked : w.unlocked action = true)
    (hs : w.nodes.step action = some nodes) :
    Orderly { w with nodes := nodes, reading := none } := by
  refine nodes_orderly h (fun t ht hchecked => leaseless_iff.mpr fun token hleased => ?_) none
  rcases granted_spec hw hs token hleased with hold | ⟨_, _, _, _, rfl, -⟩
  · exact leaseless_iff.mp (h.unleased t ht hchecked) token hold
  · have hread : w.reading = some true := beq_iff_eq.mp hunlocked
    rw [hu hread t ht] at hchecked
    cases hchecked

/-- What the check leaves of the registrations, and what it found. -/
theorem nodeUpgradeMaintenanceActive_spec {nodes : Nodes.World} (h : nodes.manager.Sound) :
    (nodeUpgradeMaintenanceActive nodes).2.manager.Sound ∧
      (∀ token, (nodeUpgradeMaintenanceActive nodes).2.manager.Leased token →
        nodes.manager.Leased token) ∧
      ((nodeUpgradeMaintenanceActive nodes).1 = false →
        Leaseless (nodeUpgradeMaintenanceActive nodes).2) := by
  have hproceeds : Nodes.Proceeds (fun _ => False) (Nodes.Lapsed nodes.now) (fun _ => False)
      nodes.manager (nodeUpgradeMaintenanceActive nodes).2.manager :=
    Nodes.expireMaintenance_proceeds _ h
  refine ⟨hproceeds.sound, fun token hleased =>
    (hproceeds.granted token hleased).resolve_left id, fun hinactive r hr => ?_⟩
  · have hnone : (Nodes.expireMaintenance nodes.now nodes.manager).registrations.any
        (·.maintenance.isSome) = false := hinactive
    simpa using List.any_eq_false.mp hnone r hr

/-! ### One step -/

/-- The projection workers stop for a shutdown that has passed its check. -/
def StopsWorkers (w : TransitionWorld) : TransitionAction → Prop
  | .proceed index (.error _) => ∀ t ∈ w.running[index]?, t.phase ≠ .stopWorkers
  | _ => True

instance (a : TransitionAction) : Decidable (StopsWorkers w a) :=
  match a with
  | .proceed index (.error _) =>
      inferInstanceAs (Decidable (∀ t ∈ w.running[index]?, t.phase ≠ .stopWorkers))
  | .proceed _ (.ok _) | .request _ | .timeOut .. | .readFlag | .nodes _ => isTrue trivial

/-- Only replies are added. -/
theorem reply_indexed (hw : w.Indexed) (response : TransitionResponse) :
    (w.reply response).Indexed :=
  ⟨hw.distinct, hw.fresh, hw.acquired, hw.lives, hw.sound⟩

theorem reply_orderly (h : w.Orderly) (response : TransitionResponse) :
    (w.reply response).Orderly :=
  ⟨h.one, h.shown, h.unleased, h.held, h.once, h.admits⟩

theorem answer_indexed (hw : w.Indexed) (t : RunningTransition) (response : TransitionResponse) :
    (w.answer t response).Indexed := by
  unfold answer
  split
  · exact reply_indexed hw response
  · exact hw

theorem answer_orderly (h : w.Orderly) (t : RunningTransition) (response : TransitionResponse) :
    (w.answer t response).Orderly := by
  unfold answer
  split
  · exact reply_orderly h response
  · exact h

/-- A holder that gives up puts the flag back. -/
theorem exit_orderly (hw : w.Indexed) (h : w.Orderly) (hi : w.running[i]? = some t)
    (hholds : t.phase.holds = true) : ((w.store t).drop i).Orderly := by
  have ht : t ∈ w.running := List.mem_of_getElem? hi
  refine release_orderly h ht hholds (fun q hq => ?_) fun q hq _ => List.mem_of_mem_eraseIdx hq
  have hnot := drop_not_holding hw h hi hholds q.id
  by_contra hq'
  exact hnot ⟨q, hq, rfl, by simpa using hq'⟩

variable {result : Except Failure String} {next : TransitionPhase}

theorem exit_indexed (hw : w.Indexed) (hi : w.running[i]? = some t) :
    ((w.store t).drop i).Indexed :=
  drop_indexed (store_indexed hw (List.mem_of_getElem? hi))

theorem check_indexed (hw : w.Indexed) (hi : w.running[i]? = some t) :
    (w.check i t result next).Indexed := by
  have hspec := nodeUpgradeMaintenanceActive_spec hw.sound
  unfold check
  split
  · exact answer_indexed (exit_indexed hw hi) _ _
  · exact answer_indexed (exit_indexed hw hi) _ _
  · have hnodes := nodes_indexed hw hspec.1 w.reading
    dsimp only
    split
    · exact answer_indexed (exit_indexed hnodes hi) _ _
    · exact modify_indexed hnodes hi rfl

theorem check_orderly (hw : w.Indexed) (h : w.Orderly) (hi : w.running[i]? = some t)
    (hholds : t.phase.holds = true) (hflag : next.flag = t.phase.flag) :
    (w.check i t result next).Orderly := by
  have hspec := nodeUpgradeMaintenanceActive_spec hw.sound
  unfold check
  split
  · exact answer_orderly (exit_orderly hw h hi hholds) _ _
  · exact answer_orderly (exit_orderly hw h hi hholds) _ _
  · have hnodes := nodes_indexed hw hspec.1 w.reading
    have horderly := nodes_orderly h (fun q hq hc => leaseless_iff.mpr fun token hleased =>
      leaseless_iff.mp (h.unleased q hq hc) token (hspec.2.1 token hleased)) w.reading
    dsimp only
    split
    · exact answer_orderly (exit_orderly hnodes horderly hi hholds) _ _
    next hinactive =>
      exact modify_orderly hnodes horderly hi rfl hflag fun _ =>
        .inr (hspec.2.2 (by simpa using hinactive))

theorem proceed_indexed (hw : w.Indexed) (hi : w.running[i]? = some t) :
    (w.proceed i t result).Indexed := by
  have hexit := exit_indexed hw hi
  unfold proceed
  split
  · exact answer_indexed hexit _ _
  · split
    · exact answer_indexed hexit _ _
    · split
      · split
        · exact modify_indexed hw hi rfl
        · exact answer_indexed hexit _ _
      · exact answer_indexed hexit _ _
  · exact check_indexed hw hi
  · split
    · exact modify_indexed hw hi rfl
    · exact drop_indexed hw
  · split
    · exact answer_indexed (terminate_indexed hw hi) _ _
    · exact answer_indexed hexit _ _
  · exact check_indexed hw hi
  · split
    · exact modify_indexed hw hi rfl
    · exact answer_indexed hexit _ _
  · split
    · exact modify_indexed hw hi rfl
    · exact hexit
  · split
    · exact modify_indexed hw hi rfl
    · exact terminate_indexed hw hi
  · split
    · exact answer_indexed (terminate_indexed hw hi) _ _
    · exact modify_indexed (w := w.store t) (store_indexed hw (List.mem_of_getElem? hi)) hi rfl
  · split
    · exact answer_indexed (drop_indexed hw) _ _
    · exact terminate_indexed hw hi

/-- Every exit of a transition is orderly, except that of a shutdown whose workers do not
stop. -/
theorem proceed_orderly (hw : w.Indexed) (h : w.Orderly) (hi : w.running[i]? = some t) :
    (w.proceed i t result).Orderly ↔
      ∀ failure, result = .error failure → t.phase ≠ .stopWorkers := by
  have hexit := exit_orderly hw h hi
  have hend := terminate_orderly hw h hi
  have hadvance : ∀ {next : TransitionPhase}, next.flag = t.phase.flag →
      t.phase.checked = true → (w.advance i next).Orderly :=
    fun hflag hchecked => modify_orderly hw h hi rfl hflag fun _ => .inl hchecked
  unfold proceed
  cases hphase : t.phase with
  -- The one exit that keeps the flag.
  | stopWorkers =>
      rw [hphase] at hadvance
      cases hresult : result with
      | ok value => exact iff_of_true (hadvance rfl rfl) nofun
      | error failure =>
          refine iff_of_false (drop_not_orderly hw h hi (by rw [hphase]; rfl)) fun hall => ?_
          exact hall failure rfl rfl
  | rekey =>
      refine iff_of_true ?_ (fun _ _ => nofun)
      exact answer_orderly (hexit (by rw [hphase]; rfl)) _ _
  -- Every exit of the comparison with the expected Node gives the flag back.
  | identity expectedNodeId =>
      refine iff_of_true ?_ (fun _ _ => nofun)
      have hexit := hexit (by rw [hphase]; rfl)
      dsimp only
      split
      · exact answer_orderly hexit _ _
      · split
        · split
          · exact modify_orderly hw h hi rfl (by rw [hphase]; rfl) nofun
          · exact answer_orderly hexit _ _
        · exact answer_orderly hexit _ _
  | shutdownCheck =>
      refine iff_of_true ?_ (fun _ _ => nofun)
      exact check_orderly hw h hi (by rw [hphase]; rfl) (by rw [hphase]; rfl)
  -- The daemon ends, or it could not stop and gives the flag back.
  | shutdown =>
      refine iff_of_true ?_ (fun _ _ => nofun)
      dsimp only
      split
      · exact answer_orderly hend _ _
      · exact answer_orderly (hexit (by rw [hphase]; rfl)) _ _
  | restartCheck =>
      refine iff_of_true ?_ (fun _ _ => nofun)
      exact check_orderly hw h hi (by rw [hphase]; rfl) (by rw [hphase]; rfl)
  | checkpoint =>
      refine iff_of_true ?_ (fun _ _ => nofun)
      rw [hphase] at hadvance
      dsimp only
      split
      · exact hadvance rfl rfl
      · exact answer_orderly (hexit (by rw [hphase]; rfl)) _ _
  | send =>
      refine iff_of_true ?_ (fun _ _ => nofun)
      rw [hphase] at hadvance
      dsimp only
      split
      · exact hadvance rfl rfl
      · exact hexit (by rw [hphase]; rfl)
  | coordinatorStop =>
      refine iff_of_true ?_ (fun _ _ => nofun)
      rw [hphase] at hadvance
      dsimp only
      split
      · exact hadvance rfl rfl
      · exact hend
  -- The replacement has come up, or the flag is given back and the workers start again.
  | launch =>
      refine iff_of_true ?_ (fun _ _ => nofun)
      have hholds : t.phase.holds = true := by rw [hphase]; rfl
      dsimp only
      split
      · exact answer_orderly hend _ _
      next failure =>
        have hmem : ∀ q, q ∈ w.running.modify i (fun t =>
            { t with phase := .startWorkers failure.toDaemonError }) ↔
            q = { t with phase := .startWorkers failure.toDaemonError } ∨
              (q ∈ w.running ∧ q.id ≠ t.id) := fun q => hw.distinct.mem_modify hi rfl
        refine release_orderly h (List.mem_of_getElem? hi) hholds (fun q hq => ?_)
          fun q hq hc => ?_
        · rcases (hmem q).mp hq with rfl | ⟨hold, hne⟩
          · rfl
          · by_contra hq'
            exact hne (h.one q.id t.id ⟨q, hold, rfl, by simpa using hq'⟩
              ⟨t, List.mem_of_getElem? hi, rfl, hholds⟩)
        · rcases (hmem q).mp hq with rfl | ⟨hold, -⟩
          · cases hc
          · exact hold
  | startWorkers failure =>
      refine iff_of_true ?_ (fun _ _ => nofun)
      dsimp only
      split
      · exact answer_orderly (drop_orderly hw h hi (by rw [hphase]; rfl)) _ _
      · exact hend

@[simp] theorem acquire_nodes (request : TransitionRequest) (busy : DaemonError) :
    (w.acquire request busy).nodes = w.nodes := by
  unfold acquire
  split <;> rfl

@[simp] theorem answer_nodes (t : RunningTransition) (response : TransitionResponse) :
    (w.answer t response).nodes = w.nodes := by
  unfold answer
  split <;> rfl

@[simp] theorem answer_reading (t : RunningTransition) (response : TransitionResponse) :
    (w.answer t response).reading = w.reading := by
  unfold answer
  split <;> rfl

/-- A transition leaves alone what a begin has read. -/
theorem proceed_reading : (w.proceed i t result).reading = w.reading := by
  have hexit : ∀ response : TransitionResponse,
      (((w.store t).drop i).answer t response).reading = w.reading := fun _ => answer_reading _ _
  have hend : ∀ response : TransitionResponse,
      (((w.terminate t).drop i).answer t response).reading = w.reading :=
    fun _ => answer_reading _ _
  have hcheck {next : TransitionPhase} : (w.check i t result next).reading = w.reading := by
    unfold check
    split
    · exact hexit _
    · exact hexit _
    · dsimp only
      split
      · exact answer_reading _ _
      · rfl
  unfold proceed
  split
  · exact hexit _
  · split
    · exact hexit _
    · split
      · split
        · rfl
        · exact hexit _
      · exact hexit _
  · exact hcheck
  · split <;> rfl
  · split
    · exact hend _
    · exact hexit _
  · exact hcheck
  · split
    · rfl
    · exact hexit _
  · split <;> rfl
  · split <;> rfl
  · split
    · exact hend _
    · rfl
  · split
    · exact answer_reading _ _
    · rfl

theorem check_nodes : (w.check i t result next).nodes = w.nodes ∨
    (w.check i t result next).nodes = (nodeUpgradeMaintenanceActive w.nodes).2 := by
  unfold check
  split
  · exact .inl (answer_nodes _ _)
  · exact .inl (answer_nodes _ _)
  · dsimp only
    split
    · exact .inr (answer_nodes _ _)
    · exact .inr rfl

/-- Of the registrations a transition only lets expired leases go. -/
theorem proceed_nodes : (w.proceed i t result).nodes = w.nodes ∨
    (w.proceed i t result).nodes = (nodeUpgradeMaintenanceActive w.nodes).2 := by
  have hexit : ∀ response : TransitionResponse,
      (((w.store t).drop i).answer t response).nodes = w.nodes := fun _ => answer_nodes _ _
  have hend : ∀ response : TransitionResponse,
      (((w.terminate t).drop i).answer t response).nodes = w.nodes := fun _ => answer_nodes _ _
  unfold proceed
  split
  · exact .inl (hexit _)
  · split
    · exact .inl (hexit _)
    · split
      · split
        · exact .inl rfl
        · exact .inl (hexit _)
      · exact .inl (hexit _)
  · exact check_nodes
  · split <;> exact .inl rfl
  · split
    · exact .inl (hend _)
    · exact .inl (hexit _)
  · exact check_nodes
  · split
    · exact .inl rfl
    · exact .inl (hexit _)
  · split <;> exact .inl rfl
  · split <;> exact .inl rfl
  · split
    · exact .inl (hend _)
    · exact .inl rfl
  · split
    · exact .inl (answer_nodes _ _)
    · exact .inl rfl

theorem step_indexed {a : TransitionAction} (hw : w.Indexed) (hs : w.step a = some u) :
    u.Indexed := by
  cases a with
  | request request =>
      cases hs
      split
      · exact reply_indexed hw _
      · exact reply_indexed hw _
      · exact acquire_indexed hw _ _
      · exact acquire_indexed hw _ _
  | proceed index result =>
      obtain ⟨t, ht, rfl⟩ := Option.map_eq_some_iff.mp hs
      exact proceed_indexed hw (Option.filter_eq_some_iff.mp ht).1
  | timeOut index message =>
      simp only [step] at hs
      split at hs
      · cases hs
      next t hi =>
        split at hs
        · cases hs
          exact answer_indexed (modify_indexed hw hi rfl) _ _
        · cases hs
  | readFlag =>
      simp only [step] at hs
      split at hs
      · cases hs
      · cases hs
        exact nodes_indexed hw hw.sound _
  | nodes action =>
      simp only [step] at hs
      split at hs
      · obtain ⟨nodes, hn, rfl⟩ := Option.map_eq_some_iff.mp hs
        exact nodes_indexed hw (Nodes.World.step_proceeds hw.sound hn).sound none
      · cases hs

@[simp] theorem answer_running (t : RunningTransition) (response : TransitionResponse) :
    (w.answer t response).running = w.running := by
  unfold answer
  split <;> rfl

/-- A transition has passed a check behind a step only if it had before, or the step made one. -/
theorem proceed_checked (hw : w.Indexed) (hi : w.running[i]? = some t)
    (hnot : ∀ q ∈ w.running, q.phase.checked = false)
    (hwaits : (t.phase.checks && result.isOk) = false) :
    ∀ q ∈ (w.proceed i t result).running, q.phase.checked = false := by
  have ht := hnot t (List.mem_of_getElem? hi)
  have hdrop : ∀ q ∈ w.running.eraseIdx i, q.phase.checked = false :=
    fun q hq => hnot q (List.mem_of_mem_eraseIdx hq)
  have hadvance (next : TransitionPhase) (hnext : next.checked = false) :
      ∀ q ∈ w.running.modify i fun t => { t with phase := next }, q.phase.checked = false := by
    intro q hq
    rcases (hw.distinct.mem_modify hi rfl).mp hq with rfl | ⟨hold, -⟩
    · exact hnext
    · exact hnot q hold
  obtain ⟨id, phase, waiting⟩ := t
  unfold proceed
  cases phase with
  | stopWorkers | shutdown | checkpoint | send | coordinatorStop | launch => cases ht
  | shutdownCheck | restartCheck =>
      -- with an error the check puts the flag back
      cases result with
      | ok value => cases hwaits
      | error failure =>
          dsimp only [check]
          cases failure with
          | io error =>
              rw [answer_running]
              exact hdrop
          | daemon error =>
              rw [answer_running]
              exact hdrop
  | rekey =>
      rw [answer_running]
      exact hdrop
  | identity expectedNodeId =>
      dsimp only
      split
      · rw [answer_running]
        exact hdrop
      · split
        · split
          · exact hadvance .shutdownCheck rfl
          · rw [answer_running]
            exact hdrop
        · rw [answer_running]
          exact hdrop
  | startWorkers failure =>
      dsimp only
      split
      · rw [answer_running]
        exact hdrop
      · exact hdrop

/-- A check is not passed under the lock of a begin that has read an idle flag. -/
theorem step_unchecked {a : TransitionAction} (hw : w.Indexed) (h : w.Orderly) (hu : w.Unchecked)
    (hs : w.step a = some u) : u.Unchecked := by
  intro hread
  cases a with
  | request request =>
      cases hs
      have hacquire (request : TransitionRequest) (busy : DaemonError)
          (hread : (w.acquire request busy).reading = some true) :
          ∀ q ∈ (w.acquire request busy).running, q.phase.checked = false := by
        unfold acquire at hread ⊢
        split at hread
        next hidle =>
          intro q hq
          rw [if_pos hidle] at hq
          rcases List.mem_append.mp hq with hold | hnew
          · exact hu hread q hold
          · rw [List.mem_singleton.mp hnew]
            cases request <;> rfl
        next hbusy =>
          rw [if_neg hbusy]
          exact hu hread
      split at *
      · exact hu hread
      · exact hu hread
      · exact hacquire _ _ hread
      · exact hacquire _ _ hread
  | proceed index result =>
      obtain ⟨t, ht, rfl⟩ := Option.map_eq_some_iff.mp hs
      obtain ⟨hi, hwaits⟩ := Option.filter_eq_some_iff.mp ht
      rw [proceed_reading] at hread
      refine proceed_checked hw hi (hu hread) ?_
      simpa only [waits, hread, Option.isSome_some, Bool.true_and, Bool.not_eq_true'] using hwaits
  | timeOut index message =>
      simp only [step] at hs
      split at hs
      · cases hs
      next t hi =>
        split at hs
        · cases hs
          rw [answer_running]
          rw [answer_reading] at hread
          intro q hq
          rcases (hw.distinct.mem_modify hi rfl).mp hq with rfl | ⟨hold, -⟩
          · exact hu hread t (List.mem_of_getElem? hi)
          · exact hu hread q hold
        · cases hs
  | readFlag =>
      simp only [step] at hs
      split at hs
      · cases hs
      · cases hs
        intro q hq
        -- the flag is idle, so nobody holds it
        have hidle : w.flag = .idle := beq_iff_eq.mp (Option.some.inj hread)
        by_contra hchecked
        rw [Bool.not_eq_false] at hchecked
        exact h.not_holding hidle q.id ⟨q, hq, rfl, TransitionPhase.holds_of_checked hchecked⟩
  | nodes action =>
      simp only [step] at hs
      split at hs
      · obtain ⟨nodes, -, rfl⟩ := Option.map_eq_some_iff.mp hs
        cases hread
      · cases hs

/-- A step keeps the transitions orderly, unless it is a shutdown whose workers do not stop. -/
theorem step_orderly {a : TransitionAction} (hw : w.Indexed) (h : w.Orderly) (hu : w.Unchecked)
    (hs : w.step a = some u) : u.Orderly ↔ StopsWorkers w a := by
  cases a with
  | request request =>
      refine iff_of_true ?_ trivial
      cases hs
      split
      · exact reply_orderly h _
      · exact reply_orderly h _
      · exact acquire_orderly hw h _ _
      · exact acquire_orderly hw h _ _
  | proceed index result =>
      obtain ⟨t, ht, rfl⟩ := Option.map_eq_some_iff.mp hs
      have hi := (Option.filter_eq_some_iff.mp ht).1
      rw [proceed_orderly hw h hi]
      cases result with
      | ok value => exact iff_of_true nofun trivial
      | error failure =>
          constructor
          · intro hall t' hi'
            obtain rfl : t = t' := Option.some.inj (hi.symm.trans hi')
            exact hall failure rfl
          · exact fun hstops _ _ => hstops t hi
  | timeOut index message =>
      refine iff_of_true ?_ trivial
      simp only [step] at hs
      split at hs
      · cases hs
      next t hi =>
        split at hs
        · cases hs
          exact answer_orderly (modify_orderly hw h hi rfl rfl .inl) _ _
        · cases hs
  | readFlag =>
      refine iff_of_true ?_ trivial
      simp only [step] at hs
      split at hs
      · cases hs
      · cases hs
        exact nodes_orderly h h.unleased _
  | nodes action =>
      refine iff_of_true ?_ trivial
      simp only [step] at hs
      split at hs
      next hunlocked =>
        obtain ⟨nodes, hn, rfl⟩ := Option.map_eq_some_iff.mp hs
        exact nodes_step_orderly hw h hu hunlocked hn
      · cases hs

/-- No lease is granted while a transition holds the flag. A lease is granted where the begin of
its maintenance records it. -/
def GrantsIdle (w : TransitionWorld) (a : TransitionAction) : Prop :=
  ∀ u token, w.step a = some u → u.nodes.manager.Leased token →
    w.nodes.manager.Leased token ∨ w.flag = .idle

/-- No transition has taken the flag since a begin read it idle, which finds its registration and
goes on to record its lease. -/
def Undisturbed (w : TransitionWorld) : TransitionAction → Prop
  | .nodes (.beginUpgradeMaintenance selector expectedRevision _ _ true) =>
      Grantable w.nodes selector expectedRevision → w.flag = .idle
  | _ => True

theorem step_grantsIdle {a : TransitionAction} (hw : w.Indexed) (hundisturbed : w.Undisturbed a) :
    GrantsIdle w a := by
  intro u token hs hleased
  cases a with
  | request request =>
      refine .inl ?_
      cases hs
      split at hleased
      · exact hleased
      · exact hleased
      · rwa [acquire_nodes] at hleased
      · rwa [acquire_nodes] at hleased
  | proceed index result =>
      obtain ⟨t, ht, rfl⟩ := Option.map_eq_some_iff.mp hs
      rcases proceed_nodes (w := w) (i := index) (t := t) with hsame | hcheck
      · rw [hsame] at hleased
        exact .inl hleased
      · rw [hcheck] at hleased
        exact .inl ((nodeUpgradeMaintenanceActive_spec hw.sound).2.1 token hleased)
  | timeOut index message =>
      refine .inl ?_
      simp only [step] at hs
      split at hs
      · cases hs
      next t hi =>
        split at hs
        · cases hs
          rwa [answer_nodes] at hleased
        · cases hs
  | readFlag =>
      simp only [step] at hs
      split at hs
      · cases hs
      · cases hs
        exact .inl hleased
  | nodes action =>
      simp only [step] at hs
      split at hs
      · obtain ⟨nodes, hn, rfl⟩ := Option.map_eq_some_iff.mp hs
        rcases granted_spec hw hn token hleased with hold | ⟨_, _, _, _, rfl, hgrantable⟩
        · exact .inl hold
        · exact .inr (hundisturbed hgrantable)
      · cases hs

/-! ## The theorem -/

theorem Started.indexed (h : w.Started) : w.Indexed where
  distinct := by
    rw [h.running]
    exact List.nodup_nil
  fresh _ _ he := by
    rw [h.log] at he
    cases he
  acquired _ ht := by
    rw [h.running] at ht
    cases ht
  lives _ ht := by
    rw [h.running] at ht
    cases ht
  sound := h.nodes.recoverable.sound

theorem Started.unchecked (h : w.Started) : w.Unchecked := by
  intro hread
  rw [h.reading] at hread
  cases hread

theorem Started.orderly (h : w.Started) : w.Orderly := by
  have hnobody : ∀ t, t ∉ w.running := by
    rw [h.running]
    exact fun t => List.not_mem_nil
  refine ⟨?_, fun t ht => absurd ht (hnobody t), fun t ht => absurd ht (hnobody t), ?_,
    fun id he => ?_, fun _ _ => h.flag⟩
  · rintro id id' ⟨t, ht, -⟩
    exact absurd ht (hnobody t)
  · rintro id ⟨t, ht, -⟩
    exact absurd ht (hnobody t)
  · rw [h.log] at he
    cases he

/-- Along every run the transitions are orderly exactly when the projection workers stop for every
shutdown that has passed its check; and every lease is granted while the flag is idle when no
transition takes the flag between the reading of a begin and its lease. -/
theorem maintenance_exclusive_along (h : w.Started) (actions : List TransitionAction) :
    (Along step Orderly w actions ↔ Meets step StopsWorkers w actions) ∧
      (Meets step Undisturbed w actions → Meets step GrantsIdle w actions) := by
  have hindexed : ∀ (s : TransitionWorld) (a : TransitionAction) (u : TransitionWorld),
      s.Indexed → s.step a = some u → u.Indexed := fun _ _ _ hs hu => step_indexed hs hu
  constructor
  · exact along_iff_meets (I := fun s => s.Indexed ∧ s.Unchecked)
      (fun s a u hs ho _ hu => ⟨hindexed s a u hs.1 hu, step_unchecked hs.1 ho hs.2 hu⟩)
      (fun _ _ _ hs ho hu => step_orderly hs.1 ho hs.2 hu) ⟨h.indexed, h.unchecked⟩ h.orderly
  · exact fun hmeets => hmeets.imp hindexed (fun _ _ hs => step_grantsIdle hs) h.indexed

/-- A daemon that begins to serve without registered Nodes. -/
def serving : TransitionWorld := ⟨.idle, [], .fresh, none, true, 0, [], []⟩

theorem serving_started : serving.Started := ⟨rfl, rfl, rfl, rfl, Nodes.World.fresh_restored⟩

instance (a : TransitionAction) : Decidable (Undisturbed w a) :=
  match a with
  | .nodes (.beginUpgradeMaintenance selector expectedRevision _ _ true) =>
      inferInstanceAs (Decidable ((∃ found ∈ Nodes.findIndex _ selector,
        found.2.snapshot.revision = expectedRevision ∧ found.2.admissionOpen = true) → _))
  | .nodes (.beginUpgradeMaintenance _ _ _ _ false) | .nodes (.tick _) | .nodes (.observe _)
  | .nodes (.withCurrent _) | .nodes (.withObservation ..)
  | .nodes .hasActiveUpgradeMaintenance | .nodes (.admitOperation _) | .nodes (.release _)
  | .nodes (.add ..) | .nodes (.rename ..) | .nodes (.retarget ..) | .nodes (.forget ..)
  | .nodes (.finishUpgradeMaintenance ..) | .nodes (.finishUninstallMaintenance ..)
  | .nodes (.renewUpgradeMaintenance ..) | .nodes (.wake ..) | .request _ | .proceed ..
  | .timeOut .. | .readFlag => isTrue trivial

/-- A Node is registered. -/
def registerNode : TransitionAction :=
  .nodes (.add "a" "host" "00000000-0000-0000-0000-000000000001"
    "00000000-0000-0000-0000-000000000002" true)

/-- A lease keeps a shutdown out until it is given back; then a restart whose replacement does not
launch, and a shutdown. -/
def maintainedRun : List TransitionAction :=
  [registerNode, .readFlag, .nodes (.beginUpgradeMaintenance "a" 1 30 600 true),
   .request .shutdown, .proceed 0 (.ok ""),
   .nodes (.finishUpgradeMaintenance "00000000-0000-0000-0000-000000000001" 0),
   .request (.restart (.ok ())), .request .shutdown, .proceed 0 (.ok ""), .proceed 0 (.ok ""),
   .proceed 0 (.ok ""), .proceed 0 (.ok ""), .proceed 0 (.error (.io ⟨.other, "no launch"⟩)),
   .request .shutdown, .proceed 0 (.ok ""), .proceed 0 (.ok ""), .proceed 0 (.ok ""),
   .proceed 0 (.ok "")]

theorem maintenance_exclusive_along_maintainedRun :
    Along step Orderly serving maintainedRun ∧ Meets step GrantsIdle serving maintainedRun ∧
      (exec step serving maintainedRun).map (·.replies) =
        some [.error nodeUpgradeInProgress, .error transitionInProgress,
          .error (.ofIo ⟨.other, "no launch"⟩), .ok] :=
  ⟨(maintenance_exclusive_along serving_started maintainedRun).1.mpr
    (meets_of_allMeet (by decide +kernel)),
    (maintenance_exclusive_along serving_started maintainedRun).2
      (meets_of_allMeet (by decide +kernel)),
    by decide +kernel⟩

/-- A shutdown passes its check, and a projection worker has panicked. -/
def panickedWorkerRun : List TransitionAction :=
  [.request .shutdown, .proceed 0 (.ok ""),
   .proceed 0 (.error (.io ⟨.other, "Node projection worker panicked"⟩))]

/-- A rekey takes the flag that a begin has read idle; `overtakenBegin` is the begin's next step. -/
def overtakenBeginRun : List TransitionAction :=
  [registerNode, .readFlag, .request (.rekeyNode false)]

def overtakenBegin : TransitionAction :=
  .nodes (.beginUpgradeMaintenance "a" 1 30 600 true)

/-- In the first run the connection is gone and the flag stays: every later transition is refused.
In the second one the begin is granted its lease while the rekey holds the flag. -/
theorem not_maintenance_exclusive_along :
    (¬ ∀ (w : TransitionWorld) (actions : List TransitionAction), w.Started →
      Along step Orderly w actions) ∧
    ¬ ∀ (w : TransitionWorld) (actions : List TransitionAction), w.Started →
      Meets step GrantsIdle w actions := by
  constructor
  · intro hall
    have hrun : (exec step serving panickedWorkerRun).map
        (fun w => (w.flag, w.running, w.log)) = some (.shutdown, [], [(0, .acquired)]) := by
      decide
    obtain ⟨w, hw, he⟩ := Option.map_eq_some_iff.mp hrun
    simp only [Prod.mk.injEq] at he
    obtain ⟨hflag, hrunning, hlog⟩ := he
    have horderly := (hall serving panickedWorkerRun serving_started).last hw
    have hidle := horderly.admits
      (fun id hid => by
        obtain ⟨t, ht, -⟩ := hid
        rw [hrunning] at ht
        cases ht)
      (fun hended => by
        obtain ⟨id, hid⟩ := hended
        rw [hlog] at hid
        simp at hid)
    rw [hflag] at hidle
    cases hidle
  · intro hall
    have hrun : (exec step serving overtakenBeginRun).map (fun w =>
        (w.flag, decide (w.nodes.manager.Leased 0),
          (w.step overtakenBegin).map fun u => decide (u.nodes.manager.Leased 0))) =
        some (.rekey, false, some true) := by
      decide +kernel
    obtain ⟨w, hw, he⟩ := Option.map_eq_some_iff.mp hrun
    simp only [Prod.mk.injEq, decide_eq_false_iff_not] at he
    obtain ⟨hflag, hfree, hgranted⟩ := he
    obtain ⟨u, hu, hleased⟩ := Option.map_eq_some_iff.mp hgranted
    have hgrants := (hall serving (overtakenBeginRun ++ [overtakenBegin])
      serving_started).at_step hw hu
    rcases hgrants u 0 hu (of_decide_eq_true hleased) with hold | hidle
    · exact hfree hold
    · rw [hflag] at hidle
      cases hidle

end TransitionWorld

end Boomux.Daemon
