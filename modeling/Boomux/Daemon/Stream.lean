import Boomux.Daemon.Shell
import Mathlib.Data.List.Range

/-!
# The event stream

`EventStreamState` is the retained part of the event log, `TransitionState` what waits to be
appended to it, and `EventTransaction` the two under both their locks. Two fields are not in
the source and decide nothing: `evicted`, the events that retention has dropped, and the
`transition` of a durable batch and of the events appended from it, which numbers the change of
the registry that the batch reports. The log is `evicted ++ events`.
-/

set_option autoImplicit false

namespace Boomux.Daemon

open Rust

/-! ## Data -/

/-- `DaemonEvent`, without its timestamp. -/
structure DaemonEvent where
  id : Nat
  kind : DaemonEventKind
  transition : Option Nat
  deriving DecidableEq, Repr

/-- `EventCursor`. -/
structure EventCursor where
  streamId : String
  eventId : Nat
  deriving DecidableEq, Repr

/-- A durable event batch. -/
structure Batch where
  transition : Nat
  kinds : List DaemonEventKind
  deriving DecidableEq, Repr

structure EventStreamState where
  streamId : String
  latestId : Nat
  events : List DaemonEvent
  evicted : List DaemonEvent
  deriving DecidableEq, Repr

structure TransitionState where
  pendingDurableEvents : List Batch
  persistenceInFlight : Bool
  inFlightEventCount : Nat
  lifecycleEventReservation : Nat
  pendingRuntimeEvents : List DaemonEventKind
  deriving DecidableEq, Repr

/-- `TransitionState::default`. -/
def TransitionState.idle : TransitionState := ⟨[], false, 0, 0, []⟩

structure EventTransaction where
  transition : TransitionState
  events : EventStreamState
  deriving DecidableEq, Repr

/-- `MAX_RETAINED_EVENTS`. -/
def maxRetainedEvents : Nat := 8192

/-! ## Transitions -/

/-- `publication_blocked`. -/
def TransitionState.publicationBlocked (t : TransitionState) : Bool :=
  t.persistenceInFlight || !t.pendingDurableEvents.isEmpty || t.lifecycleEventReservation ≠ 0

/-- Whether the queued event `pending` is a duplicate of `event`: the match of
`queue_runtime_event`. -/
def DaemonEventKind.coalesces (event pending : DaemonEventKind) : Bool :=
  match event, pending with
  | .outputChanged _ shellId runId _, .outputChanged _ shellId' runId' _ =>
      shellId' = shellId && runId' = runId
  | .nodeProjectionChanged nodeId _, .nodeProjectionChanged nodeId' _ => nodeId' = nodeId
  | .focusedTerminalPresentationChanged, .focusedTerminalPresentationChanged => true
  | _, _ => false

/-- The queue without the first duplicate of `event`. -/
def DaemonEventKind.coalesced (event : DaemonEventKind) (queue : List DaemonEventKind) :
    List DaemonEventKind :=
  match queue.findIdx? event.coalesces with
  | some index => queue.eraseIdx index
  | none => queue

/-- `queue_runtime_event`. -/
def TransitionState.queueRuntimeEvent (t : TransitionState) (event : DaemonEventKind) :
    TransitionState :=
  { t with pendingRuntimeEvents := event.coalesced t.pendingRuntimeEvents ++ [event] }

/-- `reserved_event_count`. -/
def TransitionState.reservedEventCount (t : TransitionState) : Nat :=
  saturatingAdd
    (saturatingAdd
      (saturatingAdd t.inFlightEventCount (t.pendingDurableEvents.map (·.kinds.length)).sum)
      t.pendingRuntimeEvents.length)
    t.lifecycleEventReservation

/-! ## Appending -/

/-- `ensure_capacity`. A `usize` always fits a `u64`. -/
def ensureCapacity (state : EventStreamState) (count : Nat) : Except IoError Unit :=
  match checkedAdd state.latestId count with
  | some _ => .ok ()
  | none => .error (.ofMessage "daemon event ID exhausted")

/-- `append_one_locked`. -/
def appendOne (transition : Option Nat) (state : EventStreamState) (kind : DaemonEventKind) :
    EventStreamState :=
  { state with
    latestId := state.latestId + 1
    events := state.events ++ [⟨state.latestId + 1, kind, transition⟩] }

/-- `events.drain(..remove)`. -/
def drain (remove : Nat) (state : EventStreamState) : EventStreamState :=
  { state with
    events := state.events.drop remove, evicted := state.evicted ++ state.events.take remove }

/-- `retain_latest_locked`. -/
def retainLatest (state : EventStreamState) : EventStreamState :=
  if state.events.length > maxRetainedEvents then
    drain (state.events.length - maxRetainedEvents) state
  else state

/-- `append_batch_locked`. -/
def appendBatchLocked (transition : Option Nat) (state : EventStreamState)
    (kinds : List DaemonEventKind) : EventStreamState :=
  retainLatest (kinds.foldl (appendOne transition) state)

/-- `publish_pending_runtime_locked`. -/
def EventTransaction.publishPendingRuntime (x : EventTransaction) : EventTransaction :=
  if x.transition.publicationBlocked then x
  else
    { transition := { x.transition with pendingRuntimeEvents := [] }
      events := appendBatchLocked none x.events x.transition.pendingRuntimeEvents }

/-- `publish_runtime_batch`. -/
def EventTransaction.publishRuntimeBatch (x : EventTransaction) (kinds : List DaemonEventKind) :
    Except IoError Unit × EventTransaction :=
  match ensureCapacity x.events (saturatingAdd x.transition.reservedEventCount kinds.length) with
  | .error e => (.error e, x)
  | .ok () =>
      if x.transition.publicationBlocked then
        (.ok (), { x with transition := kinds.foldl .queueRuntimeEvent x.transition })
      else (.ok (), { x with events := appendBatchLocked none x.events kinds })

/-! ## The operations of a transaction -/

namespace EventTransaction

variable (x : EventTransaction)

/-- `reserve`. -/
def reserve (count : Nat) : Except IoError Unit := ensureCapacity x.events count

/-- `reserve_with_pending`. -/
def reserveWithPending (count : Nat) : Except IoError Unit :=
  x.reserve (saturatingAdd x.transition.reservedEventCount count)

/-- `capacity_is_blocked_only_by_lifecycle_reservation`. -/
def capacityIsBlockedOnlyByLifecycleReservation (count : Nat) : Bool :=
  let reservation := x.transition.lifecycleEventReservation
  reservation ≠ 0 &&
    (x.reserve
      (saturatingAdd (x.transition.reservedEventCount - reservation) count)).toOption.isSome

/-- `pending_durable_event_count` of all batches. -/
def pendingDurableEventCount : Nat :=
  (x.transition.pendingDurableEvents.map (·.kinds.length)).sum

/-- `take_pending_durable` of all batches, which are returned by the callers' own reading. -/
def takePendingDurable : EventTransaction :=
  { x with transition := { x.transition with pendingDurableEvents := [] } }

/-- `restore_pending_durable`: pushed to the front one by one, newest first. -/
def restorePendingDurable (pending : List Batch) : EventTransaction :=
  { x with
    transition := { x.transition with
      pendingDurableEvents :=
        pending.reverse.foldl (fun queue batch => batch :: queue)
          x.transition.pendingDurableEvents } }

/-- `begin_persistence`. -/
def beginPersistence (eventCount : Nat) : EventTransaction :=
  { x with
    transition := { x.transition with
      persistenceInFlight := true, inFlightEventCount := eventCount } }

/-- `begin_lifecycle_reservation`. -/
def beginLifecycleReservation (eventCount : Nat) : EventTransaction :=
  { x with transition := { x.transition with lifecycleEventReservation := eventCount } }

/-- `release_lifecycle_reservation`. -/
def releaseLifecycleReservation : EventTransaction :=
  publishPendingRuntime
    { x with transition := { x.transition with lifecycleEventReservation := 0 } }

/-- `transfer_lifecycle_reservation_to_persistence`. -/
def transferLifecycleReservationToPersistence (persistenceEventCount retainedReservation : Nat) :
    EventTransaction :=
  beginPersistence
    { x with transition := { x.transition with lifecycleEventReservation := retainedReservation } }
    persistenceEventCount

/-- `append_batch` of a durable batch. -/
def appendBatch (batch : Batch) : EventTransaction :=
  { x with events := appendBatchLocked (some batch.transition) x.events batch.kinds }

/-- `append_pending_durable`. -/
def appendPendingDurable : EventTransaction :=
  x.transition.pendingDurableEvents.foldl appendBatch x.takePendingDurable

/-- `finish_persistence`. -/
def finishPersistence : EventTransaction :=
  publishPendingRuntime
    { x with
      transition := { x.transition with persistenceInFlight := false, inFlightEventCount := 0 } }

/-- `cursor`. -/
def cursor : EventCursor := ⟨x.events.streamId, x.events.latestId⟩

/-- What `drain_runtime_events` leaves. -/
def drainRuntimeEvents : EventTransaction :=
  { x with transition := { x.transition with pendingRuntimeEvents := [] } }

/-- `queue_durable_batch`: whether the batch was queued, with the state it leaves. -/
def queueDurableBatch (batch : Batch) : Bool × EventTransaction :=
  if batch.kinds.isEmpty then (false, x)
  else
    (true, { x with
      transition := { x.transition with
        pendingDurableEvents := x.transition.pendingDurableEvents ++ [batch] } })

end EventTransaction

/-! ## The log -/

/-- Every event appended so far. -/
def EventStreamState.log (s : EventStreamState) : List DaemonEvent := s.evicted ++ s.events

/-- The events that a durable batch appends, as its transition and their kinds. -/
def Batch.stamped (batch : Batch) : List (Nat × DaemonEventKind) :=
  batch.kinds.map (batch.transition, ·)

/-- An event without its id. -/
def DaemonEvent.stamp (e : DaemonEvent) : Option Nat × DaemonEventKind := (e.transition, e.kind)

/-- The log without the ids. -/
def EventStreamState.stamps (s : EventStreamState) : List (Option Nat × DaemonEventKind) :=
  s.log.map (·.stamp)

/-- The events of durable batches, in the order of the log. -/
def durable : List (Option Nat × DaemonEventKind) → List (Nat × DaemonEventKind) :=
  List.filterMap fun e => e.1.map (·, e.2)

/-- The runtime events, in the order of the log. -/
def runtime : List (Option Nat × DaemonEventKind) → List DaemonEventKind :=
  List.filterMap fun e => if e.1 = none then some e.2 else none

@[simp] theorem durable_append (l m : List (Option Nat × DaemonEventKind)) :
    durable (l ++ m) = durable l ++ durable m := List.filterMap_append

@[simp] theorem runtime_append (l m : List (Option Nat × DaemonEventKind)) :
    runtime (l ++ m) = runtime l ++ runtime m := List.filterMap_append

@[simp] theorem durable_map_some (n : Nat) (kinds : List DaemonEventKind) :
    durable (kinds.map (some n, ·)) = kinds.map (n, ·) := by
  simp [durable]

@[simp] theorem durable_map_none (kinds : List DaemonEventKind) :
    durable (kinds.map (none, ·)) = [] := by
  simp [durable]

@[simp] theorem runtime_map_some (n : Nat) (kinds : List DaemonEventKind) :
    runtime (kinds.map (some n, ·)) = [] := by
  simp [runtime]

@[simp] theorem runtime_map_none (kinds : List DaemonEventKind) :
    runtime (kinds.map (none, ·)) = kinds := by
  simp [runtime]

/-- The events of the log have consecutive ids that end in `latestId`. -/
structure EventStreamState.Contiguous (s : EventStreamState) : Prop where
  le : s.log.length ≤ s.latestId
  ids : s.log.map (·.id) = List.range' (s.latestId + 1 - s.log.length) s.log.length

/-- The cursor before the first retained event. -/
def EventStreamState.earliest (state : EventStreamState) : Nat :=
  match state.events.head? with
  | some event => event.id - 1
  | none => state.latestId

/-- Whether the first event after the cursor has been dropped from the stream. -/
def EventStreamState.Evicted (state : EventStreamState) (after : EventCursor) : Prop :=
  after.eventId < state.latestId ∧ ∀ e ∈ state.events, e.id ≠ after.eventId + 1

section Contiguous

variable {s : EventStreamState}

/-- The retained events have consecutive ids that end in `latestId`. -/
theorem EventStreamState.Contiguous.retained (h : s.Contiguous) :
    s.events.length ≤ s.latestId ∧
      s.events.map (·.id) = List.range' (s.latestId + 1 - s.events.length) s.events.length := by
  have hle := h.le
  have hlen : s.log.length = s.evicted.length + s.events.length := List.length_append
  have hfirst : s.latestId + 1 - s.log.length + s.evicted.length * 1 =
      s.latestId + 1 - s.events.length := by omega
  have hcount : s.log.length - s.evicted.length = s.events.length := by omega
  have hids : (s.log.map (·.id)).drop s.evicted.length = s.events.map (·.id) := by
    simp [EventStreamState.log]
  refine ⟨by omega, ?_⟩
  calc s.events.map (·.id)
      = (List.range' (s.latestId + 1 - s.log.length) s.log.length).drop s.evicted.length := by
        rw [← h.ids, hids]
    _ = List.range' (s.latestId + 1 - s.events.length) s.events.length := by
        rw [List.drop_range', hfirst, hcount]

theorem EventStreamState.Contiguous.earliest (h : s.Contiguous) :
    s.earliest = s.latestId - s.events.length := by
  obtain ⟨hle, hids⟩ := h.retained
  unfold EventStreamState.earliest
  cases hev : s.events with
  | nil => simp
  | cons e es =>
      rw [hev] at hids hle
      have hfirst : e.id = s.latestId + 1 - (es.length + 1) := by
        rw [List.map_cons, List.length_cons, List.range'_succ] at hids
        exact (List.cons.inj hids).1
      simp only [List.length_cons] at hle
      show e.id - 1 = s.latestId - (es.length + 1)
      omega

theorem EventStreamState.Contiguous.evicted_iff (h : s.Contiguous) (after : EventCursor) :
    s.Evicted after ↔ after.eventId < s.latestId - s.events.length := by
  obtain ⟨hle, hids⟩ := h.retained
  have hmem : (∃ e ∈ s.events, e.id = after.eventId + 1) ↔
      s.latestId + 1 - s.events.length ≤ after.eventId + 1 ∧ after.eventId < s.latestId := by
    rw [← List.mem_map (f := fun e : DaemonEvent => e.id), hids, List.mem_range'_1]
    omega
  constructor
  · rintro ⟨hlt, hnone⟩
    by_contra hge
    obtain ⟨e, he, hid⟩ := hmem.mpr ⟨by omega, hlt⟩
    exact hnone e he hid
  · intro hlt
    refine ⟨by omega, fun e he hid => ?_⟩
    have := (hmem.mp ⟨e, he, hid⟩).1
    omega

end Contiguous

theorem appendOne_stamps (transition : Option Nat) (s : EventStreamState)
    (kind : DaemonEventKind) :
    (appendOne transition s kind).stamps = s.stamps ++ [(transition, kind)] := by
  simp [appendOne, EventStreamState.stamps, EventStreamState.log, DaemonEvent.stamp]

theorem drain_log (remove : Nat) (s : EventStreamState) : (drain remove s).log = s.log := by
  simp only [drain, EventStreamState.log, List.append_assoc, List.take_append_drop]

theorem retainLatest_log (s : EventStreamState) : (retainLatest s).log = s.log := by
  unfold retainLatest
  split
  · exact drain_log _ s
  · rfl

/-- Appending extends the log by the batch and drops nothing. -/
@[simp] theorem appendBatchLocked_stamps (transition : Option Nat) (s : EventStreamState)
    (kinds : List DaemonEventKind) :
    (appendBatchLocked transition s kinds).stamps = s.stamps ++ kinds.map (transition, ·) := by
  have hfold : ∀ s : EventStreamState, (kinds.foldl (appendOne transition) s).stamps =
      s.stamps ++ kinds.map (transition, ·) := by
    induction kinds with
    | nil => intro s; simp
    | cons kind kinds ih =>
        intro s
        rw [List.foldl_cons, ih, appendOne_stamps]
        simp
  rw [appendBatchLocked, EventStreamState.stamps, retainLatest_log]
  exact hfold s

theorem drain_latestId (remove : Nat) (s : EventStreamState) :
    (drain remove s).latestId = s.latestId := rfl

theorem retainLatest_latestId (s : EventStreamState) :
    (retainLatest s).latestId = s.latestId := by
  unfold retainLatest
  split
  · exact drain_latestId _ s
  · rfl

theorem appendBatchLocked_latestId (transition : Option Nat) (s : EventStreamState)
    (kinds : List DaemonEventKind) :
    (appendBatchLocked transition s kinds).latestId = s.latestId + kinds.length := by
  have hfold : ∀ s : EventStreamState, (kinds.foldl (appendOne transition) s).latestId =
      s.latestId + kinds.length := by
    induction kinds with
    | nil => simp
    | cons kind kinds ih =>
        intro s
        have hone : (appendOne transition s kind).latestId = s.latestId + 1 := rfl
        rw [List.foldl_cons, ih, List.length_cons, hone]
        omega
  rw [appendBatchLocked, retainLatest_latestId, hfold]

theorem appendBatchLocked_log_length (transition : Option Nat) (s : EventStreamState)
    (kinds : List DaemonEventKind) :
    (appendBatchLocked transition s kinds).log.length = s.log.length + kinds.length := by
  have := congrArg List.length (appendBatchLocked_stamps transition s kinds)
  simpa [EventStreamState.stamps] using this

/-- What appending batches makes of a stream: the log gets longer, and nothing else happens to
it. -/
structure EventStreamState.Grows (s t : EventStreamState) : Prop where
  streamId : t.streamId = s.streamId
  log : s.log <+: t.log
  contiguous : s.Contiguous → t.Contiguous

namespace EventStreamState.Grows

variable {s t v : EventStreamState}

theorem refl (s : EventStreamState) : s.Grows s := ⟨rfl, List.prefix_rfl, id⟩

theorem trans (h : s.Grows t) (h' : t.Grows v) : s.Grows v :=
  ⟨h'.streamId.trans h.streamId, h.log.trans h'.log, fun hs => h'.contiguous (h.contiguous hs)⟩

theorem appendOne (s : EventStreamState) (transition : Option Nat) (kind : DaemonEventKind) :
    s.Grows (appendOne transition s kind) where
  streamId := rfl
  log := by
    show s.evicted ++ s.events <+: s.evicted ++ (s.events ++ _)
    rw [← List.append_assoc]
    exact List.prefix_append _ _
  contiguous h := by
    have hlog : (Daemon.appendOne transition s kind).log =
        s.log ++ [⟨s.latestId + 1, kind, transition⟩] := by
      simp [Daemon.appendOne, EventStreamState.log]
    have hle := h.le
    refine ⟨?_, ?_⟩
    · rw [hlog, List.length_append]
      exact Nat.succ_le_succ hle
    · have hfirst : s.latestId + 1 + 1 - (s.log.length + 1) = s.latestId + 1 - s.log.length := by
        omega
      have hlast : s.latestId + 1 - s.log.length + s.log.length = s.latestId + 1 := by omega
      rw [hlog, List.map_append, h.ids, List.length_append]
      show _ = List.range' (s.latestId + 1 + 1 - (s.log.length + 1)) (s.log.length + 1)
      rw [hfirst, List.range'_concat, Nat.one_mul, hlast]
      rfl

theorem drain (s : EventStreamState) (remove : Nat) : s.Grows (drain remove s) where
  streamId := rfl
  log := by simp only [drain_log, List.prefix_rfl]
  contiguous h := by
    refine ⟨?_, ?_⟩
    · rw [drain_log]
      exact h.le
    · rw [drain_log]
      exact h.ids

theorem retainLatest (s : EventStreamState) : s.Grows (retainLatest s) := by
  unfold Daemon.retainLatest
  split
  · exact drain s _
  · exact refl s

theorem appendBatchLocked (s : EventStreamState) (transition : Option Nat)
    (kinds : List DaemonEventKind) : s.Grows (appendBatchLocked transition s kinds) := by
  have hfold : ∀ s : EventStreamState, s.Grows (kinds.foldl (Daemon.appendOne transition) s) := by
    induction kinds with
    | nil => exact refl
    | cons kind kinds ih => exact fun s => (appendOne s transition kind).trans (ih _)
  exact (hfold s).trans (retainLatest _)

end EventStreamState.Grows

/-! ## What the operations do to the durable batches -/

namespace EventTransaction

variable (x : EventTransaction)

/-- The durable events of the log. -/
def durableLog : List (Nat × DaemonEventKind) := durable x.events.stamps

/-- The batches that wait. -/
abbrev pending : List Batch := x.transition.pendingDurableEvents

@[simp] theorem publishPendingRuntime_pending : x.publishPendingRuntime.pending = x.pending := by
  unfold publishPendingRuntime
  split <;> rfl

@[simp] theorem publishPendingRuntime_durableLog :
    x.publishPendingRuntime.durableLog = x.durableLog := by
  unfold publishPendingRuntime
  split
  · rfl
  · simp [durableLog]

@[simp] theorem finishPersistence_pending : x.finishPersistence.pending = x.pending := by
  simp [finishPersistence]

@[simp] theorem finishPersistence_durableLog :
    x.finishPersistence.durableLog = x.durableLog := by
  simp only [finishPersistence, publishPendingRuntime_durableLog]
  rfl

@[simp] theorem releaseLifecycleReservation_pending :
    x.releaseLifecycleReservation.pending = x.pending := by
  simp [releaseLifecycleReservation]

@[simp] theorem releaseLifecycleReservation_durableLog :
    x.releaseLifecycleReservation.durableLog = x.durableLog := by
  simp only [releaseLifecycleReservation, publishPendingRuntime_durableLog]
  rfl

@[simp] theorem restorePendingDurable_pending (pending : List Batch) :
    (x.restorePendingDurable pending).pending = pending ++ x.pending := by
  have hfold : ∀ l queue : List Batch,
      l.reverse.foldl (fun queue batch => batch :: queue) queue = l ++ queue := by
    intro l queue
    rw [List.foldl_reverse]
    induction l with
    | nil => rfl
    | cons batch l ih => simp [ih]
  exact hfold _ _

@[simp] theorem appendBatch_pending (batch : Batch) : (x.appendBatch batch).pending = x.pending :=
  rfl

@[simp] theorem appendBatch_durableLog (batch : Batch) :
    (x.appendBatch batch).durableLog = x.durableLog ++ batch.stamped := by
  simp [appendBatch, durableLog, Batch.stamped]

theorem foldl_appendBatch (batches : List Batch) :
    (batches.foldl appendBatch x).transition = x.transition ∧
      (batches.foldl appendBatch x).durableLog = x.durableLog ++ batches.flatMap (·.stamped) ∧
      runtime (batches.foldl appendBatch x).events.stamps = runtime x.events.stamps := by
  induction batches generalizing x with
  | nil => simp
  | cons batch batches ih =>
      obtain ⟨htransition, hlog, hruntime⟩ := ih (x.appendBatch batch)
      refine ⟨htransition, ?_, ?_⟩
      · rw [List.foldl_cons, hlog, appendBatch_durableLog]
        simp
      · rw [List.foldl_cons, hruntime]
        simp [appendBatch]

@[simp] theorem foldl_appendBatch_pending (batches : List Batch) :
    (batches.foldl appendBatch x).pending = x.pending := by
  rw [pending, (x.foldl_appendBatch batches).1]

@[simp] theorem foldl_appendBatch_durableLog (batches : List Batch) :
    (batches.foldl appendBatch x).durableLog = x.durableLog ++ batches.flatMap (·.stamped) :=
  (x.foldl_appendBatch batches).2.1

@[simp] theorem appendPendingDurable_pending : x.appendPendingDurable.pending = [] := by
  simp [appendPendingDurable, takePendingDurable]

@[simp] theorem appendPendingDurable_durableLog :
    x.appendPendingDurable.durableLog = x.durableLog ++ x.pending.flatMap (·.stamped) := by
  simp only [appendPendingDurable, foldl_appendBatch_durableLog]
  rfl

@[simp] theorem publishRuntimeBatch_pending (kinds : List DaemonEventKind) :
    (x.publishRuntimeBatch kinds).2.pending = x.pending := by
  have hfold : ∀ t : TransitionState,
      (kinds.foldl TransitionState.queueRuntimeEvent t).pendingDurableEvents =
        t.pendingDurableEvents := by
    induction kinds with
    | nil => exact fun _ => rfl
    | cons kind kinds ih => exact fun t => ih (t.queueRuntimeEvent kind)
  unfold publishRuntimeBatch
  split
  · rfl
  · split
    · exact hfold _
    · rfl

@[simp] theorem publishRuntimeBatch_durableLog (kinds : List DaemonEventKind) :
    (x.publishRuntimeBatch kinds).2.durableLog = x.durableLog := by
  unfold publishRuntimeBatch
  split
  · rfl
  · split
    · rfl
    · simp [durableLog]

@[simp] theorem queueDurableBatch_durableLog (batch : Batch) :
    (x.queueDurableBatch batch).2.durableLog = x.durableLog := by
  unfold queueDurableBatch
  split <;> rfl

theorem queueDurableBatch_pending (batch : Batch) :
    (x.queueDurableBatch batch).2.pending =
      x.pending ++ if batch.kinds.isEmpty then [] else [batch] := by
  unfold queueDurableBatch
  split <;> simp

/-! ## What the operations do to the stream -/

theorem appendBatch_grows (batch : Batch) : x.events.Grows (x.appendBatch batch).events :=
  .appendBatchLocked ..

theorem publishPendingRuntime_grows : x.events.Grows x.publishPendingRuntime.events := by
  unfold publishPendingRuntime
  split
  · exact .refl _
  · exact .appendBatchLocked ..

theorem publishRuntimeBatch_grows (kinds : List DaemonEventKind) :
    x.events.Grows (x.publishRuntimeBatch kinds).2.events := by
  unfold publishRuntimeBatch
  split
  · exact .refl _
  · split
    · exact .refl _
    · exact .appendBatchLocked ..

theorem queueDurableBatch_events (batch : Batch) :
    (x.queueDurableBatch batch).2.events = x.events := by
  unfold queueDurableBatch
  split <;> rfl

/-! ## What the operations do to the runtime events -/

/-- The runtime events of the log. -/
def runtimeLog : List DaemonEventKind := runtime x.events.stamps

/-- Whether publication is blocked. -/
abbrev blocked : Bool := x.transition.publicationBlocked

@[simp] theorem publishPendingRuntime_blocked : x.publishPendingRuntime.blocked = x.blocked := by
  unfold publishPendingRuntime
  split <;> rfl

/-- What a step may do to the log: append to it, and runtime events only if publication is not
blocked at its end. -/
structure Appends (x y : EventTransaction) : Prop where
  grows : x.events.Grows y.events
  released : y.runtimeLog = x.runtimeLog ∨ y.blocked = false

variable {x} {y : EventTransaction}

theorem Appends.of_events (h : y.events = x.events) : Appends x y where
  grows := by
    rw [h]
    exact .refl _
  released := by
    left
    rw [runtimeLog, h, runtimeLog]

theorem Appends.publishPendingRuntime (h : Appends x y) : Appends x y.publishPendingRuntime where
  grows := h.grows.trans y.publishPendingRuntime_grows
  released := by
    by_cases hb : y.blocked = true
    · have hy : y.publishPendingRuntime = y := by
        unfold EventTransaction.publishPendingRuntime
        rw [if_pos hb]
      rw [hy]
      exact h.released
    · right
      rw [publishPendingRuntime_blocked]
      simpa using hb

/-- Lowering a flag that blocks publication. -/
theorem Appends.unblock (h : Appends x y) {t : TransitionState}
    (ht : t.publicationBlocked = true → y.blocked = true) :
    Appends x { y with transition := t } where
  grows := h.grows
  released := by
    rcases h.released with h | h
    · exact .inl h
    · right
      show t.publicationBlocked = false
      by_contra hb
      rw [ht (by simpa using hb)] at h
      cases h

theorem Appends.finishPersistence (h : Appends x y) : Appends x y.finishPersistence := by
  unfold EventTransaction.finishPersistence
  refine (h.unblock fun hb => ?_).publishPendingRuntime
  simp only [blocked, TransitionState.publicationBlocked, Bool.or_eq_true] at hb ⊢
  tauto

theorem Appends.releaseLifecycleReservation (h : Appends x y) :
    Appends x y.releaseLifecycleReservation := by
  unfold EventTransaction.releaseLifecycleReservation
  refine (h.unblock fun hb => ?_).publishPendingRuntime
  simp only [blocked, TransitionState.publicationBlocked, Bool.or_eq_true] at hb ⊢
  simp at hb ⊢
  tauto

/-- Appending durable batches appends no runtime event. -/
theorem Appends.appendBatch (h : Appends x y) (batch : Batch) :
    Appends x (y.appendBatch batch) where
  grows := h.grows.trans (y.appendBatch_grows batch)
  released := by
    have : (y.appendBatch batch).runtimeLog = y.runtimeLog := by
      simp [EventTransaction.appendBatch, runtimeLog]
    rw [this]
    exact h.released

theorem Appends.foldl_appendBatch (h : Appends x y) (batches : List Batch) :
    Appends x (batches.foldl EventTransaction.appendBatch y) := by
  induction batches generalizing y with
  | nil => exact h
  | cons batch batches ih => exact ih (h.appendBatch batch)

theorem Appends.appendPendingDurable (h : Appends x y) : Appends x y.appendPendingDurable := by
  refine Appends.foldl_appendBatch (h.unblock fun hb => ?_) _
  simp only [blocked, TransitionState.publicationBlocked, Bool.or_eq_true] at hb ⊢
  simp at hb ⊢
  tauto

/-- A runtime batch is appended only while publication is not blocked. -/
theorem publishRuntimeBatch_appends (kinds : List DaemonEventKind) :
    Appends y (y.publishRuntimeBatch kinds).2 where
  grows := y.publishRuntimeBatch_grows kinds
  released := by
    unfold publishRuntimeBatch
    split
    · exact .inl rfl
    · split
      · exact .inl rfl
      next h => exact .inr (by simpa using h)

/-- While publication is blocked, nothing is appended. -/
theorem publishRuntimeBatch_of_blocked (h : y.blocked = true) (kinds : List DaemonEventKind) :
    (y.publishRuntimeBatch kinds).2.events = y.events := by
  unfold publishRuntimeBatch
  split
  · rfl
  · rw [if_pos h]

/-! ### The queue of runtime events -/

theorem coalesced_sublist (event : DaemonEventKind) (queue : List DaemonEventKind) :
    (event.coalesced queue).Sublist queue := by
  unfold DaemonEventKind.coalesced
  split
  · exact List.eraseIdx_sublist _ _
  · exact List.Sublist.refl _

/-- A queued event stays in the queue until one that coalesces with it takes its place. -/
theorem mem_coalesced (event : DaemonEventKind) (queue : List DaemonEventKind) :
    ∀ kind ∈ queue, kind ∈ event.coalesced queue ∨ event.coalesces kind = true := by
  intro kind hk
  unfold DaemonEventKind.coalesced
  split
  next index hi =>
    obtain ⟨hlt, hc, -⟩ := List.findIdx?_eq_some_iff_getElem.mp hi
    by_cases he : kind = queue[index]
    · exact .inr (he ▸ hc)
    · left
      refine List.mem_eraseIdx_iff_getElem.mpr ?_
      obtain ⟨i, hi, rfl⟩ := List.getElem_of_mem hk
      exact ⟨i, hi, fun hii => he (by simp [hii]), rfl⟩
  next => exact .inl hk

/-- While publication is blocked, every event of a runtime batch is queued, or a later one of the
batch has taken its place. -/
theorem queued_of_publishRuntimeBatch (hb : y.blocked = true) {kinds : List DaemonEventKind}
    (hok : (y.publishRuntimeBatch kinds).1 = .ok ()) :
    ∀ kind ∈ kinds, kind ∈ (y.publishRuntimeBatch kinds).2.transition.pendingRuntimeEvents ∨
      ∃ later ∈ kinds, later.coalesces kind = true := by
  have hfold : ∀ (t : TransitionState) (kinds : List DaemonEventKind),
      ∀ kind, kind ∈ t.pendingRuntimeEvents ∨ kind ∈ kinds →
        kind ∈ (kinds.foldl .queueRuntimeEvent t).pendingRuntimeEvents ∨
          ∃ later ∈ kinds, later.coalesces kind = true := by
    intro t kinds
    induction kinds generalizing t with
    | nil => simp
    | cons event kinds ih =>
        intro kind hk
        have hq : kind ∈ (t.queueRuntimeEvent event).pendingRuntimeEvents ∨ kind ∈ kinds ∨
            event.coalesces kind = true := by
          rcases hk with hk | hk
          · exact (mem_coalesced event _ kind hk).imp (List.mem_append_left _) .inr
          · rcases List.mem_cons.mp hk with rfl | hk
            · exact .inl (List.mem_append_right _ (List.mem_singleton_self _))
            · exact .inr (.inl hk)
        rcases hq with hq | hq | hq
        · exact (ih _ kind (.inl hq)).imp_right fun ⟨later, hl, hc⟩ =>
            ⟨later, List.mem_cons_of_mem _ hl, hc⟩
        · exact (ih _ kind (.inr hq)).imp_right fun ⟨later, hl, hc⟩ =>
            ⟨later, List.mem_cons_of_mem _ hl, hc⟩
        · exact .inr ⟨event, List.mem_cons_self .., hq⟩
  intro kind hk
  unfold publishRuntimeBatch at hok ⊢
  split at hok
  · cases hok
  · rw [if_pos hb]
    exact hfold _ _ kind (.inr hk)

end EventTransaction

end Boomux.Daemon
