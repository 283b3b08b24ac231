import Boomux.Daemon.Machine

/-!
# Coalescing of runtime events

While publication is blocked, runtime events wait in a queue. An event that reports the newest
revision of a Shell's output, of a Node's projection or of the focused terminal takes the place of
the one that waits for the same thing. What is appended in the end has every other event, and of
these the last.
-/

set_option autoImplicit false

namespace Boomux.Daemon

open Rust

/-! ## Erasing the first match -/

section Erase

variable {α : Type} {p r : α → Bool} {l : List α}

theorem filter_eraseP_self (p : α → Bool) (l : List α) :
    (l.eraseP p).filter p = (l.filter p).tail := by
  induction l with
  | nil => rfl
  | cons a l ih =>
      by_cases ha : p a = true
      · rw [List.eraseP_cons_of_pos ha, List.filter_cons_of_pos ha, List.tail_cons]
      · rw [List.eraseP_cons_of_neg ha, List.filter_cons_of_neg ha, List.filter_cons_of_neg ha, ih]

theorem filter_eraseP_of_disjoint (h : ∀ a, p a = true → r a = false) :
    (l.eraseP p).filter r = l.filter r := by
  induction l with
  | nil => rfl
  | cons a l ih =>
      by_cases ha : p a = true
      · rw [List.eraseP_cons_of_pos ha, List.filter_cons, h a ha, if_neg Bool.false_ne_true]
      · rw [List.eraseP_cons_of_neg ha, List.filter_cons, List.filter_cons, ih]

end Erase

/-! ## Keys -/

/-- What a coalescable event is the newest report of. -/
inductive CoalescingKey
  | output (shellId runId : String)
  | node (nodeId : String)
  | focus
  deriving DecidableEq, Repr

def DaemonEventKind.coalescingKey : DaemonEventKind → Option CoalescingKey
  | .outputChanged _ shellId runId _ => some (.output shellId runId)
  | .nodeProjectionChanged nodeId _ => some (.node nodeId)
  | .focusedTerminalPresentationChanged => some .focus
  | _ => none

variable {event pending : DaemonEventKind} {queued queue kinds : List DaemonEventKind}

/-- An event coalesces with those of its key. -/
theorem coalesces_eq (event pending : DaemonEventKind) : event.coalesces pending
    = decide (event.coalescingKey.isSome = true ∧ pending.coalescingKey = event.coalescingKey) := by
  cases event <;> cases pending <;>
    simp [DaemonEventKind.coalesces, DaemonEventKind.coalescingKey]

theorem coalesced_eq_eraseP (event : DaemonEventKind) (queue : List DaemonEventKind) :
    event.coalesced queue = queue.eraseP event.coalesces := by
  rw [List.eraseP_eq_eraseIdx, DaemonEventKind.coalesced]
  split <;> simp [*]

/-! ## The queue -/

/-- The queue is what is left of the events queued: some of them in their order, all those that
have no key, and for each key the last. -/
structure Coalesced (queued queue : List DaemonEventKind) : Prop where
  sublist : queue.Sublist queued
  plain : queue.filter (·.coalescingKey = none) = queued.filter (·.coalescingKey = none)
  last : ∀ key, queue.filter (·.coalescingKey = some key)
    = (queued.filter (·.coalescingKey = some key)).getLast?.toList

theorem Coalesced.nil : Coalesced [] [] := ⟨List.Sublist.refl _, rfl, fun _ => rfl⟩

/-- One more event is queued. -/
theorem Coalesced.queueEvent (h : Coalesced queued queue) (event : DaemonEventKind) :
    Coalesced (queued ++ [event]) (event.coalesced queue ++ [event]) where
  sublist := ((EventTransaction.coalesced_sublist event queue).trans h.sublist).append_right [event]
  plain := by
    rw [coalesced_eq_eraseP, List.filter_append, List.filter_append, ← h.plain]
    congr 1
    refine filter_eraseP_of_disjoint fun pending hpending => ?_
    rw [coalesces_eq, decide_eq_true_iff] at hpending
    obtain ⟨hsome, hkey⟩ := hpending
    rw [hkey, decide_eq_false_iff_not]
    exact Option.isSome_iff_ne_none.mp hsome
  last key := by
    rw [coalesced_eq_eraseP, List.filter_append, List.filter_append]
    by_cases hkey : event.coalescingKey = some key
    · have hself : event.coalesces = fun pending => decide (pending.coalescingKey = some key) := by
        funext pending
        rw [coalesces_eq, hkey]
        simp
      have hnone : (queue.eraseP event.coalesces).filter (·.coalescingKey = some key) = [] := by
        rw [hself, filter_eraseP_self, h.last]
        cases (queued.filter (·.coalescingKey = some key)).getLast? <;> rfl
      have hone : [event].filter (·.coalescingKey = some key) = [event] := by simp [hkey]
      rw [hnone, hone, List.getLast?_concat]
      rfl
    · have hother : (queue.eraseP event.coalesces).filter (·.coalescingKey = some key)
          = queue.filter (·.coalescingKey = some key) := by
        refine filter_eraseP_of_disjoint fun pending hpending => ?_
        rw [coalesces_eq, decide_eq_true_iff] at hpending
        rw [hpending.2, decide_eq_false_iff_not]
        exact hkey
      have hone : [event].filter (·.coalescingKey = some key) = [] := by simp [hkey]
      rw [hother, hone, List.append_nil, List.append_nil, h.last]

theorem Coalesced.queueEvents {t : TransitionState} (h : Coalesced queued t.pendingRuntimeEvents)
    (kinds : List DaemonEventKind) :
    Coalesced (queued ++ kinds) (kinds.foldl .queueRuntimeEvent t).pendingRuntimeEvents := by
  induction kinds generalizing queued t with
  | nil =>
      rw [List.append_nil]
      exact h
  | cons event kinds ih =>
      rw [List.append_cons]
      exact ih (h.queueEvent event)

/-! ## Runs -/

/-- The events queued since the queue was empty. Beside the publication of runtime events anything
may happen that leaves the queue alone. -/
inductive Queued : List DaemonEventKind → EventTransaction → Prop
  | empty {x : EventTransaction} (h : x.transition.pendingRuntimeEvents = []) : Queued [] x
  | publish {queued kinds : List DaemonEventKind} {x : EventTransaction} (h : Queued queued x)
      (hblocked : x.transition.publicationBlocked = true)
        (hok : (x.publishRuntimeBatch kinds).1 = .ok ()) :
      Queued (queued ++ kinds) (x.publishRuntimeBatch kinds).2
  | other {queued : List DaemonEventKind} {x y : EventTransaction} (h : Queued queued x)
      (hqueue : y.transition.pendingRuntimeEvents = x.transition.pendingRuntimeEvents) :
        Queued queued y

theorem Queued.coalesced {x : EventTransaction} (h : Queued queued x) :
    Coalesced queued x.transition.pendingRuntimeEvents := by
  induction h with
  | empty h =>
      rw [h]
      exact .nil
  | @publish queued kinds x h hblocked hok ih =>
      have hpublish : (x.publishRuntimeBatch kinds).2.transition =
          kinds.foldl .queueRuntimeEvent x.transition := by
        unfold EventTransaction.publishRuntimeBatch at hok ⊢
        split
        next e he =>
          rw [he] at hok
          cases hok
        next he => rw [if_pos hblocked]
      rw [hpublish]
      exact ih.queueEvents kinds
  | other h hqueue ih =>
      rw [hqueue]
      exact ih

/-- What is reserved beside the runtime events. -/
def TransitionState.reservedOtherwise (t : TransitionState) : Nat :=
  t.inFlightEventCount + (t.pendingDurableEvents.map (·.kinds.length)).sum +
    t.lifecycleEventReservation

/-- Each waiting runtime event is counted once, up to the greatest number. -/
theorem reservedEventCount_eq (t : TransitionState) :
    t.reservedEventCount = min (t.reservedOtherwise + t.pendingRuntimeEvents.length) u64Max := by
  unfold TransitionState.reservedEventCount TransitionState.reservedOtherwise saturatingAdd
  omega

/-! ## The drains -/

/-- `u` comes from `w` by a batch that the waiting runtime events are drained into: they stand in
front of `kinds`, as they are, and none waits any more. -/
structure World.DrainedInto {R : Type} (w u : World R) (kinds : List DaemonEventKind) : Prop where
  drained : u.events.transition.pendingRuntimeEvents = []
  begun : u.begun = w.begun ++
    if w.events.transition.pendingRuntimeEvents ++ kinds = [] then []
    else [⟨w.next, w.events.transition.pendingRuntimeEvents ++ kinds⟩]

section Drains

variable {R : Type} (w : World R)

theorem drainedInto_queueDurableBatch (shells : Shells) (mutation : Mutation R)
    (kinds : List DaemonEventKind) :
    w.DrainedInto ((w.drained shells).queueDurableBatch mutation
      (w.events.transition.pendingRuntimeEvents ++ kinds)) kinds := by
  cases hk : w.events.transition.pendingRuntimeEvents ++ kinds with
  | nil => exact ⟨rfl, by rw [hk, if_pos rfl, List.append_nil]; rfl⟩
  | cons kind rest => exact ⟨rfl, by rw [hk, if_neg (List.cons_ne_nil kind rest)]; rfl⟩

/-- A run exit drains the queue, or it is refused and leaves the queue and the log alone. -/
theorem exitRecord_drains (index : Nat) (code : Option Nat) (captured : Bool) :
    (w.exitRecord index code captured).events = w.events
        ∧ (w.exitRecord index code captured).begun = w.begun
      ∨ ∃ event, w.DrainedInto (w.exitRecord index code captured) [event] := by
  unfold World.exitRecord
  dsimp only
  split
  · exact .inl ⟨rfl, rfl⟩
  · split
    · split <;> exact .inl ⟨rfl, rfl⟩
    · split
      · exact .inl ⟨rfl, rfl⟩
      next event hfinal =>
        right
        refine ⟨event, ?_⟩
        split
        · exact ⟨rfl, by rw [if_neg (by simp)]⟩
        · exact ⟨rfl, by rw [if_neg (by simp)]⟩

end Drains

/-- Runtime events that are queued while publication is blocked. At every moment the queue has every
event without a key, in order, and for each key the last, and is counted by its length. Published
when publication is no longer blocked, it is appended as it is. A run exit, a restored and a
compensated lifecycle transaction drain it into the front of their batch, and a batch is appended
as it is. -/
theorem runtime_events_coalesced {x : EventTransaction} (h : Queued queued x) :
    Coalesced queued x.transition.pendingRuntimeEvents
    ∧ x.transition.reservedEventCount
      = min (x.transition.reservedOtherwise + x.transition.pendingRuntimeEvents.length) u64Max
    ∧ (x.transition.publicationBlocked = false →
      x.publishPendingRuntime.events.stamps = x.events.stamps ++
        x.transition.pendingRuntimeEvents.map (none, ·)
        ∧ x.publishPendingRuntime.transition.pendingRuntimeEvents = [])
    ∧ (∀ transition kinds, x.drainRuntimeEvents.transition.pendingRuntimeEvents = []
      ∧ (x.drainRuntimeEvents.appendBatch
          ⟨transition, x.transition.pendingRuntimeEvents ++ kinds⟩).events.stamps
        = x.events.stamps
          ++ (x.transition.pendingRuntimeEvents ++ kinds).map (some transition, ·))
    ∧ ∀ {R : Type} (w : World R), w.events = x →
      (∀ rollbacks, w.DrainedInto (w.restoreFinalized rollbacks)
        (restoreAll w.durable.state.shells rollbacks).2)
      ∧ (∀ shells, w.DrainedInto (w.compensateStopped shells)
        (compensateAll w.durable.state.shells shells).2)
      ∧ ∀ index code captured,
        (w.exitRecord index code captured).events = x
            ∧ (w.exitRecord index code captured).begun = w.begun
          ∨ ∃ event, w.DrainedInto (w.exitRecord index code captured) [event] := by
  refine ⟨h.coalesced, reservedEventCount_eq _, fun hblocked => ?_,
    fun transition kinds => ⟨rfl, ?_⟩, fun w hw => ⟨fun rollbacks => ?_, fun shells => ?_,
      fun index code captured => hw ▸ exitRecord_drains w index code captured⟩⟩
  · unfold EventTransaction.publishPendingRuntime
    rw [hblocked, if_neg Bool.false_ne_true]
    exact ⟨appendBatchLocked_stamps none x.events _, rfl⟩
  · exact appendBatchLocked_stamps (some transition) x.events _
  · exact drainedInto_queueDurableBatch w _ _ _
  · exact drainedInto_queueDurableBatch w _ _ _

/-- A save is in flight. -/
def savingTransaction : EventTransaction where
  transition := { TransitionState.idle with persistenceInFlight := true }
  events := ⟨"stream", 0, [], []⟩

/-- A Node's projection and a Shell's output change twice during a save, and a handoff completes:
the queue has the handoff and the newest of each, and is appended when the save is over. -/
theorem savingTransaction_coalesced :
    let kinds : List DaemonEventKind :=
      [.nodeProjectionChanged "n" 1, .outputChanged "w" "s" "r" 1, .handoffCompleted,
      .outputChanged "w" "s" "r" 2, .nodeProjectionChanged "n" 2]
    let newest : List DaemonEventKind :=
      [.handoffCompleted, .outputChanged "w" "s" "r" 2, .nodeProjectionChanged "n" 2]
    let x := (savingTransaction.publishRuntimeBatch kinds).2
    x.transition.pendingRuntimeEvents = newest ∧ Coalesced kinds x.transition.pendingRuntimeEvents
      ∧ { x with transition := { x.transition with persistenceInFlight := false }
        }.publishPendingRuntime.events.stamps
        = newest.map (none, ·) := by
  intro kinds newest x
  have hqueued : Queued kinds x := (Queued.empty (x := savingTransaction) rfl).publish rfl rfl
  have hdone : Queued kinds
      { x with transition := { x.transition with persistenceInFlight := false } } :=
    hqueued.other rfl
  exact ⟨by decide, (runtime_events_coalesced hqueued).1,
    ((runtime_events_coalesced hdone).2.2.1 rfl).1⟩

end Boomux.Daemon
