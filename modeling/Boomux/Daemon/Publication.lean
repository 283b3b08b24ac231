import Boomux.Daemon.Replay

/-!
# Publication

What the log of a reachable world says about the durable batches, and when a runtime batch gets
into it. The ledger has the first, with what the saved states contain; for the second,
`World.step_appends` says of every step that it only appends, and runtime events only if
publication is not blocked at its end.
-/

set_option autoImplicit false

namespace Boomux.Daemon

open Rust Transition EventTransaction

variable {R : Type} {w u : World R}

/-! ## What a step appends -/

theorem flushReturned_events (w : World R) (byHolder ok : Bool) :
    (w.flushReturned byHolder ok).events = w.events := by
  unfold World.flushReturned
  split <;> rfl

theorem mutate_appends (w : World R) (op : Operation R) (reserve : Nat → Except IoError Unit)
    (captured : Bool) : Appends w.events (w.mutate op reserve captured).events := by
  refine .of_events ?_
  unfold World.mutate
  dsimp only
  split
  · rfl
  · rfl
  · split
    · rfl
    · split <;> rfl

theorem flushBegin_appends (w : World R) (byHolder captured : Bool) :
    Appends w.events (w.flushBegin byHolder captured).events := by
  refine .of_events ?_
  unfold World.flushBegin
  dsimp only
  split
  · rw [flushReturned_events]
  · split
    · rfl
    · rw [flushReturned_events]

theorem flushFinish_appends (w : World R) (flush : Flush R) (written : Bool) :
    Appends w.events (w.flushFinish flush written).events := by
  unfold World.flushFinish
  dsimp only
  split
  · split
    · rw [flushReturned_events]
      exact .of_events rfl
    · rw [flushReturned_events]
      exact ((Appends.of_events rfl).foldl_appendBatch _).finishPersistence
  · rw [flushReturned_events]
    have hrestored : Appends w.events (w.events.restorePendingDurable flush.pending) :=
      .of_events rfl
    exact hrestored.finishPersistence

theorem exitRecord_appends (w : World R) (index : Nat) (code : Option Nat) (captured : Bool) :
    Appends w.events (w.exitRecord index code captured).events := by
  refine .of_events ?_
  unfold World.exitRecord
  dsimp only
  split
  · rfl
  · split
    · split <;> rfl
    · split
      · rfl
      · split <;> rfl

theorem publishFrom_appends {index : Nat} {ok failed : Reader → Reader}
    (h : w.publishFrom index ok failed = some u) : Appends w.events u.events := by
  obtain ⟨reader, -, rfl⟩ := Option.map_eq_some_iff.mp h
  split
  · exact .of_events rfl
  next revision hr =>
    split
    next events hp =>
      have := publishRuntimeBatch_appends (y := w.events) [reader.outputChanged revision]
      rwa [hp] at this
    next => exact .of_events rfl

theorem pauseReader_appends (w : World R) (runId : String) :
    Appends w.events (w.pauseReader runId).2.events := by
  unfold World.pauseReader
  split
  · exact .of_events rfl
  · split
    · exact .of_events rfl
    next reader hr =>
      split
      · exact .of_events rfl
      · split
        · exact .of_events rfl
        next revision hp =>
          split
          next events hp =>
            have := publishRuntimeBatch_appends (y := w.events) [reader.outputChanged revision]
            rwa [hp] at this
          next => exact .of_events rfl
      · exact .of_events rfl

theorem stopRuntime_appends (w : World R) (shellId : String) (outcome : StopOutcome) :
    Appends w.events (w.stopRuntime shellId outcome).2.events := by
  have hstop : ∀ runId, Appends w.events (w.stopRun runId outcome).2.events := by
    intro runId
    have hpause := pauseReader_appends w runId
    unfold World.stopRun
    split
    · exact .of_events rfl
    · split
      next hp =>
        rw [hp] at hpause
        exact hpause
      next hp =>
        rw [hp] at hpause
        split <;> exact hpause
  unfold World.stopRuntime
  split
  · exact hstop _
  · exact hstop _
  · exact .of_events rfl

theorem queueDurableBatch_events (w : World R) (mutation : Mutation R)
    (kinds : List DaemonEventKind) :
    (w.queueDurableBatch mutation kinds).events.events = w.events.events := by
  cases kinds <;> rfl

theorem restoreFinalized_events (w : World R) (rollbacks : List (String × StopRollback)) :
    (w.restoreFinalized rollbacks).events.events = w.events.events :=
  queueDurableBatch_events (w.drained _) _ _

theorem compensateStopped_events (w : World R) (shells : List String) :
    (w.compensateStopped shells).events.events = w.events.events :=
  queueDurableBatch_events (w.drained _) _ _

theorem lifecycleFailed_appends {v : World R} (h : v.events.events = w.events.events)
    (call : LifecycleCall R) : Appends w.events (v.lifecycleFailed call).events :=
  (Appends.of_events h).releaseLifecycleReservation

theorem lifecycleApply_appends (w : World R) (call : LifecycleCall R) (shells : List String)
    (failure : Option LifecycleFailure) :
    Appends w.events (w.lifecycleApply call shells failure).events := by
  unfold World.lifecycleApply
  dsimp only
  split
  · refine lifecycleFailed_appends ?_ call
    rw [compensateStopped_events, restoreFinalized_events]
  · split
    · exact .of_events rfl
    · refine lifecycleFailed_appends ?_ call
      rw [restoreFinalized_events]

theorem write_events (w : World R) (window : Window R) (ok : Bool) :
    (w.write window ok).events = w.events := by
  unfold World.write
  dsimp only
  split <;> rfl

theorem finish_appends (w : World R) (window : Window R) (written : Bool) :
    Appends w.events (w.finish window written).events := by
  have hrefl : Appends w.events w.events := .of_events rfl
  unfold World.finish
  split
  · exact (hrefl.appendBatch _).finishPersistence
  · exact hrefl.finishPersistence
  · exact (hrefl.appendPendingDurable.appendBatch _).finishPersistence
  · exact (Appends.of_events (EventTransaction.queueDurableBatch_events _ _)).finishPersistence
  · exact (hrefl.appendBatch _).releaseLifecycleReservation.finishPersistence
  · refine (lifecycleFailed_appends ?_ _).finishPersistence
    rw [restoreFinalized_events]

/-- Every step only appends to the log, and runtime events only if publication is not blocked
at its end. -/
theorem World.step_appends {a : Action R} (hs : w.step a = some u) :
    Appends w.events u.events := by
  cases World.Step.of_step hs with
  | mutate op captured => exact mutate_appends w op _ captured
  | start op => exact mutate_appends w op _ true
  | flushBegin byHolder captured => exact flushBegin_appends w byHolder captured
  | flushFinish flush written => exact flushFinish_appends w flush written
  | exitRecord index code captured => exact exitRecord_appends w index code captured
  | stopShell outcome call shells id => exact stopRuntime_appends w id outcome
  | stopShellError outcome call shells id => exact stopRuntime_appends w id outcome
  | compensate call stopped =>
      exact lifecycleFailed_appends (compensateStopped_events w stopped) call
  | lifecycleApply failure call shells => exact lifecycleApply_appends w call shells failure
  | write ok window => exact .of_events (by rw [write_events])
  | finish window written => exact finish_appends w window written
  | publish kinds => exact publishRuntimeBatch_appends kinds
  | publishOutput index reader hr hphase u hu => exact publishFrom_appends hu
  | publishLast index reader hr hphase u hu => exact publishFrom_appends hu
  | _ => exact .of_events rfl

/-- The log of a run keeps consecutive ids. -/
theorem contiguous_of_reach {w₀ : World R} (h : w₀.Loaded)
    (hr : Reach World.step (fun _ _ => True) w₀ w) : w.events.events.Contiguous :=
  hr.invariant (I := fun w : World R => w.events.events.Contiguous) h.contiguous
    fun _ _ _ ht _ hs => (World.step_appends hs).grows.contiguous ht

/-! ## The log -/

/-- What the log of a world says about the batches and their transitions. `d₀` is the registry that
the daemon has taken over. -/
structure World.Published (w : World R) (d₀ : Durable R) : Prop where
  /-- the durable events are those of the published batches, each batch whole and in order -/
  logged : w.events.durableLog = w.published.flatMap (·.stamped)
  /-- each batch is published at most once, in transition order -/
  increasing : w.published.Pairwise fun a b => a.transition < b.transition
  known : ∀ b ∈ w.published, b ∈ w.begun
  /-- a captured state that already contains its mutation has been saved -/
  saved : ∀ b ∈ w.published, ∃ g ∈ w.saves, g.Contains d₀ b.transition
  /-- no event of a mutation that was rolled back is in the log -/
  alive : ∀ e ∈ w.log, ∀ n ∈ w.rolledBack, e.transition ≠ some n
  /-- while publication is blocked, a runtime batch is queued and not appended -/
  queued : w.events.blocked = true → ∀ kinds,
    (w.events.publishRuntimeBatch kinds).2.events = w.events.events ∧
      ((w.events.publishRuntimeBatch kinds).1 = .ok () → ∀ kind ∈ kinds,
        kind ∈ (w.events.publishRuntimeBatch kinds).2.transition.pendingRuntimeEvents ∨
          ∃ later ∈ kinds, later.coalesces kind = true)
  /-- and it gets into the log only by a step that ends the blockade -/
  released : ∀ a u, w.step a = some u → u.events.runtimeLog ≠ w.events.runtimeLog →
    u.events.blocked = false

/-- The transition of a durable event is that of its batch. -/
theorem mem_published_of_logged (h : w.events.durableLog = w.published.flatMap (·.stamped))
    {e : DaemonEvent} (he : e ∈ w.log) {n : Nat} (hn : e.transition = some n) :
    ∃ b ∈ w.published, b.transition = n ∧ e.kind ∈ b.kinds := by
  have hmem : (n, e.kind) ∈ w.events.durableLog :=
    List.mem_filterMap.mpr ⟨e.stamp, List.mem_map_of_mem he, by simp [DaemonEvent.stamp, hn]⟩
  rw [h, List.mem_flatMap] at hmem
  obtain ⟨b, hb, hmem⟩ := hmem
  obtain ⟨kind, hk, heq⟩ := List.mem_map.mp hmem
  cases heq
  exact ⟨b, hb, rfl, hk⟩

/-- In every reachable world, whatever the interleaving and whatever saves fail: the durable
batches are published at most once, in order, after a save of their mutation and only if it
stands; and a runtime batch waits while publication is blocked. -/
theorem durable_batches_published {w₀ : World R} (h : w₀.Loaded)
    (hr : Reach World.step (fun _ _ => True) w₀ w) : w.Published w₀.durable.state := by
  have hreplayed := replayed_of_reach h hr
  have hl : w.Ledger := hr.invariant h.ledger fun _ _ _ ht _ hs => ht.step hs
  have hnum := hl.numbered.sublist (List.sublist_append_left _ _)
  exact {
    logged := hl.logged
    increasing := hnum.increasing
    known := hnum.known
    saved := fun b hb => hreplayed.saved (hl.saved b hb)
    alive := by
      intro e he n hn ht
      obtain ⟨b, hb, rfl, -⟩ := mem_published_of_logged hl.logged he ht
      exact hnum.alive b hb (List.mem_append_left _ hn)
    queued := fun hb kinds =>
      ⟨publishRuntimeBatch_of_blocked hb kinds, queued_of_publishRuntimeBatch hb⟩
    released := fun a u hs hne => (World.step_appends hs).released.resolve_left hne }

/-! ### A run -/

/-- A daemon without Workspaces. -/
def emptyWorld : World Nat where
  events := ⟨.idle, ⟨"stream", 0, [], []⟩⟩
  durable := ⟨⟨[], ∅, 0⟩, 0, false, []⟩
  readers := []
  stopping := false
  lifecycleActive := false
  holder := .free
  flush := none
  next := 0
  begun := []
  published := []
  saves := []
  rolledBack := []
  lost := []

theorem emptyWorld_loaded : emptyWorld.Loaded :=
  ⟨rfl, ⟨le_rfl, rfl⟩, nofun, rfl, rfl, rfl, rfl, rfl, rfl, rfl, rfl, rfl, rfl⟩

/-- Renaming a Workspace. -/
def renameTo (name : String) : Operation Nat :=
  .editRest (· + 1) [.workspaceRenamed "w" name] (by simp [DaemonEventKind.ofMutation])

/-- The save of a rename fails while a runtime event is published; the next rename succeeds. -/
def failedRenameRun : List (Action Nat) :=
  [.enter, .flushBegin true true, .mutate (renameTo "a") true,
    .publish [.nodeProjectionChanged "n" 1], .write false, .finish,
    .enter, .flushBegin true true, .flushWrite true, .flushFinish,
    .mutate (renameTo "b") true, .write true, .finish]

theorem durable_batches_published_failedRenameRun :
    ∃ w, exec World.step emptyWorld failedRenameRun = some w ∧
      w.events.events.stamps =
        [(none, .nodeProjectionChanged "n" 1), (some 1, .workspaceRenamed "w" "b")] ∧
      w.rolledBack = [0] ∧ w.saves.map (·.state.rest) = [0, 1] ∧
      w.Published emptyWorld.durable.state :=
  have hrun : exec World.step emptyWorld failedRenameRun = some _ := rfl
  ⟨_, hrun, rfl, rfl, rfl, durable_batches_published emptyWorld_loaded (reach_of_exec_true hrun)⟩

end Boomux.Daemon
