import Boomux.Daemon.OutputPaths

/-!
# Closing Shells

Lifecycle transactions, the last transaction of every window, and the order of the log. A failed
transaction puts the queued runtime events in front of its exit events. A committed one appends its
events first and releases the queue after them, so the log stays ordered exactly if the queue holds
no output of what was closed (`logOrdered_iff`).
-/

set_option autoImplicit false

namespace Boomux.Daemon

open Rust Transition

variable {R : Type} {w u : World R}

/-! ## What a call selects and removes -/

theorem mem_workspaceShells {d : Durable R} {id workspaceId : String}
    (h : d.shells.workspaceOf id = some workspaceId) : id ∈ d.workspaceShells workspaceId := by
  obtain ⟨shell, hget, rfl⟩ := Option.map_eq_some_iff.mp h
  refine List.mem_filter.mpr ⟨mem_keys_of_get hget, ?_⟩
  rw [hget, Option.any_some]
  exact decide_eq_true rfl

theorem covers_selectShells {call : LifecycleCall R} {d : Durable R} {shells : List String}
    (h : call.selectShells d = some shells) : call.Covers d shells := by
  cases call with
  | closeShell shellId detach =>
      simp only [LifecycleCall.selectShells] at h
      split at h <;> cases h
      exact List.mem_singleton_self _
  | closeWorkspace workspaceId detach =>
      simp only [LifecycleCall.selectShells] at h
      split at h <;> cases h
      exact fun id hid => mem_workspaceShells hid
  | shutdown => trivial

/-- What `durable_apply` leaves of a registry whose selected Shells are stopped. -/
structure Applied (d applied : Durable R) (undo : List (Durable R → Durable R)) : Prop where
  owners : ∀ id ws, applied.shells.workspaceOf id = some ws → d.shells.workspaceOf id = some ws
  workspaces : ∀ ws ∈ applied.workspaces, ws ∈ d.workspaces
  runs : ∀ id, applied.shells.runOf id = d.shells.runOf id
  restores : ∀ f ∈ undo, Restores d f
  single : undo.length ≤ 1
  undoRuns : ∀ f ∈ undo, ∀ now : Durable R,
    (∀ id, now.shells.workspaceOf id = applied.shells.workspaceOf id) →
      ∀ id, (f now).shells.runOf id = now.shells.runOf id

theorem workspaceOf_eq_none {m : Shells} {id : String} :
    m.workspaceOf id = none ↔ m.get id = none := Option.map_eq_none_iff

theorem runOf_of_get_none {m : Shells} {id : String} (h : m.get id = none) : m.runOf id = none := by
  rw [Shells.runOf, h]
  rfl

/-- Removing stopped Shells, with an undo that puts them back. -/
theorem applied_of_removed {d : Durable R} {shells : List String} {m : Shells}
    {workspaces : List String} {rest rest' : R}
    (hm : ∀ k, m.get k = if k ∈ shells then none else d.shells.get k)
    (hw : ∀ ws ∈ workspaces, ws ∈ d.workspaces)
    (hstopped : ∀ id ∈ shells, d.shells.runOf id = none) :
    Applied d ⟨workspaces, m, rest⟩
      [fun now => ⟨d.workspaces, reinsert d now shells, rest'⟩] where
  owners id ws hid := by
    obtain ⟨shell, hget, rfl⟩ := Option.map_eq_some_iff.mp hid
    rw [hm] at hget
    split at hget
    · cases hget
    · rw [Shells.workspaceOf, hget]
      rfl
  workspaces := hw
  runs id := by
    by_cases hid : id ∈ shells
    · rw [hstopped id hid]
      exact runOf_of_get_none (by rw [hm, if_pos hid])
    · unfold Shells.runOf
      rw [hm, if_neg hid]
  restores f hf := by
    rw [List.mem_singleton.mp hf]
    refine ⟨fun now id shell hget => ⟨shell, ?_, rfl⟩, fun now ws hws => .inr hws⟩
    rw [get_reinsert] at hget
    split at hget
    · exact .inr hget
    · exact .inl hget
  single := le_rfl
  undoRuns f hf now hnow id := by
    rw [List.mem_singleton.mp hf]
    show (reinsert d now shells).runOf id = _
    by_cases hid : id ∈ shells ∧ (d.shells.get id).isSome
    · -- the Shell is stopped where it comes from, and gone where it comes to
      have hnone : now.shells.get id = none := by
        rw [← workspaceOf_eq_none, hnow, workspaceOf_eq_none]
        rw [hm, if_pos hid.1]
      rw [runOf_of_get_none hnone, ← hstopped id hid.1, Shells.runOf, get_reinsert, if_pos hid]
      rfl
    · rw [Shells.runOf, get_reinsert, if_neg hid]
      rfl

/-- Undoing a removal brings no run back. -/
theorem Applied.rollback_runs {d applied : Durable R} {undo : List (Durable R → Durable R)}
    (h : Applied d applied undo) (id : String) :
    (rollback undo applied).shells.runOf id = applied.shells.runOf id := by
  match undo, h with
  | [], _ => rfl
  | [f], h => exact h.undoRuns f (List.mem_singleton_self f) applied (fun _ => rfl) id
  | _ :: _ :: _, h => exact absurd h.single (by simp)

theorem durableApply_applied {call : LifecycleCall R} {d : Durable R} {shells : List String}
    (hc : call.Covers d shells) (hstopped : ∀ id ∈ shells, d.shells.runOf id = none) :
    Applied d (call.durableApply d shells).1 (call.durableApply d shells).2 := by
  cases call with
  | closeShell shellId detach =>
      refine applied_of_removed (fun k => ?_) (fun ws hws => hws) fun id hid => ?_
      · rw [Shells.get_erase]
        simp
      · exact hstopped id (List.mem_singleton.mp hid ▸ hc)
  | closeWorkspace workspaceId detach =>
      exact applied_of_removed (fun k => get_foldl_erase d.shells shells k)
        (fun ws hws => List.mem_of_mem_filter hws) hstopped
  | shutdown => exact ⟨fun _ _ h => h, fun _ h => h, fun _ => rfl, nofun, Nat.zero_le _, nofun⟩

/-- What a call closes is gone. -/
theorem durableApply_open {call : LifecycleCall R} {d before : Durable R} {shells : List String}
    (hc : call.Covers d shells) :
    Open (call.durableApply d shells).1 (call.committedEvents before shells) := by
  cases call with
  | closeShell shellId detach =>
      refine ⟨fun id ws hid e he => ?_, fun ws hws e he => ?_⟩
      · rw [List.mem_singleton.mp he]
        obtain ⟨shell, hget, -⟩ := Option.map_eq_some_iff.mp hid
        have hne : shellId ≠ id := by
          rintro rfl
          rw [LifecycleCall.durableApply, Shells.get_erase, if_pos rfl] at hget
          cases hget
        simp [DaemonEventKind.endsShell, DaemonEventKind.endsWorkspace, hne]
      · rw [List.mem_singleton.mp he]
        rfl
  | closeWorkspace workspaceId detach =>
      refine ⟨fun id ws hid e he => ?_, fun ws hws e he => ?_⟩
      · rw [List.mem_singleton.mp he]
        have hne : workspaceId ≠ ws := by
          rintro rfl
          obtain ⟨shell, hget, hws⟩ := Option.map_eq_some_iff.mp hid
          rw [LifecycleCall.durableApply] at hget
          dsimp only at hget
          rw [get_foldl_erase] at hget
          split at hget
          · cases hget
          next hmem => exact hmem (hc id (by rw [Shells.workspaceOf, hget, Option.map_some, hws]))
        simp [DaemonEventKind.endsShell, DaemonEventKind.endsWorkspace, hne]
      · rw [List.mem_singleton.mp he]
        have hne : workspaceId ≠ ws := fun heq => by
          have := (List.mem_filter.mp hws).2
          simp [heq] at this
        simp [DaemonEventKind.endsWorkspace, hne]
  | shutdown =>
      refine ⟨fun id ws hid e he => ?_, fun ws hws e he => ?_⟩
      · cases he
      · cases he

theorem committedEvents_silent (call : LifecycleCall R) (d : Durable R) (shells : List String) :
    ∀ e ∈ call.committedEvents d shells, e.isOutput = false := by
  cases call with
  | closeShell shellId detach => exact fun e he => by rw [List.mem_singleton.mp he]; rfl
  | closeWorkspace workspaceId detach => exact fun e he => by rw [List.mem_singleton.mp he]; rfl
  | shutdown => nofun

/-- No reader of what a call closes can still publish. -/
theorem committedEvents_live {call : LifecycleCall R} {d : Durable R} {shells : List String}
    {readers : List Reader} (hc : call.Covers d shells) (ha : Agree readers d)
    (hidle : ∀ id ∈ shells, Idle readers id) : Live readers (call.committedEvents d shells) := by
  intro r hr hactive e he
  have hne : r.shellId ∉ shells := fun hmem => hidle r.shellId hmem r hr hactive rfl
  cases call with
  | closeShell shellId detach =>
      rw [List.mem_singleton.mp he]
      have : shellId ≠ r.shellId := fun heq => hne (heq ▸ hc)
      simp [Reader.outputChanged, DaemonEventKind.ends, DaemonEventKind.endsRun,
        DaemonEventKind.endsShell, DaemonEventKind.endsWorkspace, this]
  | closeWorkspace workspaceId detach =>
      rw [List.mem_singleton.mp he]
      have : workspaceId ≠ r.workspaceId := fun heq =>
        hne (hc r.shellId (by rw [heq]; exact workspaceOf_of_runOf (ha.running r hr hactive)))
      simp [Reader.outputChanged, DaemonEventKind.ends, DaemonEventKind.endsRun,
        DaemonEventKind.endsShell, DaemonEventKind.endsWorkspace, this]
  | shutdown => cases he

/-! ## Transactions that fail -/

theorem queueDurableBatch_frame (w : World R) (mutation : Mutation R)
    (kinds : List DaemonEventKind) :
    (w.queueDurableBatch mutation kinds).readers = w.readers ∧
      (w.queueDurableBatch mutation kinds).durable.state = w.durable.state ∧
      (w.queueDurableBatch mutation kinds).holder = w.holder ∧
      (w.queueDurableBatch mutation kinds).flush = w.flush ∧
      (w.queueDurableBatch mutation kinds).events.transition.persistenceInFlight =
        w.events.transition.persistenceInFlight := by
  cases kinds with
  | nil => exact ⟨rfl, rfl, rfl, rfl, rfl⟩
  | cons kind kinds => exact ⟨rfl, rfl, rfl, rfl, rfl⟩

@[simp] theorem restoreFinalized_readers (w : World R) (rollbacks : List (String × StopRollback)) :
    (w.restoreFinalized rollbacks).readers = w.readers :=
  (queueDurableBatch_frame (w.drained _) _ _).1

@[simp] theorem compensateStopped_readers (w : World R) (shells : List String) :
    (w.compensateStopped shells).readers = w.readers :=
  (queueDurableBatch_frame (w.drained _) _ _).1

/-- Draining the queue into a batch leaves every event where it was. -/
theorem drained_frontier (hc : w.holder.closed = true) (shells : Shells) (mutation : Mutation R)
    (events : List DaemonEventKind) :
    ((w.drained shells).queueDurableBatch mutation (w.events.runtimeQueue ++ events)).frontier =
      w.frontier ++ events := by
  rw [frontier_of_closed hc]
  cases hk : w.events.runtimeQueue ++ events with
  | nil =>
      obtain ⟨hq, he⟩ := List.append_eq_nil_iff.mp hk
      rw [hq, he, List.append_nil, List.append_nil]
      exact (frontier_of_closed (w := w.drained shells) hc).trans (List.append_nil _)
  | cons kind kinds =>
      refine (frontier_of_closed
        (w := (w.drained shells).queueDurableBatch mutation (kind :: kinds)) hc).trans ?_
      show w.events.kinds ++ (w.flushing ++
        (w.events.pending ++ [(⟨w.next, kind :: kinds⟩ : Batch)])).flatMap (·.kinds) ++ [] = _
      rw [← hk]
      simp

/-- Runs of idle Shells end, and their exits are queued behind everything else. -/
theorem World.Outputs.endRuns (h : w.Outputs) (hc : w.holder.closed = true) {shells : Shells}
    {mutation : Mutation R} {events : List DaemonEventKind}
    (hruns : ∀ id, shells.runOf id = w.durable.state.shells.runOf id ∨
      (shells.runOf id = none ∧ Idle w.readers id))
    (howners : ∀ id, shells.workspaceOf id = w.durable.state.shells.workspaceOf id)
    (he : ∀ e ∈ events, Exits w.readers e) :
    ((w.drained shells).queueDurableBatch mutation (w.events.runtimeQueue ++ events)).Outputs := by
  obtain ⟨hreaders, hstate, hholder, hflush, hflight⟩ :=
    queueDurableBatch_frame (w.drained shells) mutation (w.events.runtimeQueue ++ events)
  have hK := drained_frontier hc shells mutation events
  refine h.of (fun hu => ?_) ?_ ?_ ?_ ?_ ?_
  · rw [hflight]
    rw [hflush, hholder] at hu
    exact h.inFlight hu
  · rw [hK]
    exact h.ordered.append fun e hmem => (he e hmem).isOutput
  · rw [hK]
    intro e hmem
    rcases List.mem_append.mp hmem with hmem | hmem
    · exact .inl hmem
    · exact .inr (.inr (he e hmem))
  · rw [hreaders]
    exact (Calmer.refl _).followed
  · rw [hstate, hreaders]
    exact hruns
  · rw [hstate]
    exact h.opened.le (fun id ws hid => by rw [← howners]; exact hid) fun _ hw => hw

theorem World.Outputs.compensateStopped (h : w.Outputs) (hc : w.holder.closed = true)
    {shells : List String} (hidle : ∀ id ∈ shells, Idle w.readers id) :
    (w.compensateStopped shells).Outputs := by
  have hends := compensateAll_endsRuns w.durable.state.shells shells
  refine h.endRuns hc (fun id => ?_) hends.owners fun e he => ?_
  · rw [hends.runs]
    split
    next hid => exact .inr ⟨rfl, hidle id hid⟩
    next => exact .inl rfl
  · obtain ⟨id, hid, hexit⟩ := compensateAll_events _ _ e he
    exact h.agree.exits (hidle id hid) hexit

theorem World.Outputs.restoreFinalized (h : w.Outputs) (hc : w.holder.closed = true)
    {rollbacks : List (String × StopRollback)}
    (hr : ∀ p ∈ rollbacks, p.2.Idle ∧ ∀ event, p.2.event = some event → Exits w.readers event) :
    (w.restoreFinalized rollbacks).Outputs := by
  obtain ⟨hruns, howners⟩ := restoreAll_sameRuns w.durable.state.shells fun p hp => (hr p hp).1
  refine h.endRuns hc (fun id => .inl (hruns id)) howners fun e he => ?_
  obtain ⟨p, hp, hevent⟩ := restoreAll_events _ _ e he
  exact (hr p hp).2 e hevent

theorem World.Outputs.lifecycleFailed (h : w.Outputs) (hc : w.holder.closed = true)
    (call : LifecycleCall R) : (w.lifecycleFailed call).Outputs := by
  have hK : (w.lifecycleFailed call).frontier = w.frontier := by
    have hflushed : ({ w.events.transition with lifecycleEventReservation := 0 } :
        TransitionState).publicationBlocked = true ∨ w.flushing = [] := by
      by_cases hf : w.flush = none
      · exact .inr (flushing_of_none hf)
      · simp [TransitionState.publicationBlocked, h.inFlight (.inl hf)]
    refine (frontier_congr (u := w.lifecycleFailed call)
      (w := { w with events := w.events.releaseLifecycleReservation }) rfl rfl (by exact hc)
      rfl).trans ?_
    exact publishPendingRuntime_frontier { w with events := { w.events with
      transition := { w.events.transition with lifecycleEventReservation := 0 } } }
      (hflushed.imp_right fun hf => ⟨hf, Holder.closed_exitBatch hc⟩)
  refine h.same (fun hu => ?_) (.of_eq hK) (Calmer.refl _).followed (.refl _)
  show w.events.releaseLifecycleReservation.transition.persistenceInFlight = true
  rw [EventTransaction.releaseLifecycleReservation, publishPendingRuntime_inFlight]
  exact h.inFlight (.inl (hu.resolve_right (by simp [World.lifecycleFailed, Holder.closed])))

theorem World.Outputs.finishPersistence (h : w.Outputs) (hf : w.flush = none)
    (hc : w.holder.closed = true) :
    World.Outputs { w with events := w.events.finishPersistence } := by
  have hK : World.frontier { w with events := w.events.finishPersistence } = w.frontier :=
    publishPendingRuntime_frontier { w with events := { w.events with
      transition := { w.events.transition with
        persistenceInFlight := false, inFlightEventCount := 0 } } }
      (.inr ⟨flushing_of_none hf, Holder.closed_exitBatch hc⟩)
  refine h.same (fun hu => ?_) (.of_eq hK) (Calmer.refl _).followed (.refl _)
  rcases hu with hu | hu
  · exact absurd hf hu
  · rw [show _ = true from hc] at hu
    cases hu

theorem World.Calm.compensate (h : w.Calm) {call : LifecycleCall R} {stopped : List String}
    (hh : w.holder = .compensating call stopped) :
    ((w.compensateStopped stopped).lifecycleFailed call).Calm := by
  have hc : w.holder.closed = true := by rw [hh]; rfl
  have hidle := h.holder
  rw [World.HolderCalm, hh] at hidle
  refine ⟨(h.toOutputs.compensateStopped hc hidle).lifecycleFailed ?_ call, trivial⟩
  rw [(compensateStopped_holder w stopped).1, hc]

/-! ## Lifecycle transactions -/

theorem World.Calm.lifecycleBegin (h : w.Calm) {call : LifecycleCall R} {shells : List String}
    (hh : w.holder = .free) (hs : call.selectShells w.durable.state = some shells)
    (capacity : Nat) :
    World.Calm { w with
      events := w.events.beginLifecycleReservation capacity
      stopping := call.stopping || w.stopping
      lifecycleActive := true
      holder := .stopping call shells shells [] } where
  toOutputs := by
    refine h.toOutputs.same (fun hu => h.inFlight (hu.imp_right nofun))
      (.of_eq (frontier_same rfl rfl rfl rfl ?_)) (Calmer.refl _).followed (.refl _)
    rw [hh]
    rfl
  holder := ⟨covers_selectShells hs, fun id hid => .inl hid, nofun⟩

/-- One stop of the loop; a Shell whose process has ended is idle from then on. -/
theorem World.Calm.stopShell (h : w.Calm) {call : LifecycleCall R} {shells remaining : List String}
    {id : String} {stopped : List String}
    (hh : w.holder = .stopping call shells (id :: remaining) stopped) (outcome : StopOutcome) :
    ((w.stopRuntime id outcome).1 = .ok () →
      World.Calm { (w.stopRuntime id outcome).2 with
        holder := .stopping call shells remaining (stopped ++ [id]) }) ∧
    ∀ ended, (w.stopRuntime id outcome).1 = .error ended →
      World.Calm { (w.stopRuntime id outcome).2 with
        holder := .compensating call (if ended then stopped ++ [id] else stopped) } := by
  obtain ⟨hstep, hidle⟩ := stopRuntime_step h.toOutputs id outcome
  have hholder := h.holder
  rw [World.HolderCalm, hh] at hholder
  obtain ⟨hcovers, hremaining, hstopped⟩ := hholder
  set v := (w.stopRuntime id outcome).2 with hv
  have hfollow : ∀ k, Idle w.readers k → Idle v.readers k := fun k hk =>
    hk.follow hstep.readers.followed
  have hmove : ∀ holder : Holder R, holder.closed = true →
      World.Outputs { v with holder := holder } := by
    intro holder hc
    have hvc : v.holder.closed = true := by
      rw [hstep.holder, hh]
      rfl
    refine (hstep.outputs h.toOutputs).same (fun hu => ?_)
      (.of_eq (frontier_congr rfl rfl hvc hc)) (Calmer.refl _).followed (.refl _)
    refine (hstep.outputs h.toOutputs).inFlight (hu.imp_right fun hn => ?_)
    rw [show _ = true from hc] at hn
    cases hn
  have hsnoc : Idle v.readers id → ∀ k ∈ stopped ++ [id], Idle v.readers k := by
    intro hid k hk
    rcases List.mem_append.mp hk with hk | hk
    · exact hfollow k (hstopped k hk)
    · rw [List.mem_singleton.mp hk]
      exact hid
  constructor
  · intro hok
    have hid : Idle v.readers id := hidle (by rw [hok]; simp)
    refine ⟨hmove _ rfl, ?_, fun k hk => ?_, hsnoc hid⟩
    · rw [show v.durable = w.durable from hstep.durable]
      exact hcovers
    · rcases hremaining k hk with hk | hk
      · rcases List.mem_cons.mp hk with rfl | hk
        · exact .inr hid
        · exact .inl hk
      · exact .inr (hfollow k hk)
  · intro ended herr
    refine ⟨hmove _ rfl, ?_⟩
    show ∀ k ∈ (if ended then stopped ++ [id] else stopped), Idle v.readers k
    cases ended with
    | true => exact hsnoc (hidle (by rw [herr]; simp))
    | false => exact fun k hk => hfollow k (hstopped k hk)

theorem World.Calm.lifecycleApply (h : w.Calm) {call : LifecycleCall R} {shells : List String}
    (hh : w.holder = .finalizing call shells) (hfree : w.persistFree = true)
    (failure : Option LifecycleFailure) : (w.lifecycleApply call shells failure).Calm := by
  obtain ⟨hf, hc⟩ := persistFree_iff.mp hfree
  have hholder := h.holder
  rw [World.HolderCalm, hh] at hholder
  obtain ⟨hcovers, hidle⟩ := hholder
  have hexits : ∀ ids, (∀ id ∈ ids, id ∈ shells) →
      ∀ p ∈ (finalizeAll w.durable.state.shells ids).2, p.2.Idle ∧
        ∀ event, p.2.event = some event → Exits w.readers event := by
    intro ids hids p hp
    obtain ⟨hp, hmem, hexit⟩ := finalizeAll_rollbacks _ _ p hp
    exact ⟨hp, fun event he => h.agree.exits (hidle p.1 (hids p.1 hmem)) (hexit event he)⟩
  -- a registry in which selected Shells have been stopped, and nothing else has happened
  have hstopped : ∀ (v : World R) (ids : List String), (∀ id ∈ ids, id ∈ shells) →
      v.frontier = w.frontier → v.readers = w.readers → v.flush = none →
      (v.holder.closed = false → v.events.transition.persistenceInFlight = true) →
      (∀ id, v.durable.state.shells.runOf id =
        (finalizeAll w.durable.state.shells ids).1.runOf id) →
      Open v.durable.state w.frontier → v.Outputs := by
    intro v ids hids hK hreaders hflush hvc hruns hopen
    refine h.toOutputs.of (fun hu => hvc (hu.resolve_left fun hn => hn hflush))
      (by rw [hK]; exact h.ordered) (fun e he => .inl (by rw [← hK]; exact he)) ?_ (fun id => ?_)
      hopen
    · rw [hreaders]
      exact (Calmer.refl _).followed
    · rw [hruns, (finalizeAll_endsRuns w.durable.state.shells ids).runs, hreaders]
      split
      next hid => exact .inr ⟨rfl, hidle id (hids id hid)⟩
      next => exact .inl rfl
  have hopen : ∀ ids, Open { w.durable.state with
      shells := (finalizeAll w.durable.state.shells ids).1 } w.frontier := fun ids =>
    h.opened.le (fun id ws hid => by
      rw [← (finalizeAll_endsRuns w.durable.state.shells ids).owners]
      exact hid) fun _ hw => hw
  unfold World.lifecycleApply
  dsimp only
  split
  next index =>
    have htake : ∀ id ∈ shells.take index, id ∈ shells := fun id hid => List.mem_of_mem_take hid
    -- the lock of one Shell failed; those before it are restored, those after it compensated
    have hfailed : ∀ v : World R, v.holder.closed = true → v.readers = w.readers → v.Outputs →
        (((v.restoreFinalized (finalizeAll w.durable.state.shells (shells.take index)).2
          ).compensateStopped (shells.drop (index + 1))).lifecycleFailed call).Calm := by
      intro v hvc hreaders hv
      have hrestored := hv.restoreFinalized hvc (by rw [hreaders]; exact hexits _ htake)
      have hholder := (restoreFinalized_holder v
        (finalizeAll w.durable.state.shells (shells.take index)).2).1
      have hcompensated : (World.compensateStopped _ (shells.drop (index + 1))).Outputs :=
        hrestored.compensateStopped (by rw [hholder]; exact hvc) fun id hid => by
          rw [restoreFinalized_readers, hreaders]
          exact hidle id (List.mem_of_mem_drop hid)
      refine ⟨hcompensated.lifecycleFailed ?_ call, trivial⟩
      rw [(compensateStopped_holder _ _).1, hholder]
      exact hvc
    refine hfailed _ hc rfl ?_
    exact hstopped _ (shells.take index) htake (frontier_same rfl rfl rfl rfl rfl) rfl hf
      (fun hn => absurd hn (by show w.holder.closed ≠ false; rw [hc]; simp)) (fun _ => rfl)
      (hopen _)
  · have hall : ∀ id ∈ shells, id ∈ shells := fun _ hid => hid
    have hends := finalizeAll_endsRuns w.durable.state.shells shells
    have hcovered : call.Covers { w.durable.state with
        shells := (finalizeAll w.durable.state.shells shells).1 } shells := by
      cases call with
      | closeShell shellId detach => exact hcovers
      | closeWorkspace workspaceId detach =>
          exact fun id hid => hcovers id (by rw [← hends.owners]; exact hid)
      | shutdown => trivial
    have happlied := durableApply_applied hcovered fun id hid => by
      show (finalizeAll w.durable.state.shells shells).1.runOf id = none
      rw [hends.runs, if_pos hid]
    have hundo : UndoOpen w.frontier (call.durableApply { w.durable.state with
        shells := (finalizeAll w.durable.state.shells shells).1 } shells).2 :=
      ⟨_, hopen shells, happlied.restores⟩
    split
    · -- the window opens; what it closes is gone from the registry, and so are its readers
      have hopened : ∀ (v : World R) (saved : PersistenceGeneration R),
          v.frontier = w.frontier → v.holder = .window ⟨.lifecycle call
            (finalizeAll w.durable.state.shells shells).2 (call.durableApply { w.durable.state with
              shells := (finalizeAll w.durable.state.shells shells).1 } shells).2,
            ⟨w.next, call.committedEvents w.durable.state shells⟩, saved, none⟩ →
          v.events.transition.persistenceInFlight = true → v.readers = w.readers →
          v.flush = none → v.durable.state = (call.durableApply { w.durable.state with
            shells := (finalizeAll w.durable.state.shells shells).1 } shells).1 → v.Calm := by
        intro v saved hK hh' hflight hreaders hflush hstate
        refine ⟨hstopped v shells hall hK hreaders hflush (fun _ => hflight) (fun id => ?_) ?_, ?_⟩
        · rw [hstate]
          exact happlied.runs id
        · rw [hstate]
          exact (hopen shells).le happlied.owners happlied.workspaces
        · rw [World.HolderCalm, hh']
          refine ⟨?_, ?_, committedEvents_silent call _ shells, ?_, happlied.single, ?_, ?_⟩
          · rw [hreaders]
            exact committedEvents_live hcovers h.agree hidle
          · rw [hstate]
            exact durableApply_open hcovered
          · rw [hK]
            exact hundo
          · rw [hstate]
            exact happlied.undoRuns
          · rw [hreaders]
            exact hexits shells hall
      refine hopened _ _ (frontier_same rfl rfl rfl rfl ?_) rfl rfl rfl hf rfl
      rw [Holder.closed_exitBatch hc]
      rfl
    next failure hnot =>
      -- the Shells are stopped, and nothing of the removal is left
      have hfailed : ∀ v : World R, v.frontier = w.frontier → v.holder.closed = true →
          v.readers = w.readers → v.flush = none →
          (∀ id, v.durable.state.shells.runOf id =
            (finalizeAll w.durable.state.shells shells).1.runOf id) →
          Open v.durable.state w.frontier →
          ((v.restoreFinalized (finalizeAll w.durable.state.shells shells).2).lifecycleFailed
            call).Calm := by
        intro v hK hvc hreaders hflush hruns hvopen
        have hv := hstopped v shells hall hK hreaders hflush
          (fun hn => absurd hn (by rw [hvc]; simp)) hruns hvopen
        have hrestored := hv.restoreFinalized hvc (by rw [hreaders]; exact hexits shells hall)
        refine ⟨hrestored.lifecycleFailed ?_ call, trivial⟩
        rw [(restoreFinalized_holder v _).1]
        exact hvc
      refine hfailed _ (frontier_same rfl rfl rfl rfl rfl) hc rfl hf (fun id => ?_) ?_
      · cases failure with
        | capture => exact (happlied.rollback_runs id).trans (happlied.runs id)
        | _ => rfl
      · cases failure with
        | capture => exact hundo.apply ((hopen shells).le happlied.owners happlied.workspaces)
        | _ => exact hopen shells

end Boomux.Daemon
