import Boomux.Daemon.OutputEnds

/-!
# The order of the log

The answers of the writer, the last transactions of the windows, and with them every step of the
daemon. A window that fails and a window that records an exit leave the frontier as it was. The
commit of a lifecycle transaction appends its events in front of the queue, so what is queued then
decides whether the log stays ordered (`logOrdered_iff`).
-/

set_option autoImplicit false

namespace Boomux.Daemon

open Rust Transition

variable {R : Type} {w u : World R}

/-! ## The answer of the writer -/

theorem World.Calm.windowCalm (h : w.Calm) {window : Window R} (hh : w.holder = .window window) :
    w.WindowCalm window.batch window.kind := by
  have := h.holder
  rwa [World.HolderCalm, hh] at this

/-- What happens to a reader whose mutation is rolled back. -/
theorem Calms.stopIf (r : Reader) (b : Bool) :
    Calms r (if b then { r with phase := r.phase.stop } else r) := by
  cases b with
  | true => exact .stop r
  | false => exact .refl r

/-- A paused reader that has been stopped cannot publish any more. -/
theorem active_stop {r : Reader} (h : r.live = false) :
    ({ r with phase := r.phase.stop } : Reader).active = false := by
  cases hp : r.phase <;> simp_all [Reader.active, Reader.live, ReaderPhase.stop]

/-- Rolling a mutation back ends the runs it started, and their readers with them. -/
theorem MutationCalm.agree_rollback {batch : Batch} {undo : List (Durable R → Durable R)}
    {started : List StartedRun} (h : MutationCalm w batch undo started)
    (ha : Agree w.readers w.durable.state) :
    Agree (w.readers.map fun r =>
        if started.any (·.runId = r.runId) then { r with phase := r.phase.stop } else r)
      (rollback undo w.durable.state) where
  nodup := by
    rw [(Calmer.map fun r _ => Calms.stopIf r _).followed.map_runId]
    exact ha.nodup
  running r' hmem hactive := by
    obtain ⟨r, hr, rfl⟩ := List.mem_map.mp hmem
    split at hactive
    next hs =>
      -- a started reader was paused
      have hs : ∃ s ∈ started, s.runId = r.runId := by simpa using hs
      rw [active_stop (h.paused r hr hs)] at hactive
      cases hactive
    next hs =>
      rw [if_neg hs]
      have hs : ∀ s ∈ started, s.runId ≠ r.runId := by simpa using hs
      obtain ⟨shell, run, hruns, hws, hid⟩ := runOf_eq_some.mp (ha.running r hr hactive)
      have hspared := rollback_spared undo (fun f hf d hd =>
        h.spared r hr hactive hs f hf d _ _ hd) hruns
      exact runOf_eq_some.mpr ⟨shell, run, hspared, hws, hid⟩
  own id ws runId hrun r' hmem hid := by
    obtain ⟨r, hr, hc⟩ := (Calmer.map fun r _ => Calms.stopIf r _).exists_of_mem hmem
    obtain ⟨shell, run, hruns, hws, hrunId⟩ := runOf_eq_some.mp hrun
    have hold := rollback_undone h.undone hruns
    rw [hc.shellId]
    exact ha.own id ws runId (runOf_eq_some.mpr ⟨shell, run, hold, hws, hrunId⟩) r hr
      (by rw [← hc.runId]; exact hid)

/-- An answer that is only noted. -/
theorem World.Calm.note (h : w.Calm) {window : Window R} (hh : w.holder = .window window)
    (written : Option Bool) (hu : u.holder = .window { window with written := written })
    (he : u.events = w.events) (hr : u.readers = w.readers) (hf : u.flush = w.flush)
    (hd : u.durable.state = w.durable.state) : u.Calm := by
  have hK : u.frontier = w.frontier := by
    refine frontier_same (by rw [he]) (by rw [he]) (by rw [he]) hf ?_
    rw [hu, hh]
    rfl
  have hsame : SameRuns w.durable.state u.durable.state := by
    rw [hd]
    exact .refl _
  have hcalm : Calmer w.readers u.readers := by
    rw [hr]
    exact .refl _
  refine ⟨h.toOutputs.same (fun _ => ?_) (.of_eq hK) hcalm.followed hsame, ?_⟩
  · rw [he]
    exact h.inFlight (.inr (by rw [hh]; rfl))
  · rw [World.HolderCalm, hu]
    exact (h.windowCalm hh).keep hcalm hsame fun e he => .inl (hK ▸ he)

theorem World.Calm.write (h : w.Calm) {window : Window R} (hh : w.holder = .window window)
    (ok : Bool) : (w.write window ok).Calm := by
  by_cases hroll : ∃ undo started, window.kind = .mutation undo started ∧ ok = false
  · obtain ⟨undo, started, hk, rfl⟩ := hroll
    have hwin := h.windowCalm hh
    rw [hk] at hwin
    rw [write_mutation w hk]
    have hrolled : ∀ v : World R, v.events = w.events → v.flush = w.flush →
        v.holder = .window { window with written := some false } →
        v.readers = w.readers.map (fun r =>
          if started.any (·.runId = r.runId) then { r with phase := r.phase.stop } else r) →
        v.durable.state = rollback undo w.durable.state → v.Calm := by
      intro v he hf hv hr hd
      have hcalm : Calmer w.readers v.readers := by
        rw [hr]
        exact .map fun r _ => .stopIf r _
      have hK : v.frontier = w.frontier := by
        refine frontier_same (by rw [he]) (by rw [he]) (by rw [he]) hf ?_
        rw [hv, hh]
        rfl
      refine ⟨⟨fun _ => ?_, ?_, ?_, ?_, ?_⟩, ?_⟩
      · rw [he]
        exact h.inFlight (.inr (by rw [hh]; rfl))
      · rw [hK]
        exact h.ordered
      · rw [hK]
        exact h.live.follow hcalm.followed
      · rw [hK, hd]
        exact hwin.undoOpen.apply h.opened
      · rw [hr, hd]
        exact hwin.agree_rollback h.agree
      · rw [World.HolderCalm, hv]
        show v.WindowCalm window.batch window.kind
        rw [hk]
        refine ⟨hwin.neutral, fun r' hmem hs => ?_, ?_, hwin.undone, hwin.spared_calmer hcalm⟩
        · obtain ⟨r, hr, hc⟩ := hcalm.exists_of_mem hmem
          have hpaused := hwin.paused r hr (by rw [← hc.runId]; exact hs)
          by_contra hl
          rw [hc.live (by simpa using hl)] at hpaused
          cases hpaused
        · rw [hK]
          exact hwin.undoOpen
    exact hrolled _ rfl rfl rfl rfl rfl
  · rw [write_answered w hroll]
    exact h.note hh (some ok) rfl rfl rfl rfl (writePersistedState_state _ _ _)

/-! ## The last transaction of a window -/

/-- The events that the commit of a lifecycle transaction appends end no queued output. -/
def World.ClosesQuietly (w : World R) (a : Action R) : Prop :=
  match a, w.holder with
  | .finish, .window ⟨.lifecycle .., batch, _, some true⟩ =>
      ∀ event ∈ batch.kinds, ∀ out ∈ w.events.runtimeQueue, event.ends out = false
  | _, _ => True

/-- The frontier during a window of a mutation or of a lifecycle transaction. -/
theorem frontier_of_window (hl : w.Ledger) {window : Window R} (hh : w.holder = .window window)
    (hk : window.kind ≠ .runExit) : w.frontier = w.events.kinds ++ w.events.runtimeQueue := by
  have hwin := hl.windowOk hh
  rw [World.frontier_eq, World.between, flushing_of_none hwin.alone, hwin.quiet hk, hh]
  have : (Holder.window window).exitBatch = [] := by
    unfold Holder.exitBatch
    dsimp only
    split
    next h => exact absurd h hk
    next => rfl
  rw [this]
  simp

theorem closesQuietly_finish {window : Window R} (hh : w.holder = .window window)
    {call : LifecycleCall R} {rollbacks : List (String × StopRollback)}
    {undo : List (Durable R → Durable R)} (hk : window.kind = .lifecycle call rollbacks undo)
    (hw : window.written = some true) : w.ClosesQuietly .finish ↔
      ∀ event ∈ window.batch.kinds, ∀ out ∈ w.events.runtimeQueue, event.ends out = false := by
  obtain ⟨kind, batch, saved, written⟩ := window
  cases hk
  cases hw
  unfold World.ClosesQuietly
  rw [hh]

/-- The frontier during a window of a run exit. -/
theorem frontier_of_exit (hf : w.flush = none) {window : Window R} (hh : w.holder = .window window)
    (hk : window.kind = .runExit) : w.frontier =
      w.events.kinds ++ (w.events.pending ++ [window.batch]).flatMap (·.kinds) ++
        w.events.runtimeQueue := by
  rw [World.frontier_eq, World.between, flushing_of_none hf, hh, List.nil_append]
  simp [Holder.exitBatch, hk]

theorem frontier_eq_line (hf : w.flush = none) (hc : w.holder.closed = true) :
    w.frontier = w.events.line := by
  rw [frontier_of_closed hc, flushing_of_none hf, List.nil_append]
  rfl

theorem frontier_of_finished {x : EventTransaction} (he : u.events = x.finishPersistence)
    (hf : u.flush = none) (hc : u.holder.closed = true) : u.frontier = x.line := by
  rw [frontier_eq_line hf hc, he, x.finishPersistence_line]

/-- A window is closed and nothing but the events and the phases of readers has changed. -/
theorem World.Outputs.closeWindow (h : w.Outputs) (hf : w.flush = none)
    (huf : u.flush = w.flush) (hh : u.holder = .free) (hr : Followed w.readers u.readers)
    (hd : u.durable = w.durable) (hK : Extends w.frontier u.frontier) : u.Calm := by
  have hsame : SameRuns w.durable.state u.durable.state := by
    rw [hd]
    exact .refl _
  refine ⟨h.same (fun hu => ?_) hK hr hsame, ?_⟩
  · rw [huf, hf, hh] at hu
    simp [Holder.closed] at hu
  · rw [World.HolderCalm, hh]
    trivial

/-- Readers that a committed mutation lets go. -/
theorem follows_release (r : Reader) (b : Bool) :
    Follows r (if b && r.phase = .starting then { r with phase := .reading } else r) := by
  split
  next hb =>
    refine ⟨rfl, rfl, rfl, fun _ => ?_⟩
    simp only [Bool.and_eq_true, decide_eq_true_eq] at hb
    simp [Reader.active, hb.2]
  next => exact (Calms.refl r).toFollows

/-- The failed save of a lifecycle transaction: the removal is undone, and the runs that were
stopped for it end after all that is queued. -/
theorem World.Calm.abandonLifecycle (h : w.Calm)
    (hK : w.frontier = w.events.kinds ++ w.events.runtimeQueue) (hp : w.events.pending = [])
    {batch : Batch} {call : LifecycleCall R} {rollbacks : List (String × StopRollback)}
    {undo : List (Durable R → Durable R)} (hwin : LifecycleCalm w batch rollbacks undo)
    (hu : u.events = w.events) (hh : u.holder = .free) (huf : u.flush = none)
    (hr : u.readers = w.readers) (hd : u.durable.state = rollback undo w.durable.state) :
    World.Calm { (u.restoreFinalized rollbacks).lifecycleFailed call with
      events := ((u.restoreFinalized rollbacks).lifecycleFailed call).events.finishPersistence
        } := by
  have hc : u.holder.closed = true := by rw [hh]; rfl
  have huK : u.frontier = w.frontier := by
    rw [frontier_eq_line huf hc, hu, hK, EventTransaction.line, hp]
    simp
  have hruns : ∀ id, u.durable.state.shells.runOf id = w.durable.state.shells.runOf id := by
    intro id
    rw [hd]
    rcases undo with _ | ⟨f, _ | ⟨g, rest⟩⟩
    · rfl
    · exact hwin.undoRuns f (List.mem_singleton_self f) _ (fun _ => rfl) id
    · exact absurd hwin.single (by simp)
  have hundone : u.Outputs := by
    refine h.toOutputs.of (fun hn => ?_) ?_ ?_ ?_ (fun id => .inl (hruns id)) ?_
    · rw [huf, hh] at hn
      simp [Holder.closed] at hn
    · rw [huK]
      exact h.ordered
    · exact fun e he => .inl (huK ▸ he)
    · rw [hr]
      exact (Calmer.refl _).followed
    · rw [hd]
      exact hwin.undoOpen.apply h.opened
  have hrestored : (World.restoreFinalized _ rollbacks).Outputs :=
    hundone.restoreFinalized hc fun p hp => by
      rw [hr]
      exact hwin.rollbacks p hp
  have hfailed := hrestored.lifecycleFailed (by rw [(restoreFinalized_holder u _).1, hc]) call
  refine ⟨hfailed.finishPersistence ?_ rfl, trivial⟩
  exact (restoreFinalized_holder u rollbacks).2.trans huf

/-- The commit of a lifecycle transaction keeps the order if its events end no queued output. -/
theorem World.Calm.commitLifecycle (h : w.Calm)
    (hK : w.frontier = w.events.kinds ++ w.events.runtimeQueue)
    {batch : Batch} {rollbacks : List (String × StopRollback)}
    {undo : List (Durable R → Durable R)} (hwin : LifecycleCalm w batch rollbacks undo)
    (hquiet : ∀ event ∈ batch.kinds, ∀ out ∈ w.events.runtimeQueue, event.ends out = false)
    (huf : u.flush = none) (hh : u.holder = .free) (hr : u.readers = w.readers)
    (hd : u.durable = w.durable)
    (huK : u.frontier = w.events.kinds ++ batch.kinds ++ w.events.runtimeQueue) : u.Calm := by
  have hmem : ∀ e ∈ u.frontier, e ∈ w.frontier ∨ e ∈ batch.kinds := by
    intro e he
    rw [huK] at he
    rw [hK]
    simp only [List.mem_append] at he ⊢
    tauto
  refine ⟨⟨fun hu => ?_, ?_, ?_, ?_, ?_⟩, ?_⟩
  · rw [huf, hh] at hu
    simp [Holder.closed] at hu
  · -- the batch reports no output, and what it ends is not in the queue
    rw [huK]
    obtain ⟨hkinds, hqueue, hcross⟩ := List.pairwise_append.mp (hK ▸ h.ordered)
    refine List.pairwise_append.mpr ⟨Ordered.append hkinds hwin.silent, hqueue, ?_⟩
    intro e he out hout
    rcases List.mem_append.mp he with he | he
    · exact hcross e he out hout
    · exact hquiet e he out hout
  · rw [hr]
    intro r hmemr ha e he
    rcases hmem e he with he | he
    · exact h.live r hmemr ha e he
    · exact hwin.live r hmemr ha e he
  · rw [hd]
    refine ⟨fun id ws hid e he => ?_, fun ws hws e he => ?_⟩
    · rcases hmem e he with he | he
      · exact h.opened.shells id ws hid e he
      · exact hwin.opened.shells id ws hid e he
    · rcases hmem e he with he | he
      · exact h.opened.workspaces ws hws e he
      · exact hwin.opened.workspaces ws hws e he
  · rw [hr, hd]
    exact h.agree
  · rw [World.HolderCalm, hh]
    trivial

theorem World.Calm.finish (hl : w.Ledger) (h : w.Calm) {window : Window R}
    (hh : w.holder = .window window) {written : Bool} (hw : window.written = some written)
    (hquiet : w.ClosesQuietly .finish) : (w.finish window written).Calm := by
  have hwin := hl.windowOk hh
  have hcalm := h.windowCalm hh
  have hf := hwin.alone
  unfold World.finish
  split
  next undo started hk =>
    rw [hk] at hcalm
    have hne : window.kind ≠ .runExit := by rw [hk]; simp
    have hneutral := fun e he => ofMutation_neutral (hcalm.neutral e he)
    have hinsert := Extends.insert (A := w.events.kinds) (B := w.events.runtimeQueue)
      window.batch.kinds (fun e he => (hneutral e he).1)
      fun e he f _ => ends_of_not_output (hneutral e he).2
    rw [← frontier_of_window hl hh hne] at hinsert
    refine h.toOutputs.closeWindow hf rfl rfl (.map fun r _ => follows_release r _) rfl
      (hinsert.trans (.of_eq ?_))
    refine (frontier_of_finished (x := w.events.appendBatch window.batch) rfl (by exact hf)
      rfl).trans ?_
    simp [EventTransaction.line, hwin.quiet hne]
  next undo started hk =>
    have hne : window.kind ≠ .runExit := by rw [hk]; simp
    refine h.toOutputs.closeWindow hf rfl rfl (Calmer.refl _).followed rfl (.of_eq ?_)
    refine (frontier_of_finished (x := w.events) rfl (by exact hf) rfl).trans ?_
    simp [EventTransaction.line, frontier_of_window hl hh hne, hwin.quiet hne]
  next hk =>
    refine h.toOutputs.closeWindow hf rfl rfl (Calmer.refl _).followed rfl (.of_eq ?_)
    refine (frontier_of_finished (x := w.events.appendPendingDurable.appendBatch window.batch) rfl
      (by exact hf) rfl).trans ?_
    rw [frontier_of_exit hf hh hk]
    simp [EventTransaction.line]
  next hk =>
    refine h.toOutputs.closeWindow hf rfl rfl (Calmer.refl _).followed rfl (.of_eq ?_)
    refine (frontier_of_finished (x := (w.events.queueDurableBatch window.batch).2) rfl
      (by exact hf) rfl).trans ?_
    rw [frontier_of_exit hf hh hk]
    simp [EventTransaction.line, EventTransaction.queueDurableBatch_pending, hwin.exit hk]
  next call rollbacks undo hk =>
    rw [hk] at hcalm
    have hne : window.kind ≠ .runExit := by rw [hk]; simp
    refine h.commitLifecycle (frontier_of_window hl hh hne) hcalm
      (closesQuietly_finish hh hk hw |>.mp hquiet) (by exact hf) rfl rfl rfl ?_
    refine (frontier_of_finished
      (x := (w.events.appendBatch window.batch).releaseLifecycleReservation) rfl (by exact hf)
      rfl).trans ?_
    rw [EventTransaction.releaseLifecycleReservation_line]
    simp [EventTransaction.line, hwin.quiet hne]
  next call rollbacks undo hk =>
    rw [hk] at hcalm
    have hne : window.kind ≠ .runExit := by rw [hk]; simp
    exact h.abandonLifecycle (frontier_of_window hl hh hne) (hwin.quiet hne) hcalm rfl rfl hf rfl
      rfl

/-! ## Steps -/

theorem observeOutput_running (shell : Shell) (runId : String) (revision : Nat) :
    (shell.observeOutput runId revision).running?.map (·.id) = shell.running?.map (·.id) := by
  unfold Shell.observeOutput Shell.running?
  cases shell.lifecycle with
  | running profile run =>
      dsimp only
      split <;> rfl
  | _ => rfl

/-- A step that changes neither the events nor the readers, and no run. -/
theorem World.Calm.quiet (h : w.Calm) (he : u.events = w.events) (hr : Calmer w.readers u.readers)
    (hf : u.flush.isSome = w.flush.isSome) (hp : u.flushing = w.flushing)
    (hh : u.holder = w.holder) (hd : SameRuns w.durable.state u.durable.state) : u.Calm := by
  have hK : u.frontier = w.frontier := by
    rw [World.frontier_eq, World.frontier_eq, World.between, World.between, he, hh, hp]
  refine ⟨h.toOutputs.same (fun hu => ?_) (.of_eq hK) hr.followed hd,
    h.holder.keep hh hr hd fun e he => .inl (hK ▸ he)⟩
  rw [he]
  rw [hh] at hu
  refine h.inFlight (hu.imp_left fun hn => ?_)
  rw [← Option.isSome_iff_ne_none] at hn ⊢
  rw [← hf, hn]

/-- The holder moves on while no window is open. -/
theorem World.Calm.move (h : w.Calm) {holder : Holder R} (hw : w.holder.closed = true)
    (hh : holder.closed = true) (hcalm : World.HolderCalm { w with holder := holder }) :
    World.Calm { w with holder := holder } := by
  refine ⟨h.toOutputs.same (fun hu => ?_) (.of_eq (frontier_congr rfl rfl hw hh))
    (Calmer.refl _).followed (.refl _), hcalm⟩
  refine h.inFlight (hu.imp_right fun hn => ?_)
  rw [show _ = true from hh] at hn
  cases hn

/-- Every step keeps the order, if the closes are quiet. -/
theorem World.Calm.step (hl : w.Ledger) (h : w.Calm) {a : Action R} (hs : w.step a = some u)
    (hquiet : w.ClosesQuietly a) : u.Calm := by
  cases World.Step.of_step hs with
  | enter hh => exact h.move (by rw [hh]; rfl) rfl trivial
  | mutate op captured hh hfree hfresh => exact h.mutate hfree (.of_fresh hfresh) _ captured
  | start op hh hfree hfresh => exact h.mutate hfree (.of_fresh hfresh) _ true
  | flushBegin byHolder captured hfree hm => exact h.flushBegin hfree hm captured
  | flushWrite ok flush hf hw =>
      refine h.quiet rfl (.refl _) (by rw [hf]; rfl) ?_ rfl ?_
      · rw [flushing_of_some hf]
        rfl
      · rw [writePersistedState_state]
        exact .refl _
  | flushFinish flush written hf hw => exact h.flushFinish hl hf written
  | exitBegin index reader hh hr hphase =>
      -- The reader that ends has no output to publish any more.
      refine h.move (by rw [hh]; rfl) rfl fun r hget => ?_
      rw [hr] at hget
      cases hget
      simp [Reader.active, Reader.live, hphase]
  | exitRecord index code captured hh hfree => exact h.exitRecord hh hfree code captured
  | lifecycleBegin call shells hh hsel => exact h.lifecycleBegin hh hsel _
  | stopShell outcome call shells id remaining stopped hh hr => exact (h.stopShell hh outcome).1 hr
  | stopShellError outcome call shells id remaining stopped ended hh hr =>
      exact (h.stopShell hh outcome).2 ended hr
  | compensate call stopped hh => exact h.compensate hh
  | lifecycleApply failure call shells hh hfree => exact h.lifecycleApply hh hfree failure
  | write ok window hh hw => exact h.write hh ok
  | finish window written hh hw => exact h.finish hl hh hw hquiet
  -- What is published here is no output.
  | publish kinds hk =>
      have hneutral := fun e he => ofRuntime_neutral (hk e he)
      refine ReaderStep.calm (w := w) ⟨?_, .refl _, rfl, rfl, rfl,
        publishRuntimeBatch_inFlight w.events kinds⟩ h
      exact publishRuntimeBatch_frontier _ (fun e he => (hneutral e he).1)
        (fun e he f _ => ends_of_not_output (hneutral e he).2) rfl rfl rfl
  | readOutput index reader revision hr hphase =>
      refine h.quiet rfl (.modify index fun r _ => .of_pending r revision (some revision)) rfl
        rfl rfl
        ?_
      exact modifyShell_sameRuns _ _ _ (fun shell _ => observeOutput_running shell _ _) fun _ => rfl
  | leaveLoop a index reader hr hphase =>
      refine h.quiet rfl (.modify index fun r hget => ?_) rfl rfl rfl (.refl _)
      rw [hr] at hget
      cases hget
      exact .of_phase _ (.inr (.inr ⟨rfl, hphase⟩))
  | publishOutput index reader hr hphase u hu =>
      -- The output is published by the reader that has read it.
      refine ReaderStep.calm (readerStep_publishFrom h.toOutputs hr (by simp [Reader.live, hphase])
        (.refl _) (.of_pending reader reader.revision none) ?_ hu) h
      exact .of_phase _ (.inr (.inr ⟨rfl, hphase⟩))
  | publishLast index reader hr hphase u hu =>
      refine ReaderStep.calm (readerStep_publishFrom h.toOutputs hr (by simp [Reader.live, hphase])
        (.of_phase _ (.inl rfl)) ?_ (.of_phase _ (.inr (.inl rfl))) hu) h
      exact (Calms.of_pending reader reader.revision none).trans (.of_phase _ (.inl rfl))
  | checkpointTerminalHistory shellId runId history last hl =>
      -- The history of a Shell is apart from its runs.
      refine h.quiet rfl (.refl _) rfl rfl rfl ?_
      exact modifyShell_sameRuns _ _ _ (fun _ _ => rfl) fun _ => rfl
  | restartShell shellId hh hl =>
      refine h.quiet rfl (.refl _) rfl rfl rfl ?_
      refine modifyShell_sameRuns _ _ _ (fun shell hget => ?_) fun _ => rfl
      obtain ⟨code, profile, run, runtime, hl⟩ := hl
      rw [hget, Option.map_some] at hl
      simp [Shell.running?, Option.some.inj hl]

/-! ## Runs -/

/-- No `OutputChanged` event of the log follows the end of its run. -/
def World.LogOrdered (w : World R) : Prop := Ordered w.events.kinds

/-- A daemon that has taken over its state with readers and a log that fit the registry: the log
is ordered, no event of it ends a Shell or a Workspace of the registry or a run that is read, and
every reader reads the run of its Shell. A cold start has neither readers nor a log. -/
structure World.Consistent (w : World R) : Prop extends World.Loaded w where
  ordered : w.LogOrdered
  live : Live w.readers w.events.kinds
  opened : Open w.durable.state w.events.kinds
  agree : Agree w.readers w.durable.state

theorem World.Loaded.consistent (h : w.Loaded) (hlog : w.log = []) (hr : w.readers = []) :
    w.Consistent := by
  have hkinds : w.events.kinds = [] := List.map_eq_nil_iff.mpr hlog
  refine ⟨h, ?_, ?_, ?_, ?_⟩
  · rw [World.LogOrdered, hkinds]
    exact .nil
  · rw [hr]
    exact nofun
  · rw [hkinds]
    exact ⟨nofun, nofun⟩
  · rw [hr]
    exact ⟨.nil, nofun, nofun⟩

theorem World.Consistent.calm (h : w.Consistent) : w.Calm := by
  have hK : w.frontier = w.events.kinds := by
    rw [frontier_eq_line h.flush (by rw [h.holder]; rfl), EventTransaction.line]
    simp [EventTransaction.pending, EventTransaction.runtimeQueue, h.transition,
      TransitionState.idle]
  refine ⟨⟨fun hu => ?_, ?_, ?_, ?_, h.agree⟩, ?_⟩
  · rw [h.flush, h.holder] at hu
    simp [Holder.closed] at hu
  · rw [hK]
    exact h.ordered
  · rw [hK]
    exact h.live
  · rw [hK]
    exact h.opened
  · rw [World.HolderCalm, h.holder]
    trivial

theorem World.Outputs.logOrdered (h : w.Outputs) : w.LogOrdered := by
  have := h.ordered
  rw [World.frontier_eq, List.append_assoc] at this
  exact (List.pairwise_append.mp this).1

/-- A commit of a lifecycle transaction publishes its events and then the queue. -/
theorem closed_kinds (x : EventTransaction) (batch : Batch) (hp : x.pending = []) :
    ((x.appendBatch batch).releaseLifecycleReservation.finishPersistence).kinds =
      x.kinds ++ batch.kinds ++ x.runtimeQueue := by
  set y := (x.appendBatch batch).releaseLifecycleReservation with hy
  have hpending : y.pending = [] := by simpa [hy] using hp
  have hreserved : y.transition.lifecycleEventReservation = 0 := by
    rw [hy, EventTransaction.releaseLifecycleReservation, EventTransaction.publishPendingRuntime]
    split <;> rfl
  have hqueue : y.finishPersistence.runtimeQueue = [] := by
    rw [EventTransaction.finishPersistence, EventTransaction.publishPendingRuntime, if_neg]
    simp [TransitionState.publicationBlocked, hreserved]
    exact hpending
  have hline := y.finishPersistence_line
  rw [EventTransaction.line, hqueue, y.finishPersistence_pending, hpending, hy,
    EventTransaction.releaseLifecycleReservation_line, EventTransaction.line] at hline
  simpa [hp] using hline

/-- A step of an ordered daemon leaves an ordered log exactly if it closes quietly. -/
theorem World.Calm.step_iff (hl : w.Ledger) (h : w.Calm) {a : Action R}
    (hs : w.step a = some u) : u.LogOrdered ↔ w.ClosesQuietly a := by
  refine ⟨fun hu => ?_, fun hq => (h.step hl hs hq).logOrdered⟩
  unfold World.ClosesQuietly
  split
  next call rollbacks undo batch saved hh =>
    have hp := (hl.windowOk hh).quiet nofun
    simp only [World.step, hh, Option.map_some, Option.some.injEq] at hs
    have hkinds : u.events.kinds = w.events.kinds ++ batch.kinds ++ w.events.runtimeQueue := by
      rw [← hs]
      exact closed_kinds w.events batch hp
    rw [World.LogOrdered, hkinds] at hu
    intro event he out hout
    exact (List.pairwise_append.mp hu).2.2 event (List.mem_append_right _ he) out hout
  next => trivial

/-- For every run of the daemon, from any state that it may start with: no `OutputChanged` of a
run follows its `RunExited`, its Shell's `ShellClosed` or its Workspace's `WorkspaceClosed` in any
state of the run, if and only if no lifecycle transaction of the run commits while output of what
it closes is queued. -/
theorem logOrdered_iff {w₀ : World R} (h : w₀.Consistent) (as : List (Action R)) :
    Along World.step World.LogOrdered w₀ as ↔ Meets World.step World.ClosesQuietly w₀ as :=
  along_iff_meets (I := fun w : World R => w.Ledger ∧ w.Calm)
    (fun _ _ _ hw _ hu hs =>
      ⟨hw.1.step hs, hw.2.step hw.1 hs ((hw.2.step_iff hw.1 hs).mp hu)⟩)
    (fun _ _ _ hw _ hs => hw.2.step_iff hw.1 hs) ⟨h.toLoaded.ledger, h.calm⟩ h.ordered

/-! ### A close -/

/-- A daemon that has been restarted gracefully, with one running Shell. -/
def runningWorld : World Nat :=
  { emptyWorld with
    durable := { emptyWorld.durable with
      state :=
        { workspaces := ["w"]
          shells := AList.singleton "s"
            ⟨"w", none, .running ⟨none, none, none, none, 24, 80, 0, 0⟩ ⟨"r", 1, none, 0⟩⟩
          rest := 0 } }
    readers := [⟨"s", "w", "r", 0, none, .reading⟩] }

theorem runningWorld_consistent : runningWorld.Consistent where
  transition := rfl
  contiguous := ⟨le_rfl, rfl⟩
  log := nofun
  lifecycleActive := rfl
  holder := rfl
  flush := rfl
  next := rfl
  edits := rfl
  begun := rfl
  published := rfl
  saves := rfl
  rolledBack := rfl
  lost := rfl
  ordered := .nil
  live := fun _ _ _ => nofun
  opened := ⟨fun _ _ _ => nofun, fun _ _ => nofun⟩
  agree := by
    refine ⟨by decide, fun r hr _ => ?_, fun id ws runId hrun r hr _ => ?_⟩
    · rw [List.mem_singleton.mp hr]
      rfl
    · rw [List.mem_singleton.mp hr]
      by_contra hne
      have hget : runningWorld.durable.state.shells.get id = none := by
        refine AList.lookup_eq_none.mpr fun hmem => hne ?_
        simpa [runningWorld, AList.mem_keys, eq_comm] using hmem
      rw [runOf_of_get_none hget] at hrun
      cases hrun

/-- Closing the Shell. -/
def closeShellRun : List (Action Nat) :=
  [.lifecycleBegin (.closeShell "s" id), .stopShell .stopped, .flushBegin true true,
    .lifecycleApply none, .write true, .finish]

/-- Output that has been published before the close comes before it. -/
theorem logOrdered_iff_publishedRun :
    Along World.step World.LogOrdered runningWorld
      (.readOutput 0 :: .publishOutput 0 :: closeShellRun) :=
  (logOrdered_iff runningWorld_consistent _).mpr <|
    .cons rfl trivial <| .cons rfl trivial <| .cons rfl trivial <| .cons rfl trivial <|
    .cons rfl trivial <| .cons rfl trivial <| .cons rfl trivial <|
    .cons rfl (fun _ _ _ h => nomatch h) trivial

/-- The reader's last output is published when `stop_runtime` pauses it; that is inside the
lifecycle reservation, so it is queued, and released behind `ShellClosed`. -/
theorem not_logOrdered_closeShellRun :
    ∃ w, exec World.step runningWorld (.readOutput 0 :: closeShellRun) = some w ∧
      w.events.kinds = [.shellClosed (some "w") "s", .outputChanged "w" "s" "r" 1] ∧
      ¬ w.LogOrdered ∧
      ¬ Along World.step World.LogOrdered runningWorld (.readOutput 0 :: closeShellRun) := by
  have hrun : exec World.step runningWorld (.readOutput 0 :: closeShellRun) = some _ := rfl
  have hnot : ¬ Ordered [.shellClosed (some "w") "s", .outputChanged "w" "s" "r" 1] := by
    unfold Ordered
    decide
  exact ⟨_, hrun, rfl, hnot, fun h => hnot (h.last hrun)⟩

end Boomux.Daemon
