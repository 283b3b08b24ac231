import Boomux.Daemon.OutputOrder

/-!
# The paths keep the output order

One lemma for each path of the machine, as for the ledger. All of them keep `World.Calm`; only the
commit of a lifecycle transaction needs to be told that no queued output is of a run that it ends.
-/

set_option autoImplicit false

namespace Boomux.Daemon

open Rust Transition

variable {R : Type} {w u : World R}

/-! ## Readers -/

theorem publishRuntimeBatch_inFlight (x : EventTransaction) (kinds : List DaemonEventKind) :
    (x.publishRuntimeBatch kinds).2.transition.persistenceInFlight =
      x.transition.persistenceInFlight := by
  have hfold : ∀ t : TransitionState, (kinds.foldl .queueRuntimeEvent t).persistenceInFlight =
      t.persistenceInFlight := by
    induction kinds with
    | nil => exact fun _ => rfl
    | cons kind kinds ih => exact fun t => ih (t.queueRuntimeEvent kind)
  unfold EventTransaction.publishRuntimeBatch
  split
  · rfl
  · split
    · exact hfold _
    · rfl

/-- A step that concerns only the readers and what they publish. -/
structure ReaderStep (w u : World R) : Prop where
  frontier : Extends w.frontier u.frontier
  readers : Calmer w.readers u.readers
  durable : u.durable = w.durable
  holder : u.holder = w.holder
  flush : u.flush = w.flush
  inFlight : u.events.transition.persistenceInFlight = w.events.transition.persistenceInFlight

theorem ReaderStep.refl (w : World R) : ReaderStep w w :=
  ⟨.refl _, .refl _, rfl, rfl, rfl, rfl⟩

theorem ReaderStep.trans {v : World R} (h : ReaderStep w u) (h' : ReaderStep u v) :
    ReaderStep w v :=
  ⟨h.frontier.trans h'.frontier, h.readers.trans h'.readers, h'.durable.trans h.durable,
    h'.holder.trans h.holder, h'.flush.trans h.flush, h'.inFlight.trans h.inFlight⟩

theorem ReaderStep.ofReaders {readers : List Reader} (h : Calmer w.readers readers) :
    ReaderStep w { w with readers := readers } :=
  ⟨.refl _, h, rfl, rfl, rfl, rfl⟩

theorem ReaderStep.outputs (h : ReaderStep w u) (hw : w.Outputs) : u.Outputs := by
  refine hw.same (fun hu => ?_) h.frontier h.readers.followed ?_
  · rw [h.flush, h.holder] at hu
    rw [h.inFlight]
    exact hw.inFlight hu
  · rw [h.durable]
    exact .refl _

theorem ReaderStep.calm (h : ReaderStep w u) (hw : w.Calm) : u.Calm where
  toOutputs := h.outputs hw.toOutputs
  holder := by
    refine hw.holder.keep h.holder h.readers ?_ h.frontier.old
    rw [h.durable]
    exact .refl _

/-- A live reader publishes its revision. -/
theorem readerStep_publish (hw : w.Outputs) {reader : Reader} (hr : reader ∈ w.readers)
    (hl : reader.live = true) (revision : Nat) {result : Except IoError Unit}
    {events : EventTransaction}
    (hp : w.events.publishRuntimeBatch [reader.outputChanged revision] = (result, events))
    {readers : List Reader} (hc : Calmer w.readers readers) :
    ReaderStep w { w with events := events, readers := readers } where
  frontier := by
    refine publishRuntimeBatch_frontier [reader.outputChanged revision]
      (fun e he => ?_) (fun e he f hf => ?_) (by rw [hp]) rfl rfl
    · rw [List.mem_singleton.mp he]
      exact endless_outputChanged reader.workspaceId reader.shellId reader.runId revision
    · rw [List.mem_singleton.mp he]
      exact hw.live reader hr (by simp [Reader.active, hl]) f hf
  readers := hc
  durable := rfl
  holder := rfl
  flush := rfl
  inFlight := by
    have := publishRuntimeBatch_inFlight w.events [reader.outputChanged revision]
    rwa [hp] at this

theorem readerStep_publishFrom (hw : w.Outputs) {index : Nat} {reader : Reader}
    {ok failed : Reader → Reader} (hr : w.readers[index]? = some reader)
    (hl : reader.live = true) (hok : Calms reader (ok reader))
    (hok' : Calms reader (ok { reader with pending := none }))
    (hfailed : Calms reader (failed reader)) (hu : w.publishFrom index ok failed = some u) :
    ReaderStep w u := by
  have hmem : reader ∈ w.readers := List.mem_of_getElem? hr
  have hcalm : ∀ f : Reader → Reader, Calms reader (f reader) →
      Calmer w.readers (w.readers.modify index f) := fun f hf =>
    .modify index fun r hget => by
      rw [hr] at hget
      cases hget
      exact hf
  unfold World.publishFrom at hu
  rw [hr] at hu
  cases hu
  dsimp only
  split
  · exact .ofReaders (hcalm ok hok)
  next revision hpending =>
    split
    next events hp => exact readerStep_publish hw hmem hl revision hp (hcalm _ hok')
    next => exact .ofReaders (hcalm failed hfailed)

/-- Two readers with one run are one. -/
theorem eq_of_runId {readers : List Reader} (hn : (readers.map (·.runId)).Nodup) {r r' : Reader}
    (hr : r ∈ readers) (hr' : r' ∈ readers) (h : r.runId = r'.runId) : r = r' :=
  List.inj_on_of_nodup_map hn hr hr' h

/-- `pause_reader` leaves a reader that is not past its loop, unless it fails. -/
theorem pauseReader_step (hw : w.Outputs) (runId : String) :
    ReaderStep w (w.pauseReader runId).2 ∧ ((w.pauseReader runId).1 = true →
      ∀ r ∈ (w.pauseReader runId).2.readers, r.runId = runId → r.phase ≠ .draining) := by
  have hnodup := hw.agree.nodup
  unfold World.pauseReader
  split
  next hnone =>
    refine ⟨.refl w, fun _ r hr hid => ?_⟩
    have := List.findIdx?_eq_none_iff.mp hnone r hr
    simp [hid] at this
  next index hi =>
    obtain ⟨hlt, hid, -⟩ := List.findIdx?_eq_some_iff_getElem.mp hi
    split
    next hnone => simp [List.getElem?_eq_getElem hlt] at hnone
    next reader hr =>
      have hmem : reader ∈ w.readers := List.mem_of_getElem? hr
      have hrun : reader.runId = runId := by
        rw [List.getElem?_eq_getElem hlt] at hr
        cases hr
        simpa using hid
      -- the reader is the only one of its run
      have honly : ∀ r ∈ w.readers, r.runId = runId → r.phase = reader.phase := by
        intro r hr' hr'id
        rw [eq_of_runId hnodup hr' hmem (hr'id.trans hrun.symm)]
      split
      · exact ⟨.refl w, by simp⟩
      next hphase =>
        split
        next => exact ⟨.refl w, fun _ r hr' hr'id => by rw [honly r hr' hr'id, hphase]; simp⟩
        next revision hp =>
          have hlive : reader.live = true := by simp [Reader.live, hphase]
          split
          next events hpub =>
            have hcalm : Calmer w.readers (w.readers.modify index ({ · with pending := none })) :=
              .modify index fun r _ => .of_pending r r.revision none
            refine ⟨readerStep_publish hw hmem hlive revision hpub hcalm, fun _ r' hr' hr'id => ?_⟩
            obtain ⟨i, hget⟩ := List.getElem?_of_mem hr'
            rw [List.getElem?_modify] at hget
            obtain ⟨r, hget, heq⟩ := Option.map_eq_some_iff.mp hget
            have hsame : r'.phase = r.phase ∧ r'.runId = r.runId := by
              rw [← heq]
              split <;> exact ⟨rfl, rfl⟩
            rw [hsame.1, honly r (List.mem_of_getElem? hget) (hsame.2 ▸ hr'id), hphase]
            simp
          next =>
            refine ⟨?_, by simp⟩
            exact .ofReaders (setPhase_calmer w runId)
      next hdraining hreading =>
        exact ⟨.refl w, fun _ r hr' hr'id => by rw [honly r hr' hr'id]; exact hdraining⟩

/-- A stop that ended the process, with or without an error, leaves no reader that can publish. -/
theorem stopRun_step (hw : w.Outputs) (runId : String) (outcome : StopOutcome) :
    ReaderStep w (w.stopRun runId outcome).2 ∧
      ((w.stopRun runId outcome).1 ≠ .error false →
        ∀ r ∈ (w.stopRun runId outcome).2.readers, r.runId = runId → r.active = false) := by
  obtain ⟨hstep, hphase⟩ := pauseReader_step hw runId
  -- what stopping the paused reader leaves
  have hstop : ∀ v : World R, (∀ r ∈ v.readers, r.runId = runId → r.phase ≠ .draining) →
      ∀ r ∈ (v.setPhase runId ReaderPhase.stop).readers, r.runId = runId → r.active = false := by
    intro v hv r' hr' hid
    obtain ⟨r, hr, rfl⟩ := List.mem_map.mp hr'
    split at hid
    next hrun =>
      rw [if_pos hrun]
      have hdraining := hv r hr hrun
      cases hp : r.phase <;> simp_all [Reader.active, Reader.live, ReaderPhase.stop]
    next hrun => exact absurd hid hrun
  unfold World.stopRun
  split
  · exact ⟨.refl w, fun h => absurd rfl h⟩
  · split
    next v hp =>
      rw [hp] at hstep
      exact ⟨hstep, fun h => absurd rfl h⟩
    next v hp =>
      rw [hp] at hstep hphase
      split
      · exact ⟨hstep.trans (.ofReaders (setPhase_calmer v runId)), fun _ => hstop v (hphase rfl)⟩
      · exact ⟨hstep.trans (.ofReaders (setPhase_calmer v runId)), fun _ => hstop v (hphase rfl)⟩
      · exact ⟨hstep, fun h => absurd rfl h⟩

/-- After a stop that ended the process, the Shell is idle. -/
theorem stopRuntime_step (hw : w.Outputs) (id : String) (outcome : StopOutcome) :
    ReaderStep w (w.stopRuntime id outcome).2 ∧
      ((w.stopRuntime id outcome).1 ≠ .error false →
        Idle (w.stopRuntime id outcome).2.readers id) := by
  -- an active reader of the Shell reads the run of the Shell
  have hrun : ∀ v : World R, Calmer w.readers v.readers → ∀ r ∈ v.readers, r.active = true →
      r.shellId = id → ∃ workspaceId, w.durable.state.shells.runOf id = some (workspaceId,
        r.runId) := by
    intro v hv r' hr' ha hid
    obtain ⟨r, hr, hc⟩ := hv.exists_of_mem hr'
    refine ⟨r.workspaceId, ?_⟩
    rw [hc.runId, ← hid, hc.shellId]
    exact hw.agree.running r hr (hc.active ha)
  have hidle : (∀ run, (w.durable.state.shells.get id).bind Shell.running? ≠ some run) →
      Idle w.readers id := by
    intro hnone r hr ha hid
    obtain ⟨workspaceId, hrunOf⟩ := hrun w (.refl _) r hr ha hid
    obtain ⟨shell, run, ⟨hget, hrunning⟩, -⟩ := runOf_eq_some.mp hrunOf
    exact hnone run (by rw [hget]; exact hrunning)
  unfold World.stopRuntime
  split
  next profile run hl =>
    obtain ⟨hstep, hstopped⟩ := stopRun_step hw run.id outcome
    refine ⟨hstep, fun hne r hr ha hid => ?_⟩
    obtain ⟨workspaceId, hrunOf⟩ := hrun _ hstep.readers r hr ha hid
    obtain ⟨shell, run', ⟨hget, hrunning⟩, -, hrunId⟩ := runOf_eq_some.mp hrunOf
    obtain ⟨shell', hget', hlife⟩ := Option.map_eq_some_iff.mp hl
    rw [hget] at hget'
    cases hget'
    have : run' = run := by simpa [Shell.running?, hlife] using hrunning.symm
    rw [hstopped hne r hr (by rw [← hrunId, this])] at ha
    cases ha
  next code profile run hl =>
    obtain ⟨hstep, -⟩ := stopRun_step hw run.id outcome
    refine ⟨hstep, fun _ => Idle.follow (hidle fun run' hr => ?_) hstep.readers.followed⟩
    obtain ⟨shell, hget, hlife⟩ := Option.map_eq_some_iff.mp hl
    simp [hget, Shell.running?, hlife] at hr
  next hrunning _ =>
    refine ⟨.refl w, fun _ => hidle fun run hr => ?_⟩
    obtain ⟨shell, hget, hr⟩ := Option.bind_eq_some_iff.mp hr
    unfold Shell.running? at hr
    split at hr
    next profile run' hlife => exact hrunning profile run' (by rw [hget, Option.map_some, hlife])
    next => cases hr

/-! ## Flushes -/

theorem Holder.closed_exitBatch {holder : Holder R} (h : holder.closed = true) :
    holder.exitBatch = [] := by
  cases holder with
  | window win => cases h
  | _ => rfl

theorem flushing_of_none (h : w.flush = none) : w.flushing = [] := by
  rw [World.flushing, h]

theorem flushing_of_some {flush : Flush R} (h : w.flush = some flush) :
    w.flushing = flush.pending := by
  rw [World.flushing, h]

/-- While no window is open, only the flush and the pending batches stand before the queue. -/
theorem frontier_of_closed (h : w.holder.closed = true) :
    w.frontier = w.events.kinds ++ (w.flushing ++ w.events.pending).flatMap (·.kinds) ++
      w.events.runtimeQueue := by
  rw [World.frontier_eq, World.between, Holder.closed_exitBatch h, List.append_nil]

/-- Two worlds without a window that agree on the events have the same frontier. -/
theorem frontier_congr (he : u.events = w.events) (hf : u.flush = w.flush)
    (hw : w.holder.closed = true) (hu : u.holder.closed = true) : u.frontier = w.frontier := by
  rw [frontier_of_closed hw, frontier_of_closed hu, he, World.flushing, hf, World.flushing]

@[simp] theorem publishPendingRuntime_inFlight (x : EventTransaction) :
    x.publishPendingRuntime.transition.persistenceInFlight = x.transition.persistenceInFlight := by
  unfold EventTransaction.publishPendingRuntime
  split <;> rfl

theorem World.Outputs.flushReturned (h : w.Outputs) (hc : w.holder.closed = true)
    (byHolder ok : Bool) : (w.flushReturned byHolder ok).Outputs := by
  unfold World.flushReturned
  split
  next hh =>
    have hu : (if ok then Holder.flushed else .free : Holder R).closed = true := by
      cases ok <;> rfl
    refine h.same (fun hu' => h.inFlight (hu'.imp_right fun hn => ?_))
      (.of_eq (frontier_congr (by rfl) (by rfl) hc hu)) (Calmer.refl _).followed (.refl _)
    rw [show _ = true from hu] at hn
    cases hn
  next call shells remaining stopped hh =>
    have hu : (if ok then Holder.finalizing call shells else .compensating call stopped :
        Holder R).closed = true := by
      cases ok <;> rfl
    refine h.same (fun hu' => h.inFlight (hu'.imp_right fun hn => ?_))
      (.of_eq (frontier_congr (by rfl) (by rfl) hc hu)) (Calmer.refl _).followed (.refl _)
    rw [show _ = true from hu] at hn
    cases hn
  · exact h

theorem World.HolderCalm.flushReturned (h : w.HolderCalm) {byHolder : Bool}
    (hm : byHolder = true → w.mayFlush = true) (ok : Bool) :
    (w.flushReturned byHolder ok).HolderCalm := by
  unfold World.flushReturned
  split
  next hh => cases ok <;> trivial
  next call shells remaining stopped hh =>
    have hm := hm rfl
    rw [World.mayFlush, hh] at hm
    rw [World.HolderCalm, hh] at h
    obtain ⟨hcovers, hremaining, hstopped⟩ := h
    cases remaining with
    | nil =>
        cases ok with
        | true => exact ⟨hcovers, fun id hid => (hremaining id hid).resolve_left (List.not_mem_nil)⟩
        | false => exact hstopped
    | cons id remaining => cases hm
  · exact h

theorem World.Calm.flushBegin (h : w.Calm) (hfree : w.persistFree = true) {byHolder : Bool}
    (hm : byHolder = true → w.mayFlush = true) (captured : Bool) :
    (w.flushBegin byHolder captured).Calm := by
  obtain ⟨hf, hc⟩ := persistFree_iff.mp hfree
  have hreturned : ∀ ok, (w.flushReturned byHolder ok).Calm := fun ok =>
    ⟨h.toOutputs.flushReturned hc byHolder ok, h.holder.flushReturned hm ok⟩
  unfold World.flushBegin
  dsimp only
  split
  · exact hreturned true
  · split
    · -- the pending batches move into the flush
      have hfrontier : World.frontier { w with
          events := w.events.takePendingDurable.beginPersistence w.events.pendingDurableEventCount
          flush := some ⟨byHolder, w.events.pending, w.durable.capturePersistedState, none⟩ } =
            w.frontier := by
        rw [frontier_of_closed hc, frontier_of_closed (by exact hc), flushing_of_none hf]
        show _ ++ (w.events.pending ++ []).flatMap Batch.kinds ++ _ = _
        rw [List.append_nil]
        rfl
      have hK := Extends.of_eq hfrontier
      exact ⟨h.toOutputs.same (fun _ => rfl) hK (Calmer.refl _).followed (.refl _),
        h.holder.keep rfl (.refl _) (.refl _) hK.old⟩
    · exact hreturned false

theorem World.Calm.flushFinish (hl : w.Ledger) (h : w.Calm) {flush : Flush R}
    (hf : w.flush = some flush) (written : Bool) : (w.flushFinish flush written).Calm := by
  have hc := hl.closed_of_flush hf
  have hm := fun hb => ((hl.flush flush hf).holder hb).1
  have hfrontier := frontier_of_closed hc
  rw [flushing_of_some hf] at hfrontier
  -- from a world without the flush that has the frontier, or a part of it
  have hreturned : ∀ (u : World R) (ok : Bool), u.flush = none → u.holder = w.holder →
      u.readers = w.readers → u.durable = w.durable → Extends w.frontier u.frontier →
        (u.flushReturned flush.byHolder ok).Calm := by
    intro u ok hflush hholder hreaders hdurable hK
    have hr : Calmer w.readers u.readers := by
      rw [hreaders]
      exact .refl _
    have hd : SameRuns w.durable.state u.durable.state := by
      rw [hdurable]
      exact .refl _
    have hcu : u.holder.closed = true := by rw [hholder, hc]
    have houtputs : u.Outputs := by
      refine h.toOutputs.same (fun hu => ?_) hK hr.followed hd
      rw [hflush, hcu] at hu
      rcases hu with hu | hu
      · exact absurd rfl hu
      · cases hu
    have hmay : flush.byHolder = true → u.mayFlush = true := fun hb => by
      rw [World.mayFlush, hholder]
      exact hm hb
    exact ⟨houtputs.flushReturned hcu _ ok,
      (h.holder.keep hholder hr hd hK.old).flushReturned hmay ok⟩
  -- what `finish_persistence` releases comes last
  have hfinish : ∀ x : EventTransaction,
      x.kinds ++ x.pending.flatMap (·.kinds) ++ x.runtimeQueue = w.frontier →
        World.frontier { w with flush := none, events := x.finishPersistence } = w.frontier := by
    intro x hx
    rw [← hx]
    refine (publishPendingRuntime_frontier { w with flush := none, events := { x with
      transition := { x.transition with persistenceInFlight := false, inFlightEventCount := 0 } } }
      (.inr ⟨rfl, Holder.closed_exitBatch hc⟩)).trans ?_
    exact frontier_of_closed (by exact hc)
  unfold World.flushFinish
  dsimp only
  split
  · split
    · refine hreturned _ false rfl rfl rfl rfl (.sublist ?_)
      rw [frontier_of_closed (by exact hc), hfrontier]
      refine List.Sublist.append_right (List.Sublist.append_left ?_ _) _
      simp [World.flushing]
    · refine hreturned _ true rfl rfl rfl rfl (.of_eq (hfinish _ ?_))
      rw [hfrontier]
      simp [EventTransaction.runtimeQueue, (w.events.foldl_appendBatch _).1]
  · refine hreturned _ false rfl rfl rfl rfl (.of_eq (hfinish _ ?_))
    rw [hfrontier, EventTransaction.restorePendingDurable_pending]
    rfl

/-! ## Run exits -/

/-- Two worlds that agree on the events and on what waits have the same frontier. -/
theorem frontier_same (hk : u.events.kinds = w.events.kinds)
    (hq : u.events.runtimeQueue = w.events.runtimeQueue) (hp : u.events.pending = w.events.pending)
    (hf : u.flush = w.flush) (hx : u.holder.exitBatch = w.holder.exitBatch) :
    u.frontier = w.frontier := by
  rw [World.frontier_eq, World.frontier_eq, World.between, World.between, hk, hq, hp, hx,
    World.flushing, hf, World.flushing]

theorem World.Calm.exitRecord (h : w.Calm) {index : Nat} (hh : w.holder = .exiting index)
    (hfree : w.persistFree = true) (code : Option Nat) (captured : Bool) :
    (w.exitRecord index code captured).Calm := by
  obtain ⟨hf, hc⟩ := persistFree_iff.mp hfree
  have hinactive := h.holder
  rw [World.HolderCalm, hh] at hinactive
  have hreturned : ∀ readers, Calmer w.readers readers →
      World.Calm { w with holder := .free, readers := readers } := fun readers hr =>
    ⟨h.toOutputs.same (fun hu => by simp [hf, Holder.closed] at hu)
      (.of_eq (frontier_congr rfl rfl hc rfl)) hr.followed (.refl _), trivial⟩
  have hfrontier := frontier_of_closed hc
  rw [flushing_of_none hf, List.nil_append] at hfrontier
  unfold World.exitRecord
  dsimp only
  split
  · exact hreturned _ (.refl _)
  next reader hr =>
    split
    · split
      · exact hreturned _ (.refl _)
      · refine hreturned _ (.modify index fun r hget => ?_)
        exact .of_phase r (.inr (.inl rfl))
    · split
      · exact hreturned _ (.refl _)
      next shell event hfinal =>
        have hrecorded := recordExit_eq hfinal
        obtain ⟨before, hget, hfinal⟩ := Option.bind_eq_some_iff.mp hfinal
        obtain ⟨run, hrun, hid, hevent, hws, hstopped⟩ := finalizeRunExit_eq_some hfinal
        have hexit : IsExit w.durable.state.shells reader.shellId event :=
          hevent ▸ .of_running hget hrun (run.finish_id _)
        -- the Shell runs the run of the reader that has ended
        have hidle : Idle w.readers reader.shellId := by
          intro r hmem ha hshell
          obtain ⟨before', run', ⟨hget', hrun'⟩, -, hid'⟩ :=
            runOf_eq_some.mp (h.agree.running r hmem ha)
          rw [hshell, hget] at hget'
          cases hget'
          rw [hrun] at hrun'
          cases hrun'
          have hsame := eq_of_runId h.agree.nodup hmem (List.mem_of_getElem? hr)
            (hid'.symm.trans hid)
          rw [hsame, hinactive reader hr] at ha
          cases ha
        have hexits := h.agree.exits hidle hexit
        have hruns : ∀ id, Shells.runOf (w.durable.state.shells.insert reader.shellId shell) id =
            w.durable.state.shells.runOf id ∨
              (Shells.runOf (w.durable.state.shells.insert reader.shellId shell) id = none ∧
                Idle w.readers id) := by
          intro id
          rw [runOf_insert_stopped _ _ hstopped]
          split
          next heq => exact .inr ⟨rfl, heq ▸ hidle⟩
          next => exact .inl rfl
        have hopen : Open { w.durable.state with
            shells := w.durable.state.shells.insert reader.shellId shell } w.frontier :=
          h.opened.le (fun id ws hid => by rwa [workspaceOf_insert_same hget hws] at hid)
            fun _ hw => hw
        split
        · -- the queue and the exit come last, as they were
          have hcalm : ∀ v : World R, v.events.kinds = w.events.kinds → v.flush = w.flush →
              v.events.pending = w.events.pending → v.holder.exitBatch =
                [⟨w.next, w.events.transition.pendingRuntimeEvents ++ [event]⟩] →
              v.events.runtimeQueue = [] → v.events.transition.persistenceInFlight = true →
              v.readers = w.readers → v.durable.state = { w.durable.state with
                shells := w.durable.state.shells.insert reader.shellId shell } → v.Outputs := by
            intro v hk hvf hp hx hq hflight hreaders hstate
            have hK : v.frontier = w.frontier ++ [event] := by
              rw [World.frontier_eq, World.between, hk, flushing_of_none (hvf.trans hf), hp, hx, hq,
                hfrontier]
              simp
            refine h.toOutputs.of (fun _ => hflight) ?_ ?_ ?_ ?_ ?_
            · rw [hK]
              exact h.ordered.append fun e he => by
                rw [List.mem_singleton.mp he]
                exact hexit.isOutput
            · rw [hK]
              intro e he
              rcases List.mem_append.mp he with he | he
              · exact .inl he
              · rw [List.mem_singleton.mp he]
                exact .inr (.inr hexits)
            · rw [hreaders]
              exact (Calmer.refl _).followed
            · rw [hstate, hreaders]
              exact hruns
            · rw [hstate]
              exact hopen
          exact ⟨hcalm _ rfl rfl rfl rfl rfl rfl rfl hrecorded, trivial⟩
        · -- the capture failed: the queue is lost with the exit
          have hcalm : ∀ v : World R, v.events.kinds = w.events.kinds → v.flush = w.flush →
              v.events.pending = w.events.pending → v.holder = .free →
              v.events.runtimeQueue = [] → v.readers = w.readers →
              v.durable.state = { w.durable.state with
                shells := w.durable.state.shells.insert reader.shellId shell } → v.Outputs := by
            intro v hk hvf hp hx hq hreaders hstate
            have hK : v.frontier.Sublist w.frontier := by
              rw [frontier_of_closed (by rw [hx]; rfl), hk, flushing_of_none (hvf.trans hf), hp, hq,
                hfrontier]
              exact List.Sublist.append_left (List.nil_sublist _) _
            refine h.toOutputs.of (fun hu => ?_) (List.Pairwise.sublist hK h.ordered)
              (fun e he => .inl (hK.subset he)) ?_ ?_ ?_
            · rw [hvf, hf, hx] at hu
              simp [Holder.closed] at hu
            · rw [hreaders]
              exact (Calmer.refl _).followed
            · rw [hstate, hreaders]
              exact hruns
            · rw [hstate]
              exact hopen
          exact ⟨hcalm _ rfl rfl rfl rfl rfl rfl hrecorded, trivial⟩

/-! ## Durable mutations -/

/-- The ids that an operation makes up are new. -/
structure Fresh (w : World R) (op : Operation R) : Prop where
  nodup : ((op.run w.durable.state).started.map (·.runId)).Nodup
  readers : ∀ s ∈ (op.run w.durable.state).started, ∀ r ∈ w.readers, r.runId ≠ s.runId
  running : ∀ s ∈ (op.run w.durable.state).started, ∀ id shell run,
    w.durable.state.Runs id shell run → run.id ≠ s.runId
  runs : ∀ s ∈ (op.run w.durable.state).started, ∀ e ∈ w.frontier, e.endsRun s.runId = false
  shells : ∀ id shell, (op.run w.durable.state).state.shells.get id = some shell →
    w.durable.state.shells.get id = none → ∀ e ∈ w.frontier, e.endsShell id = false
  workspaces : ∀ id ∈ (op.run w.durable.state).state.workspaces, id ∈ w.durable.state.workspaces ∨
    ∀ e ∈ w.frontier, e.endsWorkspace id = false

theorem mem_keys_of_get {m : Shells} {id : String} {shell : Shell} (h : m.get id = some shell) :
    id ∈ m.keys :=
  AList.mem_keys.mp (AList.lookup_isSome.mp (by
    show (Shells.get m id).isSome = true
    rw [h]
    rfl))

theorem Fresh.of_fresh {op : Operation R} (h : w.fresh op = true) : Fresh w op := by
  simp only [World.fresh, Bool.and_eq_true, decide_eq_true_eq, List.all_eq_true, List.mem_map,
    forall_exists_index, and_imp, forall_apply_eq_imp_iff₂, Bool.or_eq_true,
    Bool.not_eq_true'] at h
  obtain ⟨⟨⟨hnodup, hstarted⟩, hshells⟩, hworkspaces⟩ := h
  have hhistory : ∀ e ∈ w.frontier, e ∈ w.history := fun e he => List.mem_append_left _ he
  refine ⟨hnodup, fun s hs r hr => (hstarted s hs).1.1 r hr, fun s hs id shell run hruns => ?_,
    fun s hs e he => (hstarted s hs).2 e (hhistory e he), fun id shell hget hnone e he => ?_,
    fun id hid => (hworkspaces id hid).imp_right fun hall e he => hall e (hhistory e he)⟩
  · have hkey := (hstarted s hs).1.2 id (mem_keys_of_get hruns.1)
    rw [hruns.1, Option.all_some, hruns.2, Option.all_some] at hkey
    simpa using hkey
  · rcases hshells id (mem_keys_of_get hget) with hsome | hall
    · rw [hnone] at hsome
      cases hsome
    · exact hall e (hhistory e he)

/-- An undo log that creates no run creates none. -/
theorem rollback_undone {undo : List (Durable R → Durable R)}
    (h : ∀ f ∈ undo, ∀ (d : Durable R) id shell run, (f d).Runs id shell run → d.Runs id shell run)
    {d : Durable R} {id : String} {shell : Shell} {run : ShellRun}
    (hr : (rollback undo d).Runs id shell run) : d.Runs id shell run := by
  unfold rollback at hr
  have hrev : ∀ f ∈ undo.reverse, ∀ (d : Durable R) id shell run,
      (f d).Runs id shell run → d.Runs id shell run := fun f hf => h f (List.mem_reverse.mp hf)
  generalize undo.reverse = fs at hr hrev
  induction fs generalizing d with
  | nil => exact hr
  | cons f fs ih =>
      exact hrev f (List.mem_cons_self ..) d id shell run
        (ih hr fun g hg => hrev g (List.mem_cons_of_mem _ hg))

/-- An undo log whose parts spare a run spares it. -/
theorem rollback_spared (undo : List (Durable R → Durable R)) {id : String} {shell : Shell}
    {run : ShellRun}
    (h : ∀ f ∈ undo, ∀ d : Durable R, d.Runs id shell run → (f d).Runs id shell run)
    {d : Durable R} (hr : d.Runs id shell run) : (rollback undo d).Runs id shell run := by
  unfold rollback
  have hrev : ∀ f ∈ undo.reverse, ∀ d : Durable R, d.Runs id shell run →
      (f d).Runs id shell run := fun f hf => h f (List.mem_reverse.mp hf)
  generalize undo.reverse = fs at hrev
  induction fs generalizing d with
  | nil => exact hr
  | cons f fs ih =>
      exact ih (hrev f (List.mem_cons_self ..) d hr) fun g hg => hrev g (List.mem_cons_of_mem _ hg)

/-- What an operation leaves is open. -/
theorem Fresh.opened {op : Operation R} (hfresh : Fresh w op) (h : w.Outputs) :
    Open (op.run w.durable.state).state w.frontier := by
  have hws : ∀ ws ∈ (op.run w.durable.state).state.workspaces, ∀ e ∈ w.frontier,
      e.endsWorkspace ws = false := fun ws hmem e he =>
    (hfresh.workspaces ws hmem).elim (fun hold => h.opened.workspaces ws hold e he)
      fun hnew => hnew e he
  refine ⟨fun id ws hid e he => ?_, hws⟩
  obtain ⟨shell, hget, rfl⟩ := Option.map_eq_some_iff.mp hid
  rcases op.created _ id shell hget with ⟨old, hold, heq⟩ | ⟨hnone, hmem⟩
  · rw [← heq]
    exact h.opened.shells id _ (by rw [Shells.workspaceOf, hold]; rfl) e he
  · exact ⟨hfresh.shells id shell hget hnone e he, hws _ hmem e he⟩

/-- A rolled back operation leaves the readers in agreement. -/
theorem Fresh.agree_rollback {op : Operation R} (hfresh : Fresh w op) (h : w.Outputs) :
    Agree w.readers (rollback (op.run w.durable.state).undo (op.run w.durable.state).state) where
  nodup := h.agree.nodup
  running r hr ha := by
    obtain ⟨shell, run, hruns, hws, hid⟩ := runOf_eq_some.mp (h.agree.running r hr ha)
    have hkept := op.kept _ _ _ _ hruns
    have hspared := rollback_spared (op.run w.durable.state).undo
      (fun f hf d hd => op.spared w.durable.state f d _ _ _ hf hd (by rw [hruns.1]; rfl)) hkept
    exact runOf_eq_some.mpr ⟨shell, run, hspared, hws, hid⟩
  own id ws runId hrun r hr hid := by
    obtain ⟨shell, run, hruns, hws, hrunId⟩ := runOf_eq_some.mp hrun
    have hruns := rollback_undone (fun f hf d id shell run =>
      op.undone w.durable.state f d id shell run hf) hruns
    rcases op.running _ _ _ _ hruns with hold | hnew
    · exact h.agree.own id ws runId (runOf_eq_some.mpr ⟨shell, run, hold, hws, hrunId⟩) r hr hid
    · exact absurd (hid.trans hrunId.symm) (hfresh.readers _ hnew r hr)

/-- The readers that an operation starts join the others. -/
theorem Fresh.agree_started {op : Operation R} (hfresh : Fresh w op) (h : w.Outputs) :
    Agree (w.readers ++ (op.run w.durable.state).started.map fun s =>
      ⟨s.shellId, s.workspaceId, s.runId, 0, none, .starting⟩) (op.run w.durable.state).state where
  nodup := by
    rw [List.map_append, List.map_map]
    refine List.Nodup.append h.agree.nodup hfresh.nodup fun runId hold hnew => ?_
    obtain ⟨r, hr, rfl⟩ := List.mem_map.mp hold
    obtain ⟨s, hs, heq⟩ := List.mem_map.mp hnew
    exact hfresh.readers s hs r hr heq.symm
  running r hr ha := by
    rcases List.mem_append.mp hr with hr | hr
    · obtain ⟨shell, run, hruns, hws, hid⟩ := runOf_eq_some.mp (h.agree.running r hr ha)
      exact runOf_eq_some.mpr ⟨shell, run, op.kept _ _ _ _ hruns, hws, hid⟩
    · obtain ⟨s, hs, rfl⟩ := List.mem_map.mp hr
      obtain ⟨shell, run, hruns, hws, hid⟩ := op.started _ s hs
      exact runOf_eq_some.mpr ⟨shell, run, hruns, hws, hid⟩
  own id ws runId hrun r hr hid := by
    obtain ⟨shell, run, hruns, hws, hrunId⟩ := runOf_eq_some.mp hrun
    rcases op.running _ _ _ _ hruns with hold | hnew
    · rcases List.mem_append.mp hr with hr | hr
      · exact h.agree.own id ws runId (runOf_eq_some.mpr ⟨shell, run, hold, hws, hrunId⟩) r hr hid
      · obtain ⟨s, hs, rfl⟩ := List.mem_map.mp hr
        exact absurd (hrunId.trans hid.symm) (hfresh.running s hs id shell run hold)
    · rcases List.mem_append.mp hr with hr | hr
      · exact absurd (hid.trans hrunId.symm) (hfresh.readers _ hnew r hr)
      · obtain ⟨s, hs, rfl⟩ := List.mem_map.mp hr
        have hsame := List.inj_on_of_nodup_map hfresh.nodup hs hnew (hid.trans hrunId.symm)
        rw [hsame]

theorem World.Calm.mutate (h : w.Calm) (hfree : w.persistFree = true) {op : Operation R}
    (hfresh : Fresh w op) (reserve : Nat → Except IoError Unit) (captured : Bool) :
    (w.mutate op reserve captured).Calm := by
  obtain ⟨hf, hc⟩ := persistFree_iff.mp hfree
  have hopen := hfresh.opened h.toOutputs
  have hrestored : UndoOpen w.frontier (op.run w.durable.state).undo :=
    ⟨w.durable.state, h.opened, fun f hf => op.restored _ f hf⟩
  have hundone : ∀ v : World R, v.events = w.events → v.flush = none → v.holder = .free →
      v.readers = w.readers → v.durable.state =
        rollback (op.run w.durable.state).undo (op.run w.durable.state).state → v.Calm := by
    intro v he hvf hh hr hd
    have hK : v.frontier = w.frontier :=
      frontier_congr he (hvf.trans hf.symm) hc (by rw [hh]; rfl)
    refine ⟨⟨fun hv => ?_, ?_, ?_, ?_, ?_⟩, ?_⟩
    · rw [hvf, hh] at hv
      simp [Holder.closed] at hv
    · rw [hK]
      exact h.ordered
    · rw [hr, hK]
      exact h.live
    · rw [hd, hK]
      exact hrestored.apply hopen
    · rw [hr, hd]
      exact hfresh.agree_rollback h.toOutputs
    · rw [World.HolderCalm, hh]
      trivial
  unfold World.mutate
  dsimp only
  split
  · exact hundone _ rfl hf rfl rfl rfl
  · exact hundone _ rfl hf rfl rfl rfl
  next kinds hresult =>
    split
    · exact hundone _ rfl hf rfl rfl rfl
    · split
      · -- the window opens; its batch is not in the frontier yet
        have hopened : ∀ (v : World R) (saved : PersistenceGeneration R),
            v.frontier = w.frontier → v.holder = .window ⟨.mutation
              (op.run w.durable.state).undo (op.run w.durable.state).started,
              ⟨w.next, kinds⟩, saved, none⟩ → v.events.transition.persistenceInFlight = true →
            v.readers = w.readers ++ (op.run w.durable.state).started.map (fun s =>
              ⟨s.shellId, s.workspaceId, s.runId, 0, none, .starting⟩) →
            v.durable.state = (op.run w.durable.state).state → v.Calm := by
          intro v saved hK hh hflight hreaders hstate
          have hagree := hfresh.agree_started h.toOutputs
          rw [← hreaders, ← hstate] at hagree
          rw [← hstate] at hopen
          refine ⟨⟨fun _ => hflight, ?_, ?_, ?_, hagree⟩, ?_⟩
          · rw [hK]
            exact h.ordered
          · rw [hK]
            intro r hr ha e he
            have hr' := hr
            rw [hreaders] at hr'
            rcases List.mem_append.mp hr' with hold | hnew
            · exact h.live r hold ha e he
            · obtain ⟨s, hs, rfl⟩ := List.mem_map.mp hnew
              have hrun := hagree.running _ hr ha
              obtain ⟨hshell, hws⟩ := hopen.shells _ _ (workspaceOf_of_runOf hrun) e he
              simp only [Reader.outputChanged, DaemonEventKind.ends, Bool.or_eq_false_iff]
              exact ⟨⟨hfresh.runs s hs e he, hshell⟩, hws⟩
          · rw [hK]
            exact hopen
          · rw [World.HolderCalm, hh]
            refine ⟨op.kinds _ _ hresult, fun r hr hs => ?_, ?_, fun f hf d id shell run =>
              op.undone _ f d id shell run hf, fun r hr ha hs f hf d shell run hd => ?_⟩
            · obtain ⟨s, hs, heq⟩ := hs
              rw [hreaders] at hr
              rcases List.mem_append.mp hr with hr | hr
              · exact absurd heq.symm (hfresh.readers s hs r hr)
              · obtain ⟨s', -, rfl⟩ := List.mem_map.mp hr
                rfl
            · rw [hK]
              exact hrestored
            · -- the Shell of a reader that is not started was there before
              rw [hreaders] at hr
              rcases List.mem_append.mp hr with hold | hnew
              · obtain ⟨old, run', hruns, -⟩ := runOf_eq_some.mp (h.agree.running r hold ha)
                exact op.spared _ f d _ shell run hf hd (by rw [hruns.1]; rfl)
              · obtain ⟨s, hstarted, rfl⟩ := List.mem_map.mp hnew
                exact absurd rfl (hs s hstarted)
        refine hopened _ _ (frontier_same rfl rfl rfl rfl ?_) rfl rfl rfl rfl
        rw [Holder.closed_exitBatch hc]
        rfl
      · exact hundone _ rfl hf rfl rfl rfl

end Boomux.Daemon
