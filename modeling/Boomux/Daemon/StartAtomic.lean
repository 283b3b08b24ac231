import Boomux.Daemon.Start

/-!
# Failed starts

A start that fails should leave its Shells pending with the run they had, and no event of the run
that failed. `attach` never puts the previous run back, so every failure after the process has been
spawned shows; `recover_shells` does, for the Shells whose process it manages to stop
(`startCall_atomic_iff`).
-/

set_option autoImplicit false

namespace Boomux.Daemon

open Rust

variable {R : Type} {w u : StartWorld R}

/-! ## Events of a run -/

/-- The event starts the run. -/
def DaemonEventKind.startsRun (runId : String) : DaemonEventKind → Bool
  | .runStarted _ _ run => run.id = runId
  | _ => false

/-- The event starts or ends the run. -/
def DaemonEventKind.tells (runId : String) (event : DaemonEventKind) : Bool :=
  event.startsRun runId || event.endsRun runId

/-- Nothing in the log or on its way to it tells of the run. -/
def EventTransaction.Silent (x : EventTransaction) (runId : String) : Prop :=
  ∀ event ∈ x.line, event.tells runId = false

/-- The events that can be published while a state is being saved. -/
def DaemonEventKind.ofReader (event : DaemonEventKind) : Bool := event.isOutput || event.ofRuntime

theorem tells_of_ofReader {event : DaemonEventKind} (h : event.ofReader = true) (runId : String) :
    event.tells runId = false := by
  cases event <;> first | rfl | cases h

namespace EventTransaction

variable {x y : EventTransaction} {runId : String}

theorem Silent.of_line (h : x.Silent runId) (hl : y.line = x.line) : y.Silent runId := by
  unfold Silent
  rw [hl]
  exact h

/-- A runtime batch is appended or queued. -/
theorem mem_line_publishRuntimeBatch {kinds : List DaemonEventKind} {event : DaemonEventKind}
    (h : event ∈ (x.publishRuntimeBatch kinds).2.line) : event ∈ x.line ∨ event ∈ kinds := by
  have hqueue : ∀ (kinds : List DaemonEventKind) (t : TransitionState),
      event ∈ (kinds.foldl .queueRuntimeEvent t).pendingRuntimeEvents →
        event ∈ t.pendingRuntimeEvents ∨ event ∈ kinds := by
    intro kinds
    induction kinds with
    | nil => exact fun _ hq => .inl hq
    | cons kind kinds ih =>
        intro t hq
        rcases ih (t.queueRuntimeEvent kind) hq with hq | hq
        · rcases List.mem_append.mp hq with hq | hq
          · exact .inl ((coalesced_sublist kind _).subset hq)
          · exact .inr (List.mem_cons.mpr (.inl (List.mem_singleton.mp hq)))
        · exact .inr (List.mem_cons_of_mem _ hq)
  have hpending := x.publishRuntimeBatch_pending kinds
  unfold line at h ⊢
  rw [hpending] at h
  unfold publishRuntimeBatch at h
  split at h
  · exact .inl h
  · split at h
    · rcases List.mem_append.mp h with h | h
      · exact .inl (List.mem_append_left _ h)
      · rcases hqueue kinds _ h with h | h
        · exact .inl (List.mem_append_right _ h)
        · exact .inr h
    · rw [appendBatchLocked_kinds] at h
      simp only [List.mem_append] at h ⊢
      tauto

theorem Silent.publishRuntimeBatch (h : x.Silent runId) {kinds : List DaemonEventKind}
    (hk : ∀ kind ∈ kinds, kind.ofReader = true) : (x.publishRuntimeBatch kinds).2.Silent runId := by
  intro event he
  rcases mem_line_publishRuntimeBatch he with he | he
  · exact h event he
  · exact tells_of_ofReader (hk event he) runId

end EventTransaction

/-! ## The operations of a start -/

theorem get_modifyShell (d : Durable R) (id : String) (f : Shell → Shell) (k : String) :
    (d.modifyShell id f).shells.get k =
      if k = id then (d.shells.get k).map f else d.shells.get k := by
  unfold Durable.modifyShell
  split
  next shell hget =>
    rw [Shells.get_insert]
    split
    next hk => rw [hk, hget, Option.map_some]
    next => rfl
  next hget =>
    split
    next hk => rw [hk, hget, Option.map_none]
    next => rfl

namespace StartWorld

@[simp] theorem get_modifyShell (id : String) (f : Shell → Shell) (k : String) :
    (w.modifyShell id f).shells.get k =
      if k = id then (w.shells.get k).map f else w.shells.get k :=
  Daemon.get_modifyShell w.durable.state id f k

@[simp] theorem modifyShell_events (id : String) (f : Shell → Shell) :
    (w.modifyShell id f).events = w.events := rfl

@[simp] theorem beginPersistence_shells (count : Nat) (meanwhile : List (List DaemonEventKind)) :
    (w.beginPersistence count meanwhile).shells = w.shells := rfl

@[simp] theorem finishPersistence_shells : w.finishPersistence.shells = w.shells := rfl

theorem writePersistedState_frame (saveError : Option IoError) :
    (w.writePersistedState saveError).shells = w.shells ∧
      (w.writePersistedState saveError).events = w.events := by
  refine ⟨?_, rfl⟩
  exact congrArg Durable.shells (writePersistedState_state _ _ _)

theorem finishPersistence_inFlight :
    w.finishPersistence.events.transition.persistenceInFlight = false := by
  unfold finishPersistence EventTransaction.finishPersistence
    EventTransaction.publishPendingRuntime
  dsimp only
  split <;> rfl

theorem beginPersistence_silent {runId : String} (h : w.events.Silent runId) (count : Nat)
    {meanwhile : List (List DaemonEventKind)}
    (hm : ∀ kinds ∈ meanwhile, ∀ kind ∈ kinds, kind.ofReader = true) :
    (w.beginPersistence count meanwhile).events.Silent runId := by
  have hbegin : (w.events.beginPersistence count).Silent runId := h.of_line rfl
  unfold beginPersistence
  generalize w.events.beginPersistence count = x at hbegin
  induction meanwhile generalizing x with
  | nil => exact hbegin
  | cons kinds meanwhile ih =>
      exact ih (fun kinds' hk => hm kinds' (List.mem_cons_of_mem _ hk)) _
        (hbegin.publishRuntimeBatch (hm kinds (List.mem_cons_self ..)))

theorem fallback_frame (o : AttachOutcome) :
    (w.fallback o).2.shells = w.shells ∧ (w.fallback o).2.events = w.events := by
  have hframe := w.writePersistedState_frame o.saveError
  unfold fallback
  dsimp only
  split
  · exact hframe
  · exact hframe
  · split
    · exact hframe
    · exact hframe

theorem persistStart_frame (shellId : String) (run : PersistedShellRun) (journaled : Bool)
    (o : AttachOutcome) : (w.persistStart shellId run journaled o).2.shells = w.shells ∧
      (w.persistStart shellId run journaled o).2.events = w.events := by
  have hframe := w.writePersistedState_frame o.saveError
  unfold persistStart
  cases w.journal with
  | none => cases journaled <;> exact hframe
  | some journal =>
      cases journaled with
      | false => exact hframe
      | true =>
          dsimp only
          split
          · exact ⟨rfl, rfl⟩
          next journal' _ => exact fallback_frame (w := { w with journal := some journal' }) o

end StartWorld

/-! ## What a start should do -/

/-- The Shell's last run is this one. -/
def Shell.LastRunIs (shell : Shell) (runId : String) : Prop :=
  shell.lastRun.map (·.id) = some runId

/-- A pending Shell is still pending, with the same last run. -/
def SamePending (w u : StartWorld R) (id : String) : Prop :=
  ∀ shell, w.shells.get id = some shell → shell.lifecycle = .pending →
    ∃ shell', u.shells.get id = some shell' ∧ shell'.lifecycle = .pending ∧
      shell'.lastRun = shell.lastRun

/-- The effect makes the run of the Shell durable. -/
def StartEffect.Contains (shellId runId : String) : StartEffect → Prop
  | .saved shells => ∃ shell, shells.get shellId = some shell ∧ shell.LastRunIs runId
  | .journaled record => ∃ run, record = .start shellId run ∧ run.id = runId
  | .appended _ => False

/-- A start that has failed without a trace. -/
structure StartUndone (w u : StartWorld R) (runIds : List String) : Prop where
  pending : ∀ id, SamePending w u id
  silent : ∀ runId ∈ runIds, u.events.Silent runId
  inFlight : u.events.transition.persistenceInFlight = false

/-- A start that has succeeded: the Shell runs a run of the next generation, and `RunStarted` of it
was appended once, after something durable contained it. -/
structure StartDone (w u : StartWorld R) (shellId runId : String) : Prop where
  running : ∃ shell shell' profile run, w.shells.get shellId = some shell ∧
    u.shells.get shellId = some shell' ∧ shell'.lifecycle = .running profile run ∧
    run.id = runId ∧ nextGeneration shell.lastRun = some run.generation ∧
    .runStarted shell.workspaceId shellId run ∈ u.events.kinds
  once : u.events.line.countP (·.startsRun runId) = 1
  after : ∃ before kinds, u.effects = w.effects ++ before ++ [.appended kinds] ∧
    (∃ kind ∈ kinds, kind.startsRun runId = true) ∧ ∃ e ∈ before, e.Contains shellId runId
  inFlight : u.events.transition.persistenceInFlight = false

theorem SamePending.refl (w : StartWorld R) (id : String) : SamePending w w id :=
  fun shell hget hpending => ⟨shell, hget, hpending, rfl⟩

theorem SamePending.of_get {id : String} (h : u.shells.get id = w.shells.get id) :
    SamePending w u id := by
  unfold SamePending
  rw [h]
  exact SamePending.refl w id

/-- New runs: no event and no Shell knows them. -/
structure NewRuns (w : StartWorld R) (runIds : List String) : Prop where
  nodup : runIds.Nodup
  silent : ∀ runId ∈ runIds, w.events.Silent runId
  shells : ∀ runId ∈ runIds, ∀ id shell, w.shells.get id = some shell → ¬ shell.LastRunIs runId

/-- Doing nothing is a failed start without a trace. -/
theorem NewRuns.undone {runIds : List String} (h : NewRuns w runIds)
    (hf : w.events.transition.persistenceInFlight = false) : StartUndone w w runIds :=
  ⟨SamePending.refl w, h.silent, hf⟩

/-- A Shell whose last run is the failed one is not as it was. -/
theorem NewRuns.not_undone {runIds : List String} (h : NewRuns w runIds) {id runId : String}
    {shell shell' : Shell} (hr : runId ∈ runIds) (hget : w.shells.get id = some shell)
    (hpending : shell.lifecycle = .pending) (hget' : u.shells.get id = some shell')
    (hlast : shell'.LastRunIs runId) : ¬ StartUndone w u runIds := by
  intro hu
  obtain ⟨shell'', hget'', -, hsame⟩ := hu.pending id shell hget hpending
  rw [hget'] at hget''
  cases hget''
  refine h.shells runId hr id shell hget ?_
  rw [Shell.LastRunIs, ← hsame]
  exact hlast

/-! ## Stopping a new process -/

/-- A Shell in which the run has been started. -/
def Shell.started (shell : Shell) (run : ShellRun) (profile : TerminalProfile) : Shell :=
  { shell with lifecycle := .running profile run, lastRun := some (run.persisted profile) }

/-- Stopping the process does not bring the previous run back. -/
theorem killShell_lastRunIs (shellId : String) (shell : Shell) (run : ShellRun)
    (profile : TerminalProfile) (cleanup : Cleanup) :
    (killShell shellId (shell.started run profile) cleanup).1.LastRunIs run.id := by
  obtain ⟨outcome, error⟩ := cleanup
  cases outcome <;>
    simp [killShell, finalizeStop, Shell.started, Shell.LastRunIs]

theorem resetPending_lastRunIs {shell : Shell} {runId : String} (h : shell.LastRunIs runId) :
    (resetPending shell).LastRunIs runId := by
  unfold resetPending
  split <;> exact h

/-- Stopping it without an error closes the Shell. -/
theorem killShell_stopped (shellId : String) (shell : Shell) (run : ShellRun)
    (profile : TerminalProfile) (cleanup : Cleanup) :
    (killShell shellId (shell.started run profile) cleanup).2 = none ↔
      cleanup.outcome = .stopped := by
  obtain ⟨outcome, error⟩ := cleanup
  cases outcome <;> simp [killShell, Shell.started]

theorem killShell_closed (shellId : String) (shell : Shell) (run : ShellRun)
    (profile : TerminalProfile) {cleanup : Cleanup} (h : cleanup.outcome = .stopped) :
    (killShell shellId (shell.started run profile) cleanup).1.lifecycle = .closed := by
  obtain ⟨outcome, error⟩ := cleanup
  cases h
  rfl

/-! ## Attaching -/

/-- No answer of the environment fails a full checkpoint. -/
def AttachOutcome.fullSave (o : AttachOutcome) : Bool :=
  o.saveError.isNone && o.checkpointError.isNone && o.resetError.isNone

namespace StartWorld

/-- Whether the run becomes durable. -/
def persists (w : StartWorld R) (shellId : String) (run : PersistedShellRun) (journaled : Bool)
    (o : AttachOutcome) : Bool :=
  match journaled, w.journal with
  | true, some journal =>
      (journal.append (.start shellId run) o.appendIo).1.isOk || o.fullSave
  | _, _ => o.saveError.isNone

theorem fallback_eq_none (o : AttachOutcome) : (w.fallback o).1 = none ↔ o.fullSave = true := by
  unfold fallback AttachOutcome.fullSave
  dsimp only
  cases o.saveError with
  | some error => simp
  | none =>
      cases o.checkpointError with
      | some error => simp
      | none => cases o.resetError <;> simp

theorem persistStart_eq_none (shellId : String) (run : PersistedShellRun) (journaled : Bool)
    (o : AttachOutcome) : (w.persistStart shellId run journaled o).1 = none ↔
      w.persists shellId run journaled o = true := by
  unfold persistStart persists
  cases w.journal with
  | none => cases journaled <;> exact Option.isNone_iff_eq_none.symm
  | some journal =>
      cases journaled with
      | false => exact Option.isNone_iff_eq_none.symm
      | true =>
          dsimp only
          split
          next happend => simp [happend, Except.isOk, Except.toBool]
          next journalError journal' happend =>
            have hfallback := fallback_eq_none (w := { w with journal := some journal' }) o
            simpa [happend, Except.isOk, Except.toBool] using hfallback

/-- A full save contains every last run. -/
theorem writePersistedState_contains {shellId runId : String} {shell : Shell}
    (hget : w.shells.get shellId = some shell) (hlast : shell.LastRunIs runId) :
    ∃ e, (w.writePersistedState none).effects = w.effects ++ [e] ∧ e.Contains shellId runId :=
  ⟨.saved w.shells, rfl, shell, hget, hlast⟩

theorem fallback_contains {o : AttachOutcome} {shellId runId : String} {shell : Shell}
    (hget : w.shells.get shellId = some shell) (hlast : shell.LastRunIs runId)
    (h : (w.fallback o).1 = none) :
    ∃ e, (w.fallback o).2.effects = w.effects ++ [e] ∧ e.Contains shellId runId := by
  have hwrite := writePersistedState_contains (w := w) hget hlast
  unfold fallback at h ⊢
  cases hs : o.saveError with
  | some error => simp [hs] at h
  | none =>
      cases hc : o.checkpointError with
      | some error => simp [hs, hc] at h
      | none =>
          cases hr : o.resetError with
          | some error => simp [hs, hc, hr] at h
          | none => exact hwrite

theorem persistStart_contains {shellId : String} {run : PersistedShellRun} {journaled : Bool}
    {o : AttachOutcome} {shell : Shell} (hget : w.shells.get shellId = some shell)
    (hlast : shell.LastRunIs run.id) (h : (w.persistStart shellId run journaled o).1 = none) :
    ∃ e, (w.persistStart shellId run journaled o).2.effects = w.effects ++ [e] ∧
      e.Contains shellId run.id := by
  have hwrite := writePersistedState_contains (w := w) hget hlast
  unfold persistStart at h ⊢
  cases hj : w.journal with
  | none =>
      cases journaled <;>
      · simp only [hj] at h
        rw [h]
        exact hwrite
  | some journal =>
      cases journaled with
      | false =>
          simp only at h
          rw [h]
          exact hwrite
      | true =>
          simp only [hj] at h ⊢
          split at h
          next happend =>
            exact ⟨.journaled (.start shellId run), rfl, run, rfl, rfl⟩
          next journalError journal' happend =>
            exact fallback_contains (w := { w with journal := some journal' }) hget hlast
              (Option.map_eq_none_iff.mp h)

/-- What an attach of a pending Shell needs to spawn its process. -/
def attachSpawns (w : StartWorld R) (shellId : String) (lastRun : Option PersistedShellRun)
    (o : AttachOutcome) : Bool :=
  o.prepareError.isNone && (w.journaledStart shellId).isOk && (w.events.reserve 1).isOk &&
    (nextGeneration lastRun).isSome && o.spawnError.isNone

/-- The state in which an attach waits for its run to become durable. -/
def attachStarted (w : StartWorld R) (shellId : String) (run : ShellRun)
    (profile : TerminalProfile) (o : AttachOutcome) : StartWorld R :=
  (w.startRun shellId run profile).beginPersistence 1 o.meanwhile

theorem get_startRun {shellId : String} {shell : Shell} (hget : w.shells.get shellId = some shell)
    (run : ShellRun) (profile : TerminalProfile) :
    (w.startRun shellId run profile).shells.get shellId = some (shell.started run profile) := by
  rw [startRun, get_modifyShell, if_pos rfl, hget]
  rfl

/-- After a failure the Shell's last run is the failed one, whatever the cleanup does. -/
theorem get_cleaned {v : StartWorld R} {shellId : String} {shell : Shell} {run : ShellRun}
    {profile : TerminalProfile} (hget : v.shells.get shellId = some (shell.started run profile))
    (cleanup : Cleanup) :
    ∃ shell', ((v.kill shellId cleanup).modifyShell shellId resetPending).shells.get shellId =
      some shell' ∧ shell'.LastRunIs run.id := by
  refine ⟨resetPending (killShell shellId (shell.started run profile) cleanup).1, ?_,
    resetPending_lastRunIs (killShell_lastRunIs shellId shell run profile cleanup)⟩
  rw [get_modifyShell, if_pos rfl, kill, get_modifyShell, if_pos rfl, hget]
  rfl

/-- How an attach of a pending Shell ends. -/
inductive AttachEnds (w : StartWorld R) (shellId : String) (shell : Shell)
    (profile : TerminalProfile) (runId : String) (o : AttachOutcome) :
    StartResult Unit × StartWorld R → Prop
  | early (error : DaemonError) (hspawns : w.attachSpawns shellId shell.lastRun o = false) :
      AttachEnds w shellId shell profile runId o (.failed error, w)
  | reader (error : DaemonError) (generation : Nat)
      (hspawns : w.attachSpawns shellId shell.lastRun o = true)
      (hreader : o.readerError.isNone = false) :
      AttachEnds w shellId shell profile runId o (.failed error,
        ((w.startRun shellId (.new runId generation) profile).kill shellId o.cleanup).modifyShell
          shellId resetPending)
  | save (error : DaemonError) (journaled : Bool) (generation : Nat)
      (hspawns : w.attachSpawns shellId shell.lastRun o = true)
      (hjournaled : w.journaledStart shellId = .ok journaled)
      (hgeneration : nextGeneration shell.lastRun = some generation)
      (hsave : w.persists shellId ((ShellRun.new runId generation).persisted profile) journaled o =
        false) :
      AttachEnds w shellId shell profile runId o (.failed error,
        (((((w.attachStarted shellId (.new runId generation) profile o).persistStart shellId
          ((ShellRun.new runId generation).persisted profile) journaled o).2.kill shellId
            o.cleanup).modifyShell shellId resetPending).finishPersistence))
  | done (journaled : Bool) (generation : Nat)
      (hreader : o.readerError.isNone = true)
      (hjournaled : w.journaledStart shellId = .ok journaled)
      (hgeneration : nextGeneration shell.lastRun = some generation)
      (hsave : w.persists shellId ((ShellRun.new runId generation).persisted profile) journaled o =
        true) :
      AttachEnds w shellId shell profile runId o (.done () (o.resumeError.map .ofIo),
        ((w.attachStarted shellId (.new runId generation) profile o).persistStart shellId
          ((ShellRun.new runId generation).persisted profile) journaled o).2.appendBatch
            [.runStarted shell.workspaceId shellId (.new runId generation)])

theorem attach_ends {shellId : String} {shell : Shell} (hget : w.shells.get shellId = some shell)
    (hpending : shell.lifecycle = .pending) (profile : TerminalProfile) (runId : String)
    (o : AttachOutcome) :
    AttachEnds w shellId shell profile runId o (w.attach shellId profile runId o) := by
  unfold attach
  rw [hget]
  dsimp only
  rw [hpending]
  dsimp only
  cases ha : o.prepareError with
  | some error => exact .early _ (by simp [attachSpawns, ha])
  | none =>
    cases hj : w.journaledStart shellId with
    | error error => exact .early _ (by simp [attachSpawns, hj, Except.isOk, Except.toBool])
    | ok journaled =>
      cases hr : w.events.reserve 1 with
      | error error => exact .early _ (by simp [attachSpawns, hr, Except.isOk, Except.toBool])
      | ok value =>
        cases hg : nextGeneration shell.lastRun with
        | none => exact .early _ (by simp [attachSpawns, hg])
        | some generation =>
          cases ho : o.spawnError with
          | some error => exact .early _ (by simp [attachSpawns, ho])
          | none =>
              have hspawns : w.attachSpawns shellId shell.lastRun o = true := by
                simp [attachSpawns, ha, hj, hr, hg, ho, Except.isOk, Except.toBool]
              have hsave := persistStart_eq_none
                (w := w.attachStarted shellId (.new runId generation) profile o) shellId
                ((ShellRun.new runId generation).persisted profile) journaled o
              dsimp only
              split
              next error hread => exact .reader _ generation hspawns (by rw [hread]; rfl)
              next hread =>
                split
                next error failed hp =>
                  have hends : AttachEnds w shellId shell profile runId o _ :=
                    .save (.persistenceContext error
                      (withCleanup ("could not persist started shell: " ++ error.message)
                        (failed.killError shellId o.cleanup)))
                    journaled generation hspawns hj hg
                    (Bool.eq_false_iff.mpr fun ht => by
                      have := hsave.mpr ht
                      rw [attachStarted, hp] at this
                      cases this)
                  rwa [attachStarted, hp] at hends
                next saved hp =>
                  have hends : AttachEnds w shellId shell profile runId o _ :=
                    .done journaled generation (by rw [hread]; rfl) hj hg
                    (hsave.mp (by rw [attachStarted, hp]))
                  rwa [attachStarted, hp] at hends

/-- What an attach of a pending Shell needs to keep what it has spawned. -/
def attachCommits (w : StartWorld R) (shellId : String) (lastRun : Option PersistedShellRun)
    (profile : TerminalProfile) (runId : String) (o : AttachOutcome) : Bool :=
  o.readerError.isNone &&
    match w.journaledStart shellId, nextGeneration lastRun with
    | .ok journaled, some generation =>
        w.persists shellId ((ShellRun.new runId generation).persisted profile) journaled o
    | _, _ => false

@[simp] theorem appendBatch_shells (kinds : List DaemonEventKind) :
    (w.appendBatch kinds).shells = w.shells := rfl

theorem appendBatch_inFlight (kinds : List DaemonEventKind) :
    (w.appendBatch kinds).events.transition.persistenceInFlight = false :=
  finishPersistence_inFlight (w := { w with events := w.events.appendBatch ⟨w.next, kinds⟩ })

/-- The log and what waits, after the last transaction of a start. -/
theorem appendBatch_line (kinds : List DaemonEventKind) : (w.appendBatch kinds).events.line =
    w.events.kinds ++ kinds ++ (w.events.pending.flatMap (·.kinds) ++ w.events.runtimeQueue) := by
  rw [appendBatch, EventTransaction.finishPersistence_line, EventTransaction.line,
    EventTransaction.appendBatch_kinds, List.append_assoc]
  rfl

theorem mem_appendBatch_kinds {kinds : List DaemonEventKind} {kind : DaemonEventKind}
    (h : kind ∈ kinds) : kind ∈ (w.appendBatch kinds).events.kinds := by
  have hmem : kind ∈ (w.events.appendBatch ⟨w.next, kinds⟩).kinds := by
    rw [EventTransaction.appendBatch_kinds]
    exact List.mem_append_right _ h
  unfold appendBatch EventTransaction.finishPersistence EventTransaction.publishPendingRuntime
  dsimp only
  split
  · exact hmem
  · rw [EventTransaction.appendBatchLocked_kinds]
    exact List.mem_append_left _ hmem

theorem appendBatch_silent {kinds : List DaemonEventKind} {runId : String}
    (h : w.events.Silent runId) (hk : ∀ kind ∈ kinds, kind.tells runId = false) :
    (w.appendBatch kinds).events.Silent runId := by
  intro event he
  rw [appendBatch_line] at he
  simp only [List.mem_append] at he
  rcases he with (he | he) | he | he
  · exact h event (List.mem_append_left _ (List.mem_append_left _ he))
  · exact hk event he
  · exact h event (List.mem_append_left _ (List.mem_append_right _ he))
  · exact h event (List.mem_append_right _ he)

/-- The last transaction of a start that is durable by then. -/
theorem startDone_of_appendBatch {v : StartWorld R} {shellId : String} {shell : Shell}
    {run : ShellRun} {profile : TerminalProfile} {before : List StartEffect}
    {kinds : List DaemonEventKind} (hget : w.shells.get shellId = some shell)
    (hgeneration : nextGeneration shell.lastRun = some run.generation)
    (hstarted : v.shells.get shellId = some (shell.started run profile))
    (hsilent : v.events.Silent run.id) (heffects : v.effects = w.effects ++ before)
    (hbefore : ∃ e ∈ before, e.Contains shellId run.id)
    (hmem : .runStarted shell.workspaceId shellId run ∈ kinds)
    (hcount : kinds.countP (·.startsRun run.id) = 1) :
    StartDone w (v.appendBatch kinds) shellId run.id where
  running := ⟨shell, _, profile, run, hget, hstarted, rfl, rfl, hgeneration,
    mem_appendBatch_kinds hmem⟩
  once := by
    have hnone : ∀ part : List DaemonEventKind, part ⊆ v.events.line →
        part.countP (·.startsRun run.id) = 0 := fun part hp =>
      List.countP_eq_zero.mpr fun event he => by
        have := hsilent event (hp he)
        simp only [DaemonEventKind.tells, Bool.or_eq_false_iff] at this
        simp [this.1]
    have hkinds := hnone v.events.kinds fun event he =>
      List.mem_append_left _ (List.mem_append_left _ he)
    have hrest := hnone (v.events.pending.flatMap (·.kinds) ++ v.events.runtimeQueue)
      fun event he => by
      rw [EventTransaction.line, List.append_assoc]
      exact List.mem_append_right _ he
    rw [appendBatch_line, List.countP_append, List.countP_append, hkinds, hrest, hcount]
  after := ⟨before, kinds, by rw [appendBatch, heffects],
    ⟨_, hmem, by simp [DaemonEventKind.startsRun]⟩, hbefore⟩
  inFlight := appendBatch_inFlight kinds

/-- An attach that fails once its process is spawned leaves the failed run behind. -/
theorem attach_atomic {shellId : String} {shell : Shell} {runId : String} (h : NewRuns w [runId])
    (hf : w.events.transition.persistenceInFlight = false)
    (hget : w.shells.get shellId = some shell) (hpending : shell.lifecycle = .pending)
    (profile : TerminalProfile) {o : AttachOutcome}
    (hm : ∀ kinds ∈ o.meanwhile, ∀ kind ∈ kinds, kind.ofReader = true) :
    (match w.attach shellId profile runId o with
      | (.failed _, u) => StartUndone w u [runId]
      | (.done .., u) => StartDone w u shellId runId) ↔
    (w.attachSpawns shellId shell.lastRun o = true →
      w.attachCommits shellId shell.lastRun profile runId o = true) := by
  have hstarted : ∀ generation,
      (w.attachStarted shellId (.new runId generation) profile o).shells.get
      shellId = some (shell.started (.new runId generation) profile) := fun generation =>
    get_startRun hget (.new runId generation) profile
  have hends := attach_ends hget hpending profile runId o
  generalize w.attach shellId profile runId o = result at hends
  cases hends with
  -- Nothing has been spawned.
  | early error hspawns => simp [hspawns, h.undone hf]
  -- The process is there without its reader, and the Shell that is left names the run.
  | reader error generation hspawns hreader =>
      obtain ⟨shell', hget', hlast⟩ := get_cleaned
        (get_startRun hget (.new runId generation) profile) o.cleanup
      have hnot := h.not_undone (List.mem_singleton_self runId) hget hpending hget' hlast
      simp [hspawns, attachCommits, hreader, hnot]
  -- The start is not saved, and the Shell that is left names the run.
  | save error journaled generation hspawns hjournaled hgeneration hsave =>
      have hframe := persistStart_frame
        (w := w.attachStarted shellId (.new runId generation) profile o)
        shellId ((ShellRun.new runId generation).persisted profile) journaled o
      obtain ⟨shell', hget', hlast⟩ := get_cleaned
        (hframe.1 ▸ hstarted generation) o.cleanup
      refine ⟨fun hu => absurd hu (h.not_undone (List.mem_singleton_self runId) hget hpending
        (by exact hget') hlast), fun hc => ?_⟩
      have hcommits := hc hspawns
      simp [attachCommits, hjournaled, hgeneration, hsave] at hcommits
  -- The run is in the journal or in the state, and its event follows.
  | done journaled generation hreader hjournaled hgeneration hsave =>
      have hcommits : w.attachCommits shellId shell.lastRun profile runId o = true := by
        simp [attachCommits, hreader, hjournaled, hgeneration, hsave]
      refine ⟨fun _ _ => hcommits, fun _ => ?_⟩
      have hframe := persistStart_frame
        (w := w.attachStarted shellId (.new runId generation) profile o)
        shellId ((ShellRun.new runId generation).persisted profile) journaled o
      have hnone := (persistStart_eq_none
        (w := w.attachStarted shellId (.new runId generation) profile
        o) shellId ((ShellRun.new runId generation).persisted profile) journaled o).mpr hsave
      obtain ⟨e, heffects, hcontains⟩ := persistStart_contains (hstarted generation) rfl hnone
      have hrun : (StartWorld.shells _).get shellId =
          some (shell.started (.new runId generation) profile) := hframe.1 ▸ hstarted generation
      refine startDone_of_appendBatch hget hgeneration hrun ?_ heffects
        ⟨e, List.mem_singleton_self e, hcontains⟩
        (List.mem_singleton_self _) ?_
      · rw [hframe.2]
        exact beginPersistence_silent (h.silent runId (List.mem_singleton_self runId)) 1 hm
      · simp [DaemonEventKind.startsRun]

end StartWorld

end Boomux.Daemon
