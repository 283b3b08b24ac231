import Boomux.Daemon.Lifecycle

/-!
# Putting stopped Shells back

What the two compensations do to the Shells: `compensateAll` before the finalize loop, and
`restoreAll` after it. Both leave every Shell of the list as one `compensate_stopped` leaves it
(`settle`), and queue one exit for every run that ends, however often a Shell is in the list
(`Settles`). A Shell with a poisoned lock is left running.
-/

set_option autoImplicit false

namespace Boomux.Daemon.Lifecycle

open Rust

/-! ## One Shell -/

/-- Whether no lock that `finalize_stop` takes is poisoned. -/
def LockedShell.finalizable (shell : LockedShell) : Bool :=
  match shell.lifecycle with
  | .pending | .closed => true
  | .running .. => !shell.poisoned.ended && !shell.poisoned.lastRun && !shell.poisoned.outputWait
  | .exited .. => !shell.poisoned.ended && !shell.poisoned.lastRun

/-- The Shell that a compensation leaves. -/
def settle (shellId : String) (shell : LockedShell) : LockedShell :=
  (compensateStopped shellId shell).2

/-- The event of a compensation. -/
def exitEvent (shellId : String) (shell : LockedShell) : Option DaemonEventKind :=
  (compensateStopped shellId shell).1.toOption.join

section Shell

variable {shellId : String} {shell left : LockedShell} {rollback : StopRollback} {e : IoError}

theorem finalizeStop_ok (h : finalizeStop shellId shell = (.ok rollback, left)) :
    settle shellId shell = restoreStopped left rollback ∧ exitEvent shellId shell = rollback.event ∧
      left.lifecycle = .closed ∧ left.running? = none := by
  have hclosed : left.lifecycle = .closed := by
    unfold finalizeStop at h
    grind
  refine ⟨?_, ?_, hclosed, by simp [Shell.running?, hclosed]⟩
  · simp [settle, compensateStopped, h]
  · simp [exitEvent, compensateStopped, h, Except.toOption]

theorem finalizeStop_error (h : finalizeStop shellId shell = (.error e, left)) :
    settle shellId shell = left ∧ exitEvent shellId shell = none := by
  constructor
  · simp [settle, compensateStopped, h]
  · simp [exitEvent, compensateStopped, h, Except.toOption]

/-- A finalize goes through exactly when none of its locks is poisoned. -/
theorem finalizable_iff :
    shell.finalizable = true ↔ ∃ rollback left, finalizeStop shellId shell = (.ok rollback,
      left) := by
  cases hl : shell.lifecycle with
  | pending | closed => simp [LockedShell.finalizable, finalizeStop, hl]
  | running profile run =>
      simp only [LockedShell.finalizable, finalizeStop, hl]
      cases shell.poisoned.ended <;> cases shell.poisoned.lastRun <;>
        cases shell.poisoned.outputWait <;> simp
  | exited code profile run runtime =>
      simp only [LockedShell.finalizable, finalizeStop, hl]
      cases shell.poisoned.ended <;> cases shell.poisoned.lastRun <;> simp

theorem settle_closed (h : shell.lifecycle = .closed) :
    settle shellId shell = shell ∧ exitEvent shellId shell = none := by
  simp only [settle, exitEvent, compensateStopped, finalizeStop, h, restoreStopped]
  refine ⟨?_, rfl⟩
  rw [← h]

/-- A running Shell whose locks are fine becomes pending, and the exit of its run is told. -/
theorem settle_running (shellId : String) {profile : TerminalProfile} {run : ShellRun}
    (h : shell.lifecycle = .running profile run) (hf : shell.finalizable = true) :
    (settle shellId shell).lifecycle = .pending ∧
      (settle shellId shell).lastRun = some ((run.finish .terminated).persisted profile) ∧
      exitEvent shellId shell =
        some (.runExited shell.workspaceId shellId (run.finish .terminated)) := by
  simp only [LockedShell.finalizable, h, Bool.and_eq_true, Bool.not_eq_true'] at hf
  obtain ⟨⟨he, hl⟩, ho⟩ := hf
  simp [settle, exitEvent, compensateStopped, finalizeStop, h, he, hl, ho, restoreStopped,
    Except.toOption]

/-- A poisoned lock leaves a running Shell running, and nothing is told. -/
theorem settle_poisoned (shellId : String) {profile : TerminalProfile} {run : ShellRun}
    (h : shell.lifecycle = .running profile run) (hf : shell.finalizable = false) :
    (∃ run', (settle shellId shell).lifecycle = .running profile run' ∧ run'.id = run.id) ∧
      exitEvent shellId shell = none := by
  have hlocks : shell.poisoned.ended = true ∨ shell.poisoned.lastRun = true ∨
      shell.poisoned.outputWait = true := by
    simp only [LockedShell.finalizable, h, Bool.and_eq_false_iff, Bool.not_eq_false'] at hf
    exact or_assoc.mp hf
  simp only [settle, exitEvent, compensateStopped, finalizeStop, h]
  split
  next heq =>
    split at heq
    · cases heq
    split at heq
    · cases heq
    split at heq
    · cases heq
    simp_all
  next heq =>
    refine ⟨?_, rfl⟩
    split at heq
    · obtain ⟨-, rfl⟩ := Prod.mk.inj heq
      exact ⟨run, h, rfl⟩
    split at heq
    · obtain ⟨-, rfl⟩ := Prod.mk.inj heq
      exact ⟨_, rfl, ShellRun.finish_id ..⟩
    split at heq
    · obtain ⟨-, rfl⟩ := Prod.mk.inj heq
      exact ⟨_, rfl, ShellRun.finish_id ..⟩
    · cases heq

/-- An exited Shell stays exited. -/
theorem settle_exited {code : Option Nat} {profile : TerminalProfile} {run : ShellRun}
    {runtime : Bool} (h : shell.lifecycle = .exited code profile run runtime) :
    (settle shellId shell).lifecycle = shell.lifecycle ∧ exitEvent shellId shell = none := by
  simp only [settle, exitEvent, compensateStopped, finalizeStop, h]
  cases shell.poisoned.ended || shell.poisoned.lastRun
  · exact ⟨rfl, rfl⟩
  · exact ⟨h, rfl⟩

theorem settle_pending (h : shell.lifecycle = .pending) :
    (settle shellId shell).lifecycle = .pending ∧ exitEvent shellId shell = none := by
  simp [settle, exitEvent, compensateStopped, finalizeStop, h, restoreStopped, Except.toOption]

/-- A compensation closes no Shell. -/
theorem settle_lifecycle_closed :
    (settle shellId shell).lifecycle = .closed ↔ shell.lifecycle = .closed := by
  cases hl : shell.lifecycle with
  | pending => rw [(settle_pending hl).1]
  | closed => rw [(settle_closed hl).1, hl]
  | exited => rw [(settle_exited hl).1, hl]
  | running profile run =>
      cases hf : shell.finalizable with
      | true => simp [(settle_running _ hl hf).1]
      | false =>
          obtain ⟨⟨run', hl', -⟩, -⟩ := settle_poisoned shellId hl hf
          simp [hl']

theorem running_of_isSome (h : shell.running?.isSome = true) :
    ∃ profile run, shell.lifecycle = .running profile run := by
  cases hl : shell.lifecycle with
  | running profile run => exact ⟨profile, run, rfl⟩
  | _ => simp [Shell.running?, hl] at h

/-- What a compensation leaves alone. -/
theorem settle_same (shellId : String) (shell : LockedShell) :
    (settle shellId shell).workspaceId = shell.workspaceId ∧
    (settle shellId shell).revision = shell.revision ∧
      (settle shellId shell).poisoned = shell.poisoned := by
  unfold settle compensateStopped finalizeStop restoreStopped
  cases hl : shell.lifecycle with
  | pending => simp
  | closed => simp [hl]
  | running profile run =>
      cases shell.poisoned.ended <;> cases shell.poisoned.lastRun <;>
        cases shell.poisoned.outputWait <;> simp
  | exited code profile run runtime =>
      cases shell.poisoned.ended <;> cases shell.poisoned.lastRun <;> simp

/-- Only the run of a running Shell exits. -/
theorem exitEvent_running {event : DaemonEventKind} (h : exitEvent shellId shell = some event) :
    ∃ run, shell.running? = some run ∧
      event = .runExited shell.workspaceId shellId (run.finish .terminated) := by
  cases hl : shell.lifecycle with
  | pending => rw [(settle_pending hl).2] at h; cases h
  | closed => rw [(settle_closed hl).2] at h; cases h
  | exited => rw [(settle_exited hl).2] at h; cases h
  | running profile run =>
      cases hf : shell.finalizable with
      | false => rw [(settle_poisoned _ hl hf).2] at h; cases h
      | true =>
          rw [(settle_running _ hl hf).2.2] at h
          exact ⟨run, by simp [Shell.running?, hl], (Option.some.inj h).symm⟩

/-- A run ends once. -/
theorem finish_finish (run : ShellRun) (reason : ShellRunExitReason) :
    (run.finish reason).finish reason = run.finish reason := by
  obtain ⟨id, generation, exitReason, outputRevision⟩ := run
  cases exitReason <;> rfl

/-- A second compensation changes nothing and tells nothing. -/
theorem settle_settle : settle shellId (settle shellId shell) = settle shellId shell ∧
    exitEvent shellId (settle shellId shell) = none := by
  obtain ⟨⟨workspaceId, lastRun, lifecycle⟩, revision, ⟨ended, last, wait⟩⟩ := shell
  cases lifecycle with
  | pending | closed => exact ⟨rfl, rfl⟩
  | running profile run =>
      cases ended with
      | true => exact ⟨rfl, rfl⟩
      | false =>
          cases last <;> cases wait <;>
            simp [settle, exitEvent, compensateStopped, finalizeStop, restoreStopped, finish_finish,
              Except.toOption]
  | exited code profile run runtime =>
      cases ended <;> cases last <;> exact ⟨rfl, rfl⟩

end Shell

/-! ## A list of Shells -/

/-- No two running Shells carry the same run. -/
def RunsDistinct (m : HashMap String LockedShell) : Prop :=
  ∀ k k' shell shell' run run', m.lookup k = some shell → m.lookup k' = some shell' →
    shell.running? = some run → shell'.running? = some run' → run.id = run'.id → k = k'

/-- A compensation of the Shell under `k` tells the exit of the run `runId`. -/
def Ends (m : HashMap String LockedShell) (runId k : String) : Prop :=
  ∃ shell event, m.lookup k = some shell ∧ exitEvent k shell = some event ∧
    event.endsRun runId = true

/-- What the exits of a list of Shells are: one for every run that ends, and no other. -/
structure Exits (m : HashMap String LockedShell) (shells : List String)
    (events : List DaemonEventKind) : Prop where
  once : ∀ runId, ∀ k ∈ shells, Ends m runId k → events.countP (·.endsRun runId) = 1
  none : ∀ runId, (∀ k ∈ shells, ¬ Ends m runId k) → events.countP (·.endsRun runId) = 0

/-- The Shells `shells` of `m` are put back in `m'`, which queues `events`. -/
structure Settles (m : HashMap String LockedShell) (shells : List String)
    (m' : HashMap String LockedShell) (events : List DaemonEventKind) : Prop where
  get : ∀ k, m'.lookup k =
    (m.lookup k).map fun shell => if k ∈ shells then settle k shell else shell
  exits : Exits m shells events

section Shells

variable {m m' m'' : HashMap String LockedShell} {shells more : List String}
  {events events' : List DaemonEventKind} {shellId k runId : String} {shell left : LockedShell}
  {rollback : StopRollback}

theorem Ends.running (h : Ends m runId k) :
    ∃ shell run, m.lookup k = some shell ∧ shell.running? = some run ∧ run.id = runId := by
  obtain ⟨shell, event, hget, hexit, hends⟩ := h
  obtain ⟨run, hrun, rfl⟩ := exitEvent_running hexit
  exact ⟨shell, run, hget, hrun, by simpa [DaemonEventKind.endsRun] using hends⟩

theorem RunsDistinct.ends (h : RunsDistinct m) (hk : Ends m runId k) {k' : String}
    (hk' : Ends m runId k') : k = k' := by
  obtain ⟨shell, run, hget, hrun, hid⟩ := hk.running
  obtain ⟨shell', run', hget', hrun', hid'⟩ := hk'.running
  exact h k k' shell shell' run run' hget hget' hrun hrun' (hid.trans hid'.symm)

/-- Shells whose exits are told later still end the same runs. -/
theorem Exits.append (hd : RunsDistinct m) (h : Exits m shells events)
    (h' : Exits m' more events')
    (hsame : ∀ runId k, Ends m' runId k ↔ Ends m runId k ∧ k ∉ shells) :
    Exits m (shells ++ more) (events ++ events') where
  once runId k hk hends := by
    rw [List.countP_append]
    by_cases hmem : k ∈ shells
    · rw [h.once runId k hmem hends, h'.none runId]
      intro k' _ hends'
      obtain ⟨hends', hnot⟩ := (hsame runId k').mp hends'
      exact hnot (hd.ends hends hends' ▸ hmem)
    · have hmore : k ∈ more := (List.mem_append.mp hk).resolve_left hmem
      rw [h'.once runId k hmore ((hsame runId k).mpr ⟨hends, hmem⟩), h.none runId]
      intro k' hk' hends'
      exact hmem (hd.ends hends hends' ▸ hk')
  none runId hnone := by
    rw [List.countP_append, h.none runId fun k hk => hnone k (List.mem_append_left _ hk),
      h'.none runId fun k hk hends =>
        hnone k (List.mem_append_right _ hk) ((hsame runId k).mp hends).1]

/-- The exit of one Shell comes first, and then it ends nothing any more. -/
theorem Exits.cons (hd : RunsDistinct m) (hget : m.lookup k = some shell)
    (hleft : exitEvent k left = Option.none) (h : Exits (m.insert k left) shells events) :
    Exits m (k :: shells) ((exitEvent k shell).toList ++ events) := by
  have hone : Exits m [k] (exitEvent k shell).toList := by
    refine ⟨fun runId j hj hends => ?_, fun runId hnone => ?_⟩
    · obtain rfl := List.mem_singleton.mp hj
      obtain ⟨shell', event, hget', hexit, hends⟩ := hends
      rw [hget] at hget'
      cases hget'
      rw [hexit]
      simp [hends]
    · rw [List.countP_eq_zero]
      intro event he hends
      rw [Option.mem_toList] at he
      exact hnone k (List.mem_singleton_self k) ⟨shell, event, hget, he, hends⟩
  refine hone.append hd h fun runId j => ?_
  unfold Ends
  rw [HashMap.get_insert]
  by_cases hj : j = k
  · subst hj
    simp [hleft]
  · simp [hj]

/-- A Shell that is not in the map ends nothing. -/
theorem Exits.skip (h : Exits m shells events) (hget : m.lookup k = Option.none) :
    Exits m (k :: shells) events := by
  have hends : ∀ runId, ¬ Ends m runId k := fun runId ⟨_, _, hsome, _⟩ => by
    rw [hget] at hsome
    cases hsome
  refine ⟨fun runId j hj he => ?_, fun runId hn =>
    h.none runId fun j hj => hn j (List.mem_cons_of_mem _ hj)⟩
  rcases List.mem_cons.mp hj with rfl | hj
  · exact absurd he (hends runId)
  · exact h.once runId j hj he

theorem RunsDistinct.insert (h : RunsDistinct m) (hget : m.lookup k = some shell)
    (hleft : ∀ run', left.running? = some run' →
      ∃ run, shell.running? = some run ∧ run.id = run'.id) :
    RunsDistinct (m.insert k left) := by
  have hold : ∀ j other run', (m.insert k left).lookup j = some other → other.running? = some run' →
      ∃ old run, m.lookup j = some old ∧ old.running? = some run ∧ run.id = run'.id := by
    intro j other run' hj hrun
    rw [HashMap.get_insert] at hj
    split at hj
    next he =>
      cases hj
      obtain ⟨run, hrun, hid⟩ := hleft run' hrun
      exact ⟨shell, run, he ▸ hget, hrun, hid⟩
    next => exact ⟨other, run', hj, hrun, rfl⟩
  intro j j' other other' run run' hj hj' hrun hrun' hid
  obtain ⟨old, r, hget, hr, hrid⟩ := hold j other run hj hrun
  obtain ⟨old', r', hget', hr', hrid'⟩ := hold j' other' run' hj' hrun'
  exact h j j' old old' r r' hget hget' hr hr' (hrid.trans (hid.trans hrid'.symm))

/-- A compensation starts no run. -/
theorem settle_running? {run' : ShellRun} (h : (settle k shell).running? = some run') :
    ∃ run, shell.running? = some run ∧ run.id = run'.id := by
  have hnone : ∀ {s : LockedShell}, s.running? = some run' → s.lifecycle ≠ .pending := by
    intro s hs hl
    simp [Shell.running?, hl] at hs
  cases hl : shell.lifecycle with
  | pending => exact absurd (settle_pending hl).1 (hnone h)
  | closed => exact ⟨run', (settle_closed hl).1 ▸ h, rfl⟩
  | exited code profile run runtime =>
      simp [Shell.running?, (settle_exited hl).1, hl] at h
  | running profile run =>
      cases hf : shell.finalizable with
      | true => exact absurd (settle_running _ hl hf).1 (hnone h)
      | false =>
          obtain ⟨⟨run'', hl', hid⟩, -⟩ := settle_poisoned k hl hf
          have : run'' = run' := by simpa [Shell.running?, hl'] using h
          exact ⟨run, by simp [Shell.running?, hl], this ▸ hid.symm⟩

/-! ## The loops -/

/-- Every Shell of the list that is in the map is put back. -/
theorem compensateAll_settles (hd : RunsDistinct m) (shells : List String) :
    Settles m shells (compensateAll m shells).1 (compensateAll m shells).2.1 := by
  induction shells generalizing m with
  | nil => exact ⟨fun k => by simp [compensateAll], fun _ _ hk => absurd hk List.not_mem_nil,
      fun _ _ => rfl⟩
  | cons shellId shells ih =>
      cases hget : m.lookup shellId with
      | none =>
          have hcall : compensateAll m (shellId :: shells) = compensateAll m shells := by
            simp [compensateAll, hget]
          rw [hcall]
          refine ⟨fun k => ?_, (ih hd).exits.skip hget⟩
          rw [(ih hd).get k]
          by_cases hk : k = shellId
          · subst hk
            rw [hget]
            rfl
          · simp [hk]
      | some shell =>
          have hcall : (compensateAll m (shellId :: shells)).1 =
                (compensateAll (m.insert shellId (settle shellId shell)) shells).1 ∧
              (compensateAll m (shellId :: shells)).2.1 = (exitEvent shellId shell).toList ++
                (compensateAll (m.insert shellId (settle shellId shell)) shells).2.1 := by
            unfold settle exitEvent
            rw [compensateAll, hget]
            dsimp only
            split <;> simp_all [Except.toOption]
          have hrest := ih (hd.insert hget fun _ => settle_running? (k := shellId))
          rw [hcall.1, hcall.2]
          refine ⟨fun k => ?_, hrest.exits.cons hd hget settle_settle.2⟩
          rw [hrest.get k, HashMap.get_insert]
          by_cases hk : k = shellId
          · subst hk
            rw [hget, if_pos rfl]
            simp [settle_settle.1]
          · simp [hk]

/-- What a finalize loop without a failure leaves of every Shell. -/
structure Stopped (m : HashMap String LockedShell) (shells : List String) (f : Finalized) :
    Prop where
  finalizable : ∀ k ∈ shells, ∀ shell, m.lookup k = some shell → shell.finalizable = true
  get : ∀ k, f.shells.lookup k =
    (m.lookup k).map fun shell => if k ∈ shells then (finalizeStop k shell).2 else shell
  /-- what the restore loop does to the Shell under `k` -/
  rollbacks : ∀ k shell, m.lookup k = some shell → ∀ other : LockedShell,
    (f.rollbacks.filterMap fun p => if p.1 = k then some p.2 else none).foldl restoreStopped other =
      if k ∈ shells then
        match (finalizeStop k shell).1 with
        | .ok rollback => restoreStopped other rollback
        | .error _ => other
      else other
  exits : Exits m shells (f.rollbacks.filterMap fun p => p.2.event)

theorem Stopped.skip {f : Finalized} (hget : m.lookup shellId = none) (h : Stopped m shells f) :
    Stopped m (shellId :: shells) f := by
  have hne : ∀ {k shell}, m.lookup k = some shell → k ≠ shellId := by
    rintro k shell hk rfl
    rw [hget] at hk
    cases hk
  refine ⟨fun k hk shell hs => ?_, fun k => ?_, fun k shell hs other => ?_, h.exits.skip hget⟩
  · exact h.finalizable k ((List.mem_cons.mp hk).resolve_left (hne hs)) shell hs
  · rw [h.get k]
    cases hk : m.lookup k with
    | none => rfl
    | some shell => simp [hne hk]
  · rw [h.rollbacks k shell hs other]
    simp [hne hs]

/-- The rollback of a closed Shell does nothing. -/
theorem restoreStopped_closed (shell : LockedShell) :
    restoreStopped shell ⟨.closed, none⟩ = shell := by
  unfold restoreStopped
  split
  next h => rw [← h]
  next => rfl

/-- A Shell that is stopped first is closed for the rest of the loop, and its later rollbacks do
nothing. -/
theorem Stopped.cons {f : Finalized} (hd : RunsDistinct m) (hget : m.lookup shellId = some shell)
    (hstop : finalizeStop shellId shell = (.ok rollback, left))
    (h : Stopped (m.insert shellId left) shells f) :
    Stopped m (shellId :: shells) { f with rollbacks := (shellId, rollback) :: f.rollbacks } := by
  obtain ⟨-, hevent, hclosed, -⟩ := finalizeStop_ok hstop
  have hagain : finalizeStop shellId left = (.ok ⟨.closed, none⟩, left) := by
    simp [finalizeStop, hclosed]
  refine ⟨fun k hk shell' hs => ?_, fun k => ?_, fun k shell' hs other => ?_, ?_⟩
  · by_cases hk' : k = shellId
    · subst hk'
      rw [hget] at hs
      cases hs
      exact finalizable_iff.mpr ⟨rollback, left, hstop⟩
    · exact h.finalizable k ((List.mem_cons.mp hk).resolve_left hk') shell'
        (by rw [HashMap.get_insert, if_neg hk', hs])
  · show f.shells.lookup k = _
    rw [h.get k, HashMap.get_insert]
    by_cases hk : k = shellId
    · subst hk
      simp [hget, hagain, hstop]
    · simp [hk]
  · by_cases hk : k = shellId
    · subst hk
      rw [hget] at hs
      cases hs
      have hrest := h.rollbacks k left (by rw [HashMap.get_insert, if_pos rfl])
        (restoreStopped other rollback)
      rw [hagain] at hrest
      simp only [restoreStopped_closed, ite_self] at hrest
      simp only [List.filterMap_cons, if_true, List.foldl_cons, hrest, hstop, List.mem_cons_self]
    · rw [List.filterMap_cons_none (by simp [Ne.symm hk]),
        h.rollbacks k shell' (by rw [HashMap.get_insert, if_neg hk, hs]) other]
      simp [hk]
  · have hexits := h.exits.cons hd hget (settle_closed hclosed).2
    rw [hevent] at hexits
    show Exits m (shellId :: shells) (List.filterMap _ ((shellId, rollback) :: f.rollbacks))
    rw [List.filterMap_cons]
    cases he : rollback.event <;> simpa [he] using hexits

theorem finalizeAll_stopped (hd : RunsDistinct m) (hf : (finalizeAll m shells).failed = none) :
    Stopped m shells (finalizeAll m shells) := by
  induction shells generalizing m with
  | nil => exact ⟨fun k hk => absurd hk List.not_mem_nil, fun k => by simp [finalizeAll],
      fun k shell _ other => rfl, fun _ _ hk => absurd hk List.not_mem_nil, fun _ _ => rfl⟩
  | cons shellId shells ih =>
      cases hget : m.lookup shellId with
      | none =>
          have hcall : finalizeAll m (shellId :: shells) = finalizeAll m shells := by
            simp [finalizeAll, hget]
          rw [hcall] at hf ⊢
          exact (ih hd hf).skip hget
      | some shell =>
          cases hstop : finalizeStop shellId shell with
          | mk result left =>
            cases result with
            | error e => simp [finalizeAll, hget, hstop] at hf
            | ok rollback =>
                have hcall : finalizeAll m (shellId :: shells) =
                    { finalizeAll (m.insert shellId left) shells with
                      rollbacks := (shellId, rollback) ::
                        (finalizeAll (m.insert shellId left) shells).rollbacks } := by
                  simp [finalizeAll, hget, hstop]
                rw [hcall] at hf ⊢
                obtain ⟨-, -, -, hidle⟩ := finalizeStop_ok hstop
                have hdistinct : RunsDistinct (m.insert shellId left) :=
                  hd.insert hget fun run' hrun => by
                    rw [hidle] at hrun
                    cases hrun
                exact (ih hdistinct hf).cons hd hget hstop

theorem restoreAll_get (rollbacks : List (String × StopRollback)) (m : HashMap String LockedShell)
    (k : String) : (restoreAll m rollbacks).lookup k = (m.lookup k).map fun shell =>
      (rollbacks.filterMap fun p => if p.1 = k then some p.2
        else none).foldl restoreStopped shell := by
  induction rollbacks generalizing m with
  | nil => simp [restoreAll]
  | cons p rollbacks ih =>
      cases hget : m.lookup p.1 with
      | none =>
          have hcall : restoreAll m (p :: rollbacks) = restoreAll m rollbacks := by
            simp [restoreAll, hget]
          rw [hcall, ih]
          by_cases hk : p.1 = k
          · rw [← hk, hget]
            rfl
          · simp [hk]
      | some shell =>
          have hcall : restoreAll m (p :: rollbacks) =
              restoreAll (m.insert p.1 (restoreStopped shell p.2)) rollbacks := by
            simp [restoreAll, hget]
          rw [hcall, ih, HashMap.get_insert]
          by_cases hk : k = p.1
          · subst hk
            simp [hget]
          · simp [hk, Ne.symm hk]

/-- The restore loop puts back what the finalize loop has stopped. -/
theorem Stopped.restoreAll {f : Finalized} (h : Stopped m shells f)
    (hsame : HashMap.Same m' f.shells) :
    Settles m shells (restoreAll m' f.rollbacks) (f.rollbacks.filterMap fun p => p.2.event) := by
  refine ⟨fun k => ?_, h.exits⟩
  rw [restoreAll_get, hsame k, h.get k]
  cases hget : m.lookup k with
  | none => rfl
  | some shell =>
      simp only [Option.map_some, Option.some.injEq]
      rw [h.rollbacks k shell hget]
      by_cases hk : k ∈ shells
      · obtain ⟨rollback, left, hstop⟩ := finalizable_iff.mp (h.finalizable k hk shell hget)
        rw [if_pos hk, if_pos hk, if_pos hk, hstop, (finalizeStop_ok hstop).1]
      · rw [if_neg hk, if_neg hk, if_neg hk]

/-- Where a finalize loop fails: the Shells before are stopped, and the failed one is left as a
compensation would leave it. -/
theorem finalizeAll_failed {remaining : List String} {e : IoError} (hd : RunsDistinct m)
    (hf : (finalizeAll m shells).failed = some (remaining, e)) :
    ∃ done rest m₁ shellId shell left, shells = done ++ remaining ∧ remaining = shellId :: rest ∧
      Stopped m done ⟨m₁, (finalizeAll m shells).rollbacks, none⟩ ∧
      m₁.lookup shellId = some shell ∧ finalizeStop shellId shell = (.error e, left) ∧
      (finalizeAll m shells).shells = m₁.insert shellId left := by
  induction shells generalizing m with
  | nil => cases hf
  | cons shellId shells ih =>
      cases hget : m.lookup shellId with
      | none =>
          have hcall : finalizeAll m (shellId :: shells) = finalizeAll m shells := by
            simp [finalizeAll, hget]
          rw [hcall] at hf ⊢
          obtain ⟨done, rest, m₁, id, shell, left, rfl, hrest, hstopped, h⟩ := ih hd hf
          exact ⟨shellId :: done, rest, m₁, id, shell, left, rfl, hrest, hstopped.skip hget, h⟩
      | some shell =>
          cases hstop : finalizeStop shellId shell with
          | mk result left =>
            cases result with
            | error e' =>
                have hcall : finalizeAll m (shellId :: shells) =
                    ⟨m.insert shellId left, [], some (shellId :: shells, e')⟩ := by
                  simp [finalizeAll, hget, hstop]
                rw [hcall] at hf ⊢
                obtain ⟨rfl, rfl⟩ := Prod.mk.inj (Option.some.inj hf)
                refine ⟨[], shells, m, shellId, shell, left, rfl, rfl, ?_, hget, hstop, rfl⟩
                exact ⟨fun k hk => absurd hk List.not_mem_nil, fun k => by simp,
                  fun k shell _ other => rfl, fun _ _ hk => absurd hk List.not_mem_nil,
                  fun _ _ => rfl⟩
            | ok rollback =>
                have hcall : finalizeAll m (shellId :: shells) =
                    { finalizeAll (m.insert shellId left) shells with
                      rollbacks := (shellId, rollback) ::
                        (finalizeAll (m.insert shellId left) shells).rollbacks } := by
                  simp [finalizeAll, hget, hstop]
                rw [hcall] at hf ⊢
                obtain ⟨-, -, -, hidle⟩ := finalizeStop_ok hstop
                have hdistinct : RunsDistinct (m.insert shellId left) :=
                  hd.insert hget fun run' hrun => by
                    rw [hidle] at hrun
                    cases hrun
                obtain ⟨done, rest, m₁, id, shell', left', rfl, hrest, hstopped, h⟩ :=
                  ih hdistinct hf
                exact ⟨shellId :: done, rest, m₁, id, shell', left', rfl, hrest,
                  hstopped.cons hd hget hstop, h⟩

/-- The Shell at which a finalize loop fails is not among those before: they are closed, and a
finalize of a closed Shell does not fail. -/
theorem Stopped.fresh {f : Finalized} {e : IoError} (h : Stopped m shells f)
    (hget : f.shells.lookup shellId = some shell) (hstop : finalizeStop shellId shell = (.error e,
      left)) :
    m.lookup shellId = some shell ∧ shellId ∉ shells := by
  have hm := h.get shellId
  rw [hget] at hm
  obtain ⟨old, hold, hm⟩ := Option.map_eq_some_iff.mp hm.symm
  by_cases hmem : shellId ∈ shells
  · obtain ⟨rollback, closed, hok⟩ := finalizable_iff.mp (h.finalizable _ hmem old hold)
    rw [if_pos hmem, hok] at hm
    obtain ⟨-, -, hclosed, -⟩ := finalizeStop_ok hok
    simp [← hm, finalizeStop, hclosed] at hstop
  · rw [if_neg hmem] at hm
    exact ⟨hm ▸ hold, hmem⟩

/-- A finalize loop fails at a Shell with a poisoned lock. -/
theorem finalizeAll_failed_poisoned {remaining : List String} {e : IoError} (hd : RunsDistinct m)
    (hf : (finalizeAll m shells).failed = some (remaining, e)) :
    ∃ k ∈ shells, ∃ shell, m.lookup k = some shell ∧ shell.finalizable = false := by
  obtain ⟨done, rest, m₁, k, shell, left, hlist, rfl, hstopped, hget, hstop, -⟩ :=
    finalizeAll_failed hd hf
  refine ⟨k, hlist ▸ List.mem_append_right _ List.mem_cons_self, shell,
    (hstopped.fresh hget hstop).1, ?_⟩
  rw [← Bool.not_eq_true, finalizable_iff]
  rintro ⟨rollback, left', hok⟩
  rw [hstop] at hok
  cases hok

theorem RunsDistinct.settled (h : RunsDistinct m)
    (hs : ∀ k shell', m'.lookup k = some shell' →
      ∃ shell, m.lookup k = some shell ∧ (shell' = settle k shell ∨ shell' = shell)) :
    RunsDistinct m' := by
  have hold : ∀ k shell' run', m'.lookup k = some shell' → shell'.running? = some run' →
      ∃ shell run, m.lookup k = some shell ∧ shell.running? = some run ∧ run.id = run'.id := by
    intro k shell' run' hget hrun
    obtain ⟨shell, hm, rfl | rfl⟩ := hs k shell' hget
    · obtain ⟨run, hr, hid⟩ := settle_running? hrun
      exact ⟨shell, run, hm, hr, hid⟩
    · exact ⟨shell', run', hm, hrun, rfl⟩
  intro k k' shell shell' run run' hget hget' hrun hrun' hid
  obtain ⟨old, r, hm, hr, hrid⟩ := hold k shell run hget hrun
  obtain ⟨old', r', hm', hr', hrid'⟩ := hold k' shell' run' hget' hrun'
  exact h k k' old old' r r' hm hm' hr hr' (hrid.trans (hid.trans hrid'.symm))

/-- After a failed finalize loop the two compensations together put every Shell back. -/
theorem finalizeAll_failed_settles {remaining : List String} {e : IoError} (hd : RunsDistinct m)
    (hf : (finalizeAll m shells).failed = some (remaining, e)) :
    Settles m shells
      (compensateAll (restoreAll (finalizeAll m shells).shells (finalizeAll m shells).rollbacks)
        remaining).1
      ((finalizeAll m shells).rollbacks.filterMap (fun p => p.2.event) ++
        (compensateAll (restoreAll (finalizeAll m shells).shells (finalizeAll m shells).rollbacks)
          remaining).2.1) := by
  -- The loop stopped at `shellId`: those before it are finalized, and it and the rest are not.
  obtain ⟨done, rest, m₁, shellId, shell, left, hlist, rfl, hstopped, hget, hstop, hshells⟩ :=
    finalizeAll_failed hd hf
  obtain ⟨hleft, hquiet⟩ := finalizeStop_error hstop
  have hfresh := hstopped.fresh hget hstop
  generalize hm₂ : restoreAll (finalizeAll m shells).shells (finalizeAll m shells).rollbacks = m₂
  -- What the restored registry has: whatever the loop has come to is settled.
  have hget₂ : ∀ k, m₂.lookup k =
      (m.lookup k).map fun s => if k ∈ done ∨ k = shellId then settle k s else s := by
    intro k
    rw [← hm₂, restoreAll_get, hshells, HashMap.get_insert]
    by_cases hk : k = shellId
    · subst hk
      have hnone := hstopped.rollbacks k shell hfresh.1 left
      rw [if_neg hfresh.2] at hnone
      rw [if_pos rfl, Option.map_some, hnone, hfresh.1]
      simp [hleft]
    · rw [if_neg hk, ← restoreAll_get, (hstopped.restoreAll (.refl _)).get k]
      simp [hk]
  -- No run of a finalized Shell is left to end.
  have hends : ∀ runId k, Ends m₂ runId k ↔ Ends m runId k ∧ k ∉ done := by
    intro runId k
    unfold Ends
    rw [hget₂ k]
    by_cases hk : k ∈ done ∨ k = shellId
    · have hsettled : ∀ s event, (m.lookup k).map (settle k) = some s →
          exitEvent k s ≠ some event := by
        rintro s event hs
        obtain ⟨old, -, rfl⟩ := Option.map_eq_some_iff.mp hs
        rw [settle_settle.2]
        nofun
      simp only [if_pos hk]
      constructor
      · rintro ⟨s, event, hs, he, -⟩
        exact absurd he (hsettled s event hs)
      · rintro ⟨⟨s, event, hs, he, -⟩, hnot⟩
        obtain rfl := hk.resolve_left hnot
        rw [hfresh.1] at hs
        cases hs
        rw [hquiet] at he
        cases he
    · simp [not_or.mp hk]
  have hd₂ : RunsDistinct m₂ := hd.settled fun k shell' hs => by
    rw [hget₂ k] at hs
    obtain ⟨old, hold, rfl⟩ := Option.map_eq_some_iff.mp hs
    by_cases hk : k ∈ done ∨ k = shellId
    · exact ⟨old, hold, .inl (if_pos hk)⟩
    · exact ⟨old, hold, .inr (if_neg hk)⟩
  -- The second compensation goes over the Shells that the loop did not finish.
  have hrest := compensateAll_settles hd₂ (shellId :: rest)
  have hmem : ∀ k, k ∈ shells ↔ (k ∈ done ∨ k = shellId) ∨ k ∈ shellId :: rest := fun k => by
    rw [hlist, List.mem_append, List.mem_cons]
    tauto
  refine ⟨fun k => ?_, ?_⟩
  · rw [hrest.get k, hget₂ k, Option.map_map]
    congr 1
    funext s
    show (if k ∈ shellId :: rest then settle k _ else _) = _
    -- To settle a Shell twice is to settle it once.
    by_cases hdone : k ∈ done ∨ k = shellId
    · have hk : k ∈ shells := (hmem k).mpr (.inl hdone)
      simp only [if_pos hdone, if_pos hk, settle_settle.1, ite_self]
    · have hk : k ∈ shells ↔ k ∈ shellId :: rest := (hmem k).trans (or_iff_right hdone)
      simp only [if_neg hdone, hk]
  · have hexits := Exits.append hd hstopped.exits hrest.exits hends
    rwa [← hlist] at hexits

end Shells

end Boomux.Daemon.Lifecycle
