import Boomux.Daemon.StartAtomic

/-!
# Cold recovery

The staging loop of `recover_shells` in terms of the state before it: the targets have different
Shells, so what happens to one of them does not depend on the others, except that the loop stops at
the first that breaks it. `rollback_recovery` then puts every Shell back whose process it can stop.
-/

set_option autoImplicit false

namespace Boomux.Daemon

open Rust

variable {R : Type} {w u : StartWorld R}

namespace StartWorld

/-! ## Targets -/

/-- The run that the start of the target would have, with the Shell and its last run. -/
def recovered (w : StartWorld R) (target : ShellRecoveryTarget) :
    Option (Shell × PersistedShellRun × ShellRun) :=
  match w.recoveryTarget target with
  | .ok (shell, previous) =>
      (checkedAdd previous.generation 1).map fun generation =>
        (shell, previous, .new target.runId generation)
  | .error _ => none

/-- The target is accepted, and its process is spawned. -/
def spawns (w : StartWorld R) (target : ShellRecoveryTarget) : Bool :=
  (w.recovered target).isSome && target.outcome.prepareError.isNone &&
    target.outcome.spawnError.isNone

/-- The target is accepted, and makes the whole call fail. -/
def breaks (w : StartWorld R) (target : ShellRecoveryTarget) : Bool :=
  (w.recoveryTarget target).isOk &&
    (target.outcome.prepareError.isSome || (w.recovered target).isNone ||
      target.outcome.spawnError.isNone && target.outcome.readerError.isSome)

/-- The targets up to the first that makes the call fail. -/
def reached (w : StartWorld R) : List ShellRecoveryTarget → List ShellRecoveryTarget
  | [] => []
  | target :: targets => if w.breaks target then [target] else target :: w.reached targets

theorem reached_sublist (targets : List ShellRecoveryTarget) :
    (w.reached targets).Sublist targets := by
  induction targets with
  | nil => exact .refl _
  | cons target targets ih =>
      unfold reached
      split
      · exact .cons_cons target (List.nil_sublist _)
      · exact .cons_cons target ih

theorem reached_of_not_breaks {targets : List ShellRecoveryTarget}
    (h : targets.any w.breaks = false) : w.reached targets = targets := by
  induction targets with
  | nil => rfl
  | cons target targets ih =>
      simp only [List.any_cons, Bool.or_eq_false_iff] at h
      rw [reached, h.1, ih h.2]
      rfl

/-- The event of the start. -/
def startEvent (w : StartWorld R) (target : ShellRecoveryTarget) : Option DaemonEventKind :=
  (w.recovered target).map fun r => .runStarted r.1.workspaceId target.shellId r.2.2

theorem recoveryTarget_eq_ok {target : ShellRecoveryTarget} {shell : Shell}
    {previous : PersistedShellRun} (h : w.recoveryTarget target = .ok (shell, previous)) :
    w.shells.get target.shellId = some shell ∧ shell.lifecycle = .pending ∧
      shell.lastRun = some previous := by
  unfold recoveryTarget at h
  split at h
  · cases h
  next shell' hget =>
    split at h
    next hpending =>
      split at h
      · cases h
      next previous' hlast =>
        split at h
        next =>
          cases h
          exact ⟨hget, hpending, (Option.filter_eq_some_iff.mp hlast).1⟩
        next => cases h
    next => cases h

theorem recoveryTarget_congr {target : ShellRecoveryTarget}
    (h : u.shells.get target.shellId = w.shells.get target.shellId) :
    u.recoveryTarget target = w.recoveryTarget target := by
  unfold recoveryTarget
  rw [h]

theorem recovered_eq_some {target : ShellRecoveryTarget} {shell : Shell}
    {previous : PersistedShellRun} {run : ShellRun}
    (h : w.recovered target = some (shell, previous, run)) :
    w.recoveryTarget target = .ok (shell, previous) ∧ run.id = target.runId ∧
      nextGeneration shell.lastRun = some run.generation := by
  unfold recovered at h
  split at h
  next shell' previous' hr =>
    obtain ⟨generation, hg, heq⟩ := Option.map_eq_some_iff.mp h
    cases heq
    refine ⟨hr, rfl, ?_⟩
    rw [(recoveryTarget_eq_ok hr).2.2]
    exact hg
  next => cases h

end StartWorld

open StartWorld

/-! ## Staging -/

/-- One turn of the loop, in a state that has not failed. -/
inductive StageEnds (s : Staged R) (target : ShellRecoveryTarget) : Staged R → Prop
  | unavailable (error : DaemonError) (hs : s.world.spawns target = false)
      (hb : s.world.breaks target = false) : StageEnds s target (s.unavailable target error)
  | fail (error : DaemonError) (hs : s.world.spawns target = false)
      (hb : s.world.breaks target = true) : StageEnds s target (s.fail error)
  | reader (error : DaemonError) (shell : Shell) (previous : PersistedShellRun) (run : ShellRun)
      (hr : s.world.recovered target = some (shell, previous, run))
      (hs : s.world.spawns target = true) (hb : s.world.breaks target = true) :
      StageEnds s target (Staged.fail { s with
        world := s.world.startRun target.shellId run target.profile
        started := s.started ++ [⟨target.shellId, previous⟩] } error)
  | started (shell : Shell) (previous : PersistedShellRun) (run : ShellRun)
      (hr : s.world.recovered target = some (shell, previous, run))
      (hs : s.world.spawns target = true) (hb : s.world.breaks target = false) :
      StageEnds s target { s with
        world := s.world.startRun target.shellId run target.profile
        started := s.started ++ [⟨target.shellId, previous⟩]
        events := s.events ++ [.runStarted shell.workspaceId target.shellId run]
        results := s.results ++ [.started target.shellId run] }

theorem stage_ends {s : Staged R} (h : s.error = none) (target : ShellRecoveryTarget) :
    StageEnds s target (s.stage target) := by
  unfold Staged.stage
  rw [if_neg (by simp [h])]
  cases hr : s.world.recoveryTarget target with
  | error error =>
      exact .unavailable error (by simp [spawns, recovered, hr])
        (by simp [breaks, hr, Except.isOk, Except.toBool])
  | ok selected =>
      obtain ⟨shell, previous⟩ := selected
      dsimp only
      cases hp : target.outcome.prepareError with
      | some error =>
          exact .fail _ (by simp [spawns, hp])
            (by simp [breaks, hr, hp, Except.isOk, Except.toBool])
      | none =>
          cases hg : checkedAdd previous.generation 1 with
          | none =>
              have hnone : s.world.recovered target = none := by simp [recovered, hr, hg]
              exact .fail _ (by simp [spawns, hnone])
                (by simp [breaks, hr, hnone, Except.isOk, Except.toBool])
          | some generation =>
              have hsome : s.world.recovered target =
                  some (shell, previous, .new target.runId generation) := by
                simp [recovered, hr, hg]
              dsimp only
              cases hspawn : target.outcome.spawnError with
              | some error =>
                  exact .unavailable _ (by simp [spawns, hspawn])
                    (by simp [breaks, hp, hsome, hspawn])
              | none =>
                  have hs : s.world.spawns target = true := by simp [spawns, hsome, hp, hspawn]
                  dsimp only
                  split
                  next error hread =>
                    exact .reader _ shell previous _ hsome hs (by
                      simp [breaks, hr, hspawn, hread, Except.isOk, Except.toBool])
                  next hread =>
                    exact .started shell previous _ hsome hs (by
                      simp [breaks, hp, hsome, hread])

theorem stage_of_error {s : Staged R} (h : s.error.isSome = true)
    (targets : List ShellRecoveryTarget) : targets.foldl Staged.stage s = s := by
  induction targets with
  | nil => rfl
  | cons target targets ih =>
      rw [List.foldl_cons, show s.stage target = s by rw [Staged.stage, if_pos h], ih]

/-- What a target is answered. -/
def Answered (w : StartWorld R) (target : ShellRecoveryTarget) : ShellRecoveryResult → Prop
  | .started shellId run => shellId = target.shellId ∧ w.spawns target = true ∧
      ∃ shell previous, w.recovered target = some (shell, previous, run)
  | .unavailable shellId _ => shellId = target.shellId ∧ w.spawns target = false

/-- The loop has gone through these targets. -/
structure Staging (w : StartWorld R) (targets : List ShellRecoveryTarget) (s : Staged R) :
    Prop where
  events : s.world.events = w.events
  effects : s.world.effects = w.effects
  started : s.started.map (·.shellId) = (targets.filter w.spawns).map (·.shellId)
  running : ∀ t ∈ targets, w.spawns t = true → ∃ shell previous run,
    w.recovered t = some (shell, previous, run) ∧ ⟨t.shellId, previous⟩ ∈ s.started ∧
      s.world.shells.get t.shellId = some (shell.started run t.profile)
  others : ∀ k, (∀ t ∈ targets, w.spawns t = true → t.shellId ≠ k) →
    s.world.shells.get k = w.shells.get k
  kinds : s.error = none → s.events = (targets.filter w.spawns).filterMap w.startEvent
  results : s.error = none → List.Forall₂ (Answered w) targets s.results

theorem Staging.start (w : StartWorld R) : Staging w [] ⟨w, [], [], [], none⟩ :=
  ⟨rfl, rfl, rfl, fun _ ht => absurd ht List.not_mem_nil, fun _ _ => rfl, fun _ => rfl,
    fun _ => .nil⟩

/-- A target whose process is not spawned changes nothing but the results. -/
theorem Staging.skip {targets : List ShellRecoveryTarget} {s s' : Staged R}
    (h : Staging w targets s)
    {target : ShellRecoveryTarget} (hs : w.spawns target = false) (hw : s'.world = s.world)
    (hst : s'.started = s.started)
    (hk : s'.error = none → s.error = none ∧ s'.events = s.events ∧
      ∃ error, s'.results = s.results ++ [.unavailable target.shellId error]) :
    Staging w (targets ++ [target]) s' := by
  have hfilter : (targets ++ [target]).filter w.spawns = targets.filter w.spawns := by
    simp [hs]
  refine ⟨hw ▸ h.events, hw ▸ h.effects, by rw [hst, hfilter]; exact h.started, ?_, ?_, ?_, ?_⟩
  · intro t ht hspawns
    rcases List.mem_append.mp ht with ht | ht
    · rw [hw, hst]
      exact h.running t ht hspawns
    · rw [List.mem_singleton.mp ht, hs] at hspawns
      cases hspawns
  · intro k hk
    rw [hw]
    exact h.others k fun t ht => hk t (List.mem_append_left _ ht)
  · intro he
    obtain ⟨he, hevents, -⟩ := hk he
    rw [hevents, hfilter]
    exact h.kinds he
  · intro he
    obtain ⟨he, -, error, hresults⟩ := hk he
    rw [hresults]
    exact List.rel_append (h.results he) (.cons ⟨rfl, hs⟩ .nil)

/-- A target whose process is spawned. -/
theorem Staging.spawn {targets : List ShellRecoveryTarget} {s s' : Staged R}
    (h : Staging w targets s) {target : ShellRecoveryTarget} {shell : Shell}
    {previous : PersistedShellRun} {run : ShellRun} (hs : w.spawns target = true)
    (hr : w.recovered target = some (shell, previous, run))
    (hnew : ∀ t ∈ targets, t.shellId ≠ target.shellId)
    (hw : s'.world = s.world.startRun target.shellId run target.profile)
    (hst : s'.started = s.started ++ [⟨target.shellId, previous⟩])
    (hk : s'.error = none → s.error = none ∧
      s'.events = s.events ++ [.runStarted shell.workspaceId target.shellId run] ∧
      s'.results = s.results ++ [.started target.shellId run]) :
    Staging w (targets ++ [target]) s' := by
  have hfilter : (targets ++ [target]).filter w.spawns = targets.filter w.spawns ++ [target] := by
    simp [hs]
  have hget : s.world.shells.get target.shellId = some shell := by
    rw [h.others _ fun t ht _ => hnew t ht]
    exact (recoveryTarget_eq_ok (recovered_eq_some hr).1).1
  refine ⟨by rw [hw]; exact h.events, by rw [hw]; exact h.effects, ?_, ?_, ?_, ?_, ?_⟩
  · rw [hst, hfilter, List.map_append, List.map_append, h.started]
    rfl
  · intro t ht hspawns
    rw [hw, hst]
    rcases List.mem_append.mp ht with ht | ht
    · obtain ⟨shell', previous', run', hr', hmem, hget'⟩ := h.running t ht hspawns
      refine ⟨shell', previous', run', hr', List.mem_append_left _ hmem, ?_⟩
      rw [startRun, StartWorld.get_modifyShell, if_neg (hnew t ht)]
      exact hget'
    · rw [List.mem_singleton.mp ht]
      exact ⟨shell, previous, run, hr, List.mem_append_right _ (List.mem_singleton_self _),
        get_startRun hget run target.profile⟩
  · intro k hk
    have hne : k ≠ target.shellId := fun heq =>
      hk target (List.mem_append_right _ (List.mem_singleton_self _)) hs heq.symm
    rw [hw, startRun, StartWorld.get_modifyShell, if_neg hne]
    exact h.others k fun t ht => hk t (List.mem_append_left _ ht)
  · intro he
    obtain ⟨he, hevents, -⟩ := hk he
    rw [hevents, hfilter, List.filterMap_append, h.kinds he]
    simp [startEvent, hr]
  · intro he
    obtain ⟨he, -, hresults⟩ := hk he
    rw [hresults]
    exact List.rel_append (h.results he) (.cons ⟨rfl, hs, shell, previous, hr⟩ .nil)

theorem Staging.stage {targets : List ShellRecoveryTarget} {s : Staged R} (h : Staging w targets s)
    (he : s.error = none) {target : ShellRecoveryTarget}
    (hnew : ∀ t ∈ targets, t.shellId ≠ target.shellId) :
    Staging w (targets ++ [target]) (s.stage target) ∧
      (s.stage target).error.isSome = w.breaks target := by
  have htarget : s.world.recoveryTarget target = w.recoveryTarget target :=
    recoveryTarget_congr (h.others _ fun t ht _ => hnew t ht)
  have hrecovered : s.world.recovered target = w.recovered target := by
    unfold recovered
    rw [htarget]
  have hspawns : s.world.spawns target = w.spawns target := by
    unfold spawns
    rw [hrecovered]
  have hbreaks : s.world.breaks target = w.breaks target := by
    unfold breaks
    rw [htarget, hrecovered]
  have hends := stage_ends he target
  generalize s.stage target = s' at hends
  cases hends with
  | unavailable error hs hb =>
      refine ⟨h.skip (by rw [← hspawns, hs]) rfl rfl fun he => ⟨he, rfl, error, rfl⟩, ?_⟩
      rw [← hbreaks, hb]
      exact Option.isSome_eq_false_iff.mpr (by simp [Staged.unavailable, he])
  | fail error hs hb =>
      refine ⟨h.skip (by rw [← hspawns, hs]) rfl rfl nofun, ?_⟩
      rw [← hbreaks, hb]
      rfl
  | reader error shell previous run hr hs hb =>
      refine ⟨h.spawn (by rw [← hspawns, hs]) (by rw [← hrecovered, hr]) hnew rfl rfl nofun, ?_⟩
      rw [← hbreaks, hb]
      rfl
  | started shell previous run hr hs hb =>
      refine ⟨h.spawn (by rw [← hspawns, hs]) (by rw [← hrecovered, hr]) hnew rfl rfl
        fun he => ⟨he, rfl, rfl⟩, ?_⟩
      rw [← hbreaks, hb]
      simp [he]

/-- The whole loop. -/
theorem Staging.foldl {targets done : List ShellRecoveryTarget} {s : Staged R}
    (h : Staging w done s) (he : s.error = none)
    (hnodup : ((done ++ targets).map (·.shellId)).Nodup) :
    Staging w (done ++ w.reached targets) (targets.foldl Staged.stage s) ∧
      (targets.foldl Staged.stage s).error.isSome = targets.any w.breaks := by
  induction targets generalizing done s with
  | nil =>
      refine ⟨by simpa [reached] using h, ?_⟩
      simp [he]
  | cons target targets ih =>
      have hnew : ∀ t ∈ done, t.shellId ≠ target.shellId := by
        intro t ht heq
        rw [List.map_append, List.map_cons] at hnodup
        exact (List.nodup_append.mp hnodup).2.2 _ (List.mem_map_of_mem ht) _
          (List.mem_cons_self ..) heq
      obtain ⟨hstaged, herror⟩ := h.stage he hnew
      rw [List.foldl_cons, reached, List.any_cons]
      cases hb : w.breaks target with
      | true =>
          rw [hb] at herror
          rw [stage_of_error herror, herror]
          exact ⟨hstaged, rfl⟩
      | false =>
          rw [hb] at herror
          have hrest := ih hstaged
            (Option.isSome_eq_false_iff.mp herror |> Option.isNone_iff_eq_none.mp)
            (by simpa using hnodup)
          simpa using hrest

/-! ## Rolling back -/

/-- What a turn of `rollback_recovery` makes of the Shell. -/
def rollbackShell (cleanup : String → Cleanup) (entry : StartedRecovery) (shell : Shell) : Shell :=
  match killShell entry.shellId shell (cleanup entry.shellId) with
  | (killed, none) => resetPending { killed with lastRun := some entry.previous }
  | (killed, some _) => killed

theorem rollbackOne_get (cleanup : String → Cleanup) (entry : StartedRecovery) (k : String) :
    (w.rollbackOne cleanup entry).shells.get k =
      if k = entry.shellId then (w.shells.get k).map (rollbackShell cleanup entry)
      else w.shells.get k := by
  unfold rollbackOne killError kill rollbackShell
  dsimp only
  split
  next text hk =>
    rw [StartWorld.get_modifyShell]
    split
    next heq =>
      obtain ⟨shell, hget, hkill⟩ := Option.bind_eq_some_iff.mp hk
      rw [heq, hget, Option.map_some, Option.map_some]
      split
      next killed h => rw [h] at hkill; cases hkill
      next killed text' h => rw [h]
    next => rfl
  next hk =>
    rw [StartWorld.get_modifyShell, StartWorld.get_modifyShell]
    split
    next heq =>
      cases hget : w.shells.get k with
      | none => rfl
      | some shell =>
          rw [heq] at hget
          rw [hget] at hk
          have hnone : (killShell entry.shellId shell (cleanup entry.shellId)).2 = none := hk
          rw [Option.map_some, Option.map_some, Option.map_some]
          split
          next killed h => rw [h]
          next killed text h => rw [h] at hnone; cases hnone
    next => rfl

theorem rollbackOne_events (cleanup : String → Cleanup) (entry : StartedRecovery) :
    (w.rollbackOne cleanup entry).events = w.events := by
  unfold rollbackOne
  dsimp only
  split <;> rfl

theorem rollbackRecovery_world (cleanup : String → Cleanup) (error : DaemonError)
    (started : List StartedRecovery) : (w.rollbackRecovery cleanup error started).2 =
      started.reverse.foldl (rollbackOne · cleanup) w := by
  unfold rollbackRecovery
  generalize started.reverse = entries
  induction entries generalizing w error with
  | nil => rfl
  | cons entry entries ih =>
      rw [List.foldl_cons, List.foldl_cons, ih]

/-- Shells that have not been started stay as they are. -/
theorem foldl_rollbackOne_other (cleanup : String → Cleanup) {entries : List StartedRecovery}
    {k : String} (hk : ∀ entry ∈ entries, entry.shellId ≠ k) :
    (entries.foldl (rollbackOne · cleanup) w).shells.get k = w.shells.get k := by
  induction entries generalizing w with
  | nil => rfl
  | cons entry entries ih =>
      rw [List.foldl_cons, ih fun e he => hk e (List.mem_cons_of_mem _ he), rollbackOne_get,
        if_neg (hk entry (List.mem_cons_self ..)).symm]

/-- The others are rolled back once. -/
theorem foldl_rollbackOne_mem (cleanup : String → Cleanup) {entries : List StartedRecovery}
    (hn : (entries.map (·.shellId)).Nodup) {entry : StartedRecovery} (hmem : entry ∈ entries) :
    (entries.foldl (rollbackOne · cleanup) w).shells.get entry.shellId =
      (w.shells.get entry.shellId).map (rollbackShell cleanup entry) := by
  induction entries generalizing w with
  | nil => cases hmem
  | cons head entries ih =>
      obtain ⟨hhead, hn⟩ := List.nodup_cons.mp hn
      rw [List.foldl_cons]
      rcases List.mem_cons.mp hmem with rfl | hmem
      · rw [foldl_rollbackOne_other cleanup fun e he heq =>
          hhead (List.mem_map.mpr ⟨e, he, heq⟩),
          rollbackOne_get, if_pos rfl]
      · rw [ih hn hmem, rollbackOne_get, if_neg]
        exact fun heq => hhead (List.mem_map.mpr ⟨entry, hmem, heq⟩)

theorem foldl_rollbackOne_events (cleanup : String → Cleanup) (entries : List StartedRecovery) :
    (entries.foldl (rollbackOne · cleanup) w).events = w.events := by
  induction entries generalizing w with
  | nil => rfl
  | cons entry entries ih => rw [List.foldl_cons, ih, rollbackOne_events]

/-- A process that is stopped leaves its Shell pending with the run it had. -/
theorem rollbackShell_stopped {cleanup : String → Cleanup} (entry : StartedRecovery)
    (h : (cleanup entry.shellId).outcome = .stopped) (shell : Shell) (run : ShellRun)
    (profile : TerminalProfile) :
    (rollbackShell cleanup entry (shell.started run profile)).lifecycle = .pending ∧
      (rollbackShell cleanup entry (shell.started run profile)).lastRun = some entry.previous := by
  have hnone := (killShell_stopped entry.shellId shell run profile _).mpr h
  have hclosed := killShell_closed entry.shellId shell run profile h
  unfold rollbackShell
  split
  next killed hk =>
    rw [hk] at hclosed
    unfold resetPending
    rw [show ({ killed with lastRun := some entry.previous } : Shell).lifecycle =
      .closed from hclosed]
    exact ⟨rfl, rfl⟩
  next killed text hk =>
    rw [hk] at hnone
    cases hnone

/-- Otherwise the failed run stays. -/
theorem rollbackShell_left {cleanup : String → Cleanup} (entry : StartedRecovery)
    (h : (cleanup entry.shellId).outcome ≠ .stopped) (shell : Shell) (run : ShellRun)
    (profile : TerminalProfile) :
    (rollbackShell cleanup entry (shell.started run profile)).LastRunIs run.id := by
  have hlast := killShell_lastRunIs entry.shellId shell run profile (cleanup entry.shellId)
  have hsome := (killShell_stopped entry.shellId shell run profile (cleanup entry.shellId)).not.mpr
    h
  unfold rollbackShell
  split
  next killed hk =>
    rw [hk] at hsome
    exact absurd rfl hsome
  next killed text hk =>
    rw [hk] at hlast
    exact hlast

/-- The Shells whose process was spawned, after the rollback. -/
theorem Staging.rolledBack {targets : List ShellRecoveryTarget} {s : Staged R}
    (h : Staging w targets s) (hn : (targets.map (·.shellId)).Nodup) (cleanup : String → Cleanup)
    (error : DaemonError) {v : StartWorld R} (hshells : v.shells = s.world.shells)
    {target : ShellRecoveryTarget} (ht : target ∈ targets) (hs : w.spawns target = true) :
    ∃ shell previous run, w.recovered target = some (shell, previous, run) ∧
      (v.rollbackRecovery cleanup error s.started).2.shells.get target.shellId =
        some (rollbackShell cleanup ⟨target.shellId, previous⟩
          (shell.started run target.profile)) := by
  have hnodup : (s.started.reverse.map (·.shellId)).Nodup := by
    rw [List.map_reverse, List.nodup_reverse, h.started]
    exact hn.sublist ((List.filter_sublist).map _)
  obtain ⟨shell, previous, run, hr, hmem, hstarted⟩ := h.running target ht hs
  refine ⟨shell, previous, run, hr, ?_⟩
  rw [rollbackRecovery_world]
  have := foldl_rollbackOne_mem (w := v) cleanup hnodup (List.mem_reverse.mpr hmem)
  rw [hshells, hstarted] at this
  exact this

/-- The other Shells are as they were. -/
theorem Staging.rolledBack_other {targets : List ShellRecoveryTarget} {s : Staged R}
    (h : Staging w targets s) (cleanup : String → Cleanup) (error : DaemonError) {v : StartWorld R}
    (hshells : v.shells = s.world.shells) {k : String}
    (hk : ∀ t ∈ targets, w.spawns t = true → t.shellId ≠ k) :
    (v.rollbackRecovery cleanup error s.started).2.shells.get k = w.shells.get k := by
  rw [rollbackRecovery_world, foldl_rollbackOne_other, hshells, h.others k hk]
  intro entry he heq
  have hmem : entry.shellId ∈ s.started.map (·.shellId) :=
    List.mem_map_of_mem (List.mem_reverse.mp he)
  rw [h.started] at hmem
  obtain ⟨t, ht, hid⟩ := List.mem_map.mp hmem
  obtain ⟨ht, hs⟩ := List.mem_filter.mp ht
  exact hk t ht hs (hid.trans heq)

/-- A failed recovery leaves no trace if and only if every process it spawned could be stopped. -/
theorem Staging.rollback {targets : List ShellRecoveryTarget} {s : Staged R}
    (h : Staging w targets s) (hn : (targets.map (·.shellId)).Nodup) {runIds : List String}
    (hruns : NewRuns w runIds) (hids : ∀ t ∈ targets, t.runId ∈ runIds)
    (cleanup : String → Cleanup) (error : DaemonError) {v : StartWorld R}
    (hshells : v.shells = s.world.shells)
    (hget : ∀ k, u.shells.get k = (v.rollbackRecovery cleanup error s.started).2.shells.get k)
    (hsilent : ∀ runId ∈ runIds, u.events.Silent runId)
    (hf : u.events.transition.persistenceInFlight = false) :
    StartUndone w u runIds ↔
      ∀ t ∈ targets, w.spawns t = true → (cleanup t.shellId).outcome = .stopped := by
  have hrolled : ∀ t ∈ targets, w.spawns t = true → ∃ shell previous run,
      w.recovered t = some (shell, previous, run) ∧ u.shells.get t.shellId =
        some (rollbackShell cleanup ⟨t.shellId, previous⟩ (shell.started run t.profile)) := by
    intro t ht hs
    rw [hget]
    exact h.rolledBack hn cleanup error hshells ht hs
  constructor
  · intro hundone t ht hs
    by_contra hne
    obtain ⟨shell, previous, run, hr, hgetu⟩ := hrolled t ht hs
    obtain ⟨hselected, hid, -⟩ := recovered_eq_some hr
    obtain ⟨hgetw, hpending, -⟩ := recoveryTarget_eq_ok hselected
    have hlast := rollbackShell_left ⟨t.shellId, previous⟩ hne shell run t.profile
    rw [hid] at hlast
    exact hruns.not_undone (hids t ht) hgetw hpending hgetu hlast hundone
  · intro hstop
    refine ⟨fun k => ?_, hsilent, hf⟩
    by_cases hk : ∃ t ∈ targets, w.spawns t = true ∧ t.shellId = k
    · obtain ⟨t, ht, hs, rfl⟩ := hk
      obtain ⟨shell, previous, run, hr, hgetu⟩ := hrolled t ht hs
      obtain ⟨hgetw, -, hprevious⟩ := recoveryTarget_eq_ok (recovered_eq_some hr).1
      obtain ⟨hl, hlast⟩ := rollbackShell_stopped ⟨t.shellId, previous⟩ (hstop t ht hs)
        shell run t.profile
      intro shell' hget' _
      rw [hgetw] at hget'
      cases hget'
      exact ⟨_, hgetu, hl, hlast.trans hprevious.symm⟩
    · have hk : ∀ t ∈ targets, w.spawns t = true → t.shellId ≠ k := fun t ht hs heq =>
        hk ⟨t, ht, hs, heq⟩
      refine .of_get ?_
      rw [hget, h.rolledBack_other cleanup error hshells hk]

/-! ## Recovering -/

theorem startEvent_tells {target : ShellRecoveryTarget} {event : DaemonEventKind}
    (h : w.startEvent target = some event) {runId : String} (hne : target.runId ≠ runId) :
    event.tells runId = false := by
  obtain ⟨⟨shell, previous, run⟩, hr, rfl⟩ := Option.map_eq_some_iff.mp h
  have hid := (recovered_eq_some hr).2.1
  simp [DaemonEventKind.tells, DaemonEventKind.startsRun, DaemonEventKind.endsRun, hid, hne]

/-- The events of the other targets do not tell of the run. -/
theorem startEvents_tells {targets : List ShellRecoveryTarget} {runId : String}
    (h : ∀ t ∈ targets, t.runId ≠ runId) :
    ∀ event ∈ targets.filterMap w.startEvent, event.tells runId = false := by
  intro event he
  obtain ⟨t, ht, hevent⟩ := List.mem_filterMap.mp he
  exact startEvent_tells hevent (h t ht)

theorem startsRun_le_tells {event : DaemonEventKind} {runId : String}
    (h : event.tells runId = false) : event.startsRun runId = false :=
  (Bool.or_eq_false_iff.mp h).1

/-- Each started run has one event. -/
theorem countP_startEvents {targets : List ShellRecoveryTarget}
    (hn : (targets.map (·.runId)).Nodup) {target : ShellRecoveryTarget} (ht : target ∈ targets)
    {shell : Shell} {previous : PersistedShellRun} {run : ShellRun}
    (hr : w.recovered target = some (shell, previous, run)) :
    (targets.filterMap w.startEvent).countP (·.startsRun target.runId) = 1 := by
  have hevent : w.startEvent target =
      some (.runStarted shell.workspaceId target.shellId run) := by
    simp [startEvent, hr]
  induction targets with
  | nil => cases ht
  | cons head targets ih =>
      obtain ⟨hhead, hn⟩ := List.nodup_cons.mp hn
      rcases List.mem_cons.mp ht with rfl | ht
      · have hne : ∀ t ∈ targets, t.runId ≠ target.runId := fun t ht heq =>
          hhead (List.mem_map.mpr ⟨t, ht, heq⟩)
        have hrest := startEvents_tells (w := w) hne
        rw [List.filterMap_cons_some hevent, List.countP_cons_of_pos]
        · rw [List.countP_eq_zero.mpr]
          exact fun event he => by simp [startsRun_le_tells (hrest event he)]
        · simp [DaemonEventKind.startsRun, (recovered_eq_some hr).2.1]
      · have hne : head.runId ≠ target.runId := fun heq =>
          hhead (List.mem_map.mpr ⟨target, ht, heq.symm⟩)
        cases he : w.startEvent head with
        | none =>
            rw [List.filterMap_cons_none he]
            exact ih hn ht
        | some event =>
            rw [List.filterMap_cons_some he, List.countP_cons_of_neg]
            · exact ih hn ht
            · simp [startsRun_le_tells (startEvent_tells he hne)]

/-- What the answer to a target says is so. -/
def RecoveryDone (w u : StartWorld R) (target : ShellRecoveryTarget) : ShellRecoveryResult → Prop
  | .started shellId run => shellId = target.shellId ∧ run.id = target.runId ∧
      StartDone w u target.shellId target.runId
  | .unavailable shellId _ => shellId = target.shellId ∧ SamePending w u target.shellId ∧
      u.events.Silent target.runId

namespace StartWorld

/-- Whether `recover_shells` comes to its staging loop. -/
def attempts (w : StartWorld R) (targets : List ShellRecoveryTarget) : Bool :=
  !(targets.isEmpty || maxRecoveryShells < targets.length) &&
    decide (targets.map (·.shellId)).Nodup && (w.events.reserveWithPending targets.length).isOk

theorem recoverShells_of_not_attempts {targets : List ShellRecoveryTarget}
    (h : w.attempts targets = false) (saveError : Option IoError)
    (meanwhile : List (List DaemonEventKind)) (cleanup : String → Cleanup)
    (resume : String → Option IoError) :
    ∃ error, w.recoverShells targets saveError meanwhile cleanup resume = (.failed error, w) := by
  unfold recoverShells
  split
  · exact ⟨_, rfl⟩
  next hsize =>
    split
    · exact ⟨_, rfl⟩
    next hnodup =>
      split
      next error hr => exact ⟨_, rfl⟩
      next hr =>
        refine absurd h ?_
        simp only [attempts, hr, Except.isOk, Except.toBool]
        simp_all

end StartWorld

/-- The spawned targets of a recovery that has been committed. -/
theorem Staging.done {targets : List ShellRecoveryTarget} {s : Staged R}
    (h : Staging w targets s) (he : s.error = none) (hn : (targets.map (·.shellId)).Nodup)
    (hruns : NewRuns w (targets.map (·.runId))) {v : StartWorld R}
    (hshells : v.shells = s.world.shells)
    (hsilent : ∀ runId ∈ targets.map (·.runId), v.events.Silent runId)
    (heffects : v.effects = w.effects ++ [.saved v.shells]) :
    List.Forall₂ (RecoveryDone w (v.appendBatch s.events)) targets s.results := by
  have hnodup : ((targets.filter w.spawns).map (·.runId)).Nodup :=
    hruns.nodup.sublist ((List.filter_sublist).map _)
  refine (List.forall₂_iff_get.mpr ?_)
  obtain ⟨hlength, hget⟩ := List.forall₂_iff_get.mp (h.results he)
  refine ⟨hlength, fun i hi hi' => ?_⟩
  have hmem : targets.get ⟨i, hi⟩ ∈ targets := List.get_mem ..
  have hanswer := hget i hi hi'
  generalize targets.get ⟨i, hi⟩ = t at hmem hanswer
  generalize s.results.get ⟨i, hi'⟩ = result at hanswer
  have hsilent' := hsilent t.runId (List.mem_map_of_mem hmem)
  cases result with
  | started shellId run =>
      obtain ⟨hid, hs, shell, previous, hr⟩ := hanswer
      obtain ⟨hselected, hrun, hgeneration⟩ := recovered_eq_some hr
      obtain ⟨hgetw, -, -⟩ := recoveryTarget_eq_ok hselected
      obtain ⟨shell', previous', run', hr', -, hstarted⟩ := h.running t hmem hs
      rw [hr] at hr'
      cases hr'
      rw [← hshells] at hstarted
      refine ⟨hid, hrun, ?_⟩
      have hmemf : t ∈ targets.filter w.spawns := List.mem_filter.mpr ⟨hmem, hs⟩
      rw [← hrun] at hsilent' ⊢
      refine startDone_of_appendBatch hgetw hgeneration hstarted hsilent' heffects
        ⟨_, List.mem_singleton_self _, _, hstarted, rfl⟩ ?_ ?_
      · rw [h.kinds he]
        exact List.mem_filterMap.mpr ⟨t, hmemf, by simp [startEvent, hr]⟩
      · rw [h.kinds he, hrun]
        exact countP_startEvents hnodup hmemf hr
  | unavailable shellId error =>
      obtain ⟨hid, hs⟩ := hanswer
      refine ⟨hid, .of_get ?_, appendBatch_silent hsilent' ?_⟩
      · rw [appendBatch_shells, hshells, h.others]
        intro t' ht' hs' heq
        rw [List.inj_on_of_nodup_map hn ht' hmem heq, hs] at hs'
        cases hs'
      · rw [h.kinds he]
        refine startEvents_tells fun t' ht' heq => ?_
        obtain ⟨ht', hs'⟩ := List.mem_filter.mp ht'
        rw [List.inj_on_of_nodup_map hruns.nodup ht' hmem heq, hs] at hs'
        cases hs'

/-- When no process was spawned, nothing happened. -/
theorem Staging.idle {targets : List ShellRecoveryTarget} {s : Staged R} (h : Staging w targets s)
    (he : s.error = none) (hempty : s.started = [])
    (hsilent : ∀ runId ∈ targets.map (·.runId), w.events.Silent runId) :
    (∀ t ∈ targets, w.spawns t = false) ∧
      List.Forall₂ (RecoveryDone w s.world) targets s.results := by
  have hnone : ∀ t ∈ targets, w.spawns t = false := by
    intro t ht
    by_contra hs
    obtain ⟨shell, previous, run, -, hmem, -⟩ := h.running t ht (by simpa using hs)
    rw [hempty] at hmem
    cases hmem
  refine ⟨hnone, List.forall₂_iff_get.mpr ?_⟩
  obtain ⟨hlength, hget⟩ := List.forall₂_iff_get.mp (h.results he)
  refine ⟨hlength, fun i hi hi' => ?_⟩
  have hmem : targets.get ⟨i, hi⟩ ∈ targets := List.get_mem ..
  have hanswer := hget i hi hi'
  generalize targets.get ⟨i, hi⟩ = t at hmem hanswer
  generalize s.results.get ⟨i, hi'⟩ = result at hanswer
  cases result with
  | started shellId run =>
      have := hanswer.2.1
      rw [hnone t hmem] at this
      cases this
  | unavailable shellId error =>
      refine ⟨hanswer.1, .of_get (h.others _ fun t' ht' hs' => ?_), ?_⟩
      · rw [hnone t' ht'] at hs'
        cases hs'
      · rw [h.events]
        exact hsilent t.runId (List.mem_map_of_mem hmem)

/-- A recovery that fails leaves a trace of the processes it cannot stop, and of nothing else. -/
theorem recoverShells_atomic {targets : List ShellRecoveryTarget}
    (h : NewRuns w (targets.map (·.runId)))
    (hf : w.events.transition.persistenceInFlight = false) (saveError : Option IoError)
    {meanwhile : List (List DaemonEventKind)}
    (hm : ∀ kinds ∈ meanwhile, ∀ kind ∈ kinds, kind.ofReader = true) (cleanup : String → Cleanup)
    (resume : String → Option IoError) :
    (match w.recoverShells targets saveError meanwhile cleanup resume with
      | (.failed _, u) => StartUndone w u (targets.map (·.runId))
      | (.done results _, u) => u.events.transition.persistenceInFlight = false ∧
          List.Forall₂ (RecoveryDone w u) targets results) ↔
    (w.attempts targets = true → targets.any w.breaks = true ∨ saveError.isSome = true →
      ∀ t ∈ w.reached targets, w.spawns t = true → (cleanup t.shellId).outcome = .stopped) := by
  cases ha : w.attempts targets with
  | false =>
      obtain ⟨error, hr⟩ := recoverShells_of_not_attempts ha saveError meanwhile cleanup resume
      -- Nothing has been started: the targets or the room for their events are refused first.
      rw [hr]
      simp [h.undone hf]
  | true =>
      simp only [attempts, Bool.and_eq_true, Bool.not_eq_true', decide_eq_true_eq] at ha
      obtain ⟨⟨hsize, hn⟩, hreserve⟩ := ha
      -- The loop over the targets: what it has started, and whether it broke.
      have hn' : (([] ++ targets).map ShellRecoveryTarget.shellId).Nodup := by simpa using hn
      obtain ⟨hstaged, herror⟩ := (Staging.start w).foldl rfl hn'
      rw [List.nil_append] at hstaged
      have hsub := reached_sublist (w := w) targets
      have hids : ∀ t ∈ w.reached targets, t.runId ∈ targets.map (·.runId) := fun t ht =>
        List.mem_map_of_mem (hsub.subset ht)
      have hnr : ((w.reached targets).map (·.shellId)).Nodup := hn.sublist (hsub.map _)
      change Staging w _ (w.stageAll targets) at hstaged
      change (w.stageAll targets).error.isSome = _ at herror
      generalize hs : w.stageAll targets = s at hstaged herror
      -- A rollback publishes nothing.
      have hevents : ∀ error, (s.world.rollbackRecovery cleanup error s.started).2.events =
          w.events := fun error => by
        rw [rollbackRecovery_world, foldl_rollbackOne_events, hstaged.events]
      unfold recoverShells
      rw [if_neg (by rw [hsize]; nofun), if_neg (not_not.mpr hn)]
      cases hres : w.events.reserveWithPending targets.length with
      | error error => simp [hres, Except.isOk, Except.toBool] at hreserve
      | ok value =>
          dsimp only
          rw [hs]
          cases herr : s.error with
          -- A target broke the loop, and what it has reached is rolled back.
          | some error =>
              rw [herr] at herror
              have hiff := hstaged.rollback hnr h hids cleanup error rfl (fun _ => rfl)
                (fun runId hr => by rw [hevents]; exact h.silent runId hr)
                  (by rw [hevents]; exact hf)
              simpa [← herror] using hiff
          | none =>
              rw [herr] at herror
              rw [reached_of_not_breaks herror.symm] at hstaged ⊢
              -- All the targets were reached; none may have needed a process.
              cases hempty : s.started with
              | nil =>
                  obtain ⟨hnone, hdone⟩ := hstaged.idle herr hempty h.silent
                  have hflight : s.world.events.transition.persistenceInFlight = false := by
                    rw [hstaged.events]
                    exact hf
                  refine ⟨fun _ _ _ t ht hspawns => ?_, fun _ => ⟨hflight, hdone⟩⟩
                  rw [hnone t ht] at hspawns
                  cases hspawns
              | cons entry entries =>
                  rw [← hempty, if_neg (by simp [hempty])]
                  -- What other mutations publish during the save leaves the runs silent.
                  have hbegun : ∀ runId ∈ targets.map (·.runId),
                      (s.world.beginPersistence s.events.length meanwhile).events.Silent runId :=
                    fun runId hr => beginPersistence_silent
                      (by rw [hstaged.events]; exact h.silent runId hr) _ hm
                  cases saveError with
                  | none =>
                      have hwritten := writePersistedState_frame (w := s.world.beginPersistence
                        s.events.length meanwhile) none
                      refine ⟨fun _ _ hfails => by simp [← herror] at hfails, fun _ => ?_⟩
                      refine ⟨appendBatch_inFlight _,
                        hstaged.done herr hn h hwritten.1 hbegun ?_⟩
                      rw [hwritten.1, ← hstaged.effects]
                      rfl
                  -- The save failed: the rollback is that of the loop, over all the targets.
                  | some error =>
                      have hwritten := writePersistedState_frame (w := s.world.beginPersistence
                        s.events.length meanwhile) (some error)
                      have hiff := hstaged.rollback hn h (fun t ht =>
                        List.mem_map_of_mem ht) cleanup
                        (.persistence error) (u := StartWorld.finishPersistence _) hwritten.1
                        (fun _ => rfl) (fun runId hr => ?_) finishPersistence_inFlight
                      · simpa using hiff
                      · refine (hbegun runId hr).of_line ?_
                        rw [finishPersistence, EventTransaction.finishPersistence_line,
                          rollbackRecovery_world, foldl_rollbackOne_events, hwritten.2]

/-! ## Both paths -/

/-- A call that starts runs. -/
inductive StartCall
  | attach (shellId : String) (profile : TerminalProfile) (runId : String) (o : AttachOutcome)
  | recoverShells (targets : List ShellRecoveryTarget) (saveError : Option IoError)
      (meanwhile : List (List DaemonEventKind)) (cleanup : String → Cleanup)
      (resume : String → Option IoError)

namespace StartCall

/-- The UUIDs that the call may give to runs. -/
def runIds : StartCall → List String
  | .attach _ _ runId _ => [runId]
  | .recoverShells targets .. => targets.map (·.runId)

/-- The runtime events published during the save. -/
def meanwhile : StartCall → List (List DaemonEventKind)
  | .attach _ _ _ o => o.meanwhile
  | .recoverShells _ _ meanwhile _ _ => meanwhile

/-- A failure leaves no trace, and a start that has been committed is complete, whether or not its
reader could be resumed. Attaching to a Shell that is not pending starts nothing. -/
def Atomic (w : StartWorld R) : StartCall → Prop
  | .attach shellId profile runId o =>
      ∀ shell, w.shells.get shellId = some shell → shell.lifecycle = .pending →
        match w.attach shellId profile runId o with
        | (.failed _, u) => StartUndone w u [runId]
        | (.done .., u) => StartDone w u shellId runId
  | .recoverShells targets saveError meanwhile cleanup resume =>
      match w.recoverShells targets saveError meanwhile cleanup resume with
      | (.failed _, u) => StartUndone w u (targets.map (·.runId))
      | (.done results _, u) => u.events.transition.persistenceInFlight = false ∧
          List.Forall₂ (RecoveryDone w u) targets results

/-- An attach does not fail any more once its process is spawned; a recovery that fails stops every
process it has spawned. -/
def CleansUp (w : StartWorld R) : StartCall → Prop
  | .attach shellId profile runId o =>
      ∀ shell, w.shells.get shellId = some shell → shell.lifecycle = .pending →
        w.attachSpawns shellId shell.lastRun o = true →
          w.attachCommits shellId shell.lastRun profile runId o = true
  | .recoverShells targets saveError _ cleanup _ =>
      w.attempts targets = true → targets.any w.breaks = true ∨ saveError.isSome = true →
        ∀ t ∈ w.reached targets, w.spawns t = true → (cleanup t.shellId).outcome = .stopped

end StartCall

/-- For every registry, every call of either path and everything that can go wrong in it: the call
is atomic if and only if an attach does not fail after its process has been spawned, and a failing
recovery manages to stop all the processes it has spawned. -/
theorem startCall_atomic_iff (call : StartCall) (h : NewRuns w call.runIds)
    (hf : w.events.transition.persistenceInFlight = false)
    (hm : ∀ kinds ∈ call.meanwhile, ∀ kind ∈ kinds, kind.ofReader = true) :
    call.Atomic w ↔ call.CleansUp w := by
  cases call with
  | attach shellId profile runId o =>
      refine forall_congr' fun shell => forall_congr' fun hget => forall_congr' fun hpending => ?_
      exact attach_atomic h hf hget hpending profile hm
  | recoverShells targets saveError meanwhile cleanup resume =>
      exact recoverShells_atomic h hf saveError hm cleanup resume

/-! ### An interrupted Shell -/

/-- A pending Shell whose run was interrupted. -/
def interruptedShell : Shell :=
  ⟨"w", some ⟨"old", 1, some .interrupted, 3, ⟨none, none, none, none, 24, 80, 0, 0⟩, none⟩,
    .pending⟩

def interruptedWorld : StartWorld Nat where
  durable :=
    { state := { workspaces := ["w"], shells := AList.singleton "s" interruptedShell, rest := 0 }
      persistenceRevision := 0
      persistenceDirty := false
      edits := [] }
  events := ⟨.idle, ⟨"stream", 0, [], []⟩⟩
  journal := none
  next := 0
  effects := []

theorem interruptedWorld_newRuns : NewRuns interruptedWorld ["new"] where
  nodup := by simp
  silent _ _ _ h := by cases h
  shells runId hr id shell hget hlast := by
    by_cases hid : id = "s"
    · subst hid
      have hshell : interruptedShell = shell := Option.some.inj hget
      rw [← hshell, List.mem_singleton.mp hr] at hlast
      have hne : interruptedShell.lastRun.map (·.id) ≠ some "new" := by decide
      exact hne hlast
    · have hnone : interruptedWorld.shells.get id = none :=
        AList.lookup_eq_none.mpr fun hmem => hid (List.mem_singleton.mp hmem)
      rw [hnone] at hget
      cases hget

/-- The save fails after the process has started; the process is stopped. -/
def failedSave : AttachOutcome where
  prepareError := none
  spawnError := none
  readerError := none
  cleanup := ⟨.stopped, ""⟩
  appendIo := .written
  saveError := some (.ofMessage "no space left on device")
  checkpointError := none
  resetError := none
  meanwhile := []
  resumeError := none

/-- The recovery of the Shell, with the same answers. -/
def failedRecovery : StartCall :=
  .recoverShells [⟨"s", "old", ⟨none, none, none, none, 24, 80, 0, 0⟩, "new", ⟨none, none, none⟩⟩]
    (some (.ofMessage "no space left on device")) [] (fun _ => ⟨.stopped, ""⟩) fun _ => none

/-- A failed recovery leaves the interrupted run where it was. -/
theorem startCall_atomic_iff_failedRecovery : failedRecovery.Atomic interruptedWorld :=
  (startCall_atomic_iff failedRecovery interruptedWorld_newRuns rfl nofun).mpr
    fun _ _ _ _ _ => rfl

/-- A failed attach leaves the failed run as the last run, and the interrupted one is gone. -/
theorem not_atomic_failedSave :
    ∃ error u shell, interruptedWorld.attach "s" ⟨none, none, none, none, 24, 80, 0, 0⟩ "new"
        failedSave = (.failed error, u) ∧ u.shells.get "s" = some shell ∧
      shell.lastRun.map (·.id) = some "new" ∧
      ¬ (StartCall.attach "s" ⟨none, none, none, none, 24, 80, 0, 0⟩ "new" failedSave).Atomic
          interruptedWorld := by
  refine ⟨_, _, _, rfl, rfl, rfl, fun h => ?_⟩
  have hundone := h _ rfl rfl
  obtain ⟨shell, hget, -, hlast⟩ := hundone.pending "s" _ rfl rfl
  cases hget
  exact absurd hlast (by decide)

end Boomux.Daemon
