import Boomux.Daemon.Output

/-!
# Readers and the runs they read

`Shells.runOf` is the run of a running Shell with the Shell's Workspace, which is all that the
readers have to agree with. Ending runs takes it away and says so in exit events; nothing else
that happens to a Shell touches it. Readers only ever calm down: `Calmer` is what any step does to
them, the start of a mutation's readers apart.
-/

set_option autoImplicit false

namespace Boomux.Daemon

open Rust Transition

variable {R : Type} {w u : World R}

/-! ## Runs of the registry -/

/-- The Workspace and the run of a running Shell. -/
def Shells.runOf (m : Shells) (id : String) : Option (String × String) :=
  (m.get id).bind fun shell => shell.running?.map fun run => (shell.workspaceId, run.id)

/-- The Workspace of a Shell. -/
def Shells.workspaceOf (m : Shells) (id : String) : Option String :=
  (m.get id).map (·.workspaceId)

theorem runOf_eq_some {d : Durable R} {id workspaceId runId : String} :
    d.shells.runOf id = some (workspaceId, runId) ↔
      ∃ shell run, d.Runs id shell run ∧ shell.workspaceId = workspaceId ∧ run.id = runId := by
  simp only [Shells.runOf, Option.bind_eq_some_iff, Option.map_eq_some_iff, Prod.mk.injEq,
    Durable.Runs]
  constructor
  · rintro ⟨shell, hget, run, hrun, hws, hid⟩
    exact ⟨shell, run, ⟨hget, hrun⟩, hws, hid⟩
  · rintro ⟨shell, run, ⟨hget, hrun⟩, hws, hid⟩
    exact ⟨shell, hget, run, hrun, hws, hid⟩

theorem workspaceOf_of_runOf {m : Shells} {id workspaceId runId : String}
    (h : m.runOf id = some (workspaceId, runId)) : m.workspaceOf id = some workspaceId := by
  obtain ⟨shell, hget, hrun⟩ := Option.bind_eq_some_iff.mp h
  obtain ⟨run, -, heq⟩ := Option.map_eq_some_iff.mp hrun
  cases heq
  rw [Shells.workspaceOf, hget]
  rfl

/-- Replacing a Shell. -/
theorem runOf_insert (m : Shells) (id : String) (shell : Shell) (k : String) :
    Shells.runOf (m.insert id shell) k =
      if k = id then shell.running?.map fun run => (shell.workspaceId, run.id)
      else m.runOf k := by
  unfold Shells.runOf
  rw [Shells.get_insert]
  split <;> rfl

theorem workspaceOf_insert (m : Shells) (id : String) (shell : Shell) (k : String) :
    Shells.workspaceOf (m.insert id shell) k =
      if k = id then some shell.workspaceId else m.workspaceOf k := by
  unfold Shells.workspaceOf
  rw [Shells.get_insert]
  split <;> rfl

/-- Replacing a Shell by one of the same Workspace. -/
theorem workspaceOf_insert_same {m : Shells} {id : String} {shell shell' : Shell}
    (h : m.get id = some shell) (hws : shell'.workspaceId = shell.workspaceId) (k : String) :
    Shells.workspaceOf (m.insert id shell') k = m.workspaceOf k := by
  rw [workspaceOf_insert]
  split
  next hk => rw [hk, Shells.workspaceOf, h, hws, Option.map_some]
  next => rfl

/-- Replacing a Shell by one that does not run. -/
theorem runOf_insert_stopped (m : Shells) (id : String) {shell : Shell}
    (h : shell.running? = none) (k : String) :
    Shells.runOf (m.insert id shell) k = if k = id then none else m.runOf k := by
  rw [runOf_insert, h]
  rfl

/-- The two registries have the same Shells with the same runs, and the same Workspaces. -/
structure SameRuns (d d' : Durable R) : Prop where
  runs : ∀ id, d'.shells.runOf id = d.shells.runOf id
  owners : ∀ id, d'.shells.workspaceOf id = d.shells.workspaceOf id
  workspaces : d'.workspaces = d.workspaces

theorem SameRuns.refl (d : Durable R) : SameRuns d d := ⟨fun _ => rfl, fun _ => rfl, rfl⟩

/-- Editing a Shell without touching its run or its Workspace. -/
theorem modifyShell_sameRuns (d : Durable R) (id : String) (f : Shell → Shell)
    (hr : ∀ shell, d.shells.get id = some shell →
      (f shell).running?.map (·.id) = shell.running?.map (·.id))
    (hw : ∀ shell, (f shell).workspaceId = shell.workspaceId) :
      SameRuns d (d.modifyShell id f) := by
  unfold Durable.modifyShell
  split
  next shell hget =>
    refine ⟨fun k => ?_, workspaceOf_insert_same hget (hw shell), rfl⟩
    rw [runOf_insert]
    split
    next hk =>
      have hrun := hr shell hget
      rw [hk, Shells.runOf, hget, hw]
      show _ = shell.running?.map _
      cases hs : shell.running? <;> cases hf : (f shell).running? <;> simp_all
    next => rfl
  next => exact .refl d

/-! ## Exit events -/

/-- The event that the run of this Shell has ended. -/
def IsExit (m : Shells) (id : String) (event : DaemonEventKind) : Prop :=
  ∃ workspaceId run, m.runOf id = some (workspaceId, run.id) ∧
    event = .runExited workspaceId id run

theorem IsExit.of_running {m : Shells} {id : String} {shell : Shell} {run run' : ShellRun}
    (hget : m.get id = some shell) (hrun : shell.running? = some run) (hid : run'.id = run.id) :
    IsExit m id (.runExited shell.workspaceId id run') := by
  refine ⟨shell.workspaceId, run', ?_, rfl⟩
  rw [Shells.runOf, hget, hid]
  show shell.running?.map _ = _
  rw [hrun]
  rfl

theorem IsExit.isOutput {m : Shells} {id : String} {event : DaemonEventKind}
    (h : IsExit m id event) : event.isOutput = false := by
  obtain ⟨_, _, _, rfl⟩ := h
  rfl

theorem IsExit.endsShell {m : Shells} {id : String} {event : DaemonEventKind}
    (h : IsExit m id event) (shellId : String) : event.endsShell shellId = false := by
  obtain ⟨_, _, _, rfl⟩ := h
  rfl

theorem IsExit.endsWorkspace {m : Shells} {id : String} {event : DaemonEventKind}
    (h : IsExit m id event) (workspaceId : String) : event.endsWorkspace workspaceId = false := by
  obtain ⟨_, _, _, rfl⟩ := h
  rfl

/-- Ending other runs does not change what an exit event of this Shell is. -/
theorem IsExit.mono {m m' : Shells} {id : String} {event : DaemonEventKind}
    (h : IsExit m' id event) (hm : ∀ p, m'.runOf id = some p → m.runOf id = some p) :
    IsExit m id event := by
  obtain ⟨workspaceId, run, hrun, rfl⟩ := h
  exact ⟨workspaceId, run, hm _ hrun, rfl⟩

theorem finalizeStop_running? (id : String) (shell : Shell) :
    (finalizeStop id shell).1.running? = none := by
  rw [Shell.running?, finalizeStop_lifecycle]

/-- Whether a rollback brings back a run. -/
def StopRollback.Idle (rollback : StopRollback) : Prop :=
  ∀ profile run, rollback.lifecycle ≠ .running profile run

theorem restoreStopped_running?_idle (shell : Shell) {rollback : StopRollback}
    (h : rollback.Idle) : (restoreStopped shell rollback).running? = shell.running? := by
  unfold restoreStopped
  split
  next hl =>
    unfold Shell.running?
    rw [hl]
    split
    next profile run hr => exact absurd hr (h profile run)
    next => rfl
  next => rfl

/-- What a loop that ends runs does to the registry. -/
structure EndsRuns (m m' : Shells) (ids : List String) : Prop where
  runs : ∀ id, m'.runOf id = if id ∈ ids then none else m.runOf id
  owners : ∀ id, m'.workspaceOf id = m.workspaceOf id

/-- Ending one more run first. -/
theorem EndsRuns.cons {m m' : Shells} {id : String} {ids : List String} {shell shell' : Shell}
    (hget : m.get id = some shell) (hws : shell'.workspaceId = shell.workspaceId)
    (hrun : shell'.running? = none) (h : EndsRuns (m.insert id shell') m' ids) :
    EndsRuns m m' (id :: ids) where
  runs k := by
    rw [h.runs, runOf_insert_stopped m id hrun]
    by_cases hk : k = id
    · simp [hk]
    · simp [hk]
  owners k := by rw [h.owners, workspaceOf_insert_same hget hws]

/-- A Shell that is not there has no run to end. -/
theorem EndsRuns.skip {m m' : Shells} {id : String} {ids : List String} (hget : m.get id = none)
    (h : EndsRuns m m' ids) : EndsRuns m m' (id :: ids) where
  runs k := by
    rw [h.runs]
    by_cases hk : k = id
    · rw [hk, Shells.runOf, hget]
      simp
    · simp [hk]
  owners := h.owners

theorem EndsRuns.le {m m' : Shells} {ids : List String} (h : EndsRuns m m' ids) {id : String}
    {p : String × String} (hp : m'.runOf id = some p) : m.runOf id = some p := by
  rw [h.runs] at hp
  split at hp
  · cases hp
  · exact hp

theorem finalizeAll_endsRuns (m : Shells) (ids : List String) :
    EndsRuns m (finalizeAll m ids).1 ids := by
  induction ids generalizing m with
  | nil => exact ⟨fun _ => by simp [finalizeAll], fun _ => rfl⟩
  | cons id ids ih =>
      unfold finalizeAll
      split
      next hget => exact .skip hget (ih m)
      next shell hget =>
        exact .cons hget (finalizeStop_workspaceId id shell) (finalizeStop_running? id shell)
          (ih (m.insert id (finalizeStop id shell).1))

/-- The rollbacks of a loop of stops: no run comes back, and the events are exits. -/
theorem finalizeAll_rollbacks (m : Shells) (ids : List String) :
    ∀ p ∈ (finalizeAll m ids).2, p.2.Idle ∧ p.1 ∈ ids ∧
      ∀ event, p.2.event = some event → IsExit m p.1 event := by
  induction ids generalizing m with
  | nil => simp [finalizeAll]
  | cons id ids ih =>
      unfold finalizeAll
      split
      next hget =>
        intro p hp
        obtain ⟨hidle, hmem, hexit⟩ := ih m p hp
        exact ⟨hidle, List.mem_cons_of_mem _ hmem, hexit⟩
      next shell hget =>
        intro p hp
        rcases List.mem_cons.mp hp with rfl | hp
        · refine ⟨fun profile run => finalizeStop_rollback id shell run profile,
            List.mem_cons_self .., fun event he => ?_⟩
          obtain ⟨run, hrun, rfl⟩ := finalizeStop_event he
          exact .of_running hget hrun (run.finish_id _)
        · obtain ⟨hidle, hmem, hexit⟩ := ih _ p hp
          refine ⟨hidle, List.mem_cons_of_mem _ hmem, fun event he => ?_⟩
          refine (hexit event he).mono fun q hq => ?_
          rw [runOf_insert_stopped m id (finalizeStop_running? id shell)] at hq
          split at hq
          · cases hq
          · exact hq

theorem compensateAll_endsRuns (m : Shells) (ids : List String) :
    EndsRuns m (compensateAll m ids).1 ids := by
  induction ids generalizing m with
  | nil => exact ⟨fun _ => by simp [compensateAll], fun _ => rfl⟩
  | cons id ids ih =>
      unfold compensateAll
      split
      next hget => exact .skip hget (ih m)
      next shell hget =>
        exact .cons hget (compensateStopped_workspaceId id shell)
          (compensateStopped_running? id shell)
          (ih (m.insert id (compensateStopped id shell).1))

theorem compensateAll_events (m : Shells) (ids : List String) :
    ∀ event ∈ (compensateAll m ids).2, ∃ id ∈ ids, IsExit m id event := by
  induction ids generalizing m with
  | nil => simp [compensateAll]
  | cons id ids ih =>
      unfold compensateAll
      split
      next hget =>
        intro event he
        obtain ⟨k, hk, hexit⟩ := ih m event he
        exact ⟨k, List.mem_cons_of_mem _ hk, hexit⟩
      next shell hget =>
        intro event he
        rcases List.mem_append.mp he with he | he
        · obtain ⟨run, hrun, rfl⟩ := finalizeStop_event (Option.mem_toList.mp he)
          exact ⟨id, List.mem_cons_self .., .of_running hget hrun (run.finish_id _)⟩
        · obtain ⟨k, hk, hexit⟩ := ih _ event he
          refine ⟨k, List.mem_cons_of_mem _ hk, hexit.mono fun q hq => ?_⟩
          rw [runOf_insert_stopped m id (compensateStopped_running? id shell)] at hq
          split at hq
          · cases hq
          · exact hq

theorem restoreAll_sameRuns (m : Shells) {rollbacks : List (String × StopRollback)}
    (h : ∀ p ∈ rollbacks, p.2.Idle) :
    (∀ id, (restoreAll m rollbacks).1.runOf id = m.runOf id) ∧
      ∀ id, (restoreAll m rollbacks).1.workspaceOf id = m.workspaceOf id := by
  induction rollbacks generalizing m with
  | nil => exact ⟨fun _ => rfl, fun _ => rfl⟩
  | cons p rollbacks ih =>
      obtain ⟨id, rollback⟩ := p
      have hidle : rollback.Idle := h (id, rollback) (List.mem_cons_self ..)
      have hrest := fun m' => ih m' fun p hp => h p (List.mem_cons_of_mem _ hp)
      unfold restoreAll
      dsimp only
      split
      next shell hget =>
        obtain ⟨hruns, howners⟩ := hrest (m.insert id (restoreStopped shell rollback))
        refine ⟨fun k => ?_, fun k => ?_⟩
        · rw [hruns, runOf_insert, restoreStopped_running?_idle shell hidle,
            restoreStopped_workspaceId]
          split
          next hk =>
            rw [hk, Shells.runOf, hget]
            rfl
          next => rfl
        · rw [howners, workspaceOf_insert_same hget (restoreStopped_workspaceId shell rollback)]
      next => exact hrest m

theorem restoreAll_events (m : Shells) (rollbacks : List (String × StopRollback)) :
    ∀ event ∈ (restoreAll m rollbacks).2, ∃ p ∈ rollbacks, p.2.event = some event := by
  induction rollbacks generalizing m with
  | nil => simp [restoreAll]
  | cons p rollbacks ih =>
      intro event he
      unfold restoreAll at he
      dsimp only at he
      rcases List.mem_append.mp he with he | he
      · exact ⟨p, List.mem_cons_self .., Option.mem_toList.mp he⟩
      · obtain ⟨q, hq, hevent⟩ := ih _ event he
        exact ⟨q, List.mem_cons_of_mem _ hq, hevent⟩

/-! ## Readers -/

/-- A reader that publishes, or will once it is let go. -/
def Reader.active (reader : Reader) : Bool := reader.phase = .starting || reader.live

/-- What may happen to a reader. -/
structure Follows (r r' : Reader) : Prop where
  shellId : r'.shellId = r.shellId
  workspaceId : r'.workspaceId = r.workspaceId
  runId : r'.runId = r.runId
  active : r'.active = true → r.active = true

/-- What may happen to it apart from the end of its pause. -/
structure Calms (r r' : Reader) : Prop extends Follows r r' where
  live : r'.live = true → r.live = true

theorem Calms.refl (r : Reader) : Calms r r := ⟨⟨rfl, rfl, rfl, id⟩, id⟩

theorem Calms.trans {r r' r'' : Reader} (h : Calms r r') (h' : Calms r' r'') : Calms r r'' :=
  ⟨⟨h'.shellId.trans h.shellId, h'.workspaceId.trans h.workspaceId, h'.runId.trans h.runId,
    fun ha => h.active (h'.active ha)⟩, fun hl => h.live (h'.live hl)⟩

/-- The readers, one by one. -/
def Followed (readers readers' : List Reader) : Prop := List.Forall₂ Follows readers readers'

/-- The readers, one by one. -/
def Calmer (readers readers' : List Reader) : Prop := List.Forall₂ Calms readers readers'

namespace Followed

variable {readers readers' : List Reader}

theorem map {f : Reader → Reader} (hf : ∀ r ∈ readers, Follows r (f r)) :
    Followed readers (readers.map f) := by
  induction readers with
  | nil => exact .nil
  | cons r readers ih =>
      exact .cons (hf r (List.mem_cons_self ..)) (ih fun r hr => hf r (List.mem_cons_of_mem _ hr))

theorem exists_of_mem (h : Followed readers readers') {r' : Reader} (hr : r' ∈ readers') :
    ∃ r ∈ readers, Follows r r' := by
  induction h with
  | nil => cases hr
  | cons hc _ ih =>
      rcases List.mem_cons.mp hr with rfl | hr
      · exact ⟨_, List.mem_cons_self .., hc⟩
      · obtain ⟨r, hmem, hcalm⟩ := ih hr
        exact ⟨r, List.mem_cons_of_mem _ hmem, hcalm⟩

theorem map_runId (h : Followed readers readers') :
    readers'.map (·.runId) = readers.map (·.runId) := by
  induction h with
  | nil => rfl
  | cons hc _ ih => rw [List.map_cons, List.map_cons, hc.runId, ih]

end Followed

namespace Calmer

variable {readers readers' readers'' : List Reader}

theorem refl (readers : List Reader) : Calmer readers readers :=
  List.forall₂_same.mpr fun r _ => .refl r

theorem trans (h : Calmer readers readers') (h' : Calmer readers' readers'') :
    Calmer readers readers'' := by
  induction h generalizing readers'' with
  | nil => exact h'
  | cons hc _ ih =>
      obtain ⟨r'', rest, hc', hrest, rfl⟩ := List.forall₂_cons_left_iff.mp h'
      exact .cons (hc.trans hc') (ih hrest)

theorem map {f : Reader → Reader} (hf : ∀ r ∈ readers, Calms r (f r)) :
    Calmer readers (readers.map f) := by
  induction readers with
  | nil => exact .nil
  | cons r readers ih =>
      exact .cons (hf r (List.mem_cons_self ..)) (ih fun r hr => hf r (List.mem_cons_of_mem _ hr))

theorem modify {f : Reader → Reader} (index : Nat)
    (hf : ∀ r, readers[index]? = some r → Calms r (f r)) :
    Calmer readers (readers.modify index f) := by
  induction readers generalizing index with
  | nil =>
      rw [List.modify_nil]
      exact .nil
  | cons r readers ih =>
      cases index with
      | zero =>
          rw [List.modify_zero_cons]
          exact .cons (hf r rfl) (refl readers)
      | succ index =>
          rw [List.modify_succ_cons]
          exact .cons (.refl r) (ih index fun r hr => hf r (by simpa using hr))

theorem exists_of_mem (h : Calmer readers readers') {r' : Reader} (hr : r' ∈ readers') :
    ∃ r ∈ readers, Calms r r' := by
  induction h with
  | nil => cases hr
  | cons hc _ ih =>
      rcases List.mem_cons.mp hr with rfl | hr
      · exact ⟨_, List.mem_cons_self .., hc⟩
      · obtain ⟨r, hmem, hcalm⟩ := ih hr
        exact ⟨r, List.mem_cons_of_mem _ hmem, hcalm⟩

theorem exists_of_getElem? (h : Calmer readers readers') {index : Nat} {r' : Reader}
    (hr : readers'[index]? = some r') : ∃ r, readers[index]? = some r ∧ Calms r r' := by
  induction h generalizing index with
  | nil => simp at hr
  | cons hc _ ih =>
      cases index with
      | zero =>
          cases hr
          exact ⟨_, rfl, hc⟩
      | succ index =>
          obtain ⟨r, hget, hcalm⟩ := ih (by simpa using hr)
          exact ⟨r, by simpa using hget, hcalm⟩

theorem followed (h : Calmer readers readers') : Followed readers readers' :=
  List.Forall₂.imp (fun _ _ hc => hc.toFollows) h

end Calmer

/-- Setting a phase that is no livelier. -/
theorem Calms.of_phase (r : Reader) {phase : ReaderPhase}
    (h : phase = .ended ∨ phase = .stopped ∨ (phase = .draining ∧ r.phase = .reading)) :
    Calms r { r with phase := phase } := by
  refine ⟨⟨rfl, rfl, rfl, ?_⟩, ?_⟩
  · rcases h with rfl | rfl | ⟨rfl, hr⟩
    · simp [Reader.active, Reader.live]
    · simp [Reader.active, Reader.live]
    · simp [Reader.active, Reader.live, hr]
  · rcases h with rfl | rfl | ⟨rfl, hr⟩
    · simp [Reader.live]
    · simp [Reader.live]
    · simp [Reader.live, hr]

/-- Setting what a reader has seen or published. -/
theorem Calms.of_pending (r : Reader) (revision : Nat) (pending : Option Nat) :
    Calms r { r with revision := revision, pending := pending } :=
  ⟨⟨rfl, rfl, rfl, id⟩, id⟩

theorem Calms.stop (r : Reader) : Calms r { r with phase := r.phase.stop } := by
  obtain ⟨shellId, workspaceId, runId, revision, pending, phase⟩ := r
  cases phase with
  | starting => exact .of_phase _ (.inr (.inl rfl))
  | reading => exact .of_phase _ (.inr (.inl rfl))
  | _ => exact .refl _

theorem setPhase_calmer (w : World R) (runId : String) :
    Calmer w.readers (w.setPhase runId ReaderPhase.stop).readers :=
  .map fun r _ => by
    split
    · exact .stop r
    · exact .refl r

end Boomux.Daemon
