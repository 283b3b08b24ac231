import Boomux.Daemon.Readers

/-!
# The invariant of the output order

`World.Calm` says that the frontier is ordered, that no reader which can still publish reads a run
that an event of the frontier ends, and that such a reader's Shell runs its run. What the holder of
the mutation lock is about to do comes with it: the Shells that a lifecycle transaction has stopped
have no such readers, and what an open window may still undo brings nothing back that has been
closed.
-/

set_option autoImplicit false

namespace Boomux.Daemon

open Rust Transition

variable {R : Type} {w u : World R}

/-! ## The parts -/

/-- No event closes a Shell or a Workspace of the registry. -/
structure Open (d : Durable R) (events : List DaemonEventKind) : Prop where
  shells : ∀ id workspaceId, d.shells.workspaceOf id = some workspaceId →
    ∀ e ∈ events, e.endsShell id = false ∧ e.endsWorkspace workspaceId = false
  workspaces : ∀ workspaceId ∈ d.workspaces, ∀ e ∈ events, e.endsWorkspace workspaceId = false

/-- No event ends the run of a reader that can still publish. -/
def Live (readers : List Reader) (events : List DaemonEventKind) : Prop :=
  ∀ r ∈ readers, r.active = true → ∀ e ∈ events, e.ends (r.outputChanged 0) = false

/-- No reader of the Shell can still publish. -/
def Idle (readers : List Reader) (id : String) : Prop :=
  ∀ r ∈ readers, r.active = true → r.shellId ≠ id

/-- The event ends a run that no such reader reads. -/
structure Exits (readers : List Reader) (event : DaemonEventKind) : Prop where
  isOutput : event.isOutput = false
  endsShell : ∀ id, event.endsShell id = false
  endsWorkspace : ∀ id, event.endsWorkspace id = false
  live : Live readers [event]

/-- The readers and the registry agree on what runs. -/
structure Agree (readers : List Reader) (d : Durable R) : Prop where
  nodup : (readers.map (·.runId)).Nodup
  running : ∀ r ∈ readers, r.active = true →
    d.shells.runOf r.shellId = some (r.workspaceId, r.runId)
  own : ∀ id workspaceId runId, d.shells.runOf id = some (workspaceId, runId) →
    ∀ r ∈ readers, r.runId = runId → r.shellId = id

/-- The selected Shells are all that the call closes. -/
def LifecycleCall.Covers (d : Durable R) (shells : List String) : LifecycleCall R → Prop
  | .closeShell shellId _ => shellId ∈ shells
  | .closeWorkspace workspaceId _ =>
      ∀ id, d.shells.workspaceOf id = some workspaceId → id ∈ shells
  | .shutdown => True

/-- What an undo may bring back is open. -/
def UndoOpen (events : List DaemonEventKind) (undo : List (Durable R → Durable R)) : Prop :=
  ∃ d, Open d events ∧ ∀ f ∈ undo, Restores d f

/-- An open window of a mutation: its readers are paused, and its undo spares the others. -/
structure MutationCalm (w : World R) (batch : Batch) (undo : List (Durable R → Durable R))
    (started : List StartedRun) : Prop where
  neutral : ∀ e ∈ batch.kinds, e.ofMutation = true
  paused : ∀ r ∈ w.readers, (∃ s ∈ started, s.runId = r.runId) → r.live = false
  undoOpen : UndoOpen w.frontier undo
  undone : ∀ f ∈ undo, ∀ d id shell run, (f d).Runs id shell run → d.Runs id shell run
  spared : ∀ r ∈ w.readers, r.active = true → (∀ s ∈ started, s.runId ≠ r.runId) →
    ∀ f ∈ undo, ∀ d shell run, d.Runs r.shellId shell run → (f d).Runs r.shellId shell run

/-- An open window of a lifecycle transaction: what it closes is gone, and so are its readers. -/
structure LifecycleCalm (w : World R) (batch : Batch) (rollbacks : List (String × StopRollback))
    (undo : List (Durable R → Durable R)) : Prop where
  live : Live w.readers batch.kinds
  opened : Open w.durable.state batch.kinds
  silent : ∀ e ∈ batch.kinds, e.isOutput = false
  undoOpen : UndoOpen w.frontier undo
  single : undo.length ≤ 1
  undoRuns : ∀ f ∈ undo, ∀ now : Durable R,
    (∀ id, now.shells.workspaceOf id = w.durable.state.shells.workspaceOf id) →
      ∀ id, (f now).shells.runOf id = now.shells.runOf id
  rollbacks : ∀ p ∈ rollbacks, p.2.Idle ∧ ∀ event, p.2.event = some event → Exits w.readers event

/-- What an open window says. -/
def World.WindowCalm (w : World R) (batch : Batch) : WindowKind R → Prop
  | .mutation undo started => MutationCalm w batch undo started
  | .runExit => True
  | .lifecycle _ rollbacks undo => LifecycleCalm w batch rollbacks undo

/-- What the position of the holder says. -/
def World.HolderCalm (w : World R) : Prop :=
  match w.holder with
  | .exiting index => ∀ r, w.readers[index]? = some r → r.active = false
  | .stopping call shells remaining stopped =>
      call.Covers w.durable.state shells ∧
        (∀ id ∈ shells, id ∈ remaining ∨ Idle w.readers id) ∧ ∀ id ∈ stopped, Idle w.readers id
  | .compensating _ stopped => ∀ id ∈ stopped, Idle w.readers id
  | .finalizing call shells =>
      call.Covers w.durable.state shells ∧ ∀ id ∈ shells, Idle w.readers id
  | .window window => w.WindowCalm window.batch window.kind
  | _ => True

/-- The part of the invariant that does not depend on where the holder is. -/
structure World.Outputs (w : World R) : Prop where
  inFlight : w.flush ≠ none ∨ w.holder.closed = false →
    w.events.transition.persistenceInFlight = true
  ordered : Ordered w.frontier
  live : Live w.readers w.frontier
  opened : Open w.durable.state w.frontier
  agree : Agree w.readers w.durable.state

structure World.Calm (w : World R) : Prop extends World.Outputs w where
  holder : w.HolderCalm

/-! ## What keeps the parts -/

section Parts

variable {readers readers' : List Reader} {d d' : Durable R} {K K' : List DaemonEventKind}

theorem Idle.follow {id : String} (h : Idle readers id) (hr : Followed readers readers') :
    Idle readers' id := by
  intro r' hmem ha
  obtain ⟨r, hr, hc⟩ := hr.exists_of_mem hmem
  rw [hc.shellId]
  exact h r hr (hc.active ha)

theorem Live.follow (h : Live readers K) (hr : Followed readers readers') : Live readers' K := by
  intro r' hmem ha e he
  obtain ⟨r, hr, hc⟩ := hr.exists_of_mem hmem
  have := h r hr (hc.active ha) e he
  simp only [Reader.outputChanged, DaemonEventKind.ends] at this ⊢
  rwa [hc.workspaceId, hc.shellId, hc.runId]

theorem Exits.follow {event : DaemonEventKind} (h : Exits readers event)
    (hr : Followed readers readers') : Exits readers' event :=
  ⟨h.isOutput, h.endsShell, h.endsWorkspace, h.live.follow hr⟩

/-- New events that end nothing, or a run that nobody reads. -/
theorem Live.old (h : Live readers K)
    (hK : ∀ e ∈ K', e ∈ K ∨ e.Endless ∨ Exits readers e) : Live readers K' := by
  intro r hr ha e he
  rcases hK e he with he | he | he
  · exact h r hr ha e he
  · exact he _
  · exact he.live r hr ha e (List.mem_singleton_self e)

theorem Open.old (h : Open d K) (hK : ∀ e ∈ K', e ∈ K ∨ e.Endless ∨ Exits readers e) :
    Open d K' where
  shells id workspaceId hid e he := by
    rcases hK e he with he | he | he
    · exact h.shells id workspaceId hid e he
    · exact ⟨he.endsShell id, he.endsWorkspace workspaceId⟩
    · exact ⟨he.endsShell id, he.endsWorkspace workspaceId⟩
  workspaces workspaceId hid e he := by
    rcases hK e he with he | he | he
    · exact h.workspaces workspaceId hid e he
    · exact he.endsWorkspace workspaceId
    · exact he.endsWorkspace workspaceId

theorem Open.le (h : Open d K)
    (hs : ∀ id ws, d'.shells.workspaceOf id = some ws → d.shells.workspaceOf id = some ws)
    (hw : ∀ ws ∈ d'.workspaces, ws ∈ d.workspaces) : Open d' K :=
  ⟨fun id ws hid => h.shells id ws (hs id ws hid), fun ws hws => h.workspaces ws (hw ws hws)⟩

theorem Open.sameRuns (h : Open d K) (hd : SameRuns d d') : Open d' K :=
  h.le (fun id ws hid => by rw [← hd.owners]; exact hid)
    fun ws hws => by rw [← hd.workspaces]; exact hws

/-- An undo of what is open leaves what is open. -/
theorem UndoOpen.apply {undo : List (Durable R → Durable R)} (h : UndoOpen K undo) (hd : Open d K) :
    Open (rollback undo d) K := by
  obtain ⟨before, hbefore, hrestores⟩ := h
  unfold rollback
  have hrev : ∀ f ∈ undo.reverse, Restores before f := fun f hf =>
    hrestores f (List.mem_reverse.mp hf)
  generalize undo.reverse = fs at hrev
  induction fs generalizing d with
  | nil => exact hd
  | cons f fs ih =>
      refine ih ⟨fun id ws hid => ?_, fun ws hws => ?_⟩
        fun g hg => hrev g (List.mem_cons_of_mem _ hg)
      · obtain ⟨shell, hget, rfl⟩ := Option.map_eq_some_iff.mp hid
        obtain ⟨old, hold, hws⟩ := (hrev f (List.mem_cons_self ..)).shells d id shell hget
        rw [← hws]
        rcases hold with hold | hold
        · exact hd.shells id _ (by rw [Shells.workspaceOf, hold]; rfl)
        · exact hbefore.shells id _ (by rw [Shells.workspaceOf, hold]; rfl)
      · rcases (hrev f (List.mem_cons_self ..)).workspaces d ws hws with hws | hws
        · exact hd.workspaces ws hws
        · exact hbefore.workspaces ws hws

theorem UndoOpen.old {undo : List (Durable R → Durable R)} (h : UndoOpen K undo)
    (hK : ∀ e ∈ K', e ∈ K ∨ e.Endless) : UndoOpen K' undo := by
  obtain ⟨before, hbefore, hrestores⟩ := h
  have hold : ∀ e ∈ K', e ∈ K ∨ e.Endless ∨ Exits [] e := fun e he => (hK e he).imp_right .inl
  exact ⟨before, hbefore.old hold, hrestores⟩

/-- Readers calm down, and runs of idle Shells end. -/
theorem Agree.follow (h : Agree readers d) (hr : Followed readers readers')
    (hd : ∀ id, d'.shells.runOf id = d.shells.runOf id ∨
      (d'.shells.runOf id = none ∧ Idle readers' id)) : Agree readers' d' where
  nodup := by
    rw [hr.map_runId]
    exact h.nodup
  running r' hmem ha := by
    obtain ⟨r, hr, hc⟩ := hr.exists_of_mem hmem
    rcases hd r'.shellId with hrun | ⟨-, hidle⟩
    · rw [hrun, hc.shellId, hc.workspaceId, hc.runId]
      exact h.running r hr (hc.active ha)
    · exact absurd rfl (hidle r' hmem ha)
  own id ws runId hrun r' hmem hid := by
    obtain ⟨r, hr, hc⟩ := hr.exists_of_mem hmem
    rcases hd id with hsame | ⟨hnone, -⟩
    · rw [hc.shellId]
      exact h.own id ws runId (by rw [← hsame]; exact hrun) r hr (by rw [← hc.runId]; exact hid)
    · rw [hnone] at hrun
      cases hrun

/-- The exit of a run whose Shell is idle. -/
theorem Agree.exits (h : Agree readers d) {id : String} (hidle : Idle readers id)
    {event : DaemonEventKind} (he : IsExit d.shells id event) : Exits readers event where
  isOutput := he.isOutput
  endsShell := he.endsShell
  endsWorkspace := he.endsWorkspace
  live := by
    intro r hr ha e hmem
    obtain ⟨ws, run, hrun, rfl⟩ := he
    rw [List.mem_singleton.mp hmem]
    have hne : run.id ≠ r.runId := fun hid =>
      hidle r hr ha (h.own id ws run.id hrun r hr hid.symm)
    simp [DaemonEventKind.ends, DaemonEventKind.endsRun, DaemonEventKind.endsShell,
      DaemonEventKind.endsWorkspace, Reader.outputChanged, hne]

end Parts

/-- The undo spares the Shells of readers that have become calmer. -/
theorem MutationCalm.spared_calmer {batch : Batch} {undo : List (Durable R → Durable R)}
    {started : List StartedRun} (h : MutationCalm w batch undo started)
    {readers' : List Reader} (hr : Calmer w.readers readers') :
    ∀ r ∈ readers', r.active = true → (∀ s ∈ started, s.runId ≠ r.runId) →
      ∀ f ∈ undo, ∀ d shell run, d.Runs r.shellId shell run → (f d).Runs r.shellId shell run := by
  intro r' hmem ha hs
  obtain ⟨r, hr, hc⟩ := hr.exists_of_mem hmem
  rw [hc.shellId]
  exact h.spared r hr (hc.active ha) (by rw [← hc.runId]; exact hs)

/-- A step of another thread keeps what an open window says. -/
theorem World.WindowCalm.keep {batch : Batch} {kind : WindowKind R} (h : w.WindowCalm batch kind)
    (hr : Calmer w.readers u.readers) (hd : SameRuns w.durable.state u.durable.state)
    (hK : ∀ e ∈ u.frontier, e ∈ w.frontier ∨ e.Endless) : u.WindowCalm batch kind := by
  cases kind with
  | runExit => trivial
  | mutation undo started =>
      refine ⟨h.neutral, fun r' hmem hs => ?_, h.undoOpen.old hK, h.undone, h.spared_calmer hr⟩
      obtain ⟨r, hr, hc⟩ := hr.exists_of_mem hmem
      have hpaused := h.paused r hr (by rw [← hc.runId]; exact hs)
      by_contra hl
      rw [hc.live (by simpa using hl)] at hpaused
      cases hpaused
  | lifecycle call rollbacks undo =>
      refine ⟨h.live.follow hr.followed, h.opened.sameRuns hd, h.silent, h.undoOpen.old hK,
        h.single, fun f hf now hnow => ?_, fun p hp => ?_⟩
      · exact h.undoRuns f hf now fun id => by rw [hnow, hd.owners]
      · obtain ⟨hidle, hexit⟩ := h.rollbacks p hp
        exact ⟨hidle, fun event he => (hexit event he).follow hr.followed⟩

/-- A step of another thread keeps what the position of the holder says. -/
theorem World.HolderCalm.keep (h : w.HolderCalm) (hh : u.holder = w.holder)
    (hr : Calmer w.readers u.readers) (hd : SameRuns w.durable.state u.durable.state)
    (hK : ∀ e ∈ u.frontier, e ∈ w.frontier ∨ e.Endless) : u.HolderCalm := by
  have hcovers : ∀ (call : LifecycleCall R) shells, call.Covers w.durable.state shells →
      call.Covers u.durable.state shells := by
    intro call shells hc
    cases call with
    | closeShell shellId detach => exact hc
    | closeWorkspace workspaceId detach =>
        exact fun id hid => hc id (by rw [← hd.owners]; exact hid)
    | shutdown => trivial
  unfold World.HolderCalm at h ⊢
  rw [hh]
  cases hw : w.holder with
  | exiting index =>
      rw [hw] at h
      intro r' hr'
      obtain ⟨r, hget, hc⟩ := hr.exists_of_getElem? hr'
      have hidle := h r hget
      by_contra ha
      rw [hc.active (by simpa using ha)] at hidle
      cases hidle
  | stopping call shells remaining stopped =>
      rw [hw] at h
      obtain ⟨hcov, hrem, hstop⟩ := h
      exact ⟨hcovers call shells hcov,
        fun id hid => (hrem id hid).imp_right (·.follow hr.followed),
        fun id hid => (hstop id hid).follow hr.followed⟩
  | compensating call stopped =>
      rw [hw] at h
      exact fun id hid => (h id hid).follow hr.followed
  | finalizing call shells =>
      rw [hw] at h
      exact ⟨hcovers call shells h.1, fun id hid => (h.2 id hid).follow hr.followed⟩
  | window window =>
      rw [hw] at h
      exact World.WindowCalm.keep (w := w) h hr hd hK
  | _ => trivial

/-- A step that ends no run but those of idle Shells, and appends or queues no other end. -/
theorem World.Outputs.of (h : w.Outputs)
    (hf : u.flush ≠ none ∨ u.holder.closed = false →
      u.events.transition.persistenceInFlight = true)
    (hordered : Ordered u.frontier)
    (hK : ∀ e ∈ u.frontier, e ∈ w.frontier ∨ e.Endless ∨ Exits w.readers e)
    (hr : Followed w.readers u.readers)
    (hruns : ∀ id, u.durable.state.shells.runOf id = w.durable.state.shells.runOf id ∨
      (u.durable.state.shells.runOf id = none ∧ Idle u.readers id))
    (hopen : Open u.durable.state w.frontier) : u.Outputs where
  inFlight := hf
  ordered := hordered
  live := (h.live.old hK).follow hr
  opened := hopen.old hK
  agree := h.agree.follow hr hruns

/-- A step that changes no run. -/
theorem World.Outputs.same (h : w.Outputs)
    (hf : u.flush ≠ none ∨ u.holder.closed = false →
      u.events.transition.persistenceInFlight = true)
    (hK : Extends w.frontier u.frontier) (hr : Followed w.readers u.readers)
    (hd : SameRuns w.durable.state u.durable.state) : u.Outputs :=
  h.of hf (hK.ordered h.ordered) (fun e he => (hK.old e he).imp_right .inl) hr
    (fun id => .inl (hd.runs id)) (h.opened.sameRuns hd)

end Boomux.Daemon
