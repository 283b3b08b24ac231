import Boomux.Daemon.Machine
import Boomux.Registry.Catalogue
import Boomux.Registry.Log

/-!
# Requests in the daemon

The closure of a request as an operation of the daemon. The daemon has the Workspaces by their ids
and the Shells with their runs, and the registry is the rest (`Mirrors` says that the two agree). A
request adds to both what its closure has created, and its undo log takes out of both what the
records name. The requests that close go through `lifecycle_transaction` instead.
-/

set_option autoImplicit false

namespace Boomux.Registry

open Rust Handoff Undo
open Daemon (OperationOutcome StartedRun DaemonEventKind TerminalProfile)

/-- The registry of the daemon. -/
abbrev Durable : Type := Daemon.Durable DurableState

/-- The id of the run that a Shell is running. -/
def runningRun (d : Durable) (id : String) : Option String :=
  ((d.shells.get id).bind (·.running?)).map (·.id)

/-- The daemon has what the registry has. -/
structure Mirrors (d : Durable) : Prop where
  shells : ∀ id, (d.shells.get id).map (·.workspaceId) =
    (d.rest.shells.lookup id).map (·.workspaceId)
  workspaces : ∀ id, id ∈ d.workspaces ↔ (d.rest.workspaces.lookup id).isSome

/-! ## What is created -/

/-- A Shell as `create_pending_shell_with_id` leaves it. -/
def Shell.runtime (s : Shell) : Daemon.Shell := ⟨s.workspaceId, none, .pending⟩

/-- The Shell, if its Workspace is there too. -/
def DurableState.housed (d : DurableState) (id : String) : Option Shell :=
  (d.shells.lookup id).filter fun s => (d.workspaces.lookup s.workspaceId).isSome

/-- The daemon when a closure has made its registry `rest`: Workspaces and Shells that it did not
have are new. -/
def follow (d : Durable) (rest : DurableState) : Durable where
  workspaces := d.workspaces ++
    ((HashMap.toList rest.workspaces).map Prod.fst).filter fun id => id ∉ d.workspaces
  shells := HashMap.insertAll d.shells
    (((HashMap.toList rest.shells).filter fun e =>
      (d.shells.get e.1).isNone && (rest.housed e.1).isSome).map fun e => (e.1, e.2.runtime))
  rest := rest

section Follow

variable {d : Durable} {rest : DurableState} {id : String}

theorem housed_eq_some {s : Shell} : rest.housed id = some s ↔
    rest.shells.lookup id = some s ∧ (rest.workspaces.lookup s.workspaceId).isSome := by
  unfold DurableState.housed
  rw [Option.filter_eq_some_iff]

theorem mem_workspaces_follow : id ∈ (follow d rest).workspaces ↔
    id ∈ d.workspaces ∨ (rest.workspaces.lookup id).isSome := by
  unfold follow
  simp only [List.mem_append, List.mem_filter, List.mem_map, Prod.exists, exists_and_right,
    exists_eq_right, HashMap.mem_toList, ← Option.isSome_iff_exists, decide_eq_true_eq]
  tauto

theorem get_follow : (follow d rest).shells.get id =
    (d.shells.get id).or ((rest.housed id).map (·.runtime)) := by
  have hmem : ∀ shell, (id, shell) ∈ ((HashMap.toList rest.shells).filter fun e =>
      (d.shells.get e.1).isNone && (rest.housed e.1).isSome).map (fun e => (e.1, e.2.runtime)) ↔
      d.shells.get id = none ∧ (rest.housed id).map (·.runtime) = some shell := by
    intro shell
    simp only [List.mem_map, List.mem_filter, Prod.exists, HashMap.mem_toList, Bool.and_eq_true,
      Option.isNone_iff_eq_none, Prod.mk.injEq, Option.map_eq_some_iff]
    constructor
    · rintro ⟨id', s, ⟨hs, hnone, hsome⟩, rfl, rfl⟩
      obtain ⟨s', hs'⟩ := Option.isSome_iff_exists.mp hsome
      have heq : s = s' := Option.some.inj (hs.symm.trans (housed_eq_some.mp hs').1)
      exact ⟨hnone, s', hs', by rw [heq]⟩
    · rintro ⟨hnone, s, hs, rfl⟩
      exact ⟨id, s, ⟨(housed_eq_some.mp hs).1, hnone, by rw [hs]; rfl⟩, rfl, rfl⟩
  show AList.lookup id (HashMap.insertAll d.shells _) = _
  cases hd : d.shells.get id with
  | some shell =>
      rw [HashMap.get_insertAll_of_not_mem]
      · exact hd
      · intro shell' h
        rw [((hmem shell').mp h).1] at hd
        cases hd
  | none =>
      cases hs : (rest.housed id).map (·.runtime) with
      | none =>
          rw [HashMap.get_insertAll_of_not_mem]
          · exact hd
          · intro shell' h
            rw [((hmem shell').mp h).2] at hs
            cases hs
      | some shell =>
          refine HashMap.get_insertAll_of_mem ((hmem shell).mpr ⟨hd, hs⟩) (fun w hw => ?_) _
          exact Option.some.inj (((hmem w).mp hw).2.symm.trans hs)

end Follow

/-! ## The operation -/

/-- The undo of a record that was logged in `d`. What a record has created is new, so it is not
among what the daemon had. -/
def DurableUndo.revert (d : Durable) (u : DurableUndo) (now : Durable) : Durable where
  workspaces := now.workspaces.filter fun id => id ∈ d.workspaces || id ∉ u.createdWorkspaces
  shells := HashMap.eraseAll now.shells
    (u.createdShells.filter fun id => (d.shells.get id).isNone)
  rest := u.apply now.rest

/-- The Shell that a request starts, with the profile and the run. -/
def Request.starts : Request → Option (String × TerminalProfile × Daemon.ShellRun)
  | .createStartedShell id _ _ profile runId _ _ => some (id, profile, .new runId 1)
  | _ => none

/-- A Shell whose runtime has been spawned. -/
def startShell (profile : TerminalProfile) (run : Daemon.ShellRun) (shell : Daemon.Shell) :
    Daemon.Shell :=
  { shell with lastRun := some (run.persisted profile), lifecycle := .running profile run }

/-- The Shell that the request has created becomes running. -/
def Request.launch (request : Request) (d left : Durable) : Durable × List StartedRun :=
  match request.starts with
  | none => (left, [])
  | some (id, profile, run) =>
      match d.shells.get id, left.shells.get id with
      | none, some shell =>
          ({ left with shells := left.shells.insert id (startShell profile run shell) },
            [⟨id, shell.workspaceId, run.id⟩])
      | _, _ => (left, [])

/-- What a closure leaves in the daemon. -/
def Request.outcome (isDir : String → Bool) (request : Request) (d : Durable) :
    OperationOutcome DurableState :=
  let left := dispatch isDir (runningRun d) request d.rest
  let undo := (left.log.map fun u => u.revert d).reverse
  match left.result with
  | .error _ => ⟨follow d left.state, undo, [], none⟩
  | .ok mutation =>
      let launched := request.launch d (follow d left.state)
      ⟨launched.1, undo, launched.2, some mutation.announced⟩

/-! ## What a request leaves -/

section Launched

variable {isDir : String → Bool} {running : String → Option String} {request : Request}
  {d left : Durable} {rest : DurableState} {p : Durable × List StartedRun} {id : String}
  {shell : Daemon.Shell} {r : Daemon.ShellRun}

/-- At most one Shell that the daemon did not have has been started. -/
inductive Launched (request : Request) (d left : Durable) : Durable × List StartedRun → Prop
  | idle : Launched request d left (left, [])
  | started (id : String) (profile : TerminalProfile) (run : Daemon.ShellRun)
      (shell : Daemon.Shell) (hstarts : request.starts = some (id, profile, run))
      (hnew : d.shells.get id = none) (hleft : left.shells.get id = some shell) :
      Launched request d left
        ({ left with shells := left.shells.insert id (startShell profile run shell) },
          [⟨id, shell.workspaceId, run.id⟩])

theorem launch_launched : Launched request d left (request.launch d left) := by
  unfold Request.launch
  split
  · exact .idle
  next id profile run hstarts =>
    split
    next shell hnew hleft => exact .started id profile run shell hstarts hnew hleft
    · exact .idle

theorem outcome_launched (isDir : String → Bool) (request : Request) (d : Durable) :
    Launched request d
    (follow d (dispatch isDir (runningRun d) request d.rest).state)
    ((request.outcome isDir d).state, (request.outcome isDir d).started) := by
  unfold Request.outcome
  dsimp only
  split
  · exact .idle
  · exact launch_launched

theorem Launched.workspaces_eq (h : Launched request d left p) :
    p.1.workspaces = left.workspaces := by
  cases h <;> rfl

theorem Launched.rest_eq (h : Launched request d left p) : p.1.rest = left.rest := by
  cases h <;> rfl

/-- The Shells have the Workspaces that they had. -/
theorem Launched.owner (h : Launched request d left p) (id : String) :
    (p.1.shells.get id).map (·.workspaceId) = (left.shells.get id).map (·.workspaceId) := by
  cases h with
  | idle => rfl
  | started id' profile run shell hstarts hnew hleft =>
      dsimp only
      rw [Daemon.Shells.get_insert]
      split
      next he =>
        rw [he, hleft]
        rfl
      · rfl

/-- A Shell that the daemon has stays as it is. -/
theorem Launched.kept (h : Launched request d (follow d rest) p)
    (hd : d.shells.get id = some shell) : p.1.shells.get id = some shell := by
  have hfollow : (follow d rest).shells.get id = some shell := by rw [get_follow, hd]; rfl
  cases h with
  | idle => exact hfollow
  | started id' profile run shell' hstarts hnew hleft =>
      have hne : id ≠ id' := by
        rintro rfl
        rw [hnew] at hd
        cases hd
      dsimp only
      rw [Daemon.Shells.get_insert, if_neg hne]
      exact hfollow

/-- A Shell that the daemon did not have has its Workspace. -/
theorem Launched.created (h : Launched request d (follow d rest) p)
    (hp : p.1.shells.get id = some shell) : d.shells.get id = some shell ∨
      d.shells.get id = none ∧ (rest.workspaces.lookup shell.workspaceId).isSome := by
  cases hd : d.shells.get id with
  | some old => exact .inl ((h.kept hd).symm.trans hp)
  | none =>
      refine .inr ⟨rfl, ?_⟩
      have howner := h.owner id
      rw [hp, get_follow, hd, Option.none_or] at howner
      cases hs : rest.housed id with
      | none =>
          rw [hs] at howner
          cases howner
      | some s =>
          rw [hs] at howner
          have heq : shell.workspaceId = s.workspaceId := Option.some.inj howner
          rw [heq]
          exact (housed_eq_some.mp hs).2

/-- What runs ran before or has been started. -/
theorem Launched.runs_or (h : Launched request d (follow d rest) p) (hr : p.1.Runs id shell r) :
    d.Runs id shell r ∨ ⟨id, shell.workspaceId, r.id⟩ ∈ p.2 := by
  have hfollow : (follow d rest).Runs id shell r → d.Runs id shell r := by
    rintro ⟨hget, hrun⟩
    rw [get_follow] at hget
    cases hd : d.shells.get id with
    | some old =>
        rw [hd] at hget
        exact ⟨hd.trans hget, hrun⟩
    | none =>
        rw [hd, Option.none_or] at hget
        obtain ⟨s, -, rfl⟩ := Option.map_eq_some_iff.mp hget
        cases hrun
  cases h with
  | idle => exact .inl (hfollow hr)
  | started id' profile run shell' hstarts hnew hleft =>
      obtain ⟨hget, hrun⟩ := hr
      dsimp only at hget
      rw [Daemon.Shells.get_insert] at hget
      split at hget
      next he =>
        obtain rfl := Option.some.inj hget
        obtain rfl : run = r := Option.some.inj hrun
        exact .inr (by rw [he]; exact List.mem_singleton_self _)
      · exact .inl (hfollow ⟨hget, hrun⟩)

theorem Launched.runs (h : Launched request d left p) {s : StartedRun} (hs : s ∈ p.2) :
    ∃ shell r, p.1.Runs s.shellId shell r ∧ shell.workspaceId = s.workspaceId ∧ r.id = s.runId := by
  cases h with
  | idle => cases hs
  | started id profile run shell hstarts hnew hleft =>
      obtain rfl := List.mem_singleton.mp hs
      refine ⟨startShell profile run shell, run, ⟨?_, rfl⟩, rfl, rfl⟩
      rw [Daemon.Shells.get_insert, if_pos rfl]

/-! ## The started Shell -/

theorem createShell_ensures {d : DurableState} {workspaceId : String} {spec : Journal.ShellSpec} :
    Ensures (createShell isDir id workspaceId spec) d fun shell _ d' =>
      shell.id = id ∧ d'.shells.lookup id = some shell := by
  refine .read_bind fun w _ => .read_bind fun shell hshell => ?_
  have hid : shell.id = id := by
    obtain ⟨-, -, rfl⟩ := createPendingShell_eq_ok.mp (liftIo_eq_ok.mp hshell)
    rfl
  have hadd : Ensures (insertShell w shell) d fun _ _ d' => d'.shells.lookup id = some shell := by
    refine .read_bind fun _ _ => fun _ hok => ?_
    unfold addMember at hok ⊢
    dsimp only at hok ⊢
    split at hok
    · cases hok
    · show ((d.putMember .shell shell).putWorkspace _).shells.lookup id = _
      show AList.lookup id (AList.insert shell.id shell d.shells) = _
      rw [hid, AList.lookup_insert]
  exact .bind fun u hu => .pure ⟨hid, hadd u hu⟩

/-- A request that starts a Shell has put it into the registry, and says so. -/
theorem dispatch_starts {d : DurableState} {profile : TerminalProfile} {run : Daemon.ShellRun}
    (h : request.starts = some (id, profile, run)) :
    Ensures (dispatch isDir running request) d fun m _ d' => ∃ shell,
      d'.shells.lookup id = some shell ∧
      m.announced = .changed [shellCreated shell, .runStarted shell.workspaceId id run] := by
  cases request with
  | createStartedShell id' workspaceId spec profile' runId millis spawn =>
      cases h
      refine .read_bind fun _ _ => .bind fun shell hshell => .read_bind fun _ _ => .pure ?_
      obtain ⟨hid, hget⟩ := createShell_ensures shell hshell
      exact ⟨shell, hget, by rw [hid]; rfl⟩
  | _ => cases h

end Launched

/-! ## What an undo takes out -/

section Revert

variable {isDir : String → Bool} {request : Request} {d now : Durable} {u : DurableUndo}
  {id : String} {shell : Daemon.Shell} {r : Daemon.ShellRun}

theorem get_revert : (u.revert d now).shells.get id =
    if id ∈ u.createdShells ∧ d.shells.get id = none then none else now.shells.get id := by
  show AList.lookup id (HashMap.eraseAll now.shells _) = _
  rw [HashMap.get_eraseAll]
  simp only [List.mem_filter, Option.isNone_iff_eq_none]
  rfl

theorem mem_workspaces_revert : id ∈ (u.revert d now).workspaces ↔
    id ∈ now.workspaces ∧ (id ∈ d.workspaces ∨ id ∉ u.createdWorkspaces) := by
  unfold DurableUndo.revert
  simp

theorem get_of_get_revert (h : (u.revert d now).shells.get id = some shell) :
    now.shells.get id = some shell := by
  rw [get_revert] at h
  split at h
  · cases h
  · exact h

theorem outcome_undo : (request.outcome isDir d).undo =
    ((dispatch isDir (runningRun d) request d.rest).log.map fun u => u.revert d).reverse := by
  unfold Request.outcome
  dsimp only
  split <;> rfl

theorem exists_of_mem_undo {undo : Durable → Durable} (h : undo ∈ (request.outcome isDir d).undo) :
    ∃ u : DurableUndo, undo = u.revert d := by
  rw [outcome_undo, List.mem_reverse] at h
  obtain ⟨u, -, rfl⟩ := List.mem_map.mp h
  exact ⟨u, rfl⟩

end Revert

/-! ## The operation -/

section Operation

variable {isDir : String → Bool} {request : Request} {d : Durable} {kinds : List DaemonEventKind}

theorem outcome_result (h : (request.outcome isDir d).result = some (.changed kinds)) :
    ∃ m, (dispatch isDir (runningRun d) request d.rest).result = .ok m ∧
      m.announced = .changed kinds := by
  unfold Request.outcome at h
  dsimp only at h
  split at h
  · cases h
  next m hm => exact ⟨m, hm, Option.some.inj h⟩

/-- What has been started has its event. -/
theorem outcome_reported (h : (request.outcome isDir d).result = some (.changed kinds))
    {s : StartedRun} (hs : s ∈ (request.outcome isDir d).started) :
    ∃ r : Daemon.ShellRun, r.id = s.runId ∧ .runStarted s.workspaceId s.shellId r ∈ kinds := by
  obtain ⟨m, hm, hkinds⟩ := outcome_result h
  have hlaunched := outcome_launched isDir request d
  generalize (request.outcome isDir d).state = state at hlaunched
  generalize (request.outcome isDir d).started = started at hlaunched hs
  cases hlaunched with
  | idle => cases hs
  | started id profile run shell hstarts hnew hleft =>
      obtain rfl := List.mem_singleton.mp hs
      obtain ⟨created, hget, hannounced⟩ := dispatch_starts hstarts m hm
      -- the Shell that has been started is the one that the closure has created
      have howner : shell.workspaceId = created.workspaceId := by
        rw [get_follow, hnew, Option.none_or] at hleft
        obtain ⟨t, ht, rfl⟩ := Option.map_eq_some_iff.mp hleft
        have heq : t = created := Option.some.inj ((housed_eq_some.mp ht).1.symm.trans hget)
        rw [← heq]
        rfl
      rw [hkinds] at hannounced
      cases hannounced
      refine ⟨run, rfl, ?_⟩
      rw [howner]
      exact List.mem_cons_of_mem _ (List.mem_singleton_self _)

/-- The request as an operation of the daemon. -/
def Request.operation (isDir : String → Bool) (request : Request) (h : request.closes = false) :
    Daemon.Operation DurableState where
  run := request.outcome isDir
  created d id shell hget := by
    rcases (outcome_launched ..).created hget with hold | ⟨hnone, howner⟩
    · exact .inl ⟨shell, hold, rfl⟩
    · refine .inr ⟨hnone, ?_⟩
      rw [(outcome_launched ..).workspaces_eq]
      exact mem_workspaces_follow.mpr (.inr howner)
  kinds d kinds hresult := by
    obtain ⟨m, hm, hkinds⟩ := outcome_result hresult
    exact dispatch_neutral h m hm kinds hkinds
  kept d id shell r hruns := ⟨(outcome_launched ..).kept hruns.1, hruns.2⟩
  running d id shell r hruns := (outcome_launched ..).runs_or hruns
  started d s hs := (outcome_launched ..).runs hs
  reported d kinds s hresult hs := outcome_reported hresult hs
  undone d undo d' id shell r hundo hruns := by
    obtain ⟨u, rfl⟩ := exists_of_mem_undo hundo
    exact ⟨get_of_get_revert hruns.1, hruns.2⟩
  spared d undo d' id shell r hundo hruns hold := by
    obtain ⟨u, rfl⟩ := exists_of_mem_undo hundo
    refine ⟨?_, hruns.2⟩
    rw [get_revert, if_neg]
    · exact hruns.1
    · rintro ⟨-, hnone⟩
      rw [hnone] at hold
      cases hold
  restored d undo hundo := by
    obtain ⟨u, rfl⟩ := exists_of_mem_undo hundo
    exact ⟨fun _ _ shell hget => ⟨shell, .inl (get_of_get_revert hget), rfl⟩,
      fun _ _ hws => .inl (mem_workspaces_revert.mp hws).1⟩

end Operation

/-! ## Rolling back -/

section Rollback

variable {isDir : String → Bool} {request : Request} {d now : Durable} {log : List DurableUndo}
  {id : String}

/-- The daemon rolls a log back. -/
def revertAll (d : Durable) (log : List DurableUndo) (now : Durable) : Durable :=
  log.foldl (fun now u => u.revert d now) now

theorem revertAll_rest : (revertAll d log now).rest = undoing.rollback log now.rest := by
  induction log generalizing now with
  | nil => rfl
  | cons u log ih => exact ih

theorem get_revertAll : (revertAll d log now).shells.get id =
    if id ∈ log.flatMap (·.createdShells) ∧ d.shells.get id = none then none
    else now.shells.get id := by
  induction log generalizing now with
  | nil => exact (if_neg fun h => List.not_mem_nil h.1).symm
  | cons u log ih =>
      show (revertAll d log (u.revert d now)).shells.get id = _
      rw [ih, get_revert]
      simp only [List.flatMap_cons, List.mem_append]
      by_cases hu : id ∈ u.createdShells
      · by_cases hd : d.shells.get id = none
        · simp [hu, hd]
        · simp [hd]
      · simp [hu]

theorem mem_workspaces_revertAll : id ∈ (revertAll d log now).workspaces ↔
    id ∈ now.workspaces ∧ (id ∈ d.workspaces ∨ id ∉ log.flatMap (·.createdWorkspaces)) := by
  induction log generalizing now with
  | nil => simp [revertAll]
  | cons u log ih =>
      show id ∈ (revertAll d log (u.revert d now)).workspaces ↔ _
      rw [ih, mem_workspaces_revert]
      simp only [List.flatMap_cons, List.mem_append]
      tauto

theorem rollback_outcome : Daemon.rollback (request.outcome isDir d).undo now =
    revertAll d (dispatch isDir (runningRun d) request d.rest).log now := by
  unfold Daemon.rollback
  rw [outcome_undo, List.reverse_reverse, List.foldl_map]
  rfl

end Rollback

/-! ## The registry of the daemon -/

section Requests

variable {isDir : String → Bool} {request : Request} {d : Durable} {rest : DurableState}
  {log : List DurableUndo} {p : Durable × List StartedRun}

/-- The daemon has again what it had. -/
structure Restored (d now : Durable) : Prop where
  rest : now.rest.Same d.rest
  shells : ∀ id, now.shells.get id = d.shells.get id
  workspaces : ∀ id, id ∈ now.workspaces ↔ id ∈ d.workspaces

/-- What is launched over a registry that a log brings back can be reverted. -/
theorem Launched.restored (hp : Launched request d (follow d rest) p) (hd : Mirrors d)
    (hlog : ∀ u ∈ log, u.putsBack = false) (hsame : (undoing.rollback log rest).Same d.rest) :
    Restored d (revertAll d log p.1) where
  rest := by
    rw [revertAll_rest, hp.rest_eq]
    exact hsame
  shells id := by
    rw [get_revertAll]
    cases hget : d.shells.get id with
    | some shell =>
        rw [if_neg fun h => Option.some_ne_none _ h.2]
        exact hp.kept hget
    | none =>
        split
        · rfl
        next hnot =>
          -- no record has created the Shell, so the registry does not have it
          have hid : id ∉ log.flatMap (·.createdShells) := fun hid => hnot ⟨hid, rfl⟩
          have hrest := shells_rollback rest id hlog
          have hshells : (undoing.rollback log rest).shells.lookup id = d.rest.shells.lookup id :=
            hsame.members .shell id
          rw [if_neg hid, hshells, ← hd.shells, hget] at hrest
          have hnone : rest.shells.lookup id = none := by simpa using hrest.symm
          have howner := hp.owner id
          rw [get_follow, hget, DurableState.housed, hnone] at howner
          simpa using howner
  workspaces id := by
    rw [mem_workspaces_revertAll, hp.workspaces_eq, mem_workspaces_follow]
    have hrest := workspaces_rollback rest id hlog
    rw [hsame.workspaces id] at hrest
    have hiff := hd.workspaces id
    rw [hrest, Bool.and_eq_true, decide_eq_true_eq] at hiff
    tauto

/-- What is launched over a registry that a log brings back mirrors it. -/
theorem Launched.mirrors (hp : Launched request d (follow d rest) p) (hd : Mirrors d)
    (hsound : Sound rest) (hlog : ∀ u ∈ log, u.putsBack = false)
    (hsame : (undoing.rollback log rest).Same d.rest) : Mirrors p.1 where
  shells id := by
    rw [hp.owner, hp.rest_eq, get_follow]
    have hrest := shells_rollback rest id hlog
    have hshells : (undoing.rollback log rest).shells.lookup id = d.rest.shells.lookup id :=
      hsame.members .shell id
    rw [hshells, ← hd.shells] at hrest
    cases hget : d.shells.get id with
    | some shell =>
        rw [hget] at hrest
        split at hrest
        · cases hrest
        · exact hrest
    | none =>
        -- every Shell of a sound registry has its Workspace
        have hhoused : rest.housed id = rest.shells.lookup id := by
          cases hs : rest.shells.lookup id with
          | none => rw [DurableState.housed, hs]; rfl
          | some s =>
              obtain ⟨w, hw, -⟩ := (hsound.members .shell).listed.listed hs
              exact housed_eq_some.mpr ⟨hs, Option.isSome_iff_exists.mpr ⟨w, hw⟩⟩
        rw [hhoused, Option.none_or, Option.map_map]
        rfl
  workspaces id := by
    rw [hp.workspaces_eq, hp.rest_eq, mem_workspaces_follow]
    have hrest := workspaces_rollback rest id hlog
    rw [hsame.workspaces id] at hrest
    have hiff := hd.workspaces id
    rw [hrest, Bool.and_eq_true] at hiff
    tauto

/-- What a request relies on: a sound registry that the daemon mirrors, and new UUIDs. -/
structure Request.Admissible (request : Request) (d : Durable) : Prop where
  sound : Sound d.rest
  mirrors : Mirrors d
  runs : ∀ id runId, runningRun d id = some runId → uuidParses runId = true
  fresh : request.fresh (runningRun d) d.rest = true

/-- The one failure that leaves a record in the registry and logs nothing. -/
def Request.Exhausts (isDir : String → Bool) (request : Request) (d : Durable) : Prop :=
  (dispatch isDir (runningRun d) request d.rest).result = .error revisionExhausted

/-- The closure keeps the registry sound and can be rolled back. -/
theorem Request.Admissible.fine (h : request.Admissible d) (isDir : String → Bool) :
    Fine (dispatch isDir (runningRun d) request) d.rest :=
  dispatch_fine h.sound h.fresh h.runs

/-- A request leaves the registry sound, whether or not it fails. -/
theorem Request.Admissible.sound_outcome (h : request.Admissible d) :
    Sound (request.outcome isDir d).state.rest := by
  rw [(outcome_launched ..).rest_eq]
  exact (h.fine isDir).kept

/-- The log of a request brings the registry back. -/
theorem Request.Admissible.undone (h : request.Admissible d) (hx : ¬request.Exhausts isDir d) :
    (undoing.rollback (dispatch isDir (runningRun d) request d.rest).log
      (dispatch isDir (runningRun d) request d.rest).state).Same d.rest := by
  rcases (h.fine isDir).undone with hsame | ⟨e, he, rfl⟩
  · exact hsame
  · exact absurd he hx

/-- A request that fails, or that is not saved, leaves the daemon with what it had. -/
theorem Request.Admissible.restored (h : request.Admissible d) (hcloses : request.closes = false)
    (hx : ¬request.Exhausts isDir d) :
    Restored d
      (Daemon.rollback (request.outcome isDir d).undo (request.outcome isDir d).state) := by
  rw [rollback_outcome]
  exact (outcome_launched ..).restored h.mirrors (logs_dispatch hcloses _) (h.undone hx)

/-- A request keeps the daemon and its registry in step. -/
theorem Request.Admissible.mirrors_outcome (h : request.Admissible d)
    (hcloses : request.closes = false) (hx : ¬request.Exhausts isDir d) :
    Mirrors (request.outcome isDir d).state :=
  (outcome_launched ..).mirrors h.mirrors (h.fine isDir).kept
    (logs_dispatch hcloses _) (h.undone hx)

/-- The events that a request announces tell what it does to the catalogue of the registry, and it
can be undone exactly when it announces any. -/
theorem Request.Admissible.tells (h : request.Admissible d) {kinds : List DaemonEventKind}
    (hresult : (request.outcome isDir d).result = some (.changed kinds)) :
    (request.outcome isDir d).state.rest.catalogue = d.rest.catalogue.after kinds ∧
      ((request.outcome isDir d).undo = [] ↔ kinds = []) := by
  obtain ⟨m, hm, hkinds⟩ := outcome_result hresult
  have htells := dispatch_tells h.sound h.fresh h.runs m hm
  cases m with
  | unchanged value => cases hkinds
  | changed value kinds' =>
      cases hkinds
      constructor
      · rw [(outcome_launched ..).rest_eq]
        exact htells.catalogue
      · rw [outcome_undo, List.reverse_eq_nil_iff, List.map_eq_nil_iff]
        exact htells.logged

end Requests

/-! ## Requests in the machine -/

section Machine

variable (isDir : String → Bool) (request : Request) (w : Daemon.World DurableState)
  (hcloses : request.closes = false) (reserve : Nat → Except IoError Unit) (captured : Bool)

/-- After its operation a request goes on with what it has done, or it has been rolled back. -/
theorem mutate_state :
    (w.mutate (request.operation isDir hcloses) reserve captured).holder ≠ .free ∧
      (w.mutate (request.operation isDir hcloses) reserve captured).durable.state =
        (request.outcome isDir w.durable.state).state ∨
    (w.mutate (request.operation isDir hcloses) reserve captured).durable.state =
      Daemon.rollback (request.outcome isDir w.durable.state).undo
        (request.outcome isDir w.durable.state).state := by
  unfold Daemon.World.mutate
  dsimp only
  split
  · exact .inr rfl
  · exact .inr rfl
  next kinds hresult =>
    split
    · exact .inr rfl
    · split
      · exact .inl ⟨by simp, rfl⟩
      · exact .inr rfl

theorem Restored.mirrors {d now : Durable} (h : Restored d now) (hd : Mirrors d) :
    Mirrors now where
  shells id := by
    have hrest : now.rest.shells.lookup id = d.rest.shells.lookup id := h.rest.members .shell id
    rw [h.shells, hrest]
    exact hd.shells id
  workspaces id := by
    rw [h.workspaces, h.rest.workspaces id]
    exact hd.workspaces id

/-- A request keeps the daemon in step with its registry, whether it fails, is not captured or goes
on to its save. -/
theorem mutate_mirrors (h : request.Admissible w.durable.state)
    (hx : ¬request.Exhausts isDir w.durable.state) :
    Mirrors (w.mutate (request.operation isDir hcloses) reserve captured).durable.state := by
  rcases mutate_state isDir request w hcloses reserve captured with ⟨-, hstate⟩ | hstate
  · rw [hstate]
    exact h.mirrors_outcome hcloses hx
  · rw [hstate]
    exact (h.restored hcloses hx).mirrors h.mirrors

/-- A request that does not go on to its save leaves the registry as it was. -/
theorem mutate_restored (h : request.Admissible w.durable.state)
    (hx : ¬request.Exhausts isDir w.durable.state)
    (hfree : (w.mutate (request.operation isDir hcloses) reserve captured).holder = .free) :
    Restored w.durable.state
      (w.mutate (request.operation isDir hcloses) reserve captured).durable.state := by
  rcases mutate_state isDir request w hcloses reserve captured with ⟨hheld, -⟩ | hstate
  · exact absurd hfree hheld
  · rw [hstate]
    exact h.restored hcloses hx

end Machine

end Boomux.Registry
