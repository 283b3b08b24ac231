import Boomux.Registry.Sound
import Mathlib.Data.List.InsertIdx

/-!
# Rolling back

Every operation of the registry keeps it sound, and its log undoes it, unless the revision of a
Workspace is exhausted after a partial change (`Fine`). For the seven changes this is proved one by
one; the operations follow, since they are checks and changes in a row.
-/

set_option autoImplicit false

namespace Boomux.Registry

open Rust Handoff Undo
open Daemon hiding ShellSpec
open Journal (ShellSpec)

/-! ## Undoing -/

namespace DurableState.Same

variable {d d' : DurableState} {k : Kind}

theorem withWorkspaces (h : d.Same d') {ws ws' : HashMap String Workspace}
    (hw : HashMap.Same ws ws') :
    (d.withWorkspaces ws).Same (d'.withWorkspaces ws') where
  workspaces := hw
  members k := by
    rw [members_withWorkspaces, members_withWorkspaces]
    exact h.members k

theorem withMembers (h : d.Same d') {m m' : HashMap String k.Record} (hm : HashMap.Same m m') :
    (d.withMembers k m).Same (d'.withMembers k m') := by
  refine .of_edit (k := k) ?_ ?_ fun j hj => ?_
  · rw [workspaces_withMembers, workspaces_withMembers]
    exact h.workspaces
  · rw [members_withMembers, members_withMembers]
    exact hm
  · rw [members_withMembers_of_ne _ _ _ hj, members_withMembers_of_ne _ _ _ hj]
    exact h.members j

theorem modifyWorkspace (h : d.Same d') (id : String) (f : Workspace → Workspace) :
    (d.modifyWorkspace id f).Same (d'.modifyWorkspace id f) :=
  h.withWorkspaces (h.workspaces.modify id f)

theorem modifyMember (h : d.Same d') (id : String) (f : k.Record → k.Record) :
    (d.modifyMember k id f).Same (d'.modifyMember k id f) :=
  h.withMembers ((h.members k).modify id f)

theorem putWorkspace (h : d.Same d') (w : Workspace) :
    (d.putWorkspace w).Same (d'.putWorkspace w) :=
  h.withWorkspaces (h.workspaces.insert w.id w)

theorem putMember (h : d.Same d') (r : k.Record) : (d.putMember k r).Same (d'.putMember k r) :=
  h.withMembers ((h.members k).insert (k.id r) r)

theorem mapMembers (h : d.Same d') {f : (k : Kind) → HashMap String k.Record →
    HashMap String k.Record}
    (hf : ∀ k m m', HashMap.Same m m' → HashMap.Same (f k m) (f k m')) :
    (d.mapMembers f).Same (d'.mapMembers f) where
  workspaces := h.workspaces
  members k := by
    rw [members_mapMembers, members_mapMembers]
    exact hf k _ _ (h.members k)

end DurableState.Same

theorem DurableUndo.apply_congr (u : DurableUndo) {d d' : DurableState} (h : d.Same d') :
    (u.apply d).Same (u.apply d') := by
  cases u with
  | createdWorkspace workspaceId shellIds =>
      exact (h.withMembers (HashMap.eraseAll_same (h.members .shell) shellIds)).withWorkspaces
        (h.workspaces.erase _)
  | created k workspaceId id => exact (h.withMembers ((h.members k).erase id)).modifyWorkspace _ _
  | renamedWorkspace workspaceId previous previousRevision => exact h.modifyWorkspace _ _
  | setWorkspaceDefaultCwd workspaceId previous previousRevision => exact h.modifyWorkspace _ _
  | renamedShell shellId previous previousRevision => exact h.modifyMember _ _
  | renamedLauncher launcherId previous previousRevision => exact h.modifyMember _ _
  | agentState agentId previous => exact h.modifyMember _ _
  | removed k workspaceId record index => exact (h.putMember record).modifyWorkspace _ _
  | removedWorkspace w members =>
      exact (h.mapMembers fun k m m' hm => HashMap.insertAll_same hm (members k)).putWorkspace w

/-- The undo log of the registry. -/
def undoing : Undoing DurableState DurableUndo where
  apply := DurableUndo.apply
  Same := DurableState.Same
  equivalence := DurableState.same_equivalence
  congr u _ _ h := u.apply_congr h

/-- What a partial change fails with. -/
def revisionExhausted : DaemonError := .ofIo (.ofMessage "workspace revision exhausted")

/-- The mutation keeps the registry sound, and can be rolled back unless it fails with an exhausted
revision. -/
abbrev Fine {α : Type} (x : Mutation α) (d : DurableState) : Prop :=
  Safe undoing Sound (· = revisionExhausted) x d

/-- A change with one record in its log. -/
theorem Fine.of_change {d d' : DurableState} {u : DurableUndo} {x : Mutation Unit}
    (hx : x d = ⟨.ok (), [u], d'⟩) (hsound : Sound d') (hundo : (u.apply d').Same d) :
      Fine x d := by
  refine ⟨?_, .inl ?_⟩
  · rw [hx]
    exact hsound
  · rw [hx]
    exact hundo

/-! ## The changes -/

section Changes

variable {d : DurableState} {k : Kind} {w w' : Workspace} {r r' : k.Record} {u : DurableUndo}
    {index : Nat}

theorem bumpRevision_cases (revision : Nat) :
    (revision + 1 ≤ u64Max ∧ bumpRevision "workspace" revision = .ok (revision + 1)) ∨
      bumpRevision "workspace" revision = .error (.ofMessage "workspace revision exhausted") := by
  unfold bumpRevision
  cases h : checkedAdd revision 1 with
  | some n =>
      obtain ⟨hle, rfl⟩ := checkedAdd_eq_some.mp h
      exact .inl ⟨hle, rfl⟩
  | none => exact .inr rfl

/-- What undoes an edit of a Workspace and of its records of one kind. -/
theorem undo_put {m m' : HashMap String k.Record} {f : Workspace → Workspace}
    (hw : d.workspaces.lookup w.id = some w) (hid : w'.id = w.id) (hf : f w' = w)
    (hm : HashMap.Same m' (d.members k)) :
    ((((d.withMembers k m).putWorkspace w').withMembers k m').modifyWorkspace w.id f).Same d := by
  unfold DurableState.modifyWorkspace DurableState.putWorkspace
  refine .of_edit (k := k) ?_ ?_ fun j hj => ?_
  · simp only [DurableState.workspaces_withWorkspaces, DurableState.workspaces_withMembers]
    rw [hid]
    exact .modify_insert hw hf
  · simp only [DurableState.members_withWorkspaces, DurableState.members_withMembers]
    exact hm
  · simp only [DurableState.members_withWorkspaces, DurableState.members_withMembers_of_ne _ _ _ hj]
    exact .refl _

/-- A record and its Workspace are put in. -/
theorem Sound.put (h : Sound d) (hw : d.workspaces.lookup w.id = some w) {l : List String}
    (hlist : w.Relisted k l w') {m : HashMap String k.Record}
    (hm : SoundMembers k (d.workspaces.insert w'.id w') m) :
    Sound ((d.withMembers k m).putWorkspace w') where
  workspaces := by
    unfold DurableState.putWorkspace
    rw [DurableState.workspaces_withWorkspaces, DurableState.workspaces_withMembers]
    exact h.workspaces.edit hw hlist.id hlist.name (hlist.valid (h.workspaces.valid hw).2)
  members j := by
    unfold DurableState.putWorkspace
    rw [DurableState.workspaces_withWorkspaces, DurableState.members_withWorkspaces,
      DurableState.workspaces_withMembers]
    by_cases hj : j = k
    · subst hj
      rw [DurableState.members_withMembers]
      exact hm
    · rw [DurableState.members_withMembers_of_ne _ _ _ hj]
      exact (h.members j).editOwner hw hlist.id (hlist.others j hj)

theorem addMember_fine (h : Sound d) (hw : d.workspaces.lookup w.id = some w)
    (hnew : (d.members k).lookup (k.id r) = none) (howner : k.workspaceId r = w.id)
    (hvalid : k.Valid r)
    (hname : k.named = true → nameTaken k d (w.ids k) (k.name r) = false) :
      Fine (addMember k w r) d := by
  have hnames : k.named = true → ∀ id ∈ w.ids k, ∀ r', (d.members k).lookup id = some r' →
      k.name r' ≠ k.name r := fun hk => nameTaken_eq_false.mp (hname hk)
  have hsound : ∀ w', w.Relisted k (w.ids k ++ [k.id r]) w' →
      Sound ((d.putMember k r).putWorkspace w') :=
    fun w' hlist => h.put hw hlist
      ((h.members k).add hw hlist.id hlist.ids hnew howner hvalid hnames)
  have hnot : k.id r ∉ w.ids k := (h.members k).listed.not_mem hw hnew
  unfold addMember
  rcases bumpRevision_cases w.revision with ⟨hle, hbump⟩ | hbump
  · have hlist := w.relisted_withRevision k (w.ids k ++ [k.id r]) hle
    refine .of_change (u := .created k w.id (k.id r)) (by simp only [hbump]) (hsound _ hlist) ?_
    refine undo_put hw hlist.id ?_ ?_
    · have hids : (w.ids k ++ [k.id r]).filter (· ≠ k.id r) = w.ids k := by
        simp only [ne_eq, decide_not, List.filter_append, List.filter_cons, decide_true,
          Bool.not_true,
          List.filter_nil, List.append_nil, Bool.false_eq_true, if_false]
        refine List.filter_eq_self.mpr fun id hid => ?_
        rw [Bool.not_eq_true', decide_eq_false_iff_not]
        rintro rfl
        exact hnot hid
      simp only [Workspace.ids_withRevision, Workspace.ids_withIds, hids,
        Workspace.revision_withRevision,
        rollbackBump_succ (h.workspaces.valid hw).2.revision_pos, Workspace.withIds_withIds,
        Workspace.withIds_ids]
    · unfold DurableState.putWorkspace DurableState.putMember
      simp only [DurableState.members_withWorkspaces, DurableState.members_withMembers]
      exact .erase_insert hnew r
  · refine ⟨?_, .inr ⟨_, by simp only [hbump]; rfl, rfl⟩⟩
    simp only [hbump]
    exact hsound _ (w.relisted_withIds k _)

theorem takeMember_fine (h : Sound d) (hw : d.workspaces.lookup w.id = some w)
    (hr : (d.members k).lookup (k.id r) = some r) (howner : k.workspaceId r = w.id)
    (hindex : (w.ids k).findIdx? (· = k.id r) = some index) : Fine (takeMember k w r index) d := by
  obtain ⟨hlt, hat, -⟩ := List.findIdx?_eq_some_iff_getElem.mp hindex
  have hget : (w.ids k)[index] = k.id r := of_decide_eq_true hat
  have herase : (w.ids k).eraseIdx index = (w.ids k).erase (k.id r) := by
    have hnodup := (h.members k).listed.nodup hw
    rw [← hget]
    exact (hnodup.erase_getElem index hlt).symm
  have hsound : ∀ w', w.Relisted k ((w.ids k).eraseIdx index) w' →
      Sound ((d.withMembers k ((d.members k).erase (k.id r))).putWorkspace w') :=
    fun w' hlist => h.put hw hlist
      ((h.members k).take hw hlist.id (hlist.ids.trans herase) hr howner)
  unfold takeMember
  rcases bumpRevision_cases w.revision with ⟨hle, hbump⟩ | hbump
  · have hlist := w.relisted_withRevision k ((w.ids k).eraseIdx index) hle
    refine .of_change (u := .removed k w.id r index) (by simp only [hbump]) (hsound _ hlist) ?_
    refine undo_put hw hlist.id ?_ ?_
    · have hids : ((w.ids k).eraseIdx index).insertIdx index (k.id r) = w.ids k := by
        rw [← hget]
        exact List.insertIdx_eraseIdx_getElem hlt
      simp only [Workspace.ids_withRevision, Workspace.ids_withIds, hids,
        Workspace.revision_withRevision,
        rollbackBump_succ (h.workspaces.valid hw).2.revision_pos, Workspace.withIds_withIds,
        Workspace.withIds_ids]
    · unfold DurableState.putWorkspace
      simp only [DurableState.members_withWorkspaces, DurableState.members_withMembers]
      exact .insert_erase hr
  · refine ⟨?_, .inr ⟨_, by simp only [hbump]; rfl, rfl⟩⟩
    simp only [hbump]
    exact hsound _ (w.relisted_withIds k _)

/-- Only the name, the default directory and the revision of a Workspace are edited. -/
theorem editWorkspace_fine {f : Workspace → Workspace} (h : Sound d)
    (hw : d.workspaces.lookup w.id = some w) (hid : w'.id = w.id) (hids : ∀ k, w'.ids k = w.ids k)
    (hvalid : w'.Valid)
    (hname : ∀ {id v}, d.workspaces.lookup id = some v → id ≠ w.id → v.name ≠ w'.name)
    (hu : ∀ d, u.apply d = d.modifyWorkspace w.id f) (hf : f w' = w) :
      Fine (editWorkspace u w') d := by
  refine .of_change rfl ?_ ?_
  · refine ⟨?_, fun k => ?_⟩
    · refine h.workspaces.put hvalid fun {id v} hv hne => hname hv ?_
      rwa [← hid]
    · unfold DurableState.putWorkspace
      rw [DurableState.members_withWorkspaces]
      exact (h.members k).editOwner hw hid (hids k)
  · rw [hu]
    unfold DurableState.modifyWorkspace DurableState.putWorkspace
    refine ⟨?_, fun k => ?_⟩
    · simp only [DurableState.workspaces_withWorkspaces]
      rw [hid]
      exact .modify_insert hw hf
    · simp only [DurableState.members_withWorkspaces]
      exact .refl _

theorem editMember_fine {f : k.Record → k.Record} (h : Sound d)
    (hr : (d.members k).lookup (k.id r) = some r) (hid : k.id r' = k.id r)
    (howner : k.workspaceId r' = k.workspaceId r) (hvalid : k.Valid r')
    (hname : k.named = true → ∀ {id s}, (d.members k).lookup id = some s → id ≠ k.id r →
      k.workspaceId s = k.workspaceId r → k.name s ≠ k.name r')
    (hu : ∀ d, u.apply d = d.modifyMember k (k.id r) f) (hf : f r' = r) :
      Fine (editMember u k r') d := by
  refine .of_change rfl ?_ ?_
  · refine ⟨?_, fun j => ?_⟩
    · unfold DurableState.putMember
      rw [DurableState.workspaces_withMembers]
      exact h.workspaces
    · unfold DurableState.putMember
      rw [DurableState.workspaces_withMembers]
      by_cases hj : j = k
      · subst hj
        rw [DurableState.members_withMembers]
        exact (h.members j).edit hr hid howner hvalid hname
      · rw [DurableState.members_withMembers_of_ne _ _ _ hj]
        exact h.members j
  · rw [hu]
    unfold DurableState.modifyMember DurableState.putMember
    refine .of_edit (k := k) ?_ ?_ fun j hj => ?_
    · simp only [DurableState.workspaces_withMembers]
      exact .refl _
    · simp only [DurableState.members_withMembers]
      rw [hid]
      exact .modify_insert hr hf
    · simp only [DurableState.members_withMembers_of_ne _ _ _ hj]
      exact .refl _

/-- A new Workspace with new Shells under different names. -/
theorem addWorkspace_fine {shells : List Shell} (h : Sound d) (hw : d.workspaces.lookup w.id = none)
    (hvalid : w.Valid) (hname : ∀ {id v}, d.workspaces.lookup id = some v → v.name ≠ w.name)
    (hshells : w.shellIds = shells.map (·.id)) (hlaunchers : w.launcherIds = [])
    (hagents : w.agentIds = [])
    (hkeys : (shells.map (·.id)).Nodup) (hnames : (shells.map (·.name)).Nodup)
    (hnew : ∀ s ∈ shells, d.shells.lookup s.id = none)
    (hrecords : ∀ s ∈ shells, s.Valid ∧ s.workspaceId = w.id) : Fine (addWorkspace w shells) d := by
  have hfst : (shells.map fun s => (s.id, s)).map Prod.fst = shells.map (·.id) := by
    rw [List.map_map]
    rfl
  refine .of_change rfl ?_ ?_
  -- The Workspace has its Shells, and no Launcher and no Agent.
  · refine ⟨h.workspaces.put hvalid fun hv _ => hname hv, fun j => ?_⟩
    cases j with
    | shell =>
        refine (h.members .shell).addOwner hw (hshells.trans hfst.symm) (hfst ▸ hkeys) ?_ ?_ ?_
        · rintro e he
          obtain ⟨s, hs, rfl⟩ := List.mem_map.mp he
          exact hnew s hs
        · rintro e he
          obtain ⟨s, hs, rfl⟩ := List.mem_map.mp he
          exact ⟨rfl, (hrecords s hs).1, (hrecords s hs).2⟩
        · rw [List.map_map]
          exact hnames
    | launcher =>
        refine (h.members .launcher).addOwner (l := []) hw hlaunchers .nil ?_ ?_ .nil
        all_goals intro e he; exact absurd he List.not_mem_nil
    | agent =>
        refine (h.members .agent).addOwner (l := []) hw hagents .nil ?_ ?_ .nil
        all_goals intro e he; exact absurd he List.not_mem_nil
  -- The undo takes the Shells and the Workspace out again.
  · refine ⟨?_, fun j => ?_⟩
    · exact .erase_insert hw w
    · cases j with
      | shell =>
          show HashMap.Same (HashMap.eraseAll (HashMap.insertAll d.shells _) _) d.shells
          rw [← hfst]
          refine .eraseAll_insertAll fun e he => ?_
          obtain ⟨s, hs, rfl⟩ := List.mem_map.mp he
          exact hnew s hs
      | launcher => exact .refl _
      | agent => exact .refl _

theorem removeWorkspace_change_fine (h : Sound d) (hw : d.workspaces.lookup w.id = some w) :
    Fine (fun d => ⟨.ok (), [.removedWorkspace w fun k => HashMap.entries (d.members k) (w.ids k)],
      (d.mapMembers fun k m => HashMap.eraseAll m (w.ids k)).withWorkspaces
        (d.workspaces.erase w.id)⟩) d := by
  refine .of_change rfl ?_ ?_
  · refine ⟨h.workspaces.erase w.id, fun k => ?_⟩
    rw [DurableState.members_withWorkspaces, DurableState.members_mapMembers]
    exact (h.members k).removeOwner hw
  · refine ⟨.insert_erase hw, fun k => ?_⟩
    show HashMap.Same (DurableState.members (DurableState.putWorkspace _ _) k) _
    unfold DurableState.putWorkspace
    simp only [DurableState.members_withWorkspaces, DurableState.members_mapMembers]
    exact .insertAll_eraseAll _ _

end Changes

/-! ## Checks before a change -/

section Checks

variable {α β : Type} {d : DurableState} {e : Except IoError α} {id name : String} {k : Kind}
  {ids : List String} {except : Option String} {g : DurableState → Except DaemonError α}

theorem liftIo_eq_ok {a : α} : liftIo e = .ok a ↔ e = .ok a := mapError_eq_ok

theorem Fine.read_bind {f : α → Mutation β} (h : Sound d) (hf : ∀ a, g d = .ok a → Fine (f a) d) :
    Fine (Step.read g >>= f) d := Safe.read_bind h hf

theorem Fine.check_bind {f : α → Mutation β} (h : Sound d) (hf : ∀ a, e = .ok a → Fine (f a) d) :
    Fine (check e >>= f) d := Safe.read_bind h fun a ha => hf a (liftIo_eq_ok.mp ha)

theorem Fine.workspace_bind {f : Workspace → Mutation β} (h : Sound d)
    (hf : ∀ w, d.workspaces.lookup id = some w → w.id = id → Fine (f w) d) :
    Fine (workspace id >>= f) d :=
  Safe.read_bind h fun w hw => by
    have hget := find_eq_ok.mp (liftIo_eq_ok.mp hw)
    exact hf w hget (h.workspaces.valid hget).1

theorem Fine.member_bind {f : k.Record → Mutation β} (h : Sound d)
    (hf : ∀ r, (d.members k).lookup id = some r → k.id r = id → Fine (f r) d) :
    Fine (member k id >>= f) d :=
  Safe.read_bind h fun r hr => by
    have hget := find_eq_ok.mp (liftIo_eq_ok.mp hr)
    exact hf r hget ((h.members k).valid hget).1

theorem Fine.workspaceNameFree_bind {f : Unit → Mutation β} (h : Sound d)
    (hf : (∀ {id w}, d.workspaces.lookup id = some w → some id ≠ except → w.name ≠ name) →
      Fine (f ()) d) : Fine (workspaceNameFree except name >>= f) d :=
  Safe.read_bind h fun _ hfree => by
    refine hf fun {id w} hw hne => ?_
    have hall := require_eq_ok.mp (liftIo_eq_ok.mp hfree)
    rw [List.all_eq_true] at hall
    have hone := hall (id, w) (HashMap.mem_toList.mpr hw)
    simpa [hne] using hone

theorem Fine.memberNameFree_bind {f : Unit → Mutation β} (h : Sound d)
    (hf : nameTaken k d ids name = false → Fine (f ()) d) :
      Fine (memberNameFree k ids name >>= f) d :=
  Safe.read_bind h fun _ hfree => by
    have hnot := require_eq_ok.mp (liftIo_eq_ok.mp hfree)
    exact hf (by simpa using hnot)

theorem guardWorkspace_reads {expected : Option Nat} : Reads (guardWorkspace expected id) d := by
  unfold guardWorkspace
  split
  next => exact .pure
  next => exact Reads.read.bind fun _ => .read

theorem guardMember_reads {revision : k.Record → Nat} {expected : Option Nat} :
    Reads (guardMember k revision expected id) d := by
  unfold guardMember
  split
  next => exact .pure
  next => exact Reads.read.bind fun _ => .read

end Checks

/-! ## Creating -/

section Creating

variable {isDir : String → Bool} {d : DurableState} {id workspaceId name : String}
    {spec : ShellSpec}
  {specs : List (String × ShellSpec)} {shell : Shell} {shells : List Shell}
    {defaultCwd : Option String}
  {w : Workspace} {u : Unit}

/-- A UUID that nothing in the registry has. -/
structure Fresh (d : DurableState) (id : String) : Prop where
  uuid : uuidParses id = true
  workspace : d.workspaces.lookup id = none
  member : ∀ k, (d.members k).lookup id = none

instance (d : DurableState) (id : String) : Decidable (Fresh d id) :=
  decidable_of_iff (uuidParses id = true ∧ (d.workspaces.lookup id).isNone = true ∧
      (d.shells.lookup id).isNone = true ∧ (d.launchers.lookup id).isNone = true ∧
      (d.agents.lookup id).isNone = true) <| by
    simp only [Option.isNone_iff_eq_none]
    constructor
    · rintro ⟨huuid, hworkspace, hshell, hlauncher, hagent⟩
      refine ⟨huuid, hworkspace, fun k => ?_⟩
      cases k with
      | shell => exact hshell
      | launcher => exact hlauncher
      | agent => exact hagent
    · intro h
      exact ⟨h.uuid, h.workspace, h.member .shell, h.member .launcher, h.member .agent⟩

theorem validateCwd_eq_ok {cwd : String} :
    validateCwd isDir cwd = .ok u ↔ isAbsolute cwd = true ∧ isDir cwd = true := by
  unfold validateCwd
  rw [require_eq_ok, Bool.and_eq_true]

theorem isAbsolute_of_validateDefaultCwd (h : validateDefaultCwd isDir defaultCwd = .ok ()) :
    ∀ cwd ∈ defaultCwd, isAbsolute cwd = true := by
  rintro cwd ⟨⟩
  exact (validateCwd_eq_ok.mp h).1

theorem createPendingShell_eq_ok : createPendingShell isDir workspaceId id spec = .ok shell ↔
    validateName spec.name = .ok () ∧ validateCwd isDir spec.cwd = .ok () ∧
      shell = .pending workspaceId id spec := by
  unfold createPendingShell
  constructor
  · intro h
    obtain ⟨_, hname, h⟩ := bind_eq_ok.mp h
    obtain ⟨_, hcwd, h⟩ := bind_eq_ok.mp h
    cases h
    exact ⟨hname, hcwd, rfl⟩
  · rintro ⟨hname, hcwd, rfl⟩
    exact bind_eq_ok.mpr ⟨(), hname, bind_eq_ok.mpr ⟨(), hcwd, rfl⟩⟩

theorem Shell.pending_valid (hid : uuidParses id = true) (hname : validateName spec.name = .ok ())
    (hcwd : validateCwd isDir spec.cwd = .ok ()) : (Shell.pending workspaceId id spec).Valid where
  uuid := hid
  name := isBlank_of_validateName hname
  cwd := (validateCwd_eq_ok.mp hcwd).1
  revision_pos := Nat.one_pos
  revision_le := by
    show 1 ≤ u64Max
    decide

theorem uuidParses_of_validateUuid {label : String} (h : validateUuid id label = .ok ()) :
    uuidParses id = true := by
  unfold validateUuid at h
  exact (require_bind_eq_ok.mp h).1

theorem insertShell_fine {shell : Shell} (h : Sound d) (hw : d.workspaces.lookup w.id = some w)
    (hnew : d.shells.lookup shell.id = none) (howner : shell.workspaceId = w.id)
    (hvalid : shell.Valid) :
    Fine (insertShell w shell) d := by
  unfold insertShell
  exact .memberNameFree_bind h fun hfree =>
    addMember_fine (k := .shell) h hw hnew howner hvalid fun _ => hfree

theorem createShell_fine (h : Sound d) (hfresh : Fresh d id) :
    Fine (createShell isDir id workspaceId spec) d := by
  unfold createShell
  refine .workspace_bind h fun w hw hid => .check_bind h fun shell hshell => ?_
  obtain ⟨hname, hcwd, rfl⟩ := createPendingShell_eq_ok.mp hshell
  subst hid
  exact .bind_pure (insertShell_fine h hw (hfresh.member .shell) rfl
    (Shell.pending_valid hfresh.uuid hname hcwd))

theorem createShellExact_fine (h : Sound d) :
    Fine (createShellExact isDir workspaceId id spec) d := by
  unfold createShellExact
  refine .check_bind h fun _ huuid => .read_bind h fun found hfound => ?_
  cases Except.ok.inj hfound
  split
  next => exact .check_bind h fun _ _ => Safe.pure h
  next hnew =>
    refine .workspace_bind h fun w hw hid => .check_bind h fun shell hshell => ?_
    obtain ⟨hname, hcwd, rfl⟩ := createPendingShell_eq_ok.mp hshell
    subst hid
    exact .bind_pure (insertShell_fine h hw hnew rfl
      (Shell.pending_valid (uuidParses_of_validateUuid huuid) hname hcwd))

theorem checkShellSpec_eq_ok {names names' : List String} : checkShellSpec names spec = .ok names' ↔
    validateName spec.name = .ok () ∧ spec.name ∉ names ∧ names' = spec.name :: names := by
  unfold checkShellSpec
  constructor
  · intro h
    obtain ⟨_, hname, h⟩ := bind_eq_ok.mp h
    obtain ⟨hnew, h⟩ := require_bind_eq_ok.mp h
    cases h
    exact ⟨hname, by simpa using hnew, rfl⟩
  · rintro ⟨hname, hnew, rfl⟩
    exact bind_eq_ok.mpr ⟨(), hname, require_bind_eq_ok.mpr ⟨by simpa using hnew, rfl⟩⟩

theorem names_of_validateShellSpecs {l : List ShellSpec} (h : validateShellSpecs l = .ok u) :
    (l.map (·.name)).Nodup := by
  unfold validateShellSpecs at h
  obtain ⟨seen, hseen, -⟩ := bind_eq_ok.mp h
  have hloop : l.foldlM checkShellSpec [] = .ok seen ↔ _ :=
    foldlM_collect fun _ _ _ => checkShellSpec_eq_ok
  exact (hloop.mp hseen).2.1

theorem mapM_createPendingShell
    (h : specs.mapM (fun s => createPendingShell isDir id s.1 s.2) = .ok shells) :
    shells = specs.map (fun s => Shell.pending id s.1 s.2) ∧
      ∀ s ∈ specs, validateName s.2.name = .ok () ∧ validateCwd isDir s.2.cwd = .ok () := by
  induction specs generalizing shells with
  | nil =>
      cases h
      exact ⟨rfl, fun s hs => absurd hs List.not_mem_nil⟩
  | cons s specs ih =>
      rw [List.mapM_cons] at h
      obtain ⟨shell, hshell, h⟩ := bind_eq_ok.mp h
      obtain ⟨rest, hrest, h⟩ := bind_eq_ok.mp h
      cases h
      obtain ⟨hname, hcwd, rfl⟩ := createPendingShell_eq_ok.mp hshell
      obtain ⟨rfl, hall⟩ := ih hrest
      exact ⟨rfl, List.forall_mem_cons.mpr ⟨⟨hname, hcwd⟩, hall⟩⟩

theorem Workspace.new_valid {l : List String} (hid : uuidParses id = true)
    (hname : validateName name = .ok ())
    (hcwd : validateDefaultCwd isDir defaultCwd = .ok ()) :
    (⟨id, 1, name, defaultCwd, l, [], []⟩ : Workspace).Valid where
  uuid := hid
  name := isBlank_of_validateName hname
  cwd := isAbsolute_of_validateDefaultCwd hcwd
  revision_pos := Nat.one_pos
  revision_le := by
    show 1 ≤ u64Max
    decide

theorem createWorkspace_fine (h : Sound d) (hfresh : Fresh d id)
    (hshells : ∀ s ∈ specs, Fresh d s.1)
    (hkeys : (specs.map Prod.fst).Nodup) :
      Fine (createWorkspace isDir id name defaultCwd specs) d := by
  unfold createWorkspace
  refine .check_bind h fun _ hname => .check_bind h fun _ hcwd => .check_bind h fun _ hspecs =>
    .check_bind h fun shells hmap => .workspaceNameFree_bind h fun hfree => .bind_pure ?_
  obtain ⟨rfl, hall⟩ := mapM_createPendingShell hmap
  refine addWorkspace_fine h hfresh.workspace (Workspace.new_valid hfresh.uuid hname hcwd)
    (fun hv => hfree hv (by simp)) rfl rfl rfl ?_ ?_ ?_ ?_
  · rw [List.map_map]
    exact hkeys
  · have hnames := names_of_validateShellSpecs hspecs
    rw [List.map_map] at hnames ⊢
    exact hnames
  · intro s hs
    obtain ⟨p, hp, rfl⟩ := List.mem_map.mp hs
    exact (hshells p hp).member .shell
  · intro s hs
    obtain ⟨p, hp, rfl⟩ := List.mem_map.mp hs
    exact ⟨Shell.pending_valid (hshells p hp).uuid (hall p hp).1 (hall p hp).2, rfl⟩

theorem createWorkspaceExact_fine (h : Sound d) :
    Fine (createWorkspaceExact isDir id name defaultCwd) d := by
  unfold createWorkspaceExact
  refine .check_bind h fun _ huuid => .check_bind h fun _ hname => .check_bind h fun _ hcwd =>
    .read_bind h fun found hfound => ?_
  cases Except.ok.inj hfound
  split
  next => exact .check_bind h fun _ _ => Safe.pure h
  next hnew =>
    refine .workspaceNameFree_bind h fun hfree => .bind_pure ?_
    refine addWorkspace_fine h hnew
      (Workspace.new_valid (uuidParses_of_validateUuid huuid) hname hcwd)
      (fun hv => hfree hv (by simp)) rfl rfl rfl .nil .nil ?_ ?_
    all_goals intro s hs; exact absurd hs List.not_mem_nil

theorem createShellWithWorkspace_fine (h : Sound d) (hworkspace : Fresh d workspaceId)
    (hshell : Fresh d id) :
    Fine (createShellWithWorkspace isDir workspaceId id spec) d := by
  unfold createShellWithWorkspace
  refine .read_bind h fun name _ => createWorkspace_fine h hworkspace ?_ (List.nodup_singleton id)
  intro s hs
  obtain rfl := List.mem_singleton.mp hs
  exact hshell

theorem insertLauncher_fine {spec : WorkspaceLauncherSpec} (h : Sound d)
    (hid : uuidParses id = true)
    (hnew : d.launchers.lookup id = none) : Fine (insertLauncher isDir workspaceId id spec) d := by
  unfold insertLauncher
  refine .check_bind h fun _ hspec => .workspace_bind h fun w hw hwid => .memberNameFree_bind h
    fun hfree =>
    .bind_pure ?_
  unfold validateLauncherSpec at hspec
  obtain ⟨_, hname, hspec⟩ := bind_eq_ok.mp hspec
  obtain ⟨_, hcwd, hcommand⟩ := bind_eq_ok.mp hspec
  subst hwid
  refine addMember_fine (k := .launcher) h hw hnew rfl ?_ fun _ => hfree
  exact ⟨hid, isBlank_of_validateName hname, (validateCwd_eq_ok.mp hcwd).1, hcommand, Nat.one_pos,
    by show 1 ≤ u64Max; decide⟩

theorem createLauncher_fine {spec : WorkspaceLauncherSpec} (h : Sound d) (hfresh : Fresh d id) :
    Fine (createLauncher isDir id workspaceId spec) d :=
  insertLauncher_fine h hfresh.uuid (hfresh.member .launcher)

theorem createLauncherExact_fine {spec : WorkspaceLauncherSpec} (h : Sound d) :
    Fine (createLauncherExact isDir workspaceId id spec) d := by
  unfold createLauncherExact
  refine .check_bind h fun _ huuid => .read_bind h fun found hfound => ?_
  cases Except.ok.inj hfound
  split
  next => exact .check_bind h fun _ _ => Safe.pure h
  next hnew => exact .bind_pure (insertLauncher_fine h (uuidParses_of_validateUuid huuid) hnew)

theorem setWorkspaceDefaultCwd_fine {cwd : String} (h : Sound d) :
    Fine (setWorkspaceDefaultCwd isDir workspaceId cwd) d := by
  unfold setWorkspaceDefaultCwd
  refine .check_bind h fun _ hcwd => .workspace_bind h fun w hw hid => ?_
  split
  next => exact Safe.pure h
  next =>
    refine .check_bind h fun revision hrevision => .bind_pure ?_
    obtain ⟨hle, rfl⟩ := bumpRevision_eq_ok.mp hrevision
    subst hid
    have hvalid := (h.workspaces.valid hw).2
    refine editWorkspace_fine h hw rfl (fun k => by cases k <;> rfl) ?_ ?_ (fun _ => rfl) rfl
    · refine ⟨hvalid.uuid, hvalid.name, ?_, Nat.succ_pos _, hle⟩
      rintro c ⟨⟩
      exact (validateCwd_eq_ok.mp hcwd).1
    · exact fun hv hne he => hne (h.workspaces.names hv hw he)

end Creating

/-! ## Renaming and removing -/

section Renaming

variable {d : DurableState} {id name : String}

theorem renameWorkspace_fine (h : Sound d) : Fine (renameWorkspace id name) d := by
  unfold renameWorkspace
  refine .check_bind h fun _ hname => .workspace_bind h fun w hw hid => .workspaceNameFree_bind h
    fun hfree => ?_
  split
  next => exact Safe.pure h
  next =>
    refine .check_bind h fun revision hrevision => .bind_pure ?_
    obtain ⟨hle, rfl⟩ := bumpRevision_eq_ok.mp hrevision
    subst hid
    have hvalid := (h.workspaces.valid hw).2
    refine editWorkspace_fine h hw rfl (fun k => by cases k <;> rfl) ?_ ?_ (fun _ => rfl) rfl
    · exact ⟨hvalid.uuid, isBlank_of_validateName hname, hvalid.cwd, Nat.succ_pos _, hle⟩
    · exact fun hv hne => hfree hv fun he => hne (Option.some.inj he)

/-- No other record of the Workspace has the name. -/
theorem name_ne_of_free {k : Kind} {w : Workspace} {r : k.Record} (h : Sound d)
    (hw : d.workspaces.lookup (k.workspaceId r) = some w)
    (hfree : nameTaken k d ((w.ids k).filter (· ≠ id)) name = false) {id' : String} {s : k.Record}
    (hs : (d.members k).lookup id' = some s) (hne : id' ≠ id)
    (howner : k.workspaceId s = k.workspaceId r) :
    k.name s ≠ name := by
  refine nameTaken_eq_false.mp hfree id' (List.mem_filter.mpr ⟨?_, by simpa using hne⟩) s hs
  exact (h.members k).listed.mem (howner ▸ hw) hs

theorem renameShell_fine (h : Sound d) : Fine (renameShell id name) d := by
  unfold renameShell
  refine .check_bind h fun _ hname => .member_bind h fun shell hshell hid =>
    .workspace_bind h fun w hw hwid =>
    .memberNameFree_bind h fun hfree => ?_
  split
  next => exact Safe.pure h
  next =>
    refine .check_bind h fun revision hrevision => .bind_pure ?_
    obtain ⟨hle, rfl⟩ := bumpRevision_eq_ok.mp hrevision
    subst hid
    have hvalid : Shell.Valid shell := ((h.members .shell).valid hshell).2
    refine editMember_fine (k := .shell) h hshell rfl rfl ?_ ?_ (fun _ => rfl) rfl
    · exact ⟨hvalid.uuid, isBlank_of_validateName hname, hvalid.cwd, Nat.succ_pos _, hle⟩
    · exact fun _ _ s hs hne howner => name_ne_of_free (k := .shell) h hw hfree hs hne howner

theorem renameLauncher_fine (h : Sound d) : Fine (renameLauncher id name) d := by
  unfold renameLauncher
  refine .check_bind h fun _ hname => .member_bind h fun launcher hlauncher hid =>
    .workspace_bind h fun w hw hwid => .memberNameFree_bind h fun hfree => ?_
  split
  next => exact Safe.pure h
  next =>
    refine .check_bind h fun revision hrevision => .bind_pure ?_
    obtain ⟨hle, rfl⟩ := bumpRevision_eq_ok.mp hrevision
    subst hid
    have hvalid : WorkspaceLauncher.Valid launcher := ((h.members .launcher).valid hlauncher).2
    refine editMember_fine (k := .launcher) h hlauncher rfl rfl ?_ ?_ (fun _ => rfl) rfl
    · exact ⟨hvalid.uuid, isBlank_of_validateName hname, hvalid.cwd, hvalid.command,
        Nat.succ_pos _, hle⟩
    · exact fun _ _ s hs hne howner => name_ne_of_free (k := .launcher) h hw hfree hs hne howner

theorem removeMember_fine {k : Kind} (h : Sound d) : Fine (removeMember k id) d := by
  unfold removeMember
  refine .member_bind h fun r hr hid => .workspace_bind h fun w hw hwid =>
    .check_bind h fun index hindex =>
    .bind_pure ?_
  split at hindex
  next found hfound =>
    cases hindex
    subst hid
    exact takeMember_fine h (hwid ▸ hw) hr hwid.symm hfound
  next => cases hindex

theorem removeWorkspace_fine (h : Sound d) : Fine (removeWorkspace id) d := by
  unfold removeWorkspace
  refine .workspace_bind h fun w hw hid => ?_
  subst hid
  exact removeWorkspace_change_fine h hw

end Renaming

/-! ## Agents -/

section Agents

variable {running : String → Option String} {d : DurableState} {id shellId runId : String}
    {millis : Nat}
  {spec : AgentRegistrationSpec} {report : AgentReport} {agent : AgentInstance}

theorem registerAgent_fine (h : Sound d) (hfresh : Fresh d id)
    (hrun : ∀ shellId runId, running shellId = some runId → uuidParses runId = true) :
    Fine (registerAgent running id millis shellId runId spec) d := by
  unfold registerAgent
  refine .check_bind h fun _ hspec => .check_bind h fun _ _ =>
    .member_bind h fun shell hshell hid =>
    .workspace_bind h fun w hw hwid => .read_bind h fun _ hrunning => .bind_pure ?_
  have hcurrent : running shellId = some runId := of_decide_eq_true (require_eq_ok.mp hrunning)
  have hvalid : Shell.Valid shell := ((h.members .shell).valid hshell).2
  refine addMember_fine (k := .agent) h (hwid ▸ hw) (hfresh.member .agent) hwid.symm ?_ ?_
  · exact ⟨hfresh.uuid, hvalid.uuid, hrun _ _ hcurrent, _,
      new_tracked millis _ _ _ _ hspec hvalid.cwd⟩
  · intro hnamed
    cases hnamed

theorem ensureAgent_fine (h : Sound d) (hfresh : Fresh d id)
    (hrun : ∀ shellId runId, running shellId = some runId → uuidParses runId = true) :
    Fine (ensureAgent running id millis shellId runId spec) d := by
  unfold ensureAgent
  refine .check_bind h fun _ _ => .check_bind h fun _ _ => .check_bind h fun session _ =>
    .read_bind h fun existing _ => ?_
  split
  next => exact Safe.pure h
  next => exact .bind_pure (registerAgent_fine h hfresh hrun)

/-- An agent gets another state, with a history that explains it. -/
theorem editAgent_fine {state : AgentInstanceState} (h : Sound d)
    (hagent : d.agents.lookup id = some agent)
    (htracked : (∃ log, Tracked log agent) → ∃ log, Tracked log { agent with state := state }) :
    Fine (editMember (.agentState id agent.state) .agent { agent with state := state }) d := by
  obtain ⟨hid, hvalid⟩ := (h.members .agent).valid hagent
  have hvalid : ValidAgent agent := hvalid
  subst hid
  refine editMember_fine (k := .agent) h hagent rfl rfl ?_ ?_ (fun _ => rfl) rfl
  · exact ⟨hvalid.uuid, hvalid.shell, hvalid.run, htracked hvalid.tracked⟩
  · intro hnamed
    cases hnamed

theorem reportAgent_fine (h : Sound d) : Fine (reportAgent millis id runId report) d := by
  unfold reportAgent
  refine .check_bind h fun _ hreport => .check_bind h fun _ _ =>
    .member_bind h fun agent hagent hid =>
    .read_bind h fun _ _ => .read_bind h fun outcome houtcome => ?_
  split
  next =>
    refine .bind_pure (editAgent_fine h hagent ?_)
    rintro ⟨log, htracked⟩
    exact ⟨_, report_tracked htracked hreport houtcome⟩
  next => exact Safe.pure h

theorem observeAgentWorkingContext_fine {context : AgentWorkingContextSnapshot} (h : Sound d) :
    Fine (observeAgentWorkingContext running millis id shellId runId context) d := by
  unfold observeAgentWorkingContext
  refine .check_bind h fun _ hcontext => .member_bind h fun agent hagent hid =>
    .read_bind h fun _ _ =>
    .read_bind h fun _ _ => .member_bind h fun _ _ _ => .read_bind h fun _ _ => ?_
  dsimp only
  split
  next =>
    refine .bind_pure (editAgent_fine h hagent ?_)
    rintro ⟨log, htracked⟩
    exact ⟨log, observeWorkingContext_tracked millis htracked hcontext⟩
  next => exact Safe.pure h

theorem acknowledgeAgentAttention_fine {revision : Nat} (h : Sound d) :
    Fine (acknowledgeAgentAttention id revision) d := by
  unfold acknowledgeAgentAttention
  refine .member_bind h fun agent hagent hid => .read_bind h fun acknowledged hacknowledged => ?_
  split
  next =>
    refine .bind_pure (editAgent_fine h hagent ?_)
    rintro ⟨log, htracked⟩
    exact ⟨_, acknowledge_tracked htracked hacknowledged⟩
  next => exact Safe.pure h

end Agents

end Boomux.Registry
