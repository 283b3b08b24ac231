import Boomux.Registry.Operations

/-!
# Sound registries

`Sound` says what the maps of a registry are with respect to each other, and that every record would
be accepted from the state file. The lemmas after it are for the changes that the operations make.
-/

set_option autoImplicit false

namespace Boomux.Registry

open Rust Handoff
open Daemon (AgentInstance isBlank)

/-! ## The invariant -/

/-- What a start demands of a Workspace that it reads. -/
structure Workspace.Valid (w : Workspace) : Prop where
  uuid : uuidParses w.id = true
  name : isBlank w.name = false
  cwd : ∀ cwd ∈ w.defaultCwd, isAbsolute cwd = true
  revision_pos : 0 < w.revision
  revision_le : w.revision ≤ u64Max

/-- What a start demands of a Shell that it reads. -/
structure Shell.Valid (s : Shell) : Prop where
  uuid : uuidParses s.id = true
  name : isBlank s.name = false
  cwd : isAbsolute s.cwd = true
  revision_pos : 0 < s.revision
  revision_le : s.revision ≤ u64Max

/-- What a start demands of a launcher that it reads. -/
structure WorkspaceLauncher.Valid (l : WorkspaceLauncher) : Prop where
  uuid : uuidParses l.id = true
  name : isBlank l.name = false
  cwd : isAbsolute l.cwd = true
  command : validateLauncherCommand l.command = .ok ()
  revision_pos : 0 < l.revision
  revision_le : l.revision ≤ u64Max

/-- What a start demands of an agent that it reads, and that it has a history. -/
structure ValidAgent (a : AgentInstance) : Prop where
  uuid : uuidParses a.id = true
  shell : uuidParses a.shellId = true
  run : uuidParses a.runId = true
  tracked : ∃ log, Tracked log a

def Kind.Valid : (k : Kind) → k.Record → Prop
  | .shell, s => s.Valid
  | .launcher, l => l.Valid
  | .agent, a => ValidAgent a

/-- Ids are keys, and the names of the Workspaces are unique. -/
structure SoundWorkspaces (ws : HashMap String Workspace) : Prop where
  valid : ∀ {id w}, ws.lookup id = some w → w.id = id ∧ w.Valid
  names : ∀ {id id' w w'}, ws.lookup id = some w → ws.lookup id' = some w' → w.name = w'.name →
    id = id'

/-- The lists of the Workspaces are the records of the kind, ids are keys, and a Workspace has the
names of its Shells only once, and those of its launchers. -/
structure SoundMembers (k : Kind) (ws : HashMap String Workspace)
    (m : HashMap String k.Record) : Prop where
  listed : Listed (fun w : Workspace => w.ids k) k.workspaceId ws m
  valid : ∀ {id r}, m.lookup id = some r → k.id r = id ∧ k.Valid r
  names : k.named = true → ∀ {id id' r r'}, m.lookup id = some r → m.lookup id' = some r' →
    k.workspaceId r = k.workspaceId r' → k.name r = k.name r' → id = id'

structure Sound (d : DurableState) : Prop where
  workspaces : SoundWorkspaces d.workspaces
  members : ∀ k, SoundMembers k d.workspaces (d.members k)

theorem SoundWorkspaces.empty : SoundWorkspaces ∅ where
  valid h := by cases h
  names h := by cases h

theorem SoundMembers.empty (k : Kind) : SoundMembers k ∅ ∅ where
  listed := .empty
  valid h := by cases h
  names _ _ _ _ _ h := by cases h

theorem Sound.empty : Sound .empty where
  workspaces := .empty
  members k := by cases k <;> exact SoundMembers.empty _

/-! ## Edited Workspaces -/

/-- The Workspace with another list of one kind, and another revision. -/
structure Workspace.Relisted (w : Workspace) (k : Kind) (l : List String)
    (w' : Workspace) : Prop where
  ids : w'.ids k = l
  others : ∀ j, j ≠ k → w'.ids j = w.ids j
  id : w'.id = w.id
  name : w'.name = w.name
  defaultCwd : w'.defaultCwd = w.defaultCwd
  revision : 0 < w.revision → w.revision ≤ u64Max → 0 < w'.revision ∧ w'.revision ≤ u64Max

theorem Workspace.relisted_withIds (w : Workspace) (k : Kind) (l : List String) :
    w.Relisted k l (w.withIds l k) where
  ids := w.ids_withIds k l
  others _ h := w.ids_withIds_of_ne l h
  id := w.id_withIds k l
  name := w.name_withIds k l
  defaultCwd := w.defaultCwd_withIds k l
  revision hpos hle := by
    rw [w.revision_withIds k l]
    exact ⟨hpos, hle⟩

theorem Workspace.relisted_withRevision (w : Workspace) (k : Kind) (l : List String)
    (h : w.revision + 1 ≤ u64Max) :
      w.Relisted k l ((w.withIds l k).withRevision (w.revision + 1)) where
  ids := by simp
  others j hj := by
    rw [ids_withRevision]
    exact w.ids_withIds_of_ne l hj
  id := by simp
  name := by simp
  defaultCwd := by simp
  revision _ _ := ⟨Nat.succ_pos _, h⟩

theorem Workspace.Relisted.valid {w w' : Workspace} {k : Kind} {l : List String}
    (h : w.Relisted k l w')
    (hvalid : w.Valid) : w'.Valid where
  uuid := h.id ▸ hvalid.uuid
  name := h.name ▸ hvalid.name
  cwd := h.defaultCwd ▸ hvalid.cwd
  revision_pos := (h.revision hvalid.revision_pos hvalid.revision_le).1
  revision_le := (h.revision hvalid.revision_pos hvalid.revision_le).2

/-! ## Changes of the Workspaces -/

section Workspaces

variable {ws : HashMap String Workspace} {w w' : Workspace}

/-- A Workspace is put in, new or edited, under a name that no other has. -/
theorem SoundWorkspaces.put (h : SoundWorkspaces ws) (hvalid : w.Valid)
    (hname : ∀ {id v}, ws.lookup id = some v → id ≠ w.id → v.name ≠ w.name) :
    SoundWorkspaces (ws.insert w.id w) where
  valid := by
    intro id v hv
    rw [HashMap.get_insert] at hv
    split at hv
    next he =>
      obtain rfl := Option.some.inj hv
      exact ⟨he.symm, hvalid⟩
    next => exact h.valid hv
  names := by
    intro id id' v v' hv hv' he
    rw [HashMap.get_insert] at hv hv'
    split at hv
    next hi =>
      obtain rfl := Option.some.inj hv
      split at hv'
      next hi' => exact hi.trans hi'.symm
      next hi' => exact absurd he.symm (hname hv' hi')
    next hi =>
      split at hv'
      next hi' =>
        obtain rfl := Option.some.inj hv'
        exact absurd he (hname hv hi)
      next => exact h.names hv hv' he

/-- An edited Workspace keeps its name. -/
theorem SoundWorkspaces.edit (h : SoundWorkspaces ws) (hw : ws.lookup w.id = some w)
    (hid : w'.id = w.id)
    (hname : w'.name = w.name) (hvalid : w'.Valid) : SoundWorkspaces (ws.insert w'.id w') := by
  refine h.put hvalid fun {id v} hv hne he => hne ?_
  rw [hid]
  exact h.names hv hw (he.trans hname)

theorem SoundWorkspaces.erase (h : SoundWorkspaces ws) (id : String) :
    SoundWorkspaces (ws.erase id) where
  valid := by
    intro id' v hv
    rw [HashMap.get_erase] at hv
    split at hv
    next => cases hv
    next => exact h.valid hv
  names := by
    intro i j v v' hv hv'
    rw [HashMap.get_erase] at hv hv'
    split at hv
    next => cases hv
    next =>
      split at hv'
      next => cases hv'
      next => exact h.names hv hv'

end Workspaces

/-! ## Changes of the records -/

namespace SoundMembers

variable {k : Kind} {ws : HashMap String Workspace} {m : HashMap String k.Record} {w w' : Workspace}
  {r r' : k.Record}

/-- A Workspace is edited, its list of this kind apart. -/
theorem editOwner (h : SoundMembers k ws m) (hw : ws.lookup w.id = some w) (hid : w'.id = w.id)
    (hids : w'.ids k = w.ids k) : SoundMembers k (ws.insert w'.id w') m where
  listed := by
    rw [hid]
    exact h.listed.editOwner hw hids
  valid := h.valid
  names := h.names

/-- A new record. -/
theorem add (h : SoundMembers k ws m) (hw : ws.lookup w.id = some w) (hid : w'.id = w.id)
    (hids : w'.ids k = w.ids k ++ [k.id r]) (hnew : m.lookup (k.id r) = none)
    (howner : k.workspaceId r = w.id) (hvalid : k.Valid r)
    (hname : k.named = true → ∀ id ∈ w.ids k, ∀ r', m.lookup id = some r' → k.name r' ≠ k.name r) :
    SoundMembers k (ws.insert w'.id w') (m.insert (k.id r) r) where
  listed := by
    rw [hid]
    exact h.listed.add hw hnew howner hids
  valid := by
    intro id r' hr'
    rw [HashMap.get_insert] at hr'
    split at hr'
    next he =>
      obtain rfl := Option.some.inj hr'
      exact ⟨he.symm, hvalid⟩
    next => exact h.valid hr'
  names := by
    intro hk id id' s s' hs hs' hsame hnames
    have hother : ∀ {id s}, m.lookup id = some s → k.workspaceId s = k.workspaceId r →
        k.name s ≠ k.name r := by
      intro id s hs hsame
      refine hname hk id ?_ s hs
      exact h.listed.mem (by rw [hsame, howner]; exact hw) hs
    rw [HashMap.get_insert] at hs hs'
    split at hs
    next hi =>
      obtain rfl := Option.some.inj hs
      split at hs'
      next hi' => exact hi.trans hi'.symm
      next => exact absurd hnames.symm (hother hs' hsame.symm)
    next =>
      split at hs'
      next hi' =>
        obtain rfl := Option.some.inj hs'
        exact absurd hnames (hother hs hsame)
      next => exact h.names hk hs hs' hsame hnames

/-- A record is removed. -/
theorem take (h : SoundMembers k ws m) (hw : ws.lookup w.id = some w) (hid : w'.id = w.id)
    (hids : w'.ids k = (w.ids k).erase (k.id r)) (hr : m.lookup (k.id r) = some r)
    (howner : k.workspaceId r = w.id) : SoundMembers k (ws.insert w'.id w') (m.erase (k.id r)) where
  listed := by
    rw [hid]
    exact h.listed.remove hw hr howner hids
  valid := by
    intro id s hs
    rw [HashMap.get_erase] at hs
    split at hs
    next => cases hs
    next => exact h.valid hs
  names := by
    intro hk id id' s s' hs hs'
    rw [HashMap.get_erase] at hs hs'
    split at hs
    next => cases hs
    next =>
      split at hs'
      next => cases hs'
      next => exact h.names hk hs hs'

/-- A record is edited. -/
theorem edit (h : SoundMembers k ws m) (hr : m.lookup (k.id r) = some r) (hid : k.id r' = k.id r)
    (howner : k.workspaceId r' = k.workspaceId r) (hvalid : k.Valid r')
    (hname : k.named = true → ∀ {id s}, m.lookup id = some s → id ≠ k.id r →
      k.workspaceId s = k.workspaceId r → k.name s ≠ k.name r') :
    SoundMembers k ws (m.insert (k.id r') r') where
  listed := by
    rw [hid]
    exact h.listed.editMember hr howner
  valid := by
    intro id s hs
    rw [HashMap.get_insert] at hs
    split at hs
    next he =>
      obtain rfl := Option.some.inj hs
      exact ⟨he.symm, hvalid⟩
    next => exact h.valid hs
  names := by
    intro hk id id' s s' hs hs' hsame hnames
    rw [HashMap.get_insert, hid] at hs hs'
    split at hs
    next hi =>
      obtain rfl := Option.some.inj hs
      split at hs'
      next hi' => exact hi.trans hi'.symm
      next hi' => exact absurd hnames.symm (hname hk hs' hi' (hsame.symm.trans howner))
    next hi =>
      split at hs'
      next hi' =>
        obtain rfl := Option.some.inj hs'
        exact absurd hnames (hname hk hs hi (hsame.trans howner))
      next => exact h.names hk hs hs' hsame hnames

/-- A new Workspace, with new records. -/
theorem addOwner {l : List (String × k.Record)} (h : SoundMembers k ws m)
    (hw : ws.lookup w.id = none) (hids : w.ids k = l.map Prod.fst)
    (hkeys : (l.map Prod.fst).Nodup) (hnew : ∀ e ∈ l, m.lookup e.1 = none)
    (hrecords : ∀ e ∈ l, k.id e.2 = e.1 ∧ k.Valid e.2 ∧ k.workspaceId e.2 = w.id)
    (hnames : (l.map fun e => k.name e.2).Nodup) :
    SoundMembers k (ws.insert w.id w) (HashMap.insertAll m l) where
  listed := h.listed.addOwner hw hnew hkeys (fun e he => (hrecords e he).2.2) hids
  valid := by
    intro id r hr
    rcases HashMap.mem_of_get_insertAll hr with hmem | hold
    · exact ⟨(hrecords _ hmem).1, (hrecords _ hmem).2.1⟩
    · exact h.valid hold
  names := by
    intro hk id id' r r' hr hr' hsame he
    -- A record that was there belongs to another Workspace.
    have hold : ∀ {id s}, m.lookup id = some s → k.workspaceId s ≠ w.id := by
      intro id s hs howner
      obtain ⟨v, hv, -⟩ := h.listed.listed hs
      rw [howner, hw] at hv
      cases hv
    rcases HashMap.mem_of_get_insertAll hr with hmem | hr
    · rcases HashMap.mem_of_get_insertAll hr' with hmem' | hr'
      · have heq := List.inj_on_of_nodup_map hnames hmem hmem' he
        exact (Prod.mk.inj heq).1
      · exact absurd (hsame.symm.trans (hrecords _ hmem).2.2) (hold hr')
    · rcases HashMap.mem_of_get_insertAll hr' with hmem' | hr'
      · exact absurd (hsame.trans (hrecords _ hmem').2.2) (hold hr)
      · exact h.names hk hr hr' hsame he

/-- A Workspace goes with its records. -/
theorem removeOwner (h : SoundMembers k ws m) (hw : ws.lookup w.id = some w) :
    SoundMembers k (ws.erase w.id) (HashMap.eraseAll m (w.ids k)) where
  listed := h.listed.removeOwner hw
  valid := by
    intro id r hr
    rw [HashMap.get_eraseAll] at hr
    split at hr
    next => cases hr
    next => exact h.valid hr
  names := by
    intro hk id id' r r' hr hr'
    rw [HashMap.get_eraseAll] at hr hr'
    split at hr
    next => cases hr
    next =>
      split at hr'
      next => cases hr'
      next => exact h.names hk hr hr'

end SoundMembers

end Boomux.Registry
