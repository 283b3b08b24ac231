import Boomux.Handoff.Custody

/-!
# Handing the authority over

What the replacement's import makes of the export. Every binding that is exported is accepted,
since the export drops exactly those that the import would refuse. Holders are exported without
being looked at: the import fails when a run is over, or the agent of a session.
-/

set_option autoImplicit false

namespace Boomux.Handoff

open Rust Daemon Transition

namespace Authority

variable {s t : Authority} {table : ProcessTable}

/-! ## The exports -/

theorem exportKiro_perm (s : Authority) : s.exportKiroLaunchHolders.Perm s.holders :=
  List.perm_insertionSort _ _

theorem exportClaude_perm (s : Authority) :
    s.exportClaudeRemoteControlBindings.Perm s.pruneClaudeBindings :=
  List.perm_insertionSort _ _

theorem mem_exportKiro {holder : KiroLaunchHolderManifest} :
    holder ∈ s.exportKiroLaunchHolders ↔ holder ∈ s.holders := s.exportKiro_perm.mem_iff

/-- The bindings that are exported are the current ones. -/
theorem mem_exportClaude {binding : ClaudeRemoteControlBindingSnapshot} :
    binding ∈ s.exportClaudeRemoteControlBindings ↔ binding ∈ s.bindings ∧
      s.claudeBindingIsCurrent binding.agentId binding.shellId binding.runId = true := by
  rw [s.exportClaude_perm.mem_iff, pruneClaudeBindings, List.mem_filter]

/-! ## The import of the bindings -/

/-- The agent of a current binding is the Claude agent that it names. -/
theorem identity_of_current {agentId shellId runId : String} (ha : isCanonicalUuid agentId = true)
    (hs : isCanonicalUuid shellId = true) (hr : isCanonicalUuid runId = true)
    (h : s.claudeBindingIsCurrent agentId shellId runId = true) :
    s.validateClaudeBindingAuthority agentId shellId runId = .ok () := by
  simp only [validateClaudeBindingAuthority, validateClaudeBindingIdentity, bind_eq_ok, liftIo,
    mapError_eq_ok, validateUuid_eq_ok, require_eq_ok]
  unfold claudeBindingIsCurrent at h ⊢
  refine ⟨(), ⟨(), ha, (), hs, (), hr, ?_⟩, h⟩
  split at h
  next => cases h
  next agent _ =>
    simp only [Bool.and_eq_true] at h
    obtain ⟨⟨⟨⟨hint, hshell⟩, hrun⟩, -⟩, -⟩ := h
    rw [bind_eq_ok]
    simp only [require_eq_ok, Bool.and_eq_true]
    exact ⟨(), hint, hshell, hrun⟩

/-- The loop accepts bindings that are current and share neither an agent nor a session. -/
theorem importBindings_ok {bindings rest : List ClaudeRemoteControlBindingSnapshot}
    (hv : ∀ binding ∈ rest, binding.valid = true ∧ Canonical binding ∧
      s.claudeBindingIsCurrent binding.agentId binding.shellId binding.runId = true)
    (hagents : Keyed.Distinct ClaudeRemoteControlBindingSnapshot.agentId (bindings ++ rest))
    (hbridges : Keyed.Distinct ClaudeRemoteControlBindingSnapshot.bridgeSessionId
      (bindings ++ rest)) :
    rest.foldlM s.importBinding bindings = .ok (bindings ++ rest) := by
  induction rest generalizing bindings with
  | nil => rw [List.append_nil]; rfl
  | cons binding rest ih =>
      have hsplit : bindings ++ binding :: rest = bindings ++ [binding] ++ rest := by simp
      obtain ⟨hvalid, ⟨ha, hs, hr⟩, hcurrent⟩ := hv binding List.mem_cons_self
      have hbridge : ∀ b ∈ bindings, b.bridgeSessionId ≠ binding.bridgeSessionId :=
        hbridges.ne_of_mem_append
      have hagent : Keyed.get ClaudeRemoteControlBindingSnapshot.agentId bindings binding.agentId =
          none := Keyed.get_eq_none.mpr hagents.ne_of_mem_append
      have himport : s.importBinding bindings binding = .ok (bindings ++ [binding]) := by
        simp only [importBinding, bind_eq_ok, mapError_eq_ok, validateClaudeBridgeSessionId,
          require_eq_ok, Keyed.upsert_of_get_eq_none hagent]
        simp only [ClaudeRemoteControlBindingSnapshot.valid, Bool.and_eq_true] at hvalid
        exact ⟨(), hvalid.2, (), identity_of_current ha hs hr hcurrent, (), by simpa using hbridge,
          trivial⟩
      rw [List.foldlM_cons, himport, hsplit]
      rw [hsplit] at hagents hbridges
      exact ih (fun b hb => hv b (List.mem_cons_of_mem _ hb)) hagents hbridges

theorem Sound.importClaude (h : s.Sound) :
    s.transferred.importClaudeRemoteControlBindings s.exportClaudeRemoteControlBindings =
      .ok { s.transferred with bindings := s.exportClaudeRemoteControlBindings } := by
  have hfold : s.exportClaudeRemoteControlBindings.foldlM s.transferred.importBinding [] =
      .ok s.exportClaudeRemoteControlBindings := by
    refine importBindings_ok (fun binding hb => ?_) ?_ ?_
    · obtain ⟨hmem, hcurrent⟩ := mem_exportClaude.mp hb
      exact ⟨(h.bound binding hmem).1, (h.bound binding hmem).2, hcurrent⟩
    · exact (h.bindings.filter _).perm s.exportClaude_perm.symm
    · exact (h.bridges.filter _).perm s.exportClaude_perm.symm
  simp only [importClaudeRemoteControlBindings, bind_eq_ok, require_eq_ok]
  exact ⟨(), by simp [transferred], _, hfold, rfl⟩

/-! ## The import of the holders -/

theorem Sound.collectSessions_eq (h : s.Sound) {holder : KiroLaunchHolderManifest}
    (hh : holder ∈ s.holders) : collectSessions holder = holder := by
  obtain ⟨-, -, -, -, -, -, -, hdistinct⟩ :=
    KiroLaunchHolderManifest.valid_iff.mp (h.valid holder hh)
  unfold collectSessions
  rw [Keyed.foldl_upsert (by simpa using hdistinct), List.nil_append]

/-- The import of holders with distinct ids succeeds exactly when none of them is refused. -/
theorem Sound.importKiro_iff (h : s.Sound) {bindings : List ClaudeRemoteControlBindingSnapshot} :
    importKiroLaunchHolders { s.transferred with bindings := bindings } table
        s.exportKiroLaunchHolders = .ok t ↔
      (∀ holder ∈ s.holders, s.holderRefused table holder = false) ∧
        t = { s.transferred with bindings := bindings, holders := s.exportKiroLaunchHolders } := by
  have hcollect : ∀ holder ∈ s.exportKiroLaunchHolders, collectSessions holder = holder :=
    fun holder hh => h.collectSessions_eq (mem_exportKiro.mp hh)
  have hfold : s.exportKiroLaunchHolders.foldl (fun imported manifest =>
      Keyed.upsert KiroLaunchHolderManifest.holderId imported (collectSessions manifest)) [] =
      s.exportKiroLaunchHolders := by
    rw [← List.foldl_map, List.map_congr_left hcollect, List.map_id',
      Keyed.foldl_upsert (by simpa using h.holders.perm s.exportKiro_perm.symm), List.nil_append]
  have hrefused : ∀ holder ∈ s.exportKiroLaunchHolders,
      holderRefused { s.transferred with bindings := bindings } table (collectSessions holder) =
        s.holderRefused table holder := by
    intro holder hh
    rw [hcollect holder hh]
    rfl
  simp only [importKiroLaunchHolders, bind_eq_ok, require_eq_ok, foldlM_require_eq_ok, hfold,
    Except.ok.injEq]
  constructor
  · rintro ⟨-, -, holders, ⟨hall, rfl⟩, rfl⟩
    refine ⟨fun holder hh => ?_, rfl⟩
    have hex := mem_exportKiro.mpr hh
    rw [← hrefused holder hex]
    exact hall holder hex
  · rintro ⟨hall, rfl⟩
    refine ⟨(), by simp [transferred], _, ⟨fun holder hh => ?_, rfl⟩, rfl⟩
    rw [hrefused holder hh]
    exact hall holder (mem_exportKiro.mp hh)

/-- What the replacement has after the transfer, and when there is one. -/
theorem Sound.transfer_iff (h : s.Sound) : s.transfer table = .ok t ↔
    (∀ holder ∈ s.holders, s.holderRefused table holder = false) ∧
      t = { s with
        bindings := s.exportClaudeRemoteControlBindings, holders :=
          s.exportKiroLaunchHolders } := by
  rw [transfer, h.importClaude]
  exact h.importKiro_iff

/-- The replacement starts with an authority that is sound again. -/
theorem Sound.exported (h : s.Sound) :
    Sound { s with
      bindings := s.exportClaudeRemoteControlBindings, holders := s.exportKiroLaunchHolders } :=
  have hp : Sound { s with bindings := s.pruneClaudeBindings } := h.filterBindings _
  { h with
    holders := h.holders.perm s.exportKiro_perm.symm
    holders_le := s.exportKiro_perm.length_eq ▸ h.holders_le
    valid := fun holder hh => h.valid holder (mem_exportKiro.mp hh)
    held := fun holder hh => h.held holder (mem_exportKiro.mp hh)
    bindings := hp.bindings.perm s.exportClaude_perm.symm
    bindings_le := s.exportClaude_perm.length_eq ▸ hp.bindings_le
    bridges := hp.bridges.perm s.exportClaude_perm.symm
    bound := fun binding hb => h.bound binding (mem_exportClaude.mp hb).1 }

/-! ## Reachable states -/

theorem editShell_sound (h : s.Sound) {shellId : String} {edit : Shell → Option Shell}
    (he : s.editShell shellId edit = some t) : t.Sound := by
  simp only [editShell, Option.bind_eq_bind, Option.bind_eq_some_iff, Option.some.injEq] at he
  obtain ⟨-, -, shell, -, rfl⟩ := he
  exact h.setShells _

theorem Sound.step (h : s.Sound) {a : AuthorityAction} (hs : s.step a = some t) : t.Sound := by
  cases a with
  -- Calls on Shells alone leave the agents and the claims.
  | createShell =>
      simp only [Authority.step, Option.ite_none_right_eq_some, Option.some.injEq] at hs
      obtain ⟨-, rfl⟩ := hs
      exact h.setShells _
  | closeShell shellId =>
      cases hs
      exact h.setShells _
  | startRun | exitRun | stopFailed | restartShell => exact editShell_sound h hs
  | closeWorkspace workspaceId =>
      cases hs
      exact h.filterAgents _ _
  | registerAgent id =>
      -- A new agent starts its own numbering.
      simp only [Authority.step, Option.ite_none_right_eq_some, toOption_eq_some, map_eq_ok] at hs
      obtain ⟨hf, ⟨t', agent⟩, hr, rfl⟩ := hs
      obtain ⟨rfl, rfl, -⟩ := registerAgent_eq_ok hr
      exact h.addAgent hf
  | ensureAgent id =>
      simp only [Authority.step, Option.ite_none_right_eq_some, toOption_eq_some, map_eq_ok] at hs
      obtain ⟨hf, ⟨t', agent, created⟩, he, rfl⟩ := hs
      exact (h.ensure hf he).1
  | reportAgent =>
      -- Reports, acknowledgements and contexts edit one agent.
      simp only [Authority.step, toOption_eq_some, map_eq_ok] at hs
      obtain ⟨⟨t', outcome⟩, hr, rfl⟩ := hs
      exact h.updates (reportAgent_updates hr)
  | acknowledgeAgentAttention agentId =>
      simp only [Authority.step, toOption_eq_some, acknowledgeAgentAttention] at hs
      split at hs
      next => cases hs
      next =>
        simp only [bind_eq_ok, Except.ok.injEq] at hs
        obtain ⟨⟨state, changed⟩, -, rfl⟩ := hs
        exact h.updates (s.setAgentState_updates _ _)
  | observeAgentWorkingContext now agentId =>
      simp only [Authority.step, toOption_eq_some, observeAgentWorkingContext, bind_eq_ok] at hs
      obtain ⟨-, -, hs⟩ := hs
      split at hs
      next => cases hs
      next =>
        simp only [bind_eq_ok, Except.ok.injEq] at hs
        obtain ⟨-, -, -, -, -, -, -, -, rfl⟩ := hs
        exact h.updates (s.setAgentState_updates _ _)
  | setBinding =>
      simp only [Authority.step, toOption_eq_some] at hs
      exact h.setBinding hs
  | getBinding =>
      simp only [Authority.step, toOption_eq_some, getClaudeRemoteControlBinding, bind_eq_ok,
        -- A binding that has run out is removed when it is read.
        Except.ok.injEq] at hs
      obtain ⟨-, -, rfl⟩ := hs
      exact h.filterBindings _
  | acquireHolder =>
      simp only [Authority.step, Option.ite_none_right_eq_some, toOption_eq_some] at hs
      exact h.acquire hs.1 hs.2
  | reportHook =>
      simp only [Authority.step, Option.ite_none_right_eq_some, toOption_eq_some, map_eq_ok] at hs
      obtain ⟨hf, ⟨t', answer⟩, hr, rfl⟩ := hs
      exact h.reportHook hf hr
  | releaseHolder =>
      -- With the dead holders their claims go.
      simp only [Authority.step, toOption_eq_some, releaseKiroLaunchHolder, bind_eq_ok] at hs
      obtain ⟨-, -, hs⟩ := hs
      exact h.pruneDead hs
  | reconcile =>
      simp only [Authority.step, toOption_eq_some, reconcileDeadKiroHolders, bind_eq_ok] at hs
      obtain ⟨t', hp, hu⟩ := hs
      exact (h.pruneDead hp).updates (inactivateUnowned_updates hu)
  | replace =>
      simp only [Authority.step, toOption_eq_some] at hs
      obtain ⟨-, rfl⟩ := h.transfer_iff.mp hs
      exact h.exported

theorem sound_of_reach {s₀ : Authority} (h0 : s₀.Started)
    (h : Reach Authority.step (fun _ _ => True) s₀ s) : s.Sound :=
  h.invariant h0.sound fun _ _ _ ht _ hs => ht.step hs

/-! ## The transfer -/

/-- Every holder's process is alive, and as it was when the holder was acquired. -/
def Alive (s : Authority) (table : ProcessTable) : Prop :=
  ∀ holder ∈ s.holders, processUnchanged table holder = true

/-- Every holder's run is the current one of its Shell, and the agents of its sessions are
registered and active. -/
def Active (s : Authority) : Prop :=
  ∀ holder ∈ s.holders, isCurrentRun s.shells holder.shellId holder.runId = true ∧
    ∀ session ∈ holder.sessions, ∃ agent, agentOf s.agents session.2 = some agent ∧
      agent.state.over = false

/-- The manifest with the exported holders and bindings. -/
def fill (s : Authority) (manifest : Manifest) : Manifest :=
  { manifest with
    claudeRemoteControlBindings := s.exportClaudeRemoteControlBindings
    kiroLaunchHolders := s.exportKiroLaunchHolders }

/-- What was exported never makes the manifest invalid, and its import succeeds and yields
exactly the holders, and the bindings that are current. -/
def Transferred (s : Authority) (table : ProcessTable) : Prop :=
  (∀ manifest : Manifest, manifest.validateManifest = .ok () →
    (s.fill manifest).validateManifest = .ok ()) ∧
  ∃ t, s.transfer table = .ok t ∧
    (∀ id, Keyed.get KiroLaunchHolderManifest.holderId t.holders id =
      Keyed.get KiroLaunchHolderManifest.holderId s.holders id) ∧
    ∀ id, Keyed.get ClaudeRemoteControlBindingSnapshot.agentId t.bindings id =
      Keyed.get ClaudeRemoteControlBindingSnapshot.agentId s.pruneClaudeBindings id

/-- The exports pass the checks of the manifest. -/
theorem Sound.fill_accepted (h : s.Sound) {manifest : Manifest} (hm : manifest.Accepted) :
    (s.fill manifest).Accepted :=
  { hm with
    bindings_le := h.exported.bindings_le
    holders_le := h.exported.holders_le
    holders := List.all_eq_true.mpr h.exported.valid
    holders_nodup := h.exported.holders
    bindings := List.all_eq_true.mpr fun binding hb => (h.exported.bound binding hb).1
    bindings_agents := h.exported.bindings
    bindings_bridges := h.exported.bridges }

/-- A session is accepted exactly when its agent is registered and active: it is held by then. -/
theorem Sound.sessionRefused_eq_false (h : s.Sound) {holder : KiroLaunchHolderManifest}
    (hh : holder ∈ s.holders) {session : String × String} (hs : session ∈ holder.sessions) :
    s.sessionRefused holder session = false ↔
      ∃ agent, agentOf s.agents session.2 = some agent ∧ agent.state.over = false := by
  unfold sessionRefused
  cases hget : agentOf s.agents session.2 with
  | none => simp
  | some agent =>
      obtain ⟨h₁, h₂, h₃, h₄⟩ :=
        h.held holder hh session hs agent (Keyed.mem_of_get hget) (Keyed.key_of_get hget)
      simp [h₁, h₂, h₃, h₄]

theorem Sound.refused_iff (h : s.Sound) (ha : s.Alive table) :
    (∀ holder ∈ s.holders, s.holderRefused table holder = false) ↔ s.Active := by
  refine forall₂_congr fun holder hh => ?_
  have hsessions : (∀ session ∈ holder.sessions, s.sessionRefused holder session = false) ↔ _ :=
    forall₂_congr fun session hs => h.sessionRefused_eq_false hh hs
  simp only [holderRefused, ha holder hh, Bool.or_eq_false_iff, Bool.not_eq_false',
    List.any_eq_false, Bool.not_eq_true, true_and, hsessions]

/-- The transfer succeeds and loses nothing exactly when no run of a holder, and no agent of its
sessions, is over. -/
theorem transferred_iff {s₀ : Authority} (h0 : s₀.Started)
    (h : Reach Authority.step (fun _ _ => True) s₀ s) (ha : s.Alive table) :
    s.Transferred table ↔ s.Active := by
  have hs := sound_of_reach h0 h
  rw [← hs.refused_iff ha]
  constructor
  · rintro ⟨-, t, ht, -⟩
    exact (hs.transfer_iff.mp ht).1
  · intro hrefused
    refine ⟨fun manifest hm => ?_, _, hs.transfer_iff.mpr ⟨hrefused, rfl⟩, fun id => ?_,
      fun id => ?_⟩
    · rw [Manifest.validateManifest_eq_ok] at hm ⊢
      exact hs.fill_accepted hm
    · exact hs.holders.get_perm s.exportKiro_perm.symm
    · exact (hs.bindings.filter _).get_perm s.exportClaude_perm.symm

/-! ## A session that is reported done -/

private def shellId : String := "00000000-0000-0000-0000-000000000001"
private def runId : String := "00000000-0000-0000-0000-000000000002"
private def launchHolderId : String := "00000000-0000-0000-0000-000000000003"
private def kiroAgentId : String := "00000000-0000-0000-0000-000000000004"

/-- The only process is a Kiro launcher of the run. -/
def launcherTable : ProcessTable := fun pid =>
  if pid = 7 then
    some
      { startTime := 100
        group := 7
        argv := some ["boomux", "kiro", "launch"]
        environment := fun name =>
          if name = "BOOMUX_SHELL_ID" then some shellId
          else if name = "BOOMUX_RUN_ID" then some runId
          else none
        started := by decide }
  else none

/-- A daemon without a Shell. -/
def noShells : Authority := ⟨∅, [], [], []⟩

theorem noShells_started : noShells.Started where
  agents := by simp [noShells, Keyed.Distinct]
  ids := by simp [noShells]
  bindings := rfl
  holders := rfl

/-- A launcher acquires a holder, and a hook reports that its session works. -/
def launchRun : List AuthorityAction :=
  [.createShell shellId "workspace",
    .startRun shellId runId 1 ⟨none, none, none, none, 24, 80, 0, 0⟩,
    .acquireHolder launcherTable launcherTable 10 launchHolderId 7 shellId runId,
    .reportHook launcherTable 11 kiroAgentId none launchHolderId "session"
      ⟨.working, .lifecycleIntegration, "prompt", 100⟩]

/-- The same, and then a client reports that the agent is done. -/
def doneRun : List AuthorityAction :=
  launchRun ++ [.reportAgent 12 kiroAgentId runId ⟨.done, .lifecycleIntegration, "answer", 100⟩]

/-- A live launcher and a working session are handed over. -/
theorem transferred_iff_launchRun : ∃ s, Reach step (fun _ _ => True) noShells s ∧
    s.holders ≠ [] ∧ (s.Transferred launcherTable ↔ s.Active) := by
  have hrun : (exec step noShells launchRun).any (fun s =>
      s.holders.all (processUnchanged launcherTable) && !s.holders.isEmpty) = true := by
    decide +kernel
  obtain ⟨s, hs, hok⟩ := (Option.any_eq_true _ _).mp hrun
  simp only [Bool.and_eq_true, List.all_eq_true, Bool.not_eq_true', List.isEmpty_eq_false_iff]
    at hok
  have hreach := reach_of_exec_true hs
  exact ⟨s, hreach, hok.2, transferred_iff noShells_started hreach hok.1⟩

/-- The launcher is alive and unchanged, and the import fails nevertheless. -/
theorem not_transferred_doneRun : ¬ ∀ (s₀ s : Authority) (table : ProcessTable), s₀.Started →
    Reach step (fun _ _ => True) s₀ s → s.Alive table → s.Transferred table := by
  intro h
  have hrun : (exec step noShells doneRun).any (fun s =>
      s.holders.all (processUnchanged launcherTable) &&
        (s.transfer launcherTable).toOption.isNone) = true := by
    decide +kernel
  obtain ⟨s, hs, hok⟩ := (Option.any_eq_true _ _).mp hrun
  simp only [Bool.and_eq_true, List.all_eq_true] at hok
  obtain ⟨-, t, ht, -⟩ :=
    h noShells s launcherTable noShells_started (reach_of_exec_true hs) hok.1
  rw [ht] at hok
  exact absurd hok.2 (by simp [Except.toOption])

end Authority

end Boomux.Handoff
