import Boomux.Daemon.OpenCode

/-!
# What the claims on OpenCode sessions keep

Every call narrows the claims, moves one holder, or leaves them as they were, so what
`ClaimsSound` says of them is kept. The runtime of the claims is kept as well, except where a
mutation is the first to notice that its process has exited: it clears the claims together with the
runtime, and its `OpenCodeClaimsMutation` then puts the claims back (`claims_kept_iff`).
-/

set_option autoImplicit false

namespace Boomux.Daemon

open Rust Transition

/-! ## Sound claims -/

/-- No holder is in two claims, no claim is without holders, and neither are too many. -/
structure ClaimsSound (claims : OpenCodeClaims) : Prop where
  distinct : Keyed.Distinct Prod.fst claims
  holders : (holderIds claims).Nodup
  held : ∀ entry ∈ claims, entry.2.holders ≠ []
  roots : claims.length ≤ maxOpenCodeClaimRoots
  holderCount : (holderIds claims).length ≤ maxOpenCodeClaimHolders

variable {claims : OpenCodeClaims} {entry entry' : String × OpenCodeRootClaim}
  {root holderId : String}

theorem ClaimsSound.nil : ClaimsSound [] :=
  ⟨List.nodup_nil, List.nodup_nil, fun _ => nofun, Nat.zero_le _, Nat.zero_le _⟩

theorem mem_holderIds :
    holderId ∈ holderIds claims ↔ ∃ entry ∈ claims, holderId ∈ entry.2.holders.map (·.1) :=
  List.mem_flatMap

/-- A holder is in one claim only. -/
theorem ClaimsSound.holder_unique (h : ClaimsSound claims) (he : entry ∈ claims)
    (he' : entry' ∈ claims) (hh : holderId ∈ entry.2.holders.map (·.1))
    (hh' : holderId ∈ entry'.2.holders.map (·.1)) : entry = entry' := by
  obtain ⟨-, hdisjoint⟩ := List.nodup_flatMap.mp h.holders
  have : Std.Symm (Function.onFun List.Disjoint fun entry : String × OpenCodeRootClaim =>
      entry.2.holders.map (·.1)) := ⟨fun _ _ hd _ ha hb => hd hb ha⟩
  by_contra hne
  exact hdisjoint.forall he he' hne hh hh'

/-- What a call can do to a claim beside removing it: the holders become fewer, and the ShellRun
stays. -/
structure Narrows (entry entry' : String × OpenCodeRootClaim) : Prop where
  root : entry'.1 = entry.1
  shell : entry'.2.shellId = entry.2.shellId
  run : entry'.2.runId = entry.2.runId
  holders : entry'.2.holders.Sublist entry.2.holders
  held : entry'.2.holders ≠ []

/-- Narrowing or removing claims keeps them sound. -/
theorem ClaimsSound.filterMap {f : String × OpenCodeRootClaim → Option (String × OpenCodeRootClaim)}
    (h : ClaimsSound claims)
    (hf : ∀ entry ∈ claims, ∀ entry', f entry = some entry' → Narrows entry entry') :
    ClaimsSound (claims.filterMap f) := by
  have hsub : ((claims.filterMap f).map Prod.fst).Sublist (claims.map Prod.fst) ∧
      (holderIds (claims.filterMap f)).Sublist (holderIds claims) := by
    clear h
    induction claims with
    | nil => exact ⟨.refl _, .refl _⟩
    | cons entry claims ih =>
        obtain ⟨hkeys, hids⟩ := ih fun e he => hf e (List.mem_cons_of_mem entry he)
        cases hfe : f entry with
        | none =>
            rw [List.filterMap_cons_none hfe]
            exact ⟨hkeys.trans (List.sublist_cons_self _ _),
              hids.trans (List.sublist_append_right _ _)⟩
        | some entry' =>
            have hn := hf entry List.mem_cons_self entry' hfe
            rw [List.filterMap_cons_some hfe]
            refine ⟨?_, (hn.holders.map _).append hids⟩
            rw [List.map_cons, List.map_cons, hn.root]
            exact hkeys.cons_cons _
  refine ⟨h.distinct.sublist hsub.1, h.holders.sublist hsub.2, fun entry' he' => ?_, ?_,
    hsub.2.length_le.trans h.holderCount⟩
  · obtain ⟨entry, he, hfe⟩ := List.mem_filterMap.mp he'
    exact (hf entry he entry' hfe).held
  · exact (List.length_filterMap_le _ _).trans h.roots

theorem mem_pruneClaims {now : Nat} :
    entry' ∈ pruneClaims now claims ↔
      entry'.2.holders ≠ [] ∧ ∃ entry ∈ claims, entry' = (entry.1, entry.2.prune now) := by
  simp only [pruneClaims, List.mem_filter, List.mem_map, Bool.not_eq_true',
    List.isEmpty_eq_false_iff]
  constructor
  · rintro ⟨⟨entry, he, rfl⟩, hheld⟩
    exact ⟨hheld, entry, he, rfl⟩
  · rintro ⟨hheld, entry, he, rfl⟩
    exact ⟨⟨entry, he, rfl⟩, hheld⟩

theorem pruneClaims_eq_filterMap (now : Nat) : pruneClaims now claims =
    claims.filterMap fun entry =>
      if (entry.2.prune now).holders = [] then none else some (entry.1, entry.2.prune now) := by
  unfold pruneClaims
  induction claims with
  | nil => rfl
  | cons entry claims ih =>
      by_cases h : (entry.2.prune now).holders = []
      · simp [h, ih]
      · simp [h, ih]

theorem narrows_prune {now : Nat} (h : (entry.2.prune now).holders ≠ []) :
    Narrows entry (entry.1, entry.2.prune now) :=
  ⟨rfl, rfl, rfl, List.filter_sublist, h⟩

theorem ClaimsSound.prune (now : Nat) (h : ClaimsSound claims) :
    ClaimsSound (pruneClaims now claims) := by
  rw [pruneClaims_eq_filterMap]
  refine h.filterMap fun entry _ entry' he => ?_
  split at he
  next => cases he
  next hheld =>
    cases he
    exact narrows_prune hheld

theorem ClaimsSound.remove (root : String) (h : ClaimsSound claims) :
    ClaimsSound (Keyed.remove Prod.fst claims root) := by
  have hfilter : Keyed.remove Prod.fst claims root =
      claims.filterMap fun entry => if entry.1 ≠ root then some entry else none := by
    clear h
    induction claims with
    | nil => rfl
    | cons entry claims ih =>
        unfold Keyed.remove at ih ⊢
        by_cases he : entry.1 = root
        · rw [List.filter_cons_of_neg (by simpa using he), List.filterMap_cons_none (by simp [he]),
            ih]
        · rw [List.filter_cons_of_pos (by simpa using he),
            List.filterMap_cons_some (b := entry) (by simp [he]), ih]
  rw [hfilter]
  refine h.filterMap fun entry he entry' hfe => ?_
  split at hfe
  next =>
    cases hfe
    exact ⟨rfl, rfl, rfl, .refl _, h.held entry he⟩
  next => cases hfe

/-- Replacing the claim of a root by one with fewer holders. -/
theorem ClaimsSound.adjust {f : String × OpenCodeRootClaim → String × OpenCodeRootClaim}
    (h : ClaimsSound claims) (hf : ∀ entry ∈ claims, entry.1 = root → Narrows entry (f entry)) :
    ClaimsSound (Keyed.adjust Prod.fst claims root f) := by
  unfold Keyed.adjust
  rw [← List.filterMap_eq_map]
  refine h.filterMap fun entry he entry' hfe => ?_
  cases hfe
  dsimp only
  split
  next hroot => exact hf entry he hroot
  next => exact ⟨rfl, rfl, rfl, .refl _, h.held entry he⟩

/-! ### Moving a holder -/

theorem holderIds_removeHolder :
    holderIds (removeHolder holderId claims) = (holderIds claims).filter (· ≠ holderId) := by
  induction claims with
  | nil => rfl
  | cons entry claims ih =>
      simp only [holderIds, removeHolder, Keyed.remove, List.map_cons, List.flatMap_cons,
        List.filter_append] at ih ⊢
      rw [ih, List.filter_map]
      rfl

theorem holderIds_occupied : holderIds (occupied root claims) = holderIds claims := by
  induction claims with
  | nil => rfl
  | cons entry claims ih =>
      unfold holderIds occupied at ih ⊢
      rw [List.filter_cons]
      split
      · rw [List.flatMap_cons, List.flatMap_cons, ih]
      next hvacant =>
        have hempty : entry.2.holders = [] := by
          simp only [decide_eq_true_eq, Decidable.not_not, List.isEmpty_iff] at hvacant
          exact hvacant.2
        rw [ih, List.flatMap_cons, hempty, List.map_nil, List.nil_append]

theorem mem_removeHolder : entry' ∈ removeHolder holderId claims ↔ ∃ entry ∈ claims,
    entry' = (entry.1, { entry.2 with
      holders := Keyed.remove Prod.fst entry.2.holders holderId }) := by
  unfold removeHolder
  rw [List.mem_map]
  exact exists_congr fun _ => and_congr_right fun _ => eq_comm

theorem mem_occupied :
    entry ∈ occupied root claims ↔ entry ∈ claims ∧ (entry.1 = root ∨ entry.2.holders ≠ []) := by
  simp only [occupied, List.mem_filter, decide_eq_true_eq, not_and_or, not_not, List.isEmpty_iff,
    ne_eq]

theorem removeHolder_distinct (holderId : String) (h : Keyed.Distinct Prod.fst claims) :
    Keyed.Distinct Prod.fst (removeHolder holderId claims) := h.map fun _ => rfl

theorem occupied_distinct (root : String) (h : Keyed.Distinct Prod.fst claims) :
    Keyed.Distinct Prod.fst (occupied root claims) := h.filter _

/-- Placing a holder that no claim has. -/
theorem holderIds_upsert_placed {claimId : String} {agent : AgentInstance}
    {shellId runId : String} {holder : OpenCodeClaimHolder} (h : Keyed.Distinct Prod.fst claims)
    (hnot : holderId ∉ holderIds claims) :
    (holderIds (Keyed.upsert Prod.fst claims (root,
      placedClaim claims root holderId claimId agent shellId runId holder))).Perm
      (holderId :: holderIds claims) := by
  refine (List.Perm.flatMap_right _ h.upsert_perm).trans ?_
  rw [List.flatMap_cons]
  cases hget : Keyed.get Prod.fst claims root with
  | none =>
      rw [Keyed.remove_of_get_eq_none hget]
      simp [placedClaim, hget, Keyed.upsert, holderIds]
  | some entry =>
      have hnew : Keyed.get Prod.fst entry.2.holders holderId = none := by
        refine Keyed.get_eq_none.mpr fun other hh he => hnot ?_
        exact mem_holderIds.mpr ⟨entry, Keyed.mem_of_get hget, he ▸ List.mem_map_of_mem hh⟩
      have hplaced : (placedClaim claims root holderId claimId agent shellId runId
          holder).holders.map (·.1) = entry.2.holders.map (·.1) ++ [holderId] := by
        simp only [placedClaim, hget, Option.map_some, Option.getD_some]
        rw [Keyed.upsert_of_get_eq_none hnew, List.map_append]
        rfl
      have hperm := List.Perm.flatMap_right
        (fun entry : String × OpenCodeRootClaim => entry.2.holders.map (·.1))
        (h.perm_cons_remove hget)
      rw [hplaced, List.append_assoc]
      refine List.perm_middle.trans (List.Perm.cons _ ?_)
      rw [List.flatMap_cons] at hperm
      exact hperm.symm

/-- The holders after the move are the other holders and the one that moves. -/
theorem holderIds_movedClaims (env : OpenCodeEnvironment) (root holderId : String)
    (agent : AgentInstance) (shellId runId : String) (h : ClaimsSound claims) :
    (holderIds (movedClaims claims env root holderId agent shellId runId)).Perm
      (holderId :: (holderIds claims).filter (· ≠ holderId)) := by
  have hbefore : holderIds (occupied root (removeHolder holderId claims)) =
      (holderIds claims).filter (· ≠ holderId) := by
    rw [holderIds_occupied, holderIds_removeHolder]
  rw [← hbefore]
  refine holderIds_upsert_placed (occupied_distinct _ (removeHolder_distinct _ h.distinct)) ?_
  rw [hbefore]
  simp

theorem hasCapacity_holders (h : hasCapacity root holderId claims = true) :
    (holderIds claims).length < maxOpenCodeClaimHolders ∨ holderId ∈ holderIds claims := by
  unfold hasCapacity at h
  simp only [Bool.not_eq_true', Bool.or_eq_false_iff, Bool.and_eq_false_iff,
    decide_eq_false_iff_not, not_le, Bool.not_eq_false', List.any_eq_true] at h
  refine h.2.imp_right fun hpresent => ?_
  obtain ⟨entry, he, hh⟩ := hpresent
  exact mem_holderIds.mpr ⟨entry, he, of_decide_eq_true hh⟩

/-- A claim that the move leaves at its place, beside that of the root. -/
def Stays (root holderId : String) (entry : String × OpenCodeRootClaim) : Bool :=
  entry.1 ≠ root ∧ Keyed.remove Prod.fst entry.2.holders holderId ≠ []

theorem length_movedClaims {env : OpenCodeEnvironment} {agent : AgentInstance}
    {shellId runId : String} (h : Keyed.Distinct Prod.fst claims) :
    (movedClaims claims env root holderId agent shellId runId).length =
      claims.countP (Stays root holderId) + 1 := by
  have hperm := (occupied_distinct root (removeHolder_distinct holderId h)).upsert_perm
    (a := (root, placedClaim (occupied root (removeHolder holderId claims)) root holderId
      env.claimId agent shellId runId ⟨env.now + openCodeClaimHolderTtl,
        saturatingAdd env.unixMs openCodeClaimHolderTtl⟩))
  have hlength := hperm.length_eq
  rw [List.length_cons] at hlength
  refine hlength.trans (congrArg (· + 1) ?_)
  unfold Keyed.remove occupied
  rw [List.filter_filter, removeHolder, List.filter_map, List.length_map,
    List.countP_eq_length_filter]
  refine congrArg List.length (List.filter_congr fun entry _ => ?_)
  by_cases hroot : entry.1 = root <;> simp [Stays, hroot]

/-- A check that passes leaves a place for the root. -/
theorem roots_movedClaims {env : OpenCodeEnvironment} {agent : AgentInstance}
    {shellId runId : String} (h : ClaimsSound claims)
    (hcap : hasCapacity root holderId claims = true) :
    (movedClaims claims env root holderId agent shellId runId).length ≤ maxOpenCodeClaimRoots := by
  rw [length_movedClaims h.distinct]
  have hle : claims.countP (Stays root holderId) ≤ claims.length := List.countP_le_length
  have hlt : ∀ entry ∈ claims, Stays root holderId entry = false →
      claims.countP (Stays root holderId) < claims.length := by
    intro entry he hnot
    refine lt_of_le_of_ne hle fun heq => ?_
    rw [List.countP_eq_length.mp heq entry he] at hnot
    cases hnot
  have hroots := h.roots
  cases hget : Keyed.get Prod.fst claims root with
  | some entry =>
      have hstays := hlt entry (Keyed.mem_of_get hget) (by simp [Stays, Keyed.key_of_get hget])
      omega
  | none =>
      by_cases honly : ∃ entry ∈ claims, entry.2.holders.length = 1 ∧
          holderId ∈ entry.2.holders.map (·.1)
      · obtain ⟨entry, he, hone, hmem⟩ := honly
        obtain ⟨holder, hholders⟩ := List.length_eq_one_iff.mp hone
        have hstays := hlt entry he (by
          rw [hholders, List.map_singleton, List.mem_singleton] at hmem
          simp [Stays, hholders, Keyed.remove, ← hmem])
        omega
      · have hany : (claims.any fun entry => decide (entry.2.holders.length = 1 ∧
            holderId ∈ entry.2.holders.map (·.1) ∧
              (Keyed.get Prod.fst claims root).isNone = true)) = false := by
          rw [List.any_eq_false]
          exact fun entry he hp => honly ⟨entry, he, (of_decide_eq_true hp).1,
            (of_decide_eq_true hp).2.1⟩
        unfold hasCapacity at hcap
        dsimp only at hcap
        rw [hany, hget] at hcap
        simp only [Bool.not_eq_true', Bool.or_eq_false_iff, decide_eq_false_iff_not,
          Option.isNone_none, Bool.toNat_true, Bool.toNat_false] at hcap
        omega

theorem ClaimsSound.moved {env : OpenCodeEnvironment} {agent : AgentInstance}
    {shellId runId : String} (h : ClaimsSound claims)
    (hcap : hasCapacity root holderId claims = true) :
    ClaimsSound (movedClaims claims env root holderId agent shellId runId) := by
  have hperm := holderIds_movedClaims env root holderId agent shellId runId h
  have hnot : holderId ∉ (holderIds claims).filter (· ≠ holderId) := by simp
  refine ⟨(occupied_distinct _ (removeHolder_distinct _ h.distinct)).upsert,
    hperm.nodup_iff.mpr (List.nodup_cons.mpr ⟨hnot, h.holders.filter _⟩), fun entry he => ?_,
    roots_movedClaims h hcap, ?_⟩
  · rcases Keyed.mem_upsert.mp he with rfl | ⟨hold, hne⟩
    · exact List.ne_nil_of_mem (Keyed.mem_upsert.mpr (.inl rfl))
    · exact (mem_occupied.mp hold).2.resolve_left hne
  · rw [hperm.length_eq, List.length_cons]
    rcases hasCapacity_holders hcap with hlt | hmem
    · exact Nat.succ_le_of_lt ((List.length_filter_le _ _).trans_lt hlt)
    · have hshorter : ((holderIds claims).filter (· ≠ holderId)).length <
          (holderIds claims).length :=
        List.length_filter_lt_length_iff_exists.mpr ⟨holderId, hmem, by simp⟩
      exact (Nat.succ_le_of_lt hshorter).trans h.holderCount

/-! ## Snapshots -/

theorem leastHolder_mem {holders : List (String × OpenCodeClaimHolder)} (h : holders ≠ []) :
    leastHolder holders ∈ holders.map (·.1) := by
  obtain ⟨least, hleast⟩ := Option.isSome_iff_exists.mp
    (List.isSome_min?_of_ne_nil (l := holders.map (·.1)) (by simpa using h))
  unfold leastHolder
  rw [hleast]
  exact List.min?_mem hleast

/-- A pruned claim that is left has selected one of its holders. -/
theorem prune_selected {claim : OpenCodeRootClaim} {now : Nat}
    (h : (claim.prune now).holders ≠ []) :
    (claim.prune now).selectedHolderId ∈ (claim.prune now).holders.map (·.1) := by
  unfold OpenCodeRootClaim.prune at h ⊢
  dsimp only at h ⊢
  split
  next hselected => exact hselected
  next => exact leastHolder_mem h

theorem snapshot_isOk {state : OpenCodeCoordinatorState} {generationId : String}
    (hget : Keyed.get Prod.fst state.claims root = some entry)
    (hholder : holderId ∈ entry.2.holders.map (·.1)) :
    ∃ claim, state.snapshot generationId root holderId = .ok claim := by
  obtain ⟨holder, hmem, hid⟩ := List.mem_map.mp hholder
  cases hfound : Keyed.get Prod.fst entry.2.holders holderId with
  | none => exact absurd hid (Keyed.get_eq_none.mp hfound holder hmem)
  | some found =>
      unfold OpenCodeCoordinatorState.snapshot
      simp only [hget, hfound]
      exact ⟨_, rfl⟩

/-- The selected holder of a pruned claim has a snapshot. -/
theorem snapshot_prune {state : OpenCodeCoordinatorState} {now : Nat} (generationId : String)
    (hget : Keyed.get Prod.fst (pruneClaims now state.claims) root = some entry) :
    ∃ claim, OpenCodeCoordinatorState.snapshot ⟨state.runtime, pruneClaims now state.claims⟩
      generationId root entry.2.selectedHolderId = .ok claim := by
  obtain ⟨hheld, old, -, rfl⟩ := mem_pruneClaims.mp (Keyed.mem_of_get hget)
  exact snapshot_isOk hget (prune_selected hheld)

theorem snapshot_movedClaims (claims : OpenCodeClaims) (env : OpenCodeEnvironment)
    (root holderId : String) (agent : AgentInstance) (shellId runId generationId : String)
    (runtime : Option OpenCodeRuntime) :
    ∃ claim, OpenCodeCoordinatorState.snapshot
      ⟨runtime, movedClaims claims env root holderId agent shellId runId⟩ generationId root
      holderId = .ok claim := by
  have hget : Keyed.get Prod.fst (movedClaims claims env root holderId agent shellId runId) root =
      some (root, placedClaim (occupied root (removeHolder holderId claims)) root holderId
        env.claimId agent shellId runId ⟨env.now + openCodeClaimHolderTtl,
          saturatingAdd env.unixMs openCodeClaimHolderTtl⟩) := by
    unfold movedClaims
    rw [Keyed.get_upsert, if_pos rfl]
  exact snapshot_isOk hget (List.mem_map_of_mem (Keyed.mem_upsert.mpr (.inl rfl)))

/-! ## The operations -/

/-- A claim of the same ShellRun on the same root was there before. -/
def Derived (claims : OpenCodeClaims) (entry' : String × OpenCodeRootClaim) : Prop :=
  ∃ entry ∈ claims, entry.1 = entry'.1 ∧ entry.2.shellId = entry'.2.shellId ∧
    entry.2.runId = entry'.2.runId

theorem Derived.of_mem (h : entry ∈ claims) : Derived claims entry := ⟨entry, h, rfl, rfl, rfl⟩

theorem Derived.of_prune (now : Nat) (h : Derived (pruneClaims now claims) entry') :
    Derived claims entry' := by
  obtain ⟨entry, he, hroot, hshell, hrun⟩ := h
  obtain ⟨-, old, hold, rfl⟩ := mem_pruneClaims.mp he
  exact ⟨old, hold, hroot, hshell, hrun⟩

/-- The first ShellRun has no say any more: its holders have all expired, or its authority is
lost. -/
def Lost (d : AgentRegistry) (now : Nat) (entry : String × OpenCodeRootClaim) : Prop :=
  (∀ holder ∈ entry.2.holders, holder.2.expiresAt ≤ now) ∨
    ∃ error, openCodeClaimAuthority d entry.1 entry.2 = .error error

theorem releasedClaims_narrows (holderId claimId : String) (h : ClaimsSound claims) :
    ClaimsSound (releasedClaims holderId claimId claims).1 ∧
      ∀ entry ∈ (releasedClaims holderId claimId claims).1, Derived claims entry := by
  unfold releasedClaims
  split
  · exact ⟨h, fun entry he => .of_mem he⟩
  next root claim hfind =>
    have hmem : (root, claim) ∈ claims := List.mem_of_find?_eq_some hfind
    dsimp only
    split
    · exact ⟨h.remove root, fun entry he => .of_mem (Keyed.mem_remove.mp he).1⟩
    next hheld =>
      refine ⟨h.adjust fun entry he hroot => ?_, fun entry he => ?_⟩
      · obtain rfl : entry = (root, claim) := List.inj_on_of_nodup_map h.distinct he hmem hroot
        exact ⟨rfl, rfl, rfl, List.filter_sublist, by simpa using hheld⟩
      · rcases Keyed.mem_adjust.mp he with ⟨hold, -⟩ | ⟨old, hold, -, rfl⟩
        · exact .of_mem hold
        · exact ⟨old, hold, rfl, rfl, rfl⟩

theorem settleExisting_cases {d : AgentRegistry} {shellId runId : String} {settled : OpenCodeClaims}
    (h : settleExisting d root shellId runId claims = .ok settled) :
    settled = claims ∨ (settled = Keyed.remove Prod.fst claims root ∧
      ∀ entry, Keyed.get Prod.fst claims root = some entry →
        ∃ error, openCodeClaimAuthority d root entry.2 = .error error) := by
  unfold settleExisting at h
  split at h
  · cases h
    exact .inl rfl
  next root' existing hget =>
    split at h
    next error hauthority =>
      cases h
      refine .inr ⟨rfl, fun entry he => ⟨error, ?_⟩⟩
      rw [hget] at he
      cases he
      exact hauthority
    next =>
      split at h
      · cases h
      · cases h
        exact .inl rfl

theorem ClaimsSound.settled {d : AgentRegistry} {shellId runId : String} {settled : OpenCodeClaims}
    (h : ClaimsSound claims) (hs : settleExisting d root shellId runId claims = .ok settled) :
    ClaimsSound settled := by
  rcases settleExisting_cases hs with rfl | ⟨rfl, -⟩
  · exact h
  · exact h.remove root

/-- Where the claims come from that a moved holder leaves behind, and the claim that it moves to. -/
theorem movedClaims_derived {env : OpenCodeEnvironment} {agent : AgentInstance}
    {shellId runId : String}
    (he : entry' ∈ movedClaims claims env root holderId agent shellId runId) :
    Derived claims entry' ∨ (entry'.1 = root ∧ Keyed.get Prod.fst claims root = none) := by
  have hderived : ∀ entry ∈ occupied root (removeHolder holderId claims), Derived claims entry := by
    intro entry hmem
    obtain ⟨old, hold, rfl⟩ := mem_removeHolder.mp (mem_occupied.mp hmem).1
    exact ⟨old, hold, rfl, rfl, rfl⟩
  rcases Keyed.mem_upsert.mp he with rfl | ⟨hold, -⟩
  · cases hget : Keyed.get Prod.fst (occupied root (removeHolder holderId claims)) root with
    | some entry =>
        obtain ⟨old, hold, hroot, hshell, hrun⟩ := hderived entry (Keyed.mem_of_get hget)
        refine .inl ⟨old, hold, hroot.trans (Keyed.key_of_get hget), ?_, ?_⟩
        · simpa [placedClaim, hget] using hshell
        · simpa [placedClaim, hget] using hrun
    | none =>
        refine .inr ⟨rfl, Keyed.get_eq_none.mpr fun entry hmem hroot => ?_⟩
        exact Keyed.get_eq_none.mp hget _ (mem_occupied.mpr
          ⟨mem_removeHolder.mpr ⟨entry, hmem, rfl⟩, .inl hroot⟩) hroot
  · exact .inl (hderived entry' hold)

/-- A claim of another ShellRun can be inserted only where the first one is lost. -/
theorem lost_of_not_derived {d : AgentRegistry} {now : Nat} {shellId runId : String}
    {settled : OpenCodeClaims} (h : ClaimsSound claims)
    (hs : settleExisting d root shellId runId (pruneClaims now claims) = .ok settled)
    (hnone : Keyed.get Prod.fst settled root = none) (he : entry ∈ claims)
    (hroot : entry.1 = root) :
    Lost d now entry := by
  by_cases hheld : (entry.2.prune now).holders = []
  · refine .inl fun holder hholder => ?_
    have := List.filter_eq_nil_iff.mp hheld holder hholder
    simpa using this
  · have hmem : (entry.1, entry.2.prune now) ∈ pruneClaims now claims :=
      mem_pruneClaims.mpr ⟨hheld, entry, he, rfl⟩
    have hget : Keyed.get Prod.fst (pruneClaims now claims) root =
        some (entry.1, entry.2.prune now) := hroot ▸ (h.prune now).distinct.get_of_mem hmem
    rcases settleExisting_cases hs with rfl | ⟨-, hauthority⟩
    · rw [hget] at hnone
      cases hnone
    · obtain ⟨error, herror⟩ := hauthority _ hget
      exact .inr ⟨error, hroot ▸ herror⟩

/-- What an operation leaves of the claims, and how it can fail. -/
structure OperationSound (claims : OpenCodeClaims) (d : AgentRegistry)
    (origin : String × OpenCodeRootClaim → Prop)
    (result : Except OpenCodeFailure OpenCodeMutation) : Prop where
  sound : ∀ m, result = .ok m → ClaimsSound m.claims
  derived : ∀ m, result = .ok m → ∀ entry ∈ m.claims, Derived claims entry ∨ origin entry
  snapshots : ∀ error, result ≠ .error (.snapshot error)
  answers : ∀ m, result = .ok m → ∀ failure, m.response = .error failure →
    ∃ error, failure = .refused error

theorem mapError_refused_ne {α : Type} {x : Except DaemonError α} (error : IoError) :
    x.mapError OpenCodeFailure.refused ≠ .error (.snapshot error) := by
  cases x <;> nofun

theorem bind_ne_error {ε α β : Type} {x : Except ε α} {f : α → Except ε β} {e : ε}
    (hx : x ≠ .error e) (hf : ∀ a, f a ≠ .error e) : (x >>= f) ≠ .error e := by
  cases x with
  | error e' => exact fun h => hx (by cases h; rfl)
  | ok a => exact hf a

theorem require_ne_snapshot {condition : Bool} {failure : DaemonError} (error : IoError) :
    require condition (OpenCodeFailure.refused failure) ≠ .error (.snapshot error) := by
  unfold require
  split <;> nofun

theorem ensure_ok {env : OpenCodeEnvironment} {generationId shellId runId : String}
    {spec : AgentRegistrationSpec} {state : OpenCodeCoordinatorState} {d : AgentRegistry}
    {m : OpenCodeMutation}
    (h : ensureOpenCodeSessionClaim env generationId holderId root shellId runId spec state d =
      .ok m) :
    ∃ settled agent,
      settleExisting d root shellId runId (pruneClaims env.now state.claims) = .ok settled ∧
      hasCapacity root holderId settled = true ∧
      m.claims = movedClaims settled env root holderId agent shellId runId ∧
      ∃ response, m.response = .ok response := by
  simp only [ensureOpenCodeSessionClaim, bind_eq_ok, mapError_eq_ok, require_eq_ok] at h
  obtain ⟨settled, hsettled, -, -, -, hcap, ensured, -, -, -, ⟨d', undo, events⟩, -, claim, -,
    h⟩ := h
  cases h
  exact ⟨settled, ensured.agent, hsettled, hcap, rfl, _, rfl⟩

theorem ensure_sound (env : OpenCodeEnvironment) (generationId holderId root shellId runId : String)
    (spec : AgentRegistrationSpec) {state : OpenCodeCoordinatorState} (d : AgentRegistry)
    (h : ClaimsSound state.claims) :
    OperationSound state.claims d
      (fun entry' => entry'.1 = root ∧
        ∀ entry ∈ state.claims, entry.1 = root → Lost d env.now entry)
      (ensureOpenCodeSessionClaim env generationId holderId root shellId runId spec state d) := by
  refine ⟨fun m hm => ?_, fun m hm entry' he => ?_, fun error => ?_, fun m hm failure => ?_⟩
  · obtain ⟨settled, agent, hsettled, hcap, hclaims, -⟩ := ensure_ok hm
    rw [hclaims]
    exact ((h.prune env.now).settled hsettled).moved hcap
  · obtain ⟨settled, agent, hsettled, hcap, hclaims, -⟩ := ensure_ok hm
    rw [hclaims] at he
    rcases movedClaims_derived he with ⟨entry, hmem, hsame⟩ | ⟨hroot, hnone⟩
    · refine .inl (.of_prune env.now ⟨entry, ?_, hsame⟩)
      rcases settleExisting_cases hsettled with rfl | ⟨rfl, -⟩
      · exact hmem
      · exact (Keyed.mem_remove.mp hmem).1
    · exact .inr ⟨hroot, fun entry hmem he => lost_of_not_derived h hsettled hnone hmem he⟩
  · refine bind_ne_error (mapError_refused_ne error) fun settled => ?_
    refine bind_ne_error (mapError_refused_ne error) fun _ => ?_
    refine bind_ne_error (require_ne_snapshot error) fun _ => ?_
    refine bind_ne_error (mapError_refused_ne error) fun ensured => ?_
    refine bind_ne_error (require_ne_snapshot error) fun _ => ?_
    refine bind_ne_error (mapError_refused_ne error) fun inactivated => ?_
    obtain ⟨claim, hclaim⟩ := snapshot_movedClaims settled env root holderId ensured.agent
      shellId runId generationId state.runtime
    refine bind_ne_error ?_ fun _ => nofun
    rw [hclaim]
    nofun
  · obtain ⟨-, -, -, -, -, response, hresponse⟩ := ensure_ok hm
    rw [hresponse]
    nofun

theorem release_sound (env : OpenCodeEnvironment) (holderId claimId : String)
    {state : OpenCodeCoordinatorState} (d : AgentRegistry) (h : ClaimsSound state.claims) :
    OperationSound state.claims d (fun _ => False)
      (releaseOpenCodeSessionClaim env holderId claimId state d) := by
  obtain ⟨hsound, hderived⟩ := releasedClaims_narrows holderId claimId
    (h.prune env.now)
  have hok : ∀ m, releaseOpenCodeSessionClaim env holderId claimId state d = .ok m →
      m.claims = (releasedClaims holderId claimId (pruneClaims env.now state.claims)).1 ∧
        ∃ response, m.response = .ok response := by
    intro m hm
    simp only [releaseOpenCodeSessionClaim, bind_eq_ok, mapError_eq_ok] at hm
    obtain ⟨⟨d', undo, events⟩, -, hm⟩ := hm
    cases hm
    exact ⟨rfl, _, rfl⟩
  refine ⟨fun m hm => (hok m hm).1 ▸ hsound, fun m hm entry' he => ?_, fun error => ?_,
    fun m hm failure => ?_⟩
  · rw [(hok m hm).1] at he
    exact .inl ((hderived entry' he).of_prune _)
  · exact bind_ne_error (mapError_refused_ne error) fun _ => by simp
  · obtain ⟨-, response, hresponse⟩ := hok m hm
    rw [hresponse]
    simp

theorem report_sound (env : OpenCodeEnvironment) (root : String) (agentReport : AgentReport)
    {state : OpenCodeCoordinatorState} (d : AgentRegistry) (h : ClaimsSound state.claims) :
    OperationSound state.claims d (fun _ => False)
      (reportClaimedOpenCodeAgent env root agentReport state d) := by
  have hpruned := h.prune env.now
  have hok : ∀ m, reportClaimedOpenCodeAgent env root agentReport state d = .ok m →
      (m.claims = pruneClaims env.now state.claims ∨
        m.claims = Keyed.remove Prod.fst (pruneClaims env.now state.claims) root) ∧
      ∀ failure, m.response = .error failure → ∃ error, failure = .refused error := by
    intro m hm
    unfold reportClaimedOpenCodeAgent at hm
    dsimp only at hm
    split at hm
    · cases hm
    · split at hm
      next error _ =>
        cases hm
        refine ⟨.inr rfl, fun failure hf => ?_⟩
        cases hf
        exact ⟨error, rfl⟩
      · simp only [bind_eq_ok, mapError_eq_ok] at hm
        obtain ⟨-, -, reported, -, hm⟩ := hm
        cases hm
        refine ⟨?_, nofun⟩
        dsimp only
        split
        · exact .inr rfl
        · exact .inl rfl
  refine ⟨fun m hm => ?_, fun m hm entry' he => ?_, fun error => ?_, fun m hm => (hok m hm).2⟩
  · rcases (hok m hm).1 with hclaims | hclaims
    · exact hclaims ▸ hpruned
    · exact hclaims ▸ hpruned.remove root
  · refine .inl (.of_prune env.now (.of_mem ?_))
    rcases (hok m hm).1 with hclaims | hclaims
    · exact hclaims ▸ he
    · rw [hclaims] at he
      exact (Keyed.mem_remove.mp he).1
  · unfold reportClaimedOpenCodeAgent
    dsimp only
    split
    · nofun
    · split
      · nofun
      · refine bind_ne_error (mapError_refused_ne error) fun _ => ?_
        exact bind_ne_error (mapError_refused_ne error) fun _ => nofun

/-! ## One request -/

/-- The environment of the requests that hold the claims in an `OpenCodeClaimsMutation`. -/
def OpenCodeAction.mutation? : OpenCodeAction → Option OpenCodeEnvironment
  | .ensure env .. | .release env .. | .report env .. => some env
  | _ => none

/-- The mutation comes as far as the coordinator, and the process of the runtime has exited. -/
def OpenCodeEnvironment.reaps (env : OpenCodeEnvironment) : Bool :=
  env.entryError.isNone && match env.exited with
    | .ok exited => exited
    | .error _ => false

namespace OpenCodeWorld

variable {w u : OpenCodeWorld} {a : OpenCodeAction} {env : OpenCodeEnvironment}
  {generationId : String} {operation : OpenCodeCoordinatorState → AgentRegistry →
    Except OpenCodeFailure OpenCodeMutation}

/-- What a check of the generation leaves of the coordinator. -/
theorem requireGeneration_cases (state : OpenCodeCoordinatorState)
    (exited : Except IoError Bool) (generationId : String) :
    (state.requireGeneration exited generationId).2 =
        (if exited.toOption = some true ∧ state.runtime.isSome then ⟨none, []⟩ else state) ∧
      ((state.requireGeneration exited generationId).1 = .ok () →
        exited.toOption ≠ some true ∧
          (state.requireGeneration exited generationId).2 = state ∧
          ∃ runtime, state.runtime = some runtime ∧ runtime.generationId = generationId) := by
  unfold OpenCodeCoordinatorState.requireGeneration OpenCodeCoordinatorState.reapExited
  cases hruntime : state.runtime with
  | none => simp [hruntime]
  | some runtime =>
      rcases exited with error | exited
      · simp [Except.toOption]
      · cases exited with
        | true => simp [Except.toOption]
        | false =>
            by_cases hid : runtime.generationId = generationId <;>
              simp [Except.toOption, hruntime, hid]

/-- A mutation fails and leaves the claims, or it commits those of its operation. -/
theorem mutate_cases (w : OpenCodeWorld) (env : OpenCodeEnvironment) (generationId : String)
    (operation : OpenCodeCoordinatorState → AgentRegistry →
      Except OpenCodeFailure OpenCodeMutation) :
    (∃ failure, (w.mutate env generationId operation).1 = .error failure ∧
      (w.mutate env generationId operation).2.coordinator =
        ⟨if env.reaps = true then none else w.coordinator.runtime, w.coordinator.claims⟩ ∧
      (w.mutate env generationId operation).2.origin = w.origin ∧
      ∀ error, failure = .snapshot error →
        operation w.coordinator w.registry = .error (.snapshot error)) ∨
    (∃ m, operation w.coordinator w.registry = .ok m ∧
      w.mutate env generationId operation =
        (m.response, ⟨⟨w.coordinator.runtime, m.claims⟩, m.registry, w.origin⟩) ∧
      env.reaps = false ∧
      ∃ runtime, w.coordinator.runtime = some runtime ∧ runtime.generationId = generationId) := by
  -- `require_generation` forgets a runtime whose process has exited, and changes nothing else.
  have hgen := requireGeneration_cases w.coordinator env.exited generationId
  unfold mutate
  cases hentry : env.entryError with
  | some error =>
      refine .inl ⟨_, rfl, ?_, rfl, by simp⟩
      simp [OpenCodeEnvironment.reaps, hentry]
  | none =>
      have hreaps : env.reaps = true ↔ env.exited.toOption = some true := by
        unfold OpenCodeEnvironment.reaps
        rw [hentry]
        rcases env.exited with error | exited <;> simp [Except.toOption]
      have hruntime : (w.coordinator.requireGeneration env.exited generationId).2.runtime =
          if env.reaps = true then none else w.coordinator.runtime := by
        rw [hgen.1]
        by_cases hexited : env.exited.toOption = some true
        · rw [if_pos (hreaps.mpr hexited)]
          cases hr : w.coordinator.runtime with
          | none => rw [if_neg (by simp), hr]
          | some runtime => rw [if_pos ⟨hexited, by simp⟩]
        · rw [if_neg (fun hr => hexited (hreaps.mp hr)), if_neg (fun hr => hexited hr.1)]
      dsimp only
      cases hrequire : w.coordinator.requireGeneration env.exited generationId with
      | mk generation state =>
          rw [hrequire] at hgen hruntime
          dsimp only at hgen hruntime
          cases generation with
          -- Another generation, or none: the mutation is not reached.
          | error error =>
              exact .inl ⟨_, rfl, by rw [hruntime], rfl, by simp⟩
          | ok =>
              obtain ⟨hexited, hstate, runtime, hsome, hid⟩ := hgen.2 rfl
              have hnot : env.reaps = false := by
                rw [Bool.eq_false_iff]
                exact fun hr => hexited (hreaps.mp hr)
              subst hstate
              dsimp only
              -- The runtime is alive, so that a failure leaves it too.
              have hdropped : (⟨w.coordinator.runtime, w.coordinator.claims⟩ :
                  OpenCodeCoordinatorState) =
                  ⟨if env.reaps = true then none else w.coordinator.runtime,
                    w.coordinator.claims⟩ := by
                rw [hnot]
                rfl
              cases hoperation : operation w.coordinator w.registry with
              | error failure =>
                  refine .inl ⟨failure, rfl, hdropped, rfl, fun error he => ?_⟩
                  rw [he]
              | ok m =>
                  have hcommitted := (⟨m, rfl, rfl, hnot, runtime, hsome, hid⟩ :
                    ∃ m', Except.ok (ε := OpenCodeFailure) m = .ok m' ∧
                      (m.response, (⟨⟨w.coordinator.runtime, m.claims⟩, m.registry, w.origin⟩ :
                        OpenCodeWorld)) =
                      (m'.response, ⟨⟨w.coordinator.runtime, m'.claims⟩, m'.registry, w.origin⟩) ∧
                      env.reaps = false ∧ ∃ runtime, w.coordinator.runtime = some runtime ∧
                        runtime.generationId = generationId)
                  dsimp only
                  -- What is changed and what is undone must agree, and a change must be saved.
                  split
                  · exact .inr hcommitted
                  · exact .inl ⟨_, rfl, hdropped, rfl, by simp⟩
                  · exact .inl ⟨_, rfl, hdropped, rfl, by simp⟩
                  · split
                    · exact .inl ⟨_, rfl, hdropped, rfl, by simp⟩
                    · exact .inr hcommitted

theorem mutate_sound (env : OpenCodeEnvironment) (generationId : String)
    {origin : String × OpenCodeRootClaim → Prop} (h : ClaimsSound w.coordinator.claims)
    (ho : OperationSound w.coordinator.claims w.registry origin
      (operation w.coordinator w.registry)) :
    ClaimsSound (w.mutate env generationId operation).2.coordinator.claims ∧
      (∀ entry ∈ (w.mutate env generationId operation).2.coordinator.claims,
        Derived w.coordinator.claims entry ∨ origin entry) ∧
      (∀ error, (w.mutate env generationId operation).1 ≠ .error (.snapshot error)) ∧
      ∀ error, (w.mutate env generationId operation).1 = .error (.unsaved error) →
        (w.mutate env generationId operation).2.coordinator.claims = w.coordinator.claims := by
  rcases mutate_cases w env generationId operation with ⟨failure, hfail, hclaims, -,
    hsnapshot⟩ | ⟨m, hm, heq, -⟩
  · rw [hfail, hclaims]
    refine ⟨h, fun entry he => .inl (.of_mem he), fun error he => ?_, fun _ _ => rfl⟩
    exact ho.snapshots error (hsnapshot error (by cases he; rfl))
  · rw [heq]
    refine ⟨ho.sound m hm, ho.derived m hm, fun error he => ?_, fun error he => ?_⟩
    · obtain ⟨_, hrefused⟩ := ho.answers m hm _ he
      cases hrefused
    · obtain ⟨_, hrefused⟩ := ho.answers m hm _ he
      cases hrefused

/-- The claim that a request can insert, on a root whose former claim is lost. -/
def Inserts (w : OpenCodeWorld) (entry' : String × OpenCodeRootClaim) : OpenCodeAction → Prop
  | .ensure env _ _ rootSessionId _ _ _ => entry'.1 = rootSessionId ∧
      ∀ entry ∈ w.coordinator.claims, entry.1 = rootSessionId → Lost w.registry env.now entry
  | _ => False

/-- What one request does to the claims. -/
structure CallSound (w : OpenCodeWorld) (a : OpenCodeAction)
    (result : Except OpenCodeFailure OpenCodeResponse × OpenCodeWorld) : Prop where
  sound : ClaimsSound result.2.coordinator.claims
  derived : ∀ entry ∈ result.2.coordinator.claims,
    Derived w.coordinator.claims entry ∨ Inserts w entry a
  snapshots : ∀ error, result.1 ≠ .error (.snapshot error)
  unsaved : ∀ error, result.1 = .error (.unsaved error) →
    result.2.coordinator.claims = w.coordinator.claims

theorem CallSound.same {result : Except OpenCodeFailure OpenCodeResponse × OpenCodeWorld}
    (h : ClaimsSound w.coordinator.claims)
    (hsame : result.2.coordinator.claims = w.coordinator.claims)
    (hsnapshot : ∀ error, result.1 ≠ .error (.snapshot error)) : CallSound w a result :=
  ⟨hsame ▸ h, fun _ he => .inl (.of_mem (hsame ▸ he)), hsnapshot, fun _ _ => hsame⟩

theorem CallSound.cleared {result : Except OpenCodeFailure OpenCodeResponse × OpenCodeWorld}
    (hnil : result.2.coordinator.claims = [])
    (hsnapshot : ∀ error, result.1 ≠ .error (.snapshot error))
    (hunsaved : ∀ error, result.1 ≠ .error (.unsaved error)) : CallSound w a result :=
  ⟨hnil ▸ .nil, fun _ he => absurd (hnil ▸ he) List.not_mem_nil, hsnapshot,
    fun error he => absurd he (hunsaved error)⟩

theorem reapExited_claims (state : OpenCodeCoordinatorState) (exited : Except IoError Bool) :
    (state.reapExited exited).2 = state ∨ (state.reapExited exited).2 = ⟨none, []⟩ := by
  unfold OpenCodeCoordinatorState.reapExited
  split
  · exact .inl rfl
  · split
    · exact .inl rfl
    · exact .inr rfl
    · exact .inl rfl

theorem requireGeneration_claims (state : OpenCodeCoordinatorState)
    (exited : Except IoError Bool) (generationId : String) :
    (state.requireGeneration exited generationId).2 = state ∨
      (state.requireGeneration exited generationId).2 = ⟨none, []⟩ := by
  rw [(requireGeneration_cases ..).1]
  split
  · exact .inr rfl
  · exact .inl rfl

theorem resolve_sound {rootSessionId : String} (h : ClaimsSound w.coordinator.claims) :
    CallSound w a (w.resolve env generationId rootSessionId) := by
  have hpruned := h.prune env.now
  have hderived : ∀ entry ∈ pruneClaims env.now w.coordinator.claims,
      Derived w.coordinator.claims entry ∨ Inserts w entry a :=
    fun entry he => .inl (.of_prune _ (.of_mem he))
  unfold resolve
  cases hrequire : w.coordinator.requireGeneration env.exited generationId with
  | mk generation state =>
      have hstate := requireGeneration_claims w.coordinator env.exited generationId
      have hactive := (requireGeneration_cases w.coordinator env.exited generationId).2
      rw [hrequire] at hstate hactive
      dsimp only at hstate hactive
      cases generation with
      | error error =>
          rcases hstate with rfl | rfl
          · exact .same h rfl nofun
          · exact .cleared rfl nofun nofun
      | ok =>
          obtain ⟨-, rfl, -⟩ := hactive rfl
          dsimp only
          split
          · exact ⟨hpruned, hderived, nofun, nofun⟩
          next root claim hget =>
            split
            · exact ⟨hpruned.remove _, fun entry he => hderived entry (Keyed.mem_remove.mp he).1,
                nofun, nofun⟩
            · obtain ⟨snapshot, hsnapshot⟩ := snapshot_prune generationId hget
              split
              next error herror =>
                rw [hsnapshot] at herror
                cases herror
              · exact ⟨hpruned, hderived, nofun, nofun⟩

theorem ensureRuntime_sound {exited : Except IoError Bool} {port : Nat}
    {found : Except DaemonError OpenCodeRuntime} (h : ClaimsSound w.coordinator.claims) :
    CallSound w a (w.ensureRuntime exited port found) := by
  have hreap := reapExited_claims w.coordinator exited
  unfold ensureRuntime
  cases hexited : w.coordinator.reapExited exited with
  | mk result state =>
      rw [hexited] at hreap
      dsimp only at hreap
      have hkeeps : ∀ result : Except OpenCodeFailure OpenCodeResponse,
          (∀ error, result ≠ .error (.snapshot error)) →
          (∀ error, result ≠ .error (.unsaved error)) →
          CallSound w a (result, { w with coordinator := state }) := by
        intro result hsnapshot hunsaved
        rcases hreap with rfl | rfl
        · exact .same h rfl hsnapshot
        · exact .cleared rfl hsnapshot hunsaved
      cases result with
      | error error => exact hkeeps _ nofun nofun
      | ok =>
          dsimp only
          split
          · refine hkeeps _ (fun error => ?_) fun error => ?_ <;> split <;> nofun
          · exact hkeeps _ nofun nofun
          · refine .cleared rfl (fun error => ?_) fun error => ?_ <;> dsimp only <;> split <;> nofun

theorem run_sound (h : ClaimsSound w.coordinator.claims) : CallSound w a (a.run w) := by
  cases a with
  | ensure env generationId holderId rootSessionId shellId runId spec =>
      obtain ⟨hsound, hderived, hsnapshots, hunsaved⟩ := mutate_sound env generationId h
        (ensure_sound env generationId holderId rootSessionId shellId runId spec w.registry h)
      simp only [OpenCodeAction.run]
      split
      next heq =>
        rw [heq] at hsound hderived
        exact ⟨hsound, hderived, nofun, nofun⟩
      next failed _ => exact ⟨hsound, hderived, hsnapshots, hunsaved⟩
  | resolve env generationId rootSessionId => exact resolve_sound h
  | release env generationId holderId claimId =>
      obtain ⟨hsound, hderived, hsnapshots, hunsaved⟩ := mutate_sound env generationId h
        (release_sound env holderId claimId w.registry h)
      exact ⟨hsound, hderived, hsnapshots, hunsaved⟩
  | report env generationId rootSessionId agentReport =>
      obtain ⟨hsound, hderived, hsnapshots, hunsaved⟩ := mutate_sound env generationId h
        (report_sound env rootSessionId agentReport w.registry h)
      exact ⟨hsound, hderived, hsnapshots, hunsaved⟩
  | reapExited exited =>
      simp only [OpenCodeAction.run, OpenCodeCoordinatorState.reapExited]
      cases hruntime : w.coordinator.runtime with
      | none => exact .same h rfl nofun
      | some runtime =>
          rcases exited with error | exited
          · exact .same h rfl nofun
          · cases exited with
            | true => exact .cleared rfl nofun nofun
            | false => exact .same h rfl nofun
  | ensureRuntime exited port found => exact ensureRuntime_sound h
  | shutdown => exact .cleared rfl nofun nofun
  | edit registry => exact .same h rfl nofun

theorem call_sound (h : ClaimsSound w.coordinator.claims) : CallSound w a (a.call w) := by
  unfold OpenCodeAction.call
  split
  · exact .same h rfl nofun
  · exact run_sound h

/-! ### The runtime of the claims -/

/-- A claim exists only while the runtime of its generation is active. A runtime is active until
the coordinator reaps it. -/
def Active (w : OpenCodeWorld) : Prop :=
  ∀ entry ∈ w.coordinator.claims, ∃ runtime, w.coordinator.runtime = some runtime ∧
    runtime.generationId = w.origin entry.1

/-- No mutation is the first to notice that the process of the runtime has exited, unless there are
no claims. -/
def NoticesNoExit (w : OpenCodeWorld) (a : OpenCodeAction) : Prop :=
  ∀ env, a.mutation? = some env → a.validate = .ok () → env.reaps = true →
    w.coordinator.runtime.isSome = true → w.coordinator.claims = []

theorem Active.of_nil (h : w.coordinator.claims = []) : w.Active := by
  intro entry he
  rw [h] at he
  cases he

theorem Active.of_derived (h : w.Active) (hruntime : u.coordinator.runtime = w.coordinator.runtime)
    (horigin : u.origin = w.origin)
    (hderived : ∀ entry ∈ u.coordinator.claims, Derived w.coordinator.claims entry) : u.Active := by
  intro entry he
  obtain ⟨old, hold, hroot, -⟩ := hderived entry he
  rw [hruntime, horigin, ← hroot]
  exact h old hold

/-- A mutation that fails keeps the claims, and may have reaped the runtime. -/
theorem failed_active (h : w.Active)
    (hu : u.coordinator =
      ⟨if env.reaps = true then none else w.coordinator.runtime, w.coordinator.claims⟩)
    (horigin : u.origin = w.origin) :
    u.Active ↔ (env.reaps = true → w.coordinator.runtime.isSome = true →
      w.coordinator.claims = []) := by
  by_cases hreaps : env.reaps = true
  · constructor
    · intro hactive _ _
      by_contra hne
      obtain ⟨entry, he⟩ := List.exists_mem_of_ne_nil _ hne
      obtain ⟨runtime, hruntime, -⟩ := hactive entry (by rwa [hu])
      rw [hu, if_pos hreaps] at hruntime
      cases hruntime
    · intro hnil
      refine .of_nil ?_
      rw [hu]
      by_contra hne
      obtain ⟨entry, he⟩ := List.exists_mem_of_ne_nil _ hne
      obtain ⟨runtime, hruntime, -⟩ := h entry he
      exact hne (hnil hreaps (by rw [hruntime]; rfl))
  · refine iff_of_true (h.of_derived (by rw [hu, if_neg hreaps]) horigin fun entry he => ?_)
      fun hr => absurd hr hreaps
    rw [hu] at he
    exact .of_mem he

/-- A mutation keeps the runtime of the claims exactly when it is not the first to notice the
exit. -/
theorem mutate_active {origin : String × OpenCodeRootClaim → Prop}
    (h : w.Active) (ho : OperationSound w.coordinator.claims w.registry origin
      (operation w.coordinator w.registry)) (hnone : ∀ entry, ¬ origin entry) :
    (w.mutate env generationId operation).2.Active ↔
      (env.reaps = true → w.coordinator.runtime.isSome = true → w.coordinator.claims = []) := by
  rcases mutate_cases w env generationId operation with ⟨failure, -, hu, horigin, -⟩ | ⟨m, hm, heq,
    hnot, -⟩
  · exact failed_active h hu horigin
  · rw [heq]
    refine iff_of_true (h.of_derived rfl rfl fun entry he => ?_) fun hr => ?_
    · exact (ho.derived m hm entry he).resolve_right (hnone entry)
    · rw [hnot] at hr
      cases hr

theorem ensure_active {holderId rootSessionId shellId runId : String}
    {spec : AgentRegistrationSpec} (hs : ClaimsSound w.coordinator.claims) (h : w.Active) :
    ((OpenCodeAction.ensure env generationId holderId rootSessionId shellId runId spec).run
      w).2.Active ↔
      (env.reaps = true → w.coordinator.runtime.isSome = true → w.coordinator.claims = []) := by
  have ho := ensure_sound env generationId holderId rootSessionId shellId runId spec w.registry hs
  simp only [OpenCodeAction.run]
  rcases mutate_cases w env generationId (ensureOpenCodeSessionClaim env generationId holderId
    rootSessionId shellId runId spec) with ⟨failure, hfail, hu, horigin, -⟩ | ⟨m, hm, heq, hnot,
      runtime, hsome, hid⟩
  · split
    next heq =>
      rw [heq] at hfail
      cases hfail
    next => exact failed_active h hu horigin
  · have hright : env.reaps = true → w.coordinator.runtime.isSome = true →
        w.coordinator.claims = [] := fun hr => by
      rw [hnot] at hr
      cases hr
    rw [heq]
    refine iff_of_true ?_ hright
    obtain ⟨-, -, -, -, -, response, hresponse⟩ := ensure_ok hm
    rw [hresponse]
    intro entry he
    by_cases hroot : entry.1 = rootSessionId
    · refine ⟨runtime, hsome, ?_⟩
      simp only [hroot, Function.update_self]
      exact hid
    · obtain ⟨old, hold, hsame, -⟩ := (ho.derived m hm entry he).resolve_right
        fun hinserted => hroot hinserted.1
      obtain ⟨runtime, hruntime, hgeneration⟩ := h old hold
      refine ⟨runtime, hruntime, ?_⟩
      simp only [Function.update_of_ne hroot]
      rw [hgeneration, hsame]

theorem resolve_runtime (w : OpenCodeWorld) (env : OpenCodeEnvironment)
    (generationId rootSessionId : String) :
    (w.resolve env generationId rootSessionId).2.coordinator.claims = [] ∨
      ((w.resolve env generationId rootSessionId).2.coordinator.runtime = w.coordinator.runtime ∧
        (w.resolve env generationId rootSessionId).2.origin = w.origin) := by
  have hgen := (requireGeneration_cases w.coordinator env.exited generationId).2
  have hclaims := requireGeneration_claims w.coordinator env.exited generationId
  unfold resolve
  cases hrequire : w.coordinator.requireGeneration env.exited generationId with
  | mk generation state =>
      rw [hrequire] at hgen hclaims
      dsimp only at hgen hclaims
      cases generation with
      | error error =>
          rcases hclaims with rfl | rfl
          · exact .inr ⟨rfl, rfl⟩
          · exact .inl rfl
      | ok =>
          obtain ⟨-, rfl, -⟩ := hgen rfl
          refine .inr ?_
          dsimp only
          split
          · exact ⟨rfl, rfl⟩
          · split
            · exact ⟨rfl, rfl⟩
            · split <;> exact ⟨rfl, rfl⟩

/-- Beside the mutations, no request takes the runtime from its claims. -/
theorem run_active (hs : ClaimsSound w.coordinator.claims) (h : w.Active)
    (ha : a.mutation? = none) : (a.run w).2.Active := by
  have hderived : ∀ entry ∈ (a.run w).2.coordinator.claims, Derived w.coordinator.claims entry := by
    intro entry he
    refine ((run_sound hs).derived entry he).resolve_right ?_
    cases a <;> first | exact id | cases ha
  have hsame : (a.run w).2.coordinator.runtime = w.coordinator.runtime →
      (a.run w).2.origin = w.origin → (a.run w).2.Active :=
    fun hruntime horigin => h.of_derived hruntime horigin hderived
  cases a with
  | ensure | release | report => cases ha
  | resolve env generationId rootSessionId =>
      rcases resolve_runtime w env generationId rootSessionId with hnil | ⟨hruntime, horigin⟩
      · exact .of_nil hnil
      · exact hsame hruntime horigin
  | reapExited exited =>
      rcases reapExited_claims w.coordinator exited with heq | heq
      · exact hsame (congrArg (·.runtime) heq) rfl
      · exact .of_nil (congrArg (·.claims) heq)
  | ensureRuntime exited port found =>
      have hreap := reapExited_claims w.coordinator exited
      simp only [OpenCodeAction.run, ensureRuntime] at hsame ⊢
      cases hexited : w.coordinator.reapExited exited with
      | mk result state =>
          rw [hexited] at hreap hsame
          dsimp only at hreap hsame ⊢
          have hstate : Active { w with coordinator := state } := by
            rcases hreap with rfl | rfl
            · exact h
            · exact .of_nil rfl
          cases result with
          | error error => exact hstate
          | ok =>
              dsimp only
              split
              · exact hstate
              · exact hstate
              · exact .of_nil rfl
  | shutdown => exact .of_nil rfl
  | edit registry => exact hsame rfl rfl

theorem call_active (hs : ClaimsSound w.coordinator.claims) (h : w.Active) :
    (a.call w).2.Active ↔ NoticesNoExit w a := by
  unfold OpenCodeAction.call NoticesNoExit
  cases hvalid : a.validate with
  | error error => exact iff_of_true h fun _ _ he => nomatch he
  | ok =>
      cases hmutation : a.mutation? with
      | none => exact iff_of_true (run_active hs h hmutation) fun _ he => nomatch he
      | some env =>
          have hiff : (a.run w).2.Active ↔ (env.reaps = true →
              w.coordinator.runtime.isSome = true → w.coordinator.claims = []) := by
            cases a with
            | ensure env' generationId holderId rootSessionId shellId runId spec =>
                cases hmutation
                exact ensure_active hs h
            | release env' generationId holderId claimId =>
                cases hmutation
                exact mutate_active h (release_sound _ _ _ _ hs) fun _ => id
            | report env' generationId rootSessionId agentReport =>
                cases hmutation
                exact mutate_active h (report_sound _ _ _ _ hs) fun _ => id
            | _ => cases hmutation
          refine hiff.trans ⟨?_, fun hall => hall env rfl rfl⟩
          rintro hnil _ ⟨⟩ -
          exact hnil

/-! ## The theorem -/

/-- What is true of the claims in every state of a run. -/
structure Kept (w : OpenCodeWorld) : Prop where
  sound : ClaimsSound w.coordinator.claims
  active : w.Active
  /-- After a prune the selected holder is one of the holders, and has a snapshot. -/
  selected : ∀ now generationId root entry,
    Keyed.get Prod.fst (pruneClaims now w.coordinator.claims) root = some entry →
    entry.2.selectedHolderId ∈ entry.2.holders.map (·.1) ∧
      ∃ claim, OpenCodeCoordinatorState.snapshot
        ⟨w.coordinator.runtime, pruneClaims now w.coordinator.claims⟩ generationId root
        entry.2.selectedHolderId = .ok claim

/-- What is true of every request of a run: no snapshot fails, a failed save leaves the claims, and
a claim passes to another ShellRun only when the first one is lost. -/
structure Careful (w : OpenCodeWorld) (a : OpenCodeAction) : Prop where
  snapshots : ∀ error, (a.call w).1 ≠ .error (.snapshot error)
  unsaved : ∀ error, (a.call w).1 = .error (.unsaved error) →
    (a.call w).2.coordinator.claims = w.coordinator.claims
  exclusive : ∀ entry ∈ w.coordinator.claims, ∀ entry' ∈ (a.call w).2.coordinator.claims,
    entry'.1 = entry.1 →
    (entry'.2.shellId = entry.2.shellId ∧ entry'.2.runId = entry.2.runId) ∨
      ∃ env, a.mutation? = some env ∧ Lost w.registry env.now entry

/-- Every state and every request of a run. -/
structure ClaimsKept (w : OpenCodeWorld) (actions : List OpenCodeAction) : Prop where
  kept : Along step Kept w actions
  careful : Meets step Careful w actions

theorem kept_iff : w.Kept ↔ ClaimsSound w.coordinator.claims ∧ w.Active := by
  refine ⟨fun h => ⟨h.sound, h.active⟩, fun ⟨hs, ha⟩ => ⟨hs, ha, ?_⟩⟩
  intro now generationId root entry hget
  obtain ⟨hheld, old, -, rfl⟩ := mem_pruneClaims.mp (Keyed.mem_of_get hget)
  exact ⟨prune_selected hheld, snapshot_prune _ hget⟩

theorem call_careful (hs : ClaimsSound w.coordinator.claims) : w.Careful a := by
  have hcall := call_sound (a := a) hs
  refine ⟨hcall.snapshots, hcall.unsaved, fun entry he entry' he' hroot => ?_⟩
  rcases hcall.derived entry' he' with ⟨old, hold, hsame, hshell, hrun⟩ | hinserted
  · obtain rfl : old = entry := List.inj_on_of_nodup_map hs.distinct hold he (hsame.trans hroot)
    exact .inl ⟨hshell.symm, hrun.symm⟩
  · cases a with
    | ensure env generationId holderId rootSessionId shellId runId spec =>
        exact .inr ⟨env, rfl, hinserted.2 entry he (hroot.symm.trans hinserted.1)⟩
    | _ => exact hinserted.elim

/-- From a coordinator without claims, all of this holds along a run exactly when no mutation is
the first to notice the exit of the runtime while there are claims. -/
theorem claims_kept_iff (h : w.coordinator.claims = []) (actions : List OpenCodeAction) :
    w.ClaimsKept actions ↔ Meets step NoticesNoExit w actions := by
  have hsound : ∀ (s : OpenCodeWorld) (a : OpenCodeAction) (u : OpenCodeWorld),
      ClaimsSound s.coordinator.claims → s.step a = some u → ClaimsSound u.coordinator.claims := by
    rintro s a _ hs ⟨⟩
    exact (call_sound hs).sound
  have hfirst : ClaimsSound w.coordinator.claims := h ▸ .nil
  have hiff : Along step Kept w actions ↔ Meets step NoticesNoExit w actions := by
    refine along_iff_meets (I := fun w => ClaimsSound w.coordinator.claims)
      (fun s a u hs _ _ hu => hsound s a u hs hu) ?_ hfirst (kept_iff.mpr ⟨hfirst, .of_nil h⟩)
    rintro s a _ hs hk ⟨⟩
    rw [kept_iff, and_iff_right (call_sound hs).sound]
    exact call_active hs hk.active
  have hcareful : Meets step Careful w actions :=
    (meets_congr (I := fun w => ClaimsSound w.coordinator.claims) hsound
      (fun _ _ _ hs _ => iff_of_true (call_careful hs) trivial) hfirst).mpr (meets_true actions)
  exact ⟨fun hall => hiff.mp hall.kept, fun hmeets => ⟨hiff.mpr hmeets, hcareful⟩⟩

private def aRunId : String := "00000000000000000000000000000002"
private def aShellId : String := "00000000000000000000000000000001"
private def aGenerationId : String := "00000000000000000000000000000003"
private def aClaimId : String := "00000000000000000000000000000004"

/-- A runtime without claims, and a Shell that runs. -/
def serving : OpenCodeWorld :=
  { coordinator := ⟨some ⟨aGenerationId, 4096, 1⟩, []⟩
    registry :=
      { workspaces := ["w"]
        shells := (∅ : Shells).insert aShellId ⟨"w", none,
          .running ⟨none, none, none, none, 24, 80, 0, 0⟩ (.new aRunId 1)⟩
        rest := ⟨fun _ => ⟨"/", []⟩, []⟩ }
    origin := fun _ => "" }

private def atTime (now : Nat) : OpenCodeEnvironment :=
  ⟨now, now, aClaimId, "a", .ok false, none, none⟩

private def ensures (env : OpenCodeEnvironment) (holderId : String) : OpenCodeAction :=
  .ensure env aGenerationId holderId "r" aShellId aRunId
    ⟨"n", "opencode", some "r", ⟨.working, .lifecycleIntegration, "e", 100⟩⟩

/-- Two holders claim a root, one of them releases it, and the save of another one fails. -/
def releaseRun : List OpenCodeAction :=
  [ensures (atTime 0) "g", ensures (atTime 1) "h",
   .release (atTime 2) aGenerationId "h" aClaimId,
   .release { atTime 3 with saveError := some ⟨.persistenceFailed, "disk full"⟩ } aGenerationId "g"
     aClaimId,
   .resolve (atTime 4) aGenerationId "r"]

theorem claims_kept_iff_releaseRun : serving.ClaimsKept releaseRun ∧
    (exec step serving releaseRun).map (fun w => holderIds w.coordinator.claims) =
      some ["g"] := by
  refine ⟨(claims_kept_iff rfl releaseRun).mpr ?_, by decide +kernel⟩
  refine fun _ _ => ⟨?_, fun _ _ => ⟨?_, fun _ _ => ⟨?_, fun _ _ => ⟨?_, fun _ _ => ⟨?_,
    trivial⟩⟩⟩⟩⟩ <;> rintro _ ⟨⟩ - ⟨⟩

/-- The process of the runtime exits, and an ensure is the first to notice it. -/
def exitRun : List OpenCodeAction :=
  [ensures (atTime 0) "g", ensures { atTime 1 with exited := .ok true } "h"]

/-- The runtime is gone, and the claim of the first holder is still there. -/
theorem not_claims_kept_exitRun :
    ¬ ∀ (w : OpenCodeWorld) (actions : List OpenCodeAction), w.coordinator.claims = [] →
      w.ClaimsKept actions := by
  intro hall
  have hrun : (exec step serving exitRun).map
      (fun w => (w.coordinator.runtime.isNone, w.coordinator.claims.isEmpty)) =
      some (true, false) := by
    decide +kernel
  obtain ⟨w, hw, he⟩ := Option.map_eq_some_iff.mp hrun
  obtain ⟨hruntime, hclaims⟩ := Prod.mk.inj he
  have hactive := ((hall serving exitRun rfl).kept.last hw).active
  obtain ⟨entry, hentry⟩ := List.exists_mem_of_ne_nil w.coordinator.claims (by
    intro hnil
    rw [hnil] at hclaims
    cases hclaims)
  obtain ⟨runtime, hsome, -⟩ := hactive entry hentry
  rw [hsome] at hruntime
  cases hruntime

end OpenCodeWorld

end Boomux.Daemon
