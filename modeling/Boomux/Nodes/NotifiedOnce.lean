import Boomux.Nodes.Notifications

/-!
# A notification is sent once

A transition is looked at by one sync only: the cursors in the cache never fall behind the last sync
whose notifications were claimed (`Marked.cursors`), and the owner never shows an attention again
once it has published another event of its revision (`ProjectionOwner.Final`). So neither the
claims that the cache remembers nor those it has forgotten matter.
-/

set_option autoImplicit false

namespace Boomux.Nodes

open Rust Transition
open Daemon

/-! ## What a notification tells -/

/-- The stream, the agent, the revision and the category. -/
def RemoteNotificationClaim.key (claim : RemoteNotificationClaim) :
    String × String × Nat × RemoteNotificationCategory :=
  (claim.streamId, claim.entityId, claim.revision, claim.category)

/-- The projection shows the revision of the agent, with its attention. -/
def NodeSync.Shows (sync : NodeSync) (claim : RemoteNotificationClaim) : Prop :=
  ∃ agent ∈ sync.observed, agent.id = claim.entityId ∧
    agent.observationRevision = claim.revision ∧
    ∃ attention, agent.attention = some attention ∧
      attention.observationRevision = claim.revision ∧
      remoteNotificationCategory agent attention = some claim.category

/-- A sync that was resumed has a transition of the agent to a revision that it shows. -/
structure NodeSync.Offers (sync : NodeSync) (claim : RemoteNotificationClaim) : Prop where
  resumed : sync.mode = .resumed
  stream : claim.streamId = sync.cursor.streamId
  reason : claim.reason = remoteNotificationReasonKey claim.category
  shows : sync.Shows claim
  transition : ∃ transition ∈ sync.transitions, ∃ workspaceId,
    transition.kind = .agent workspaceId claim.entityId claim.revision

/-- A digest counts what it tells of; any other notification tells of one claim. -/
def Notice.Counts (notice : Notice) : Prop :=
  match notice.request.digest with
  | none => notice.told.length = 1
  | some digest =>
      digest = ⟨counted notice.told .agentBlocked, counted notice.told .agentCompleted⟩

section Candidates

variable {registration : NodeRegistrationSnapshot} {sync : NodeSync} {commit : ProjectionCommit}
  {settings : NotificationDeliverySettings} {candidate : RemoteNotificationCandidate}

theorem transitionCandidate_offered {transition : NodeProjectionTransition}
    (ht : transition ∈ sync.transitions) (hm : sync.mode = .resumed)
    (h : transitionCandidate registration sync settings transition = some candidate) :
    sync.Offers candidate.claim ∧ candidate.request.digest = none := by
  unfold transitionCandidate at h
  split at h
  next workspaceId agentId revision hkind =>
    obtain ⟨agent, hagent, h⟩ := Option.bind_eq_some_iff.mp h
    obtain ⟨attention, hattention, h⟩ := Option.bind_eq_some_iff.mp h
    obtain ⟨category, hcategory, h⟩ := Option.bind_eq_some_iff.mp h
    obtain ⟨hattention, hrevision⟩ := Option.filter_eq_some_iff.mp hattention
    have hfound := List.find?_some hagent
    simp only [Bool.and_eq_true, decide_eq_true_eq] at hfound hrevision
    split at h
    · cases h
      exact ⟨⟨hm, rfl, rfl, ⟨agent, List.mem_of_find?_eq_some hagent, rfl, hfound.2, attention,
        hattention, hrevision, hcategory⟩, transition, ht, workspaceId, by
          rw [hkind, ← hfound.1]⟩, rfl⟩
    · cases h
  next => cases h

theorem unseen_sublist (seen : List RemoteNotificationClaim)
    (candidates : List RemoteNotificationCandidate) :
    (unseen seen candidates).Sublist candidates := by
  induction candidates generalizing seen with
  | nil => exact .slnil
  | cons candidate candidates ih =>
      unfold unseen
      split
      · exact (ih seen).cons candidate
      · exact (ih _).cons_cons candidate

theorem unseen_nodup (seen : List RemoteNotificationClaim)
    (candidates : List RemoteNotificationCandidate) :
    ((unseen seen candidates).map (·.claim)).Nodup ∧
      ∀ claim ∈ (unseen seen candidates).map (·.claim), claim ∉ seen := by
  induction candidates generalizing seen with
  | nil => exact ⟨List.nodup_nil, nofun⟩
  | cons candidate candidates ih =>
      unfold unseen
      split
      · exact ih seen
      next hnew =>
        obtain ⟨hnodup, hunseen⟩ := ih (candidate.claim :: seen)
        refine ⟨List.nodup_cons.mpr ⟨fun hmem => hunseen _ hmem List.mem_cons_self, hnodup⟩, ?_⟩
        intro claim hmem
        rcases List.mem_cons.mp hmem with rfl | hmem
        · exact hnew
        · exact fun hs => hunseen claim hmem (List.mem_cons_of_mem _ hs)

/-- Different offered claims have different keys. -/
theorem nodup_keys {claims : List RemoteNotificationClaim} (h : claims.Nodup)
    (ho : ∀ claim ∈ claims, sync.Offers claim) :
    (claims.map RemoteNotificationClaim.key).Nodup := by
  refine h.map_on fun claim hc other hother heq => ?_
  obtain ⟨hstream, heq⟩ := Prod.mk.inj heq
  obtain ⟨hentity, heq⟩ := Prod.mk.inj heq
  obtain ⟨hrevision, hcategory⟩ := Prod.mk.inj heq
  have hreason : claim.reason = other.reason := by
    rw [(ho claim hc).reason, (ho other hother).reason, hcategory]
  cases claim
  cases other
  simp_all

/-- What may be claimed after a commit: offered claims, all different, one by one or in a digest. -/
structure Claimable (sync : NodeSync) (candidates : List RemoteNotificationCandidate)
    (digest : Option RemoteDigestCandidate) : Prop where
  nodup : ((candidates.map (·.claim) ++ digest.toList.flatMap (·.counted)).map
    RemoteNotificationClaim.key).Nodup
  offered : ∀ claim ∈ candidates.map (·.claim) ++ digest.toList.flatMap (·.counted),
    sync.Offers claim
  single : ∀ candidate ∈ candidates, candidate.request.digest = none
  counts : ∀ d, digest = some d → Notice.Counts ⟨d.request, d.counted⟩

theorem Claimable.nothing (sync : NodeSync) : Claimable sync [] none :=
  ⟨List.nodup_nil, nofun, nofun, nofun⟩

theorem remoteNotificationCandidates_claimable (registration : NodeRegistrationSnapshot)
    (sync : NodeSync) (commit : ProjectionCommit) (settings : NotificationDeliverySettings) :
    Claimable sync (remoteNotificationCandidates registration sync commit settings).1
      (remoteNotificationCandidates registration sync commit settings).2 := by
  unfold remoteNotificationCandidates
  split
  next prior hm hprior =>
    dsimp only
    generalize hcandidates : unseen [] (sync.transitions.filterMap
      (transitionCandidate registration sync settings)) = candidates
    have hsub := unseen_sublist [] (sync.transitions.filterMap
      (transitionCandidate registration sync settings))
    have hnodup := (unseen_nodup [] (sync.transitions.filterMap
      (transitionCandidate registration sync settings))).1
    rw [hcandidates] at hsub hnodup
    have hoffered : ∀ candidate ∈ candidates,
        sync.Offers candidate.claim ∧ candidate.request.digest = none := by
      intro candidate hmem
      obtain ⟨transition, ht, h⟩ := List.mem_filterMap.mp (hsub.subset hmem)
      exact transitionCandidate_offered ht hm h
    have hclaims : ∀ claim ∈ candidates.map (·.claim), sync.Offers claim := by
      intro claim hmem
      obtain ⟨candidate, hc, rfl⟩ := List.mem_map.mp hmem
      exact (hoffered candidate hc).1
    have hkeys := nodup_keys hnodup hclaims
    split
    · refine ⟨?_, fun claim hmem => ?_, fun candidate hc => (hoffered candidate hc).2, nofun⟩
      · simpa using hkeys
      · exact hclaims claim (by simpa using hmem)
    · split
      · exact .nothing sync
      · refine ⟨?_, fun claim hmem => ?_, nofun, ?_⟩
        · simpa using hkeys
        · exact hclaims claim (by simpa using hmem)
        · rintro d ⟨⟩
          rfl
  next => exact .nothing sync

/-- The notifications that are sent tell of different claims, and of no others. -/
theorem claimedNotices_told {candidates : List RemoteNotificationCandidate}
    {digest : Option RemoteDigestCandidate} (accepted : List Bool) (digestAccepted : Bool)
    (h : Claimable sync candidates digest) :
    ((claimedNotices candidates digest accepted digestAccepted).flatMap (·.told)).Sublist
        (candidates.map (·.claim) ++ digest.toList.flatMap (·.counted)) ∧
      ∀ notice ∈ claimedNotices candidates digest accepted digestAccepted, notice.Counts := by
  unfold claimedNotices
  rw [List.flatMap_append]
  constructor
  · refine List.Sublist.append ?_ ?_
    · clear h
      induction candidates generalizing accepted with
      | nil => exact .slnil
      | cons candidate candidates ih =>
          cases accepted with
          | nil => exact List.nil_sublist _
          | cons first accepted =>
              cases first with
              | false => exact (ih accepted).cons _
              | true => exact (ih accepted).cons_cons _
    · split
      · cases digest with
        | none => exact .slnil
        | some d => simp
      · exact List.nil_sublist _
  · intro notice hmem
    rcases List.mem_append.mp hmem with hmem | hmem
    · obtain ⟨⟨candidate, accepted⟩, hzip, hnotice⟩ := List.mem_filterMap.mp hmem
      dsimp only at hnotice
      split at hnotice
      · cases hnotice
        have hsingle := h.single candidate (List.of_mem_zip hzip).1
        unfold Notice.Counts
        rw [hsingle]
        rfl
      · cases hnotice
    · split at hmem
      · obtain ⟨d, hd, rfl⟩ := List.mem_map.mp hmem
        exact h.counts d (Option.mem_toList.mp hd)
      · cases hmem

end Candidates

/-! ## What a sync offers -/

/-- An offered claim is of an event after the cursor, and of an attention that the owner shows. -/
theorem ProjectionOwner.sync_offers {o : ProjectionOwner} (h : o.Ok)
    {frame : NodeProjectionSnapshot}
    {capabilities : List String} {after : Option EventCursor} {claim : RemoteNotificationClaim}
    (ho : (o.sync frame capabilities after).Offers claim) :
    ∃ cursor, after = some cursor ∧ cursor.streamId = o.events.streamId ∧
      (∃ e ∈ o.events.log, agentChange e.kind = some (claim.entityId, claim.revision) ∧
        cursor.eventId < e.id) ∧
      ¬ Spent o.table.agents claim.entityId claim.revision := by
  have hmode : (projectionTransitions o.events after ⟨o.events.streamId, o.events.latestId⟩).1 =
      .resumed := ho.resumed
  obtain ⟨cursor, rfl, htransitions⟩ := projectionTransitions_resumed h.contiguous hmode
  refine ⟨cursor, rfl, ?_, ?_, ?_⟩
  · by_contra hne
    have hbaseline := (projectionTransitions_baseline h.contiguous (some cursor)).mpr
      fun other heq => by
        cases heq
        exact .inl hne
    rw [hbaseline] at hmode
    cases hmode
  · obtain ⟨transition, ht, workspaceId, hkind⟩ := ho.transition
    have hmem : transition ∈ (projectionTransitions o.events (some cursor)
        ⟨o.events.streamId, o.events.latestId⟩).2 := ht
    rw [htransitions] at hmem
    obtain ⟨e, he, hreduced⟩ := List.mem_filterMap.mp hmem
    obtain ⟨he, hafter⟩ := List.mem_filter.mp he
    obtain ⟨kind, hk, rfl⟩ := Option.map_eq_some_iff.mp hreduced
    refine ⟨e, he, ?_, (of_decide_eq_true hafter).1⟩
    have hkind : kind = .agent workspaceId claim.entityId claim.revision := hkind
    rw [agentChange, hk, hkind]
  · intro hspent
    obtain ⟨observed, hobserved, hid, hrevision, attention, hattention, hattended, -⟩ := ho.shows
    obtain ⟨agent, hagent, rfl⟩ := List.mem_map.mp hobserved
    obtain ⟨real, hreal, rfl⟩ := Option.map_eq_some_iff.mp hattention
    have hget := h.table.distinct.get_of_mem hagent
    rw [show agent.id = claim.entityId from hid] at hget
    exact hspent agent hget ⟨hrevision, real, hreal, hattended⟩

/-! ## The entry of the Node -/

namespace NodeProjectionCache

variable {c d : NodeProjectionCache} {node : CachedNode} {k : String}
  {saved : Except IoError Unit} {q : NodeRegistrationSnapshot}
  {P : Option EventCursor → Option NodeProjectionSnapshot → Prop}

/-- What the entries of the Node say of their cursor and projection, in memory and in the file. -/
def Holds (c : NodeProjectionCache) (k : String)
    (P : Option EventCursor → Option NodeProjectionSnapshot → Prop) : Prop :=
  ∀ node ∈ c.nodes ++ c.file.getD [], node.nodeId = k → P node.cursor node.projection

theorem Holds.mono {Q : Option EventCursor → Option NodeProjectionSnapshot → Prop}
    (h : c.Holds k P) (hPQ : ∀ cursor projection, P cursor projection → Q cursor projection) :
    c.Holds k Q := fun node hn hid => hPQ _ _ (h node hn hid)

theorem Holds.find (h : c.Holds k P) (hf : c.find k = some node) :
    P node.cursor node.projection :=
  h node (List.mem_append_left _ (Keyed.mem_of_get hf)) (Keyed.key_of_get hf)

theorem Holds.visible (h : c.Holds k P) (hq : q.nodeId = k) (hv : c.visible q = some node) :
    P node.cursor node.projection :=
  h.find (hq ▸ (Option.filter_eq_some_iff.mp hv).1)

/-- An entry of another Node, or one with the property, is put down. -/
theorem Puts.holds (hp : c.Puts d node) (h : c.Holds k P)
    (hn : node.nodeId = k → P node.cursor node.projection) : d.Holds k P := by
  intro n hmem hid
  have hmem : n ∈ d.nodes := by simpa [hp.file] using hmem
  rcases hp.mem n hmem with rfl | hmem
  · exact hn hid
  · exact h n (List.mem_append_left _ hmem) hid

/-- The entry of the Node itself is put down. -/
theorem Puts.holds_own (hp : c.Puts d node) (hd : Keyed.Distinct CachedNode.nodeId c.nodes)
    (hk : node.nodeId = k) (hn : P node.cursor node.projection) : d.Holds k P := by
  intro n hmem hid
  have hmem : n ∈ d.nodes := by simpa [hp.file] using hmem
  have hget : d.find n.nodeId = some n := (hp.distinct hd).get_of_mem hmem
  rw [hp.find, if_pos (hk.trans hid.symm)] at hget
  cases hget
  exact hn

theorem commitProjection_ok {generation : Nat} {observation : ProjectionObservation}
    {result : Option ProjectionCommit} (hd : Keyed.Distinct CachedNode.nodeId c.nodes)
    (h : c.commitProjection q generation observation saved = .ok (result, d)) :
    (result = none ∧ d = c) ∨ ∃ next,
      c.Puts d (committed (c.visible q) q next observation) := by
  simp only [commitProjection, bind_eq_ok] at h
  obtain ⟨-, -, -, -, -, -, -, -, h⟩ := h
  split at h
  · cases h
    exact .inl ⟨rfl, rfl⟩
  · split at h
    · cases h
    next next hnext =>
      obtain ⟨e, hreplace, h⟩ := bind_eq_ok.mp h
      cases h
      exact .inr ⟨next, replace_puts hd hreplace⟩

theorem markHealth_ok {generation attemptAtMs : Nat} {health : NodeProjectionHealthCode}
    {retryAtMs : Option Nat} {result : Option Nat} (hd : Keyed.Distinct CachedNode.nodeId c.nodes)
    (h : c.markHealth q generation health attemptAtMs retryAtMs saved = .ok (result, d)) :
    d = c ∨ ∃ next, c.Puts d (marked ((c.find q.nodeId).getD (unobserved q)) q next health
      attemptAtMs retryAtMs) := by
  unfold markHealth at h
  split at h
  · cases h
    exact .inl rfl
  · split at h
    · cases h
    next next hnext =>
      obtain ⟨e, hreplace, h⟩ := bind_eq_ok.mp h
      cases h
      exact .inr ⟨next, replace_puts hd hreplace⟩

theorem visible_find (hv : c.visible q = some node) :
    (c.find node.nodeId).isSome = true ∧ node.nodeId = q.nodeId := by
  have hf := (Option.filter_eq_some_iff.mp hv).1
  have hid : node.nodeId = q.nodeId := Keyed.key_of_get hf
  rw [hid, hf]
  exact ⟨rfl, rfl⟩

theorem claimNotifications_ok {cursor : EventCursor} {claims : List RemoteNotificationClaim}
    {digest : Option RemoteDigestClaim} {result : Option (List Bool × Bool)}
    (h : c.claimNotifications q cursor claims digest saved = .ok (result, d)) :
    d = c ∨ ∃ node, c.visible q = some node ∧ c.Puts d (claimed node claims digest) := by
  simp only [claimNotifications, bind_eq_ok] at h
  obtain ⟨-, -, -, -, h⟩ := h
  split at h
  · cases h
    exact .inl rfl
  next node hv =>
    have hv := (Option.filter_eq_some_iff.mp hv).1
    split at h
    · cases h
      exact .inl rfl
    · obtain ⟨e, hedit, h⟩ := bind_eq_ok.mp h
      cases h
      exact .inr ⟨node, hv, edit_puts (by
        rw [claimed_nodeId]
        exact (visible_find hv).1) hedit⟩

/-- Claims leave the cursor and the projection. -/
theorem claimed_holds {claims : List RemoteNotificationClaim} {digest : Option RemoteDigestClaim}
    (h : P node.cursor node.projection) :
    P (claimed node claims digest).cursor (claimed node claims digest).projection := by
  unfold claimed
  exact h

theorem marked_holds {health : NodeProjectionHealthCode} {next attemptAtMs : Nat}
    {retryAtMs : Option Nat} (h : c.Holds k P) (hnone : P none none) (hq : q.nodeId = k) :
    P (marked ((c.find q.nodeId).getD (unobserved q)) q next health attemptAtMs retryAtMs).cursor
      (marked ((c.find q.nodeId).getD (unobserved q)) q next health attemptAtMs
        retryAtMs).projection := by
  cases hf : c.find q.nodeId with
  | none => exact hnone
  | some node => exact (show P node.cursor node.projection from h.find (hq ▸ hf))

/-- Only the entry of the Node keeps its id under a new health. -/
theorem marked_nodeId {health : NodeProjectionHealthCode} {next attemptAtMs : Nat}
    {retryAtMs : Option Nat} :
    (marked ((c.find q.nodeId).getD (unobserved q)) q next health attemptAtMs retryAtMs).nodeId =
      q.nodeId := by
  cases hf : c.find q.nodeId with
  | none => rfl
  | some node => exact (show node.nodeId = q.nodeId from Keyed.key_of_get hf)

/-- A call of another thread neither adds nor changes what the entries of the Node hold. -/
theorem step_ofOthers {call : CacheCall} (hd : Keyed.Distinct CachedNode.nodeId c.nodes)
    (ho : call.ofOthers k = true) (hs : c.step call = some d) :
    Keyed.Distinct CachedNode.nodeId d.nodes ∧ ∀ P, c.Holds k P → d.Holds k P := by
  -- A call that fails on the way leaves the cache.
  have hsame : d = c → Keyed.Distinct CachedNode.nodeId d.nodes ∧
      ∀ P, c.Holds k P → d.Holds k P := by
    rintro rfl
    exact ⟨hd, fun _ h => h⟩
  -- A call that puts one entry may do so for another Node, or with the cursor it has.
  have hputs : ∀ node, c.Puts d node →
      (∀ P, c.Holds k P → node.nodeId = k → P node.cursor node.projection) →
      Keyed.Distinct CachedNode.nodeId d.nodes ∧ ∀ P, c.Holds k P → d.Holds k P :=
    fun node hp hn => ⟨hp.distinct hd, fun P h => hp.holds h (hn P h)⟩
  cases call with
  | commitProjection q generation observation saved =>
      have hne : q.nodeId ≠ k := of_decide_eq_true ho
      simp only [step, toOption_eq_some, map_eq_ok] at hs
      obtain ⟨⟨result, e⟩, hs, rfl⟩ := hs
      -- An observation is another Node's.
      rcases commitProjection_ok hd hs with ⟨-, heq⟩ | ⟨next, hp⟩
      · exact hsame heq
      · exact hputs _ hp fun _ _ hid => absurd hid hne
  | markHealth q generation health attemptAtMs retryAtMs saved =>
      have hne : q.nodeId ≠ k := of_decide_eq_true ho
      simp only [step, toOption_eq_some, map_eq_ok] at hs
      obtain ⟨⟨result, e⟩, hs, rfl⟩ := hs
      rcases markHealth_ok hd hs with heq | ⟨next, hp⟩
      · exact hsame heq
      · exact hputs _ hp fun _ _ hid => absurd (marked_nodeId.symm.trans hid) hne
  | claimNotifications q cursor claims digest saved =>
      have hne : q.nodeId ≠ k := of_decide_eq_true ho
      simp only [step, toOption_eq_some, map_eq_ok] at hs
      obtain ⟨⟨result, e⟩, hs, rfl⟩ := hs
      rcases claimNotifications_ok hs with heq | ⟨node, hv, hp⟩
      · exact hsame heq
      · refine hputs _ hp fun _ _ hid => absurd ?_ hne
        rw [← (visible_find hv).2, ← hid, claimed_nodeId]
  | dismissShell q shellId saved =>
      simp only [step, toOption_eq_some, map_eq_ok, dismissShell, bind_eq_ok] at hs
      obtain ⟨⟨result, e⟩, ⟨-, -, hs⟩, rfl⟩ := hs
      split at hs
      · cases hs
      next node hv =>
        simp only [bind_eq_ok] at hs
        obtain ⟨-, -, -, -, hs⟩ := hs
        split at hs
        · cases hs
          exact hsame rfl
        · simp only [bind_eq_ok] at hs
          obtain ⟨-, -, f, hedit, hs⟩ := hs
          cases hs
          -- A dismissal keeps the cursor and the projection.
          exact hputs (dismissed node shellId) (edit_puts (visible_find hv).1 hedit) fun P h hid =>
            show P node.cursor node.projection from
              h.visible ((visible_find hv).2.symm.trans hid) hv
  | restoreDismissedShells q saved =>
      simp only [step, toOption_eq_some, map_eq_ok, restoreDismissedShells] at hs
      obtain ⟨⟨result, e⟩, hs, rfl⟩ := hs
      split at hs
      · cases hs
      next node hv =>
        split at hs
        · cases hs
          exact hsame rfl
        · obtain ⟨f, hedit, hs⟩ := bind_eq_ok.mp hs
          cases hs
          exact hputs { node with dismissedShellIds := [] } (edit_puts (visible_find hv).1 hedit)
            fun P h hid =>
            show P node.cursor node.projection from
              h.visible ((visible_find hv).2.symm.trans hid) hv
  | remove nodeId saved =>
      simp only [step, toOption_eq_some, map_eq_ok, remove] at hs
      obtain ⟨⟨result, e⟩, hs, rfl⟩ := hs
      split at hs
      · cases hs
        exact hsame rfl
      · obtain ⟨f, hstore, hs⟩ := bind_eq_ok.mp hs
        cases hs
        obtain ⟨-, rfl⟩ := store_eq_ok.mp hstore
        -- A removal takes entries away, and adds none.
        refine ⟨hd.remove, fun P h n hmem hid => ?_⟩
        have hmem : n ∈ Keyed.remove CachedNode.nodeId c.nodes nodeId := by simpa using hmem
        exact h n (List.mem_append_left _ (Keyed.mem_remove.mp hmem).1) hid
  | reload => cases ho

/-- What a restart finds. -/
theorem loadAt_holds (h : c.Holds k P) (readable : Bool) (saved : Except IoError Unit) :
    Keyed.Distinct CachedNode.nodeId (c.loadAt readable saved).nodes ∧
      (c.loadAt readable saved).Holds k P := by
  have hempty : Keyed.Distinct CachedNode.nodeId (⟨[], none⟩ : NodeProjectionCache).nodes ∧
      (⟨[], none⟩ : NodeProjectionCache).Holds k P := ⟨List.nodup_nil, nofun⟩
  unfold loadAt
  split
  · exact hempty
  next nodes hfile =>
    split
    next hload =>
      have hnodup : (nodes.map (·.nodeId)).Nodup := by
        simp only [load, bind_eq_ok, require_eq_ok] at hload
        exact of_decide_eq_true hload.choose_spec.2.choose_spec.1
      have hold : ∀ node ∈ nodes, node.nodeId = k → P node.cursor node.projection :=
        fun node hn => h node (List.mem_append_right _ (by rw [hfile]; exact hn))
      have hrecovered : ∀ node ∈ nodes.map CachedNode.recovered, node.nodeId = k →
          P node.cursor node.projection := by
        intro node hn hid
        obtain ⟨old, ho, rfl⟩ := List.mem_map.mp hn
        rw [recovered_nodeId] at hid
        have := hold old ho hid
        unfold CachedNode.recovered
        split <;> exact this
      refine ⟨Keyed.Distinct.map recovered_nodeId hnodup, fun node hn hid => ?_⟩
      rcases List.mem_append.mp hn with hn | hn
      · exact hrecovered node hn hid
      · dsimp only [Option.getD_some] at hn
        split at hn
        · exact hrecovered node hn hid
        · exact hold node hn hid
    next => exact hempty

end NodeProjectionCache

/-! ## The invariant -/

/-- A notification comes from the sync that it names, whose projection is in the cache as long as
the cache has an entry. -/
structure Delivery.Sound (d : Delivery) : Prop where
  told : ∀ claim ∈ d.notice.told, claim.streamId = d.sync.cursor.streamId ∧ d.sync.Shows claim
  projected : d.sync.projection.agents = d.sync.observed.map (·.toNodeProjectionAgent)
  entry : ∀ node, d.entry = some node → node.projection = some d.sync.projection
  counts : d.notice.Counts

namespace NotificationWorld

variable {w u : NotificationWorld} {mark : Nat}

/-- The keys of everything that was notified. -/
def keys (w : NotificationWorld) : List (String × String × Nat × RemoteNotificationCategory) :=
  (w.delivered.flatMap (·.notice.told)).map RemoteNotificationClaim.key

/-- Nothing was notified twice, and everything while the projection showed it. -/
structure NotifiedOnce (w : NotificationWorld) : Prop where
  once : w.keys.Nodup
  sound : ∀ d ∈ w.delivered, d.Sound

/-- The stream has published the revision of the claim, and no event after the mark finds it shown.
-/
def Settled (w : NotificationWorld) (claim : RemoteNotificationClaim) (mark : Nat) : Prop :=
  claim.streamId = w.owner.events.streamId → w.owner.Published claim.entityId claim.revision ∧
    w.owner.Final claim.entityId claim.revision mark

/-- A claim that was not notified, of a stream that has begun. -/
structure Fresh (w : NotificationWorld) (claim : RemoteNotificationClaim) (mark : Nat) : Prop where
  new : claim.key ∉ w.keys
  stream : claim.streamId ∈ w.owner.streams
  settled : w.Settled claim mark

/-- What the worker of the Node holds. -/
structure Holding (w : NotificationWorld) (mark : Nat) (registration : NodeRegistrationSnapshot)
    (sync : NodeSync) (claims : List RemoteNotificationClaim) : Prop where
  nodeId : registration.nodeId = w.nodeId
  nodup : (claims.map RemoteNotificationClaim.key).Nodup
  offered : ∀ claim ∈ claims, sync.Offers claim
  fresh : ∀ claim ∈ claims, w.Fresh claim mark
  projected : sync.projection.agents = sync.observed.map (·.toNodeProjectionAgent)
  cached : w.cache.Holds w.nodeId fun cursor projection =>
    cursor = some sync.cursor ∧ projection = some sync.projection

/-- The state of the worker: it looks at transitions after the mark. -/
def WorkerOk (w : NotificationWorld) (mark : Nat) : Prop :=
  match w.worker with
  | .idle => True
  | .fetching registration after _ => registration.nodeId = w.nodeId ∧
      ∀ cursor, after = some cursor → cursor.streamId = w.owner.events.streamId →
        mark ≤ cursor.eventId
  | .fetched registration _ sync => registration.nodeId = w.nodeId ∧
      sync.projection.agents = sync.observed.map (·.toNodeProjectionAgent) ∧
      sync.cursor.streamId ∈ w.owner.streams ∧
      (sync.cursor.streamId = w.owner.events.streamId →
        mark ≤ sync.cursor.eventId ∧ sync.cursor.eventId ≤ w.owner.events.latestId) ∧
      ∀ claim, sync.Offers claim → w.Fresh claim sync.cursor.eventId
  | .committed registration sync candidates digest =>
      Claimable sync candidates digest ∧
        w.Holding mark registration sync
          (candidates.map (·.claim) ++ digest.toList.flatMap (·.counted))
  | .notifying registration sync notices => (∀ notice ∈ notices, notice.Counts) ∧
      w.Holding mark registration sync (notices.flatMap (·.told))

/-- No cursor of the Node's stream lies before the mark, and what was notified is settled there. -/
structure Marked (w : NotificationWorld) (mark : Nat) : Prop where
  le : mark ≤ w.owner.events.latestId
  cursors : w.cache.Holds w.nodeId fun cursor _ => ∀ c, cursor = some c →
    c.streamId = w.owner.events.streamId → mark ≤ c.eventId
  told : ∀ d ∈ w.delivered, ∀ claim ∈ d.notice.told,
    claim.streamId ∈ w.owner.streams ∧ w.Settled claim mark
  worker : w.WorkerOk mark

/-- The invariant of a run. -/
structure Inv (w : NotificationWorld) : Prop where
  owner : w.owner.Ok
  distinct : Keyed.Distinct CachedNode.nodeId w.cache.nodes
  notified : w.NotifiedOnce
  marked : ∃ mark, w.Marked mark

/-! ## Steps of the owner -/

/-- What is settled stays so, unless a new stream begins. -/
theorem Settled.owner {claim : RemoteNotificationClaim} {action : OwnerAction}
    {owner : ProjectionOwner} (h : w.owner.Ok) (hs : w.owner.step action = some owner)
    (hstream : claim.streamId ∈ w.owner.streams) {mark' : Nat}
    (hmark : owner.events.streamId = w.owner.events.streamId → mark' = mark)
    (hsettled : w.Settled claim mark) :
      ({ w with owner := owner } : NotificationWorld).Settled claim
      mark' := by
  obtain ⟨-, -, hsame, hnew⟩ := h.step hs
  intro heq
  by_cases hstreams : owner.events.streamId = w.owner.events.streamId
  · obtain ⟨hpublished, hfinal⟩ := hsettled (heq.trans hstreams)
    obtain ⟨hpublished', hfinal'⟩ := (hsame hstreams).2 _ _ hpublished
    rw [hmark hstreams]
    exact ⟨hpublished', hfinal' mark hfinal⟩
  · exact absurd (heq ▸ hstream) (hnew hstreams)

theorem Inv.stepOwner {action : OwnerAction} {owner : ProjectionOwner} (h : w.Inv)
    (hs : w.owner.step action = some owner) : Inv { w with owner := owner } := by
  obtain ⟨mark, hm⟩ := h.marked
  obtain ⟨hok, hstreams, hsame, hnew⟩ := h.owner.step hs
  -- in a new stream the mark is its beginning
  obtain ⟨mark', hmark, hle, hle'⟩ : ∃ mark', (owner.events.streamId = w.owner.events.streamId →
      mark' = mark) ∧ mark' ≤ owner.events.latestId ∧
        (owner.events.streamId ≠ w.owner.events.streamId → mark' = 0) := by
    by_cases heq : owner.events.streamId = w.owner.events.streamId
    · exact ⟨mark, fun _ => rfl, hm.le.trans (hsame heq).1, fun hne => absurd heq hne⟩
    · exact ⟨0, fun h => absurd h heq, Nat.zero_le _, fun _ => rfl⟩
  have hcursor : ∀ c : EventCursor, (c.streamId = w.owner.events.streamId → mark ≤ c.eventId) →
      c.streamId = owner.events.streamId → mark' ≤ c.eventId := by
    intro c hc heq
    by_cases hstream : owner.events.streamId = w.owner.events.streamId
    · rw [hmark hstream]
      exact hc (heq.trans hstream)
    · rw [hle' hstream]
      exact Nat.zero_le _
  have hfresh : ∀ {claim m m'}, (owner.events.streamId = w.owner.events.streamId → m' = m) →
      w.Fresh claim m → ({ w with owner := owner } : NotificationWorld).Fresh claim m' :=
    fun hm hf => ⟨hf.new, hstreams hf.stream, hf.settled.owner h.owner hs hf.stream hm⟩
  have hholding : ∀ {registration sync claims}, w.Holding mark registration sync claims →
      ({ w with owner := owner } : NotificationWorld).Holding mark' registration sync claims :=
    fun hh => ⟨hh.nodeId, hh.nodup, hh.offered, fun claim hc => hfresh hmark (hh.fresh claim hc),
      hh.projected, hh.cached⟩
  refine ⟨hok, h.distinct, ⟨h.notified.once, h.notified.sound⟩, mark', hle, ?_, ?_, ?_⟩
  · exact hm.cursors.mono fun cursor _ hc c hsome => hcursor c (hc c hsome)
  · intro d hd claim hc
    obtain ⟨hstream, hsettled⟩ := hm.told d hd claim hc
    exact ⟨hstreams hstream, hsettled.owner h.owner hs hstream hmark⟩
  · have hworker := hm.worker
    unfold WorkerOk at hworker ⊢
    dsimp only
    split
    · trivial
    next heq =>
      rw [heq] at hworker
      exact ⟨hworker.1, fun c hsome => hcursor c (hworker.2 c hsome)⟩
    next registration _ sync heq =>
      rw [heq] at hworker
      obtain ⟨hid, hprojected, hold, hbounds, hoffers⟩ := hworker
      refine ⟨hid, hprojected, hstreams hold, fun hstream =>
        ⟨hcursor _ (fun h => (hbounds h).1) hstream, ?_⟩,
        fun claim ho => hfresh (fun _ => rfl) (hoffers claim ho)⟩
      by_cases hsame' : owner.events.streamId = w.owner.events.streamId
      · exact (hbounds (hstream.trans hsame')).2.trans (hsame hsame').1
      · exact absurd (hstream ▸ hold) (hnew hsame')
    next heq =>
      rw [heq] at hworker
      exact ⟨hworker.1, hholding hworker.2⟩
    next heq =>
      rw [heq] at hworker
      exact ⟨hworker.1, hholding hworker.2⟩

/-! ## Steps of the daemon -/

/-- A step that leaves the owner and what was notified. -/
theorem Inv.of_cache {cache : NodeProjectionCache} {worker : Worker}
    {settings : NotificationDeliverySettings} (h : w.Inv)
    (hd : Keyed.Distinct CachedNode.nodeId cache.nodes)
    (hm : ∀ mark, w.Marked mark → ∃ mark', mark ≤ mark' ∧
      mark' ≤ w.owner.events.latestId ∧
      (cache.Holds w.nodeId fun cursor _ => ∀ c, cursor = some c →
        c.streamId = w.owner.events.streamId → mark' ≤ c.eventId) ∧
      WorkerOk { w with cache := cache, worker := worker, settings := settings } mark') :
    Inv { w with cache := cache, worker := worker, settings := settings } := by
  obtain ⟨mark, hmarked⟩ := h.marked
  obtain ⟨mark', hle, hlatest, hcursors, hworker⟩ := hm mark hmarked
  refine ⟨h.owner, hd, ⟨h.notified.once, h.notified.sound⟩, mark', hlatest, hcursors, ?_, hworker⟩
  intro d hmem claim hc
  obtain ⟨hstream, hsettled⟩ := hmarked.told d hmem claim hc
  refine ⟨hstream, fun heq => ?_⟩
  obtain ⟨hpublished, hfinal⟩ := hsettled heq
  exact ⟨hpublished, fun e he hchange hlt => hfinal e he hchange (hle.trans_lt hlt)⟩

/-- The worker gives up its turn. -/
theorem Inv.idle (h : w.Inv) : Inv { w with worker := .idle } :=
  h.of_cache h.distinct fun mark hm => ⟨mark, le_rfl, hm.le, hm.cursors, trivial⟩

theorem Inv.stepCache {call : CacheCall} {cache : NodeProjectionCache} (h : w.Inv)
    (ho : call.ofOthers w.nodeId = true) (hs : w.cache.step call = some cache) :
    Inv { w with cache := cache } := by
  obtain ⟨hd, hholds⟩ := NodeProjectionCache.step_ofOthers h.distinct ho hs
  refine h.of_cache hd fun mark hm => ⟨mark, le_rfl, hm.le, hholds _ hm.cursors, ?_⟩
  have hworker := hm.worker
  unfold WorkerOk at hworker ⊢
  dsimp only
  split
  · trivial
  next heq =>
    rw [heq] at hworker
    exact hworker
  next heq =>
    rw [heq] at hworker
    obtain ⟨hid, hprojected, hold, hbounds, hoffers⟩ := hworker
    exact ⟨hid, hprojected, hold, hbounds, fun claim ho =>
      ⟨(hoffers claim ho).new, (hoffers claim ho).stream, (hoffers claim ho).settled⟩⟩
  next heq =>
    rw [heq] at hworker
    obtain ⟨hclaimable, hh⟩ := hworker
    exact ⟨hclaimable, hh.nodeId, hh.nodup, hh.offered, fun claim hc =>
      ⟨(hh.fresh claim hc).new, (hh.fresh claim hc).stream, (hh.fresh claim hc).settled⟩,
      hh.projected, hholds _ hh.cached⟩
  next heq =>
    rw [heq] at hworker
    obtain ⟨hcounts, hh⟩ := hworker
    exact ⟨hcounts, hh.nodeId, hh.nodup, hh.offered, fun claim hc =>
      ⟨(hh.fresh claim hc).new, (hh.fresh claim hc).stream, (hh.fresh claim hc).settled⟩,
      hh.projected, hholds _ hh.cached⟩

theorem Inv.restart (h : w.Inv) (readable : Bool) (saved : Except IoError Unit)
    (settings : NotificationDeliverySettings) : Inv { w with
      cache := w.cache.loadAt readable saved
      worker := .idle
      settings := settings } := by
  have hd := (NodeProjectionCache.loadAt_holds (c := w.cache) (k := w.nodeId)
    (P := fun _ _ => True) (fun _ _ _ => trivial) readable saved).1
  exact h.of_cache hd fun mark hm => ⟨mark, le_rfl, hm.le,
    (NodeProjectionCache.loadAt_holds hm.cursors readable saved).2, trivial⟩

theorem Inv.begin {registration : NodeRegistrationSnapshot} (h : w.Inv)
    (hid : registration.nodeId = w.nodeId) : Inv { w with
      worker := .fetching registration (w.cache.cursorAndGeneration registration).1
        (w.cache.cursorAndGeneration registration).2 } := by
  refine h.of_cache h.distinct fun mark hm => ⟨mark, le_rfl, hm.le, hm.cursors, hid, ?_⟩
  intro c hsome hstream
  unfold NodeProjectionCache.cursorAndGeneration at hsome
  cases hv : w.cache.visible registration with
  | none =>
      rw [hv] at hsome
      cases hsome
  | some node =>
      rw [hv] at hsome
      exact hm.cursors.visible hid hv c hsome hstream

/-- A fetched sync offers nothing that was notified. -/
theorem Inv.fetch {registration : NodeRegistrationSnapshot} {after : Option EventCursor}
    {expectedGeneration : Nat} (h : w.Inv)
    (hw : w.worker = .fetching registration after expectedGeneration)
    (frame : NodeProjectionSnapshot) (capabilities : List String) : Inv { w with
      worker := .fetched registration expectedGeneration
        (w.owner.sync frame capabilities after) } := by
  refine h.of_cache h.distinct fun mark hm => ⟨mark, le_rfl, hm.le, hm.cursors, ?_⟩
  have hworker := hm.worker
  unfold WorkerOk at hworker
  rw [hw] at hworker
  obtain ⟨hid, hafter⟩ := hworker
  refine ⟨hid, rfl, h.owner.stream, fun _ => ⟨hm.le, le_rfl⟩, fun claim ho => ?_⟩
  obtain ⟨cursor, hcursor, hstream, ⟨e, he, hchange, hlt⟩, hshown⟩ :=
    ProjectionOwner.sync_offers h.owner ho
  have hclaim : claim.streamId = w.owner.events.streamId := ho.stream
  refine ⟨fun hmem => ?_, hclaim ▸ h.owner.stream, fun _ => ⟨⟨e, he, hchange⟩, ?_⟩⟩
  · -- what was notified before is settled at the mark, and the event lies after it
    obtain ⟨told, htold, hkey⟩ := List.mem_map.mp hmem
    obtain ⟨d, hd, hc⟩ := List.mem_flatMap.mp htold
    obtain ⟨hs, hkey⟩ := Prod.mk.inj hkey
    obtain ⟨hentity, hkey⟩ := Prod.mk.inj hkey
    obtain ⟨hrevision, -⟩ := Prod.mk.inj hkey
    obtain ⟨-, hfinal⟩ := (hm.told d hd told hc).2 (hs.trans hclaim)
    rw [hentity, hrevision] at hfinal
    exact hshown (hfinal e he hchange ((hafter cursor hcursor hstream).trans_lt hlt)).1
  · intro e' he' _ hlt'
    exact absurd (mem_log_le h.owner.contiguous e' he') (Nat.not_le.mpr hlt')

theorem Inv.failFetch {registration : NodeRegistrationSnapshot} {after : Option EventCursor}
    {expectedGeneration : Nat} (h : w.Inv)
    (hw : w.worker = .fetching registration after expectedGeneration)
    {health : NodeProjectionHealthCode} {attemptAtMs : Nat} {retryAtMs : Option Nat}
    {saved : Except IoError Unit} {result : Option Nat} {cache : NodeProjectionCache}
    (hs : w.cache.markHealth registration expectedGeneration health attemptAtMs retryAtMs saved =
      .ok (result, cache)) : Inv { w with cache := cache, worker := .idle } := by
  rcases NodeProjectionCache.markHealth_ok h.distinct hs with rfl | ⟨next, hp⟩
  · exact h.idle
  · refine h.of_cache (hp.distinct h.distinct) fun mark hm => ⟨mark, le_rfl, hm.le, ?_, trivial⟩
    have hworker := hm.worker
    unfold WorkerOk at hworker
    rw [hw] at hworker
    exact hp.holds hm.cursors fun _ =>
      NodeProjectionCache.marked_holds hm.cursors (fun _ hsome => by cases hsome) hworker.1

/-- A commit takes the cursors of the Node to that of the sync. -/
theorem Inv.commit {registration : NodeRegistrationSnapshot} {expectedGeneration : Nat}
    {sync : NodeSync} (h : w.Inv) (hw : w.worker = .fetched registration expectedGeneration sync)
    (capabilities : List String) (helperVersion : String) (observedAtMs : Nat)
    (saved : Except IoError Unit) : (w.commit registration expectedGeneration sync capabilities
      helperVersion observedAtMs saved).Inv := by
  unfold NotificationWorld.commit
  split
  next commit cache hcommit =>
    rcases NodeProjectionCache.commitProjection_ok h.distinct hcommit with ⟨hnone, -⟩ | ⟨next, hp⟩
    · cases hnone
    · dsimp only
      have hd := hp.distinct h.distinct
      have hmarks : ∀ mark, w.Marked mark → ∃ mark', mark ≤ mark' ∧
          mark' ≤ w.owner.events.latestId ∧
          (cache.Holds w.nodeId fun cursor _ => ∀ c, cursor = some c →
            c.streamId = w.owner.events.streamId → mark' ≤ c.eventId) ∧
          registration.nodeId = w.nodeId ∧
          sync.projection.agents = sync.observed.map (·.toNodeProjectionAgent) ∧
          (cache.Holds w.nodeId fun cursor projection =>
            cursor = some sync.cursor ∧ projection = some sync.projection) ∧
          ∀ claim, sync.Offers claim → w.Fresh claim mark' := by
        intro mark hm
        have hworker := hm.worker
        unfold WorkerOk at hworker
        rw [hw] at hworker
        obtain ⟨hid, hprojected, hold, hbounds, hoffers⟩ := hworker
        have hcached : cache.Holds w.nodeId fun cursor projection =>
            cursor = some sync.cursor ∧ projection = some sync.projection :=
          hp.holds_own h.distinct hid ⟨rfl, rfl⟩
        by_cases hstream : sync.cursor.streamId = w.owner.events.streamId
        · obtain ⟨hge, hle⟩ := hbounds hstream
          refine ⟨sync.cursor.eventId, hge, hle, ?_, hid, hprojected, hcached, hoffers⟩
          refine hcached.mono fun cursor projection hsame c hsome _ => ?_
          rw [hsame.1] at hsome
          cases hsome
          exact le_rfl
        · refine ⟨mark, le_rfl, hm.le, ?_, hid, hprojected, hcached, fun claim ho => ?_⟩
          · refine hcached.mono fun cursor projection hsame c hsome heq => ?_
            rw [hsame.1] at hsome
            cases hsome
            exact absurd heq hstream
          · have hf := hoffers claim ho
            exact ⟨hf.new, hf.stream, fun heq => absurd (ho.stream.symm.trans heq) hstream⟩
      split
      · refine h.of_cache hd fun mark hm => ?_
        obtain ⟨mark', hle, hlatest, hcursors, -⟩ := hmarks mark hm
        exact ⟨mark', hle, hlatest, hcursors, trivial⟩
      · refine h.of_cache hd fun mark hm => ?_
        obtain ⟨mark', hle, hlatest, hcursors, hid, hprojected, hcached, hoffers⟩ := hmarks mark hm
        have hclaimable :=
          remoteNotificationCandidates_claimable registration sync commit w.settings
        refine ⟨mark', hle, hlatest, hcursors, hclaimable, hid, hclaimable.nodup,
          hclaimable.offered, fun claim hc => ?_, hprojected, hcached⟩
        have hf := hoffers claim (hclaimable.offered claim hc)
        exact ⟨hf.new, hf.stream, hf.settled⟩
  next => exact h.idle
  next => exact h.idle

theorem Inv.claim {registration : NodeRegistrationSnapshot} {sync : NodeSync}
    {candidates : List RemoteNotificationCandidate} {digest : Option RemoteDigestCandidate}
    (h : w.Inv) (hw : w.worker = .committed registration sync candidates digest)
    (saved : Except IoError Unit) : (w.claim registration sync candidates digest saved).Inv := by
  unfold NotificationWorld.claim
  split
  next accepted digestAccepted cache hclaim =>
    have hcache : Keyed.Distinct CachedNode.nodeId cache.nodes ∧
        ∀ P, w.cache.Holds w.nodeId P → registration.nodeId = w.nodeId →
          cache.Holds w.nodeId P := by
      rcases NodeProjectionCache.claimNotifications_ok hclaim with rfl | ⟨node, hv, hp⟩
      · exact ⟨h.distinct, fun _ hh _ => hh⟩
      · refine ⟨hp.distinct h.distinct, fun P hh hid => hp.holds hh fun _ => ?_⟩
        exact NodeProjectionCache.claimed_holds (hh.visible hid hv)
    refine h.of_cache hcache.1 fun mark hm => ?_
    have hworker := hm.worker
    unfold WorkerOk at hworker
    rw [hw] at hworker
    obtain ⟨hclaimable, hh⟩ := hworker
    obtain ⟨hsub, hcounts⟩ := claimedNotices_told accepted digestAccepted hclaimable
    refine ⟨mark, le_rfl, hm.le, hcache.2 _ hm.cursors hh.nodeId, hcounts, hh.nodeId,
      hh.nodup.sublist (hsub.map _), fun claim hc => hh.offered claim (hsub.subset hc),
      fun claim hc => ?_, hh.projected, hcache.2 _ hh.cached hh.nodeId⟩
    have hf := hh.fresh claim (hsub.subset hc)
    exact ⟨hf.new, hf.stream, hf.settled⟩
  next => exact h.idle
  next => exact h.idle

/-- A notification tells of claims that were not notified. -/
theorem Inv.notify {registration : NodeRegistrationSnapshot} {sync : NodeSync} {notice : Notice}
    {notices : List Notice} (h : w.Inv)
    (hw : w.worker = .notifying registration sync (notice :: notices)) : Inv { w with
      worker := .notifying registration sync notices
      delivered := w.delivered ++ [⟨sync, notice, w.cache.visible registration⟩] } := by
  obtain ⟨mark, hm⟩ := h.marked
  have hworker := hm.worker
  unfold WorkerOk at hworker
  rw [hw] at hworker
  obtain ⟨hcounts, hh⟩ := hworker
  rw [List.flatMap_cons] at hh
  have hnodup := hh.nodup
  rw [List.map_append, List.nodup_append] at hnodup
  obtain ⟨hfirst, hrest, hdisjoint⟩ := hnodup
  have hkeys : ({ w with
      worker := .notifying registration sync notices
      delivered := w.delivered ++ [⟨sync, notice, w.cache.visible registration⟩] } :
        NotificationWorld).keys = w.keys ++ notice.told.map RemoteNotificationClaim.key := by
    simp [keys]
  refine ⟨h.owner, h.distinct, ⟨?_, ?_⟩, mark, hm.le, hm.cursors, ?_, ?_⟩
  · rw [hkeys, List.nodup_append]
    refine ⟨h.notified.once, hfirst, fun key hkey key' hkey' heq => ?_⟩
    obtain ⟨claim, hc, rfl⟩ := List.mem_map.mp hkey'
    exact (hh.fresh claim (List.mem_append_left _ hc)).new (heq ▸ hkey)
  · intro d hd
    rcases List.mem_append.mp hd with hd | hd
    · exact h.notified.sound d hd
    · rw [List.mem_singleton.mp hd]
      refine ⟨fun claim hc => ?_, hh.projected, fun node hv => ?_, hcounts notice
        List.mem_cons_self⟩
      · have ho := hh.offered claim (List.mem_append_left _ hc)
        exact ⟨ho.stream, ho.shows⟩
      · exact (hh.cached.visible hh.nodeId hv).2
  · intro d hd claim hc
    rcases List.mem_append.mp hd with hd | hd
    · exact hm.told d hd claim hc
    · rw [List.mem_singleton.mp hd] at hc
      have hf := hh.fresh claim (List.mem_append_left _ hc)
      exact ⟨hf.stream, hf.settled⟩
  · refine ⟨fun other ho => hcounts other (List.mem_cons_of_mem _ ho), hh.nodeId, hrest,
      fun claim hc => hh.offered claim (List.mem_append_right _ hc), fun claim hc => ?_,
      hh.projected, hh.cached⟩
    have hf := hh.fresh claim (List.mem_append_right _ hc)
    refine ⟨fun hmem => ?_, hf.stream, hf.settled⟩
    rw [hkeys] at hmem
    rcases List.mem_append.mp hmem with hmem | hmem
    · exact hf.new hmem
    · exact hdisjoint _ hmem _ (List.mem_map_of_mem hc) rfl

theorem Inv.step {action : NotificationAction} (h : w.Inv) (hs : w.step action = some u) :
    u.Inv := by
  cases action with
  | owner action =>
      obtain ⟨owner, howner, rfl⟩ := Option.map_eq_some_iff.mp hs
      exact h.stepOwner howner
  | cache call =>
      simp only [NotificationWorld.step] at hs
      split at hs
      next ho =>
        obtain ⟨cache, hcache, rfl⟩ := Option.map_eq_some_iff.mp hs
        exact h.stepCache ho hcache
      next => cases hs
  | start registration =>
      simp only [NotificationWorld.step] at hs
      split at hs
      next =>
        split at hs
        next hid =>
          cases hs
          exact h.begin hid
        next => cases hs
      next => cases hs
  | fetch frame capabilities =>
      simp only [NotificationWorld.step] at hs
      split at hs
      next registration after expectedGeneration hw =>
        split at hs
        next =>
          cases hs
          exact h.fetch hw frame capabilities
        next => cases hs
      next => cases hs
  | failFetch observed health attemptAtMs retryAtMs saved =>
      simp only [NotificationWorld.step] at hs
      split at hs
      next registration after expectedGeneration hw =>
        split at hs
        next =>
          -- The failure is marked in the cache, unless the mark itself fails.
          split at hs
          next result cache hmark =>
            cases hs
            exact h.failFetch hw hmark
          next =>
            cases hs
            exact h.idle
        next =>
          cases hs
          exact h.idle
      next => cases hs
  | commit observed capabilities helperVersion observedAtMs saved =>
      simp only [NotificationWorld.step] at hs
      split at hs
      next registration expectedGeneration sync hw =>
        split at hs
        -- The registration is the current one still, or the sync is given up.
        next =>
          cases hs
          exact h.commit hw capabilities helperVersion observedAtMs saved
        next =>
          cases hs
          exact h.idle
      next => cases hs
  | claim observed saved =>
      simp only [NotificationWorld.step] at hs
      split at hs
      next registration sync candidates digest hw =>
        split at hs
        next =>
          cases hs
          exact h.claim hw saved
        next =>
          cases hs
          exact h.idle
      next => cases hs
  | notify =>
      simp only [NotificationWorld.step] at hs
      split at hs
      next =>
        cases hs
        exact h.idle
      next registration sync notice notices hw =>
        cases hs
        exact h.notify hw
      next => cases hs
  | restart readable saved settings =>
      cases hs
      exact h.restart readable saved settings

/-! ## Runs -/

/-- The owner's stream has just begun, and the daemon has not sent anything yet. The agents and the
cache are any. -/
structure Started (w : NotificationWorld) : Prop where
  agents : w.owner.table.Ok
  saving : w.owner.saving = none
  log : w.owner.events.log = []
  stream : w.owner.events.streamId ∈ w.owner.streams
  cache : Keyed.Distinct CachedNode.nodeId w.cache.nodes
  worker : w.worker = .idle
  delivered : w.delivered = []

theorem Started.inv (h : w.Started) : w.Inv := by
  have hempty : ∀ e ∈ w.owner.events.log, False := fun e he => by
    rw [h.log] at he
    cases he
  have hnone : ∀ d ∈ w.delivered, False := fun d hd => by
    rw [h.delivered] at hd
    cases hd
  refine ⟨⟨⟨?_, ?_⟩, h.stream, h.agents, fun k r ⟨e, he, _⟩ => (hempty e he).elim, ?_⟩, h.cache,
    ⟨?_, fun d hd => (hnone d hd).elim⟩, 0, Nat.zero_le _, fun _ _ _ _ _ _ => Nat.zero_le _,
    fun d hd => (hnone d hd).elim, ?_⟩
  · rw [h.log]
    exact Nat.zero_le _
  · rw [h.log]
    rfl
  · rw [h.saving]
    exact nofun
  · rw [keys, h.delivered]
    exact List.nodup_nil
  · unfold WorkerOk
    rw [h.worker]
    trivial

/-- In every run of a Node's agents and of the daemon that observes them, each revision of an agent
is notified at most once, alone or in a digest, and only while the projection shows it. -/
theorem notifiedOnce_along {actions : List NotificationAction} (h : w.Started) :
    Along step NotifiedOnce w actions :=
  .of_invariant (fun _ _ _ hi hs => hi.step hs) (fun _ hi => hi.notified) h.inv

/-! ### An agent that is blocked and then done -/

private def observedNode : String := "00000000-0000-0000-0000-000000000009"
private def observedStream : String := "00000000-0000-0000-0000-00000000000a"

/-- A Node without agents, and a daemon that has not observed it yet. -/
def unobservedWorld : NotificationWorld where
  nodeId := observedNode
  owner := ⟨⟨[], []⟩, none, ⟨observedStream, 0, [], []⟩, [observedStream]⟩
  cache := ⟨[], none⟩
  settings := ⟨true, false, true, true⟩
  worker := .idle
  delivered := []

theorem unobservedWorld_started : unobservedWorld.Started where
  agents := ⟨List.nodup_nil, fun _ h => (List.not_mem_nil h).elim⟩
  saving := rfl
  log := rfl
  stream := List.mem_cons_self
  cache := List.nodup_nil
  worker := rfl
  delivered := rfl

/-- A turn of the worker up to the commit. -/
def syncRun : List NotificationAction :=
  [.start ⟨observedNode, "work", "work.example", 1, 0⟩,
    .fetch ⟨observedNode, [⟨"w", "Work", 1, 0⟩], [⟨"s", "w", "Shell"⟩], [], []⟩ [],
    .commit true [] "0.20.0" 1 (.ok ())]

/-- The agent reports, and the report is saved. -/
def reportRun (state : AgentState) : List NotificationAction :=
  [.owner (.mutate [.report "a" "r" 1 ⟨state, .lifecycleIntegration, "hook", 100⟩]),
    .owner (.finish true)]

/-- The agent is blocked while the Node is online; it is done while the Node cannot be reached and
the daemon restarts. -/
def blockedDoneRun : List NotificationAction :=
  syncRun ++
    [.owner (.mutate [.register "a" "w" "s" "r" none 0
      ⟨"Codex", "codex", none, ⟨.working, .lifecycleIntegration, "hook", 100⟩⟩]),
      .owner (.finish true)] ++
    reportRun .blocked ++ syncRun ++ [.claim true (.ok ()), .notify, .notify] ++
    [.start ⟨observedNode, "work", "work.example", 1, 0⟩,
      .failFetch true .unreachable 2 none (.ok ())] ++
    reportRun .done ++ [.restart true (.ok ()) ⟨true, false, true, true⟩] ++
    syncRun ++ [.claim true (.ok ()), .notify, .notify] ++ syncRun

/-- The first is notified alone, the second in a digest. -/
theorem notifiedOnce_along_blockedDoneRun :
    ∃ w, exec step unobservedWorld blockedDoneRun = some w ∧ w.NotifiedOnce ∧
      w.keys = [(observedStream, "a", 2, .agentBlocked), (observedStream, "a", 3, .agentCompleted)]
        ∧
      w.delivered.map (·.notice.request.digest) = [none, some ⟨0, 1⟩] := by
  have hkeys : (exec step unobservedWorld blockedDoneRun).map keys =
      some [(observedStream, "a", 2, .agentBlocked),
        (observedStream, "a", 3, .agentCompleted)] := by
    decide +kernel
  have hdigests : (exec step unobservedWorld blockedDoneRun).map
      (·.delivered.map (·.notice.request.digest)) = some [none, some ⟨0, 1⟩] := by
    decide +kernel
  obtain ⟨w, hw, hkeys⟩ := Option.map_eq_some_iff.mp hkeys
  rw [hw] at hdigests
  exact ⟨w, hw, (notifiedOnce_along unobservedWorld_started).last hw, hkeys,
    Option.some.inj hdigests⟩

end NotificationWorld

end Boomux.Nodes
