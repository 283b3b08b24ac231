import Boomux.Nodes.Epochs

/-!
# The epochs of a Node do not mix

The induction over a run: as long as every call keeps to the condition `Keeps`, the cache shows
the newest registration of a Node what the purged run shows it.
-/

set_option autoImplicit false

namespace Boomux.Nodes

open Rust Transition
open Daemon (EventCursor)

namespace NodeProjectionCache

variable {c d c' d' : NodeProjectionCache} {node : CachedNode} {k : String}
  {saved : Except IoError Unit} {q r : NodeRegistrationSnapshot} {call : CacheCall}
  {before after : Option CachedNode} {calls : List CacheCall}

/-! ## The entries stay valid -/

theorem length_retainLast {α : Type} (limit : Nat) (l : List α) :
    (retainLast limit l).length ≤ limit := by
  unfold retainLast
  rw [List.length_drop]
  omega

theorem mem_of_mem_retainLast {α : Type} {limit : Nat} {l : List α} {a : α}
    (h : a ∈ retainLast limit l) : a ∈ l := List.mem_of_mem_drop h

theorem mem_acceptClaims {known claims : List RemoteNotificationClaim}
    {claim : RemoteNotificationClaim} (h : claim ∈ (acceptClaims known claims).2) :
    claim ∈ known ∨ claim ∈ claims := by
  induction claims generalizing known with
  | nil => exact .inl h
  | cons first claims ih =>
      unfold acceptClaims at h
      split at h
      · exact (ih h).imp_right (List.mem_cons_of_mem _)
      · rcases ih h with hk | hc
        · rcases List.mem_append.mp hk with hk | hk
          · exact .inl hk
          · exact .inr (List.mem_singleton.mp hk ▸ List.mem_cons_self)
        · exact .inr (List.mem_cons_of_mem _ hc)

/-- What `load` checks of the entry that no call has written yet, apart from its generation. -/
theorem unobserved_checked (q : NodeRegistrationSnapshot) (generation : Nat)
    (h : generation ≠ 0) : Checked { unobserved q with generation := generation } where
  generation := h
  capabilities := rfl
  helperVersion := nofun
  notifications_le := Nat.zero_le _
  digests_le := Nat.zero_le _
  dismissed_le := Nat.zero_le _
  names := by simp [unobserved]
  dismissed := List.nodup_nil
  notifications := by simp [unobserved]
  digests := by simp [unobserved]
  projection := nofun

theorem generation_ne_zero {expected generation : Nat}
    (h : checkedAdd expected 1 = some generation) : generation ≠ 0 := by
  obtain ⟨-, rfl⟩ := checkedAdd_eq_some.mp h
  omega

theorem committed_recorded {observation : ProjectionObservation} {generation : Nat}
    (hb : ∀ b, before = some b → b.Recorded) (ho : Observable q observation)
    (hg : generation ≠ 0) : (committed before q generation observation).Recorded := by
  refine ⟨validateNode_eq_ok.mpr ?_, nofun⟩
  have hprojection : ∀ projection, some observation.projection = some projection →
      projection.nodeId = q.nodeId ∧ validateProjection projection = .ok () := by
    rintro projection ⟨rfl⟩
    exact ⟨ho.owner, ho.projection⟩
  have hversion : ∀ version, some observation.helperVersion = some version →
      validateHelperVersion version = .ok () := by
    rintro version ⟨rfl⟩
    exact ho.helperVersion
  cases hbefore : before with
  | none =>
      exact ⟨hg, ho.capabilities, hversion, Nat.zero_le _, Nat.zero_le _, Nat.zero_le _,
        by simp [committed], by simp [committed], by simp [committed], by simp [committed],
        hprojection⟩
  | some b =>
      have hc := validateNode_eq_ok.mp (hb b hbefore).valid
      refine ⟨hg, ho.capabilities, hversion, hc.notifications_le, hc.digests_le, ?_,
        fun shellId hs => hc.names shellId (List.mem_of_mem_filter hs), hc.dismissed.filter _,
        hc.notifications, hc.digests, hprojection⟩
      exact (List.length_filter_le _ _).trans hc.dismissed_le

theorem marked_recorded {generation attemptAtMs : Nat} {health : NodeProjectionHealthCode}
    {retryAtMs : Option Nat} (hb : ∀ b, before = some b → b.Recorded) (hg : generation ≠ 0) :
    (marked (before.getD (unobserved q)) q generation health attemptAtMs retryAtMs).Recorded := by
  cases hbefore : before with
  | none =>
      have hc := unobserved_checked q generation hg
      refine ⟨validateNode_eq_ok.mpr ?_, fun _ => ⟨rfl, rfl, rfl, rfl, rfl, rfl, rfl⟩⟩
      exact ⟨hg, hc.2, hc.3, hc.4, hc.5, hc.6, hc.7, hc.8, hc.9, hc.10, hc.11⟩
  | some b =>
      have hc := validateNode_eq_ok.mp (hb b hbefore).valid
      refine ⟨validateNode_eq_ok.mpr ?_, fun hp => ?_⟩
      · exact ⟨hg, hc.2, hc.3, hc.4, hc.5, hc.6, hc.7, hc.8, hc.9, hc.10, hc.11⟩
      · obtain ⟨h₁, h₂, h₃, h₄, h₅, h₆, h₇⟩ := (hb b hbefore).bare hp
        exact ⟨h₁, h₂, h₃, h₄, h₅, h₆, h₇⟩

theorem claimed_recorded {cursor : EventCursor} {claims : List RemoteNotificationClaim}
    {digest : Option RemoteDigestClaim} (hn : node.Recorded) (hcur : node.cursor = some cursor)
    (hclaims : claims.forM validateNotificationClaim = .ok ())
    (hdigest : digest.forM validateDigestClaim = .ok ()) :
    (claimed node claims digest).Recorded := by
  have hc := validateNode_eq_ok.mp hn.valid
  have hnotifications := length_retainLast maxNotificationClaimsPerNode
    (acceptClaims node.notificationClaims claims).2
  have hdigests := length_retainLast maxDigestClaimsPerNode
    (node.digestClaims ++ digest.toList.filter (· ∉ node.digestClaims))
  unfold claimed
  dsimp only
  refine ⟨validateNode_eq_ok.mpr ?_, fun hp => ?_⟩
  · refine ⟨hc.1, hc.2, hc.3, ?_, ?_, hc.6, hc.7, hc.8, ?_, ?_, hc.11⟩ <;> dsimp only
    · exact hnotifications
    · exact hdigests
    · intro claim hm
      rcases mem_acceptClaims (mem_of_mem_retainLast hm) with hk | hk
      · exact hc.notifications claim hk
      · exact forM_eq_ok.mp hclaims claim hk
    · intro claim hm
      rcases List.mem_append.mp (mem_of_mem_retainLast hm) with hk | hk
      · exact hc.digests claim hk
      · have hsome : digest = some claim := by simpa using List.mem_of_mem_filter hk
        exact optionForM_eq_ok.mp hdigest claim hsome
  · -- an entry without a projection has no cursor to claim against
    have hnone := (hn.bare hp).cursor
    rw [hcur] at hnone
    cases hnone

theorem dismissed_recorded {shellId : String} (hn : node.Recorded)
    (hv : validateCacheName shellId = .ok ()) (hm : shellId ∉ node.dismissedShellIds)
    (hlt : node.dismissedShellIds.length < maxDismissedShellsPerNode)
    (hp : node.projection.isSome = true) : (dismissed node shellId).Recorded := by
  have hc := validateNode_eq_ok.mp hn.valid
  have hperm := List.perm_insertionSort (· ≤ ·) (node.dismissedShellIds ++ [shellId])
  refine ⟨validateNode_eq_ok.mpr ?_, fun hnone => ?_⟩
  · refine ⟨hc.1, hc.2, hc.3, hc.4, hc.5, ?_, fun id hid => ?_, ?_, hc.9, hc.10, hc.11⟩
    · have hlen := hperm.length_eq
      rw [List.length_append, List.length_singleton] at hlen
      exact hlen.trans_le hlt
    · rcases List.mem_append.mp (hperm.mem_iff.mp hid) with hid | hid
      · exact hc.names id hid
      · rw [List.mem_singleton.mp hid]
        exact hv
    · refine hperm.nodup_iff.mpr (List.nodup_append.mpr ⟨hc.dismissed, List.nodup_singleton _, ?_⟩)
      rintro id hid _ hs rfl
      exact hm (List.mem_singleton.mp hs ▸ hid)
  · have hsome : (dismissed node shellId).projection.isSome = true := hp
    rw [hnone] at hsome
    cases hsome

/-- The entry that a call puts down is valid, and is one of the call's registration. -/
theorem effect_recorded (node : CachedNode) (hq : call.registration? = some q)
    (hb : ∀ b, before = some b →
      b.Recorded ∧ b.nodeId = q.nodeId ∧ b.tombstoneEpoch = q.tombstoneEpoch)
    (he : Effect call before (some node)) :
    node.Recorded ∧ node.nodeId = q.nodeId ∧ node.tombstoneEpoch = q.tombstoneEpoch := by
  have hrec : ∀ b, before = some b → b.Recorded := fun b h => (hb b h).1
  cases he with
  | commit ho hg hnext =>
      cases hq
      exact ⟨committed_recorded hrec ho (generation_ne_zero hnext), rfl, rfl⟩
  | mark hg hnext =>
      cases hq
      refine ⟨marked_recorded hrec (generation_ne_zero hnext), ?_, rfl⟩
      cases before with
      | none => rfl
      | some b => exact (hb b rfl).2.1
  | claim hc hd hbefore hcur hn =>
      cases hq
      obtain ⟨hr, hid, hepoch⟩ := hb _ hbefore
      rw [claimed_nodeId, claimed_tombstoneEpoch]
      exact ⟨claimed_recorded hr hcur hc hd, hid, hepoch⟩
  | dismiss hv hbefore ho hp hm hlt =>
      cases hq
      obtain ⟨hr, hid, hepoch⟩ := hb _ hbefore
      exact ⟨dismissed_recorded hr hv hm hlt (by
        obtain ⟨projection, hsome, -⟩ := (Option.any_eq_true _ _).mp hp
        rw [hsome]
        rfl), hid, hepoch⟩
  | restore hbefore hempty =>
      cases hq
      obtain ⟨hr, hid, hepoch⟩ := hb _ hbefore
      have hc := validateNode_eq_ok.mp hr.valid
      refine ⟨⟨validateNode_eq_ok.mpr ?_, fun hp => ?_⟩, hid, hepoch⟩
      · exact ⟨hc.1, hc.2, hc.3, hc.4, hc.5, Nat.zero_le _, by simp, List.nodup_nil, hc.9, hc.10,
          hc.11⟩
      · obtain ⟨h₁, h₂, h₃, h₄, h₅, h₆, -⟩ := hr.bare hp
        exact ⟨h₁, h₂, h₃, h₄, h₅, h₆, rfl⟩

/-! ## One call in two caches -/

/-- The cache has entries of this registration only. -/
def Own (c : NodeProjectionCache) (r : NodeRegistrationSnapshot) : Prop :=
  ∀ n ∈ c.nodes, n.nodeId = r.nodeId ∧ n.tombstoneEpoch = r.tombstoneEpoch

theorem visible_congr (hid : q.nodeId = r.nodeId) (he : q.tombstoneEpoch = r.tombstoneEpoch) :
    c.visible q = c.visible r := by
  unfold visible
  rw [hid, he]

theorem Own.visible_eq (h : c.Own r) : c.visible r = c.find r.nodeId := by
  unfold visible
  cases hf : c.find r.nodeId with
  | none => rfl
  | some node => rw [Option.filter_some, if_pos (by simpa using (h node (Keyed.mem_of_get hf)).2)]

/-- A cache of one registration has room for its entry. -/
theorem Own.room (h : c.Own r) : (c.find r.nodeId).isSome = true ∨ c.nodes.length < maxNodes := by
  cases hf : c.find r.nodeId with
  | some node => exact .inl rfl
  | none =>
      have hnil : c.nodes = [] := by
        refine List.eq_nil_iff_forall_not_mem.mpr fun n hn => ?_
        exact Keyed.get_eq_none.mp hf n hn (h n hn).1
      rw [hnil]
      exact .inr (by decide)

theorem Own.puts (h : c.Own r) (hp : c.Puts d node) (hid : node.nodeId = r.nodeId)
    (he : node.tombstoneEpoch = r.tombstoneEpoch) : d.Own r := by
  intro n hn
  rcases hp.mem n hn with rfl | hn
  · exact ⟨hid, he⟩
  · exact h n hn

/-- An effect on the entry of a registration is a step of the cache of this registration. -/
theorem step_of_effect (h : c.Settled) (hown : c.Own q) (hq : call.registration? = some q)
    (hs : after ≠ none → call.saved = .ok ()) (he : Effect call (c.visible q) after) :
    ∃ d, c.step call = some d ∧
      (after = none ∧ d = c ∨ ∃ node, after = some node ∧ c.Puts d node) := by
  have hsome : ∀ node, c.visible q = some node → (c.find node.nodeId).isSome = true := by
    intro node hv
    obtain ⟨-, hid, -, hf⟩ := h.visible_recorded hv
    rw [hid, hf]
    rfl
  cases he with
  | commitStale ho hg =>
      cases hq
      -- The generation is not the expected one, and nothing changes.
      refine ⟨c, ?_, .inl ⟨rfl, rfl⟩⟩
      simp only [step, toOption_eq_some, map_eq_ok, commitProjection, bind_eq_ok, require_eq_ok]
      exact ⟨(none, c), ⟨(), ho.projection, (), ho.capabilities, (), ho.helperVersion, (),
        decide_eq_true ho.owner, if_pos hg⟩, rfl⟩
  | @commit _ _ observation _ _ generation ho hg hnext =>
      cases hq
      have hsaved := hs (by simp)
      have hreplace : ∃ d, c.replace (committed (c.visible q) q generation observation)
          "Node cache registration limit reached" _ = .ok d := replace_ok hsaved hown.room
      -- There is room for the entry: this cache has none but those of the registration.
      obtain ⟨d, hd⟩ := hreplace
      refine ⟨d, ?_, .inr ⟨_, rfl, replace_puts h.nodes.distinct hd⟩⟩
      simp only [step, toOption_eq_some, map_eq_ok, commitProjection, bind_eq_ok, require_eq_ok]
      refine ⟨(some ⟨generation, (c.visible q).map (·.health), (c.visible q).bind (·.cursor)⟩, d),
        ⟨(), ho.projection, (), ho.capabilities, (), ho.helperVersion, (),
          decide_eq_true ho.owner, ?_⟩, rfl⟩
      have hgen : ¬ c.actualGeneration q ≠ _ := not_not.mpr hg
      rw [if_neg hgen, hnext, bind_eq_ok]
      exact ⟨d, hd, rfl⟩
  | markStale hg =>
      cases hq
      refine ⟨c, ?_, .inl ⟨rfl, rfl⟩⟩
      simp only [step, toOption_eq_some, map_eq_ok, markHealth]
      exact ⟨(none, c), if_pos hg, rfl⟩
  | @mark _ _ health attemptAtMs retryAtMs _ _ generation hg hnext =>
      cases hq
      have hsaved := hs (by simp)
      rw [hown.visible_eq]
      -- The entry that is marked is that of the Node, or one without observation.
      have hcurrent : ((c.find q.nodeId).getD (unobserved q)).nodeId = q.nodeId := by
        cases hf : c.find q.nodeId with
        | none => rfl
        | some node =>
            have hkey : node.nodeId = q.nodeId := Keyed.key_of_get hf
            exact hkey
      have hid : (marked ((c.find q.nodeId).getD (unobserved q)) q generation health attemptAtMs
          retryAtMs).nodeId = q.nodeId := by
        unfold marked
        exact hcurrent
      have hreplace : ∃ d, c.replace (marked ((c.find q.nodeId).getD (unobserved q)) q generation
          health attemptAtMs retryAtMs) "Node cache limit reached" _ = .ok d :=
        replace_ok hsaved (by rw [hid]; exact hown.room)
      obtain ⟨d, hd⟩ := hreplace
      refine ⟨d, ?_, .inr ⟨_, rfl, replace_puts h.nodes.distinct hd⟩⟩
      simp only [step, toOption_eq_some, map_eq_ok, markHealth]
      refine ⟨(some generation, d), ?_, rfl⟩
      have hgen : ¬ c.actualGeneration q ≠ _ := not_not.mpr hg
      rw [if_neg hgen, hnext, bind_eq_ok]
      exact ⟨d, hd, rfl⟩
  | @claimNothing _ _ claims _ _ _ hc hd hn =>
      cases hq
      refine ⟨c, ?_, .inl ⟨rfl, rfl⟩⟩
      simp only [step, toOption_eq_some, map_eq_ok, claimNotifications, bind_eq_ok]
      split
      next => exact ⟨(none, c), ⟨(), hc, (), hd, rfl⟩, rfl⟩
      next node hv =>
        exact ⟨(some ((acceptClaims node.notificationClaims claims).1, false), c),
          ⟨(), hc, (), hd, if_pos (hn node hv)⟩, rfl⟩
  | @claim _ cursor claims digest _ _ node hc hd hv hcur hn =>
      cases hq
      have hsaved := hs (by simp)
      have hedit : ∃ d, c.edit (claimed node claims digest) _ = .ok d := edit_ok hsaved
      obtain ⟨d, he⟩ := hedit
      have hf : (c.find (claimed node claims digest).nodeId).isSome = true := by
        rw [claimed_nodeId]
        exact hsome node hv
      refine ⟨d, ?_, .inr ⟨_, rfl, edit_puts hf he⟩⟩
      -- The claims are those of the cursor that the entry has.
      have hfilter : (c.visible q).filter (·.cursor = some cursor) = some node := by
        rw [hv, Option.filter_some, if_pos (by simpa using hcur)]
      simp only [step, toOption_eq_some, map_eq_ok, claimNotifications, bind_eq_ok, hfilter]
      refine ⟨(some ((acceptClaims node.notificationClaims claims).1,
        digest.any (· ∉ node.digestClaims)), d), ⟨(), hc, (), hd, ?_⟩, rfl⟩
      rw [hn, if_neg Bool.false_ne_true, bind_eq_ok]
      exact ⟨d, he, rfl⟩
  | @dismissAgain _ shellId _ _ node hv hb ho hp hm =>
      cases hq
      refine ⟨c, ?_, .inl ⟨rfl, rfl⟩⟩
      simp only [step, toOption_eq_some, map_eq_ok, dismissShell, bind_eq_ok, hb, require_eq_ok]
      exact ⟨((node.healthSnapshot, false), c),
        ⟨(), hv, (), decide_eq_true ho, (), hp, if_pos hm⟩, rfl⟩
  | @dismiss _ shellId _ _ node hv hb ho hp hm hlt =>
      cases hq
      have hsaved := hs (by simp)
      have hedit : ∃ d, c.edit (dismissed node shellId) _ = .ok d := edit_ok hsaved
      obtain ⟨d, he⟩ := hedit
      refine ⟨d, ?_, .inr ⟨_, rfl, edit_puts (hsome node hb) he⟩⟩
      simp only [step, toOption_eq_some, map_eq_ok, dismissShell, bind_eq_ok, hb, require_eq_ok]
      refine ⟨((node.healthSnapshot, true), d), ⟨(), hv, (), decide_eq_true ho, (), hp, ?_⟩, rfl⟩
      simp only [if_neg hm, bind_eq_ok, require_eq_ok]
      exact ⟨(), decide_eq_true hlt, d, he, rfl⟩
  | @restoreNone _ _ _ node hb hempty =>
      cases hq
      refine ⟨c, ?_, .inl ⟨rfl, rfl⟩⟩
      simp only [step, toOption_eq_some, map_eq_ok, restoreDismissedShells, hb]
      exact ⟨((node.healthSnapshot, false), c), if_pos hempty, rfl⟩
  | @restore _ _ _ node hb hempty =>
      cases hq
      have hsaved := hs (by simp)
      have hedit : ∃ d, c.edit { node with dismissedShellIds := [] } _ = .ok d := edit_ok hsaved
      obtain ⟨d, he⟩ := hedit
      refine ⟨d, ?_, .inr ⟨_, rfl, edit_puts (hsome node hb) he⟩⟩
      simp only [step, toOption_eq_some, map_eq_ok, restoreDismissedShells, hb]
      refine ⟨((node.healthSnapshot, true), d), ?_, rfl⟩
      rw [hempty, if_neg Bool.false_ne_true, bind_eq_ok]
      exact ⟨d, he, rfl⟩

/-- A call that puts an entry down replaces no entry of a later registration. -/
theorem epoch_le_of_put (h : c.Settled) (hk : c.Keeps call) (hq : call.registration? = some q)
    (he : Effect call (c.visible q) (some node)) :
    ∀ n, c.find q.nodeId = some n → n.tombstoneEpoch ≤ q.tombstoneEpoch := by
  have hown : ∀ b, c.visible q = some b →
      ∀ n, c.find q.nodeId = some n → n.tombstoneEpoch ≤ q.tombstoneEpoch := by
    intro b hb n hn
    obtain ⟨-, -, hepoch, hf⟩ := h.visible_recorded hb
    rw [hf] at hn
    cases hn
    exact hepoch.le
  cases he with
  | commit _ hg _ =>
      cases hq
      exact hk hg
  | mark hg _ =>
      cases hq
      intro n hn
      rcases hk hg n hn with he | ⟨hlt, -⟩
      · exact he.le
      · exact hlt.le
  | claim _ _ hb => cases hq; exact hown _ hb
  | dismiss _ hb => cases hq; exact hown _ hb
  | restore hb => cases hq; exact hown _ hb

/-! ## Runs -/

/-- A step under the condition keeps the cache settled. -/
theorem Settled.step (h : c.Settled) (hk : c.Keeps call) (hs : c.step call = some d) :
    d.Settled := by
  cases hq : call.registration? with
  | some q =>
      obtain ⟨after, he, ⟨-, rfl⟩ | ⟨node, rfl, -, hp⟩⟩ := step_effect h hk hq hs
      · exact h
      · refine h.puts hp (effect_recorded _ hq (fun b hb => ?_) he).1
        obtain ⟨hr, hid, hepoch, -⟩ := h.visible_recorded hb
        exact ⟨hr, hid, hepoch⟩
  | none =>
      cases call with
      | remove nodeId saved =>
          simp only [NodeProjectionCache.step, remove, toOption_eq_some, map_eq_ok, Prod.exists,
            exists_eq_right] at hs
          obtain ⟨removed, hs⟩ := hs
          split at hs
          next => cases hs; exact h
          next =>
            simp only [bind_eq_ok, store_eq_ok, Except.ok.injEq, Prod.mk.injEq] at hs
            obtain ⟨_, ⟨-, rfl⟩, -, rfl⟩ := hs
            have hnodes : Entries (Keyed.remove CachedNode.nodeId c.nodes nodeId) :=
              ⟨(List.length_filter_le _ _).trans h.nodes.length_le, h.nodes.distinct.remove,
                fun n hn => h.nodes.recorded n (Keyed.mem_remove.mp hn).1⟩
            exact ⟨hnodes, hnodes, fun _ => rfl⟩
      | reload readable saved =>
          cases hs
          exact (h.loadAt readable _).1
      | _ => cases hq

/-- What a removal leaves. -/
theorem find_remove {nodeId : String} (h : c.Settled)
    (hs : c.step (.remove nodeId saved) = some d) (k : String) :
    d.find k = if k = nodeId then none else c.find k := by
  simp only [NodeProjectionCache.step, remove, toOption_eq_some, map_eq_ok, Prod.exists,
    exists_eq_right] at hs
  obtain ⟨removed, hs⟩ := hs
  split at hs
  next hnone =>
    cases hs
    split
    next hk => rw [hk]; exact Option.isNone_iff_eq_none.mp hnone
    next => rfl
  next =>
    simp only [bind_eq_ok, store_eq_ok, Except.ok.injEq, Prod.mk.injEq] at hs
    obtain ⟨_, ⟨-, rfl⟩, -, rfl⟩ := hs
    unfold find Keyed.remove
    rw [h.nodes.distinct.get_filter]
    cases hf : Keyed.get CachedNode.nodeId c.nodes k with
    | none => simp
    | some n =>
        rw [Option.filter_some, Keyed.key_of_get hf]
        by_cases hk : k = nodeId <;> simp [hk]

/-- A call of the registration, a removal of its Node or a reload happens in both caches alike. -/
theorem step_concerns (h : c.Settled) (h' : c'.Settled) (hown : c'.Own r)
    (hv : c.visible r = c'.visible r) (hk : c.Keeps call) (hc : call.concerns r = true)
    (hs : c.step call = some d) :
    ∃ d', c'.step call = some d' ∧ d'.Settled ∧ d'.Own r ∧ d.visible r = d'.visible r := by
  have hfilter : ∀ {e e' : NodeProjectionCache}, e.find r.nodeId = e'.find r.nodeId →
      e.visible r = e'.visible r := by
    intro e e' he
    unfold visible
    rw [he]
  cases hq : call.registration? with
  | some q =>
      -- The call is about this registration, so its effect in the one cache happens in the other.
      have hsame : q.nodeId = r.nodeId ∧ q.tombstoneEpoch = r.tombstoneEpoch := by
        cases call <;> cases hq <;> simpa [CacheCall.concerns, CacheCall.registration?] using hc
      obtain ⟨hid, hepoch⟩ := hsame
      have hownq : c'.Own q := fun n hn => by
        rw [hid, hepoch]
        exact hown n hn
      obtain ⟨after, he, hd⟩ := step_effect h hk hq hs
      have hvis : c.visible q = c'.visible q := by
        rw [visible_congr hid hepoch, hv, visible_congr hid hepoch]
      have hrec := fun node (hafter : after = some node) => effect_recorded node hq
        (fun b hb => ⟨(h.visible_recorded hb).1, (h.visible_recorded hb).2.1,
          (h.visible_recorded hb).2.2.1⟩) (hafter ▸ he)
      have hsaved : after ≠ none → call.saved = .ok () := by
        rcases hd with ⟨hnone, -⟩ | ⟨-, -, hsaved, -⟩
        · exact fun hne => absurd hnone hne
        · exact fun _ => hsaved
      rw [hvis] at he
      obtain ⟨d', hs', hd'⟩ := step_of_effect h' hownq hq hsaved he
      refine ⟨d', hs', ?_⟩
      rcases hd' with ⟨hnone, rfl⟩ | ⟨node, hafter, hp'⟩
      -- Neither cache changes, or both put the same entry.
      · rcases hd with ⟨-, rfl⟩ | ⟨node, hsome, -⟩
        · exact ⟨h', hown, hv⟩
        · rw [hnone] at hsome
          cases hsome
      · rcases hd with ⟨hnone, -⟩ | ⟨node', hafter', -, hp⟩
        · rw [hnone] at hafter
          cases hafter
        · rw [hafter] at hafter'
          cases hafter'
          obtain ⟨hr, hnid, hnepoch⟩ := hrec node hafter
          refine ⟨h'.puts hp' hr, hown.puts hp' (hnid.trans hid) (hnepoch.trans hepoch),
            hfilter ?_⟩
          rw [hp.find, hp'.find, if_pos (hnid.trans hid), if_pos (hnid.trans hid)]
  | none =>
      cases call with
      | remove nodeId saved =>
          have hnode : nodeId = r.nodeId := by simpa [CacheCall.concerns] using hc
          have hgone : d.find r.nodeId = none := by
            rw [find_remove h hs, if_pos hnode.symm]
          by_cases hpresent : (c'.find nodeId).isNone = true
          -- The other cache has no entry of the Node: there the removal does nothing.
          · refine ⟨c', ?_, h', hown, hfilter ?_⟩
            · simp [NodeProjectionCache.step, remove, hpresent, Except.map, Except.toOption]
            · rw [hgone, ← hnode]
              exact (Option.isNone_iff_eq_none.mp hpresent).symm
          · -- the purged cache has the entry, so the other one has it too, and saved
            have hsaved : saved = .ok () := by
              simp only [NodeProjectionCache.step, remove, toOption_eq_some, map_eq_ok, Prod.exists,
                exists_eq_right] at hs
              obtain ⟨removed, hs⟩ := hs
              split at hs
              next hnone =>
                have hsome := hpresent
                rw [hnode, ← hown.visible_eq, ← hv] at hsome
                rw [hnode] at hnone
                unfold visible at hsome
                rw [Option.isNone_iff_eq_none.mp hnone] at hsome
                exact absurd rfl hsome
              next =>
                simp only [bind_eq_ok, store_eq_ok] at hs
                obtain ⟨_, ⟨hsaved, -⟩, -⟩ := hs
                exact hsaved
            have hs' : ∃ d', c'.step (.remove nodeId saved) = some d' := by
              refine ⟨⟨Keyed.remove CachedNode.nodeId c'.nodes nodeId,
                some (Keyed.remove CachedNode.nodeId c'.nodes nodeId)⟩, ?_⟩
              rw [hsaved]
              simp only [NodeProjectionCache.step, remove, if_neg hpresent, toOption_eq_some,
                map_eq_ok, bind_eq_ok, store_eq_ok]
              exact ⟨(true, _), ⟨_, ⟨trivial, rfl⟩, rfl⟩, rfl⟩
            obtain ⟨d', hs'⟩ := hs'
            have hgone' : d'.find r.nodeId = none := by
              rw [find_remove h' hs', if_pos hnode.symm]
            have hkeeps : c'.Keeps (.remove nodeId saved) := trivial
            have hd' := h'.step hkeeps hs'
            refine ⟨d', hs', hd', ?_, hfilter (hgone.trans hgone'.symm)⟩
            intro n hn
            have hget : d'.find n.nodeId = some n := hd'.nodes.distinct.get_of_mem hn
            rw [find_remove h' hs'] at hget
            split at hget
            · cases hget
            · exact hown n (Keyed.mem_of_get hget)
      | reload readable saved =>
          cases hs
          obtain ⟨hd, hfind⟩ := h.loadAt readable saved
          obtain ⟨hd', hfind'⟩ := h'.loadAt readable saved
          -- A reload recovers every entry, and so it does that of the Node.
          refine ⟨_, rfl, hd', fun n hn => ?_, ?_⟩
          · have hget := hd'.nodes.distinct.get_of_mem hn
            have hget : (c'.loadAt readable saved).find n.nodeId = some n := hget
            rw [hfind'] at hget
            cases readable with
            | false => cases hget
            | true =>
                obtain ⟨old, hold, rfl⟩ := Option.map_eq_some_iff.mp hget
                rw [recovered_nodeId, recovered_tombstoneEpoch]
                exact hown old (Keyed.mem_of_get hold)
          · have hmap : ∀ {e e' : NodeProjectionCache}, (∀ k, e'.find k =
                if readable then (e.find k).map CachedNode.recovered else none) →
                e'.visible r = if readable then (e.visible r).map CachedNode.recovered
                  else none := by
              intro e e' he
              unfold visible
              rw [he]
              cases readable with
              | false => rfl
              | true =>
                  cases e.find r.nodeId with
                  | none => rfl
                  | some n =>
                      simp only [if_true, Option.map_some, Option.filter_some,
                        recovered_tombstoneEpoch]
                      split <;> rfl
            rw [hmap hfind, hmap hfind', hv]
      | _ => cases hq

/-- A call of an earlier registration, or of another Node, is not seen. -/
theorem step_unseen (h : c.Settled) (hk : c.Keeps call) (hc : call.concerns r = false)
    (hn : Newest [call] r) (hs : c.step call = some d) : d.visible r = c.visible r := by
  cases hq : call.registration? with
  | some q =>
      obtain ⟨after, he, ⟨-, rfl⟩ | ⟨node, rfl, -, hp⟩⟩ := step_effect h hk hq hs
      · rfl
      · obtain ⟨-, hnid, hnepoch⟩ := effect_recorded node hq
          (fun b hb => ⟨(h.visible_recorded hb).1, (h.visible_recorded hb).2.1,
            (h.visible_recorded hb).2.2.1⟩) he
        unfold visible
        rw [hp.find]
        by_cases hid : q.nodeId = r.nodeId
        · -- the Node is the same, so the call's registration is an earlier one
          have hne : q.tombstoneEpoch ≠ r.tombstoneEpoch := by
            intro hepoch
            cases call <;> cases hq <;>
              simp [CacheCall.concerns, CacheCall.registration?, hid, hepoch] at hc
          have hlt : q.tombstoneEpoch < r.tombstoneEpoch :=
            lt_of_le_of_ne (hn call (List.mem_singleton_self _) q hq hid) hne
          rw [if_pos (hnid.trans hid), Option.filter_some,
            if_neg (by simpa [hnepoch] using hne)]
          cases hf : c.find r.nodeId with
          | none => rfl
          | some n =>
              have hle := epoch_le_of_put h hk hq he n (hid ▸ hf)
              rw [Option.filter_some, if_neg (by simpa using (hle.trans_lt hlt).ne)]
        · rw [if_neg (fun he => hid (hnid.symm.trans he))]
  | none =>
      cases call with
      | remove nodeId saved =>
          have hne : nodeId ≠ r.nodeId := by simpa [CacheCall.concerns] using hc
          unfold visible
          rw [find_remove h hs, if_neg hne.symm]
      | reload => simp [CacheCall.concerns, CacheCall.registration?] at hc
      | _ => cases hq

/-- The run and the purged run show the registration the same. -/
theorem purge_visible (h : c.Settled) (h' : c'.Settled) (hown : c'.Own r)
    (hv : c.visible r = c'.visible r) (hm : Meets step Keeps c calls) (hn : Newest calls r)
    (he : exec step c calls = some d) :
    ∃ d', exec step c' (purge r calls) = some d' ∧ d.visible r = d'.visible r := by
  induction calls generalizing c c' with
  | nil =>
      cases he
      exact ⟨c', rfl, hv⟩
  | cons call calls ih =>
      obtain ⟨e, hs, he⟩ := Option.bind_eq_some_iff.mp he
      obtain ⟨hk, hm⟩ := hm e hs
      have hnewest : Newest calls r := fun a ha => hn a (List.mem_cons_of_mem call ha)
      unfold purge
      rw [List.filter_cons]
      split
      next hc =>
        obtain ⟨e', hs', hsettled, hown', hv'⟩ := step_concerns h h' hown hv hk hc hs
        obtain ⟨d', hd', hvis⟩ := ih (h.step hk hs) hsettled hown' hv' hm hnewest he
        refine ⟨d', ?_, hvis⟩
        rw [exec_cons, hs']
        exact hd'
      next hc =>
        have hone : Newest [call] r := fun a ha =>
          hn a (List.mem_singleton.mp ha ▸ List.mem_cons_self)
        have hsame := step_unseen h hk (Bool.eq_false_iff.mpr hc) hone hs
        exact ih (h.step hk hs) h' hown (hsame.trans hv) hm hnewest he

/-! ## What a registration is shown -/

/-- Both caches answer the registration's questions alike. -/
structure Alike (r : NodeRegistrationSnapshot) (c c' : NodeProjectionCache) : Prop where
  view : c.view r = c'.view r
  health : c.health r = c'.health r
  cursor : c.cursorAndGeneration r = c'.cursorAndGeneration r
  claims : ∀ cursor claims digest,
    (c.claimNotifications r cursor claims digest (.ok ())).map (·.1) =
      (c'.claimNotifications r cursor claims digest (.ok ())).map (·.1)

theorem alike_of_visible (hv : c.visible r = c'.visible r) : Alike r c c' where
  view := by rw [NodeProjectionCache.view, NodeProjectionCache.view, hv]
  health := by rw [NodeProjectionCache.health, NodeProjectionCache.health, hv]
  cursor := by rw [cursorAndGeneration, cursorAndGeneration, hv]
  claims := by
    intro cursor claims digest
    unfold claimNotifications
    rw [hv]
    cases claims.forM validateNotificationClaim with
    | error e => rfl
    | ok =>
        cases digest.forM validateDigestClaim with
        | error e => rfl
        | ok =>
            cases (c'.visible r).filter (·.cursor = some cursor) with
            | none => rfl
            | some node =>
                simp only [bind, Except.bind]
                split <;> rfl

/-- Every registration depends on its own calls alone, as long as no call replaces the entry of a
later registration and no `mark_health` finds the projection of an earlier one. -/
theorem epoch_isolated (hm : Meets step Keeps empty calls) (hn : Newest calls r)
    (he : exec step empty calls = some d) :
    ∃ d', exec step empty (purge r calls) = some d' ∧ Alike r d d' := by
  have hown : empty.Own r := fun n hn => absurd hn List.not_mem_nil
  obtain ⟨d', hd', hv⟩ := purge_visible empty_settled empty_settled hown rfl hm hn he
  exact ⟨d', hd', alike_of_visible hv⟩

/-! ## A Node that is registered again -/

private def nodeId : String := "00000000-0000-0000-0000-000000000009"

/-- The Node's first registration, and the one after it was forgotten. -/
def firstRegistration : NodeRegistrationSnapshot := ⟨nodeId, "work", "work.example", 1, 0⟩
def secondRegistration : NodeRegistrationSnapshot := ⟨nodeId, "work", "work.example", 1, 1⟩

/-- An empty projection of the Node. -/
def emptyObservation : ProjectionObservation where
  cursor := ⟨"00000000-0000-0000-0000-00000000000a", 3⟩
  projection := ⟨nodeId, [], [], [], []⟩
  capabilities := ["protocol_40"]
  helperVersion := "0.20.0"
  observedAtMs := 1

/-- The entry of the first registration was not removed, and the second one is observed. -/
def reobservedRun : List CacheCall :=
  [.commitProjection firstRegistration 0 emptyObservation (.ok ()),
    .commitProjection secondRegistration 0 emptyObservation (.ok ())]

/-- The same, but the first attempt to reach the Node again fails. -/
def unreachableRun : List CacheCall :=
  [.commitProjection firstRegistration 0 emptyObservation (.ok ()),
    .markHealth secondRegistration 0 .unreachable 2 none (.ok ())]

theorem newest_second (calls : List CacheCall)
    (h : (calls.all fun call => call.registration?.all fun other => other.tombstoneEpoch ≤ 1) =
      true) : Newest calls secondRegistration := by
  intro call hc other ho _
  have hall := List.all_eq_true.mp h call hc
  rw [ho] at hall
  exact of_decide_eq_true hall

theorem epoch_isolated_reobservedRun : ∃ d d', exec step empty reobservedRun = some d ∧
    exec step empty (purge secondRegistration reobservedRun) = some d' ∧
      Alike secondRegistration d d' := by
  have hrun : (exec step empty reobservedRun).isSome = true := by decide +kernel
  have hmeets : allMeet step Keeps empty reobservedRun = true := by decide +kernel
  obtain ⟨d, hd⟩ := Option.isSome_iff_exists.mp hrun
  obtain ⟨d', hd', halike⟩ := epoch_isolated (meets_of_allMeet hmeets)
    (newest_second reobservedRun (by decide)) hd
  exact ⟨d, d', hd, hd', halike⟩

/-- The second registration is shown the projection of the first one. -/
theorem not_isolated_unreachableRun : ¬ ∀ (calls : List CacheCall) (d : NodeProjectionCache)
    (r : NodeRegistrationSnapshot), Newest calls r → exec step empty calls = some d →
    ∃ d', exec step empty (purge r calls) = some d' ∧ Alike r d d' := by
  intro h
  have hrun : (exec step empty unreachableRun).any (fun d =>
      (d.view secondRegistration).projection.isSome) = true := by decide +kernel
  have hpurged : (exec step empty (purge secondRegistration unreachableRun)).all (fun d =>
      (d.view secondRegistration).projection.isNone) = true := by decide +kernel
  obtain ⟨d, hd, hsome⟩ := (Option.any_eq_true _ _).mp hrun
  obtain ⟨d', hd', halike⟩ :=
    h unreachableRun d secondRegistration (newest_second unreachableRun (by decide)) hd
  rw [hd'] at hpurged
  rw [halike.view] at hsome
  rw [Option.all_some, Option.isNone_iff_eq_none] at hpurged
  rw [hpurged] at hsome
  cases hsome

end NodeProjectionCache

end Boomux.Nodes
