import Boomux.Basic.Run
import Boomux.Nodes.Cache

/-!
# What a registration sees of the cache

A registration of a Node is told apart from an earlier one by its tombstone epoch. What the cache
shows a registration is compared with what it would show if only the calls of this registration,
the removals of its Node and the reloads had happened (`purge`).

The entry of a Node is shown only to the epoch it was recorded under, and `commit_projection`
starts over when the epochs differ. `mark_health` does not: it keeps the old entry and puts the
new epoch on it.
-/

set_option autoImplicit false

namespace Boomux.Nodes

open Rust Transition
open Daemon (EventCursor)

/-! ## Calls -/

/-- A call on the cache, with the answer of the file system; `reload` is a restart. -/
inductive CacheCall
  | commitProjection (registration : NodeRegistrationSnapshot) (expectedGeneration : Nat)
      (observation : ProjectionObservation) (saved : Except IoError Unit)
  | markHealth (registration : NodeRegistrationSnapshot) (expectedGeneration : Nat)
      (health : NodeProjectionHealthCode) (attemptAtMs : Nat) (retryAtMs : Option Nat)
      (saved : Except IoError Unit)
  | claimNotifications (registration : NodeRegistrationSnapshot) (expectedCursor : EventCursor)
      (claims : List RemoteNotificationClaim) (digest : Option RemoteDigestClaim)
      (saved : Except IoError Unit)
  | dismissShell (registration : NodeRegistrationSnapshot) (shellId : String)
      (saved : Except IoError Unit)
  | restoreDismissedShells (registration : NodeRegistrationSnapshot) (saved : Except IoError Unit)
  | remove (nodeId : String) (saved : Except IoError Unit)
  | reload (readable : Bool) (saved : Except IoError Unit)

namespace CacheCall

/-- The registration that a call is made with. -/
def registration? : CacheCall → Option NodeRegistrationSnapshot
  | commitProjection registration .. | markHealth registration ..
  | claimNotifications registration .. | dismissShell registration ..
  | restoreDismissedShells registration .. => some registration
  | remove .. | reload .. => none

/-- The answer of the file system. -/
def saved : CacheCall → Except IoError Unit
  | commitProjection _ _ _ saved | markHealth _ _ _ _ _ saved | claimNotifications _ _ _ _ saved
  | dismissShell _ _ saved | restoreDismissedShells _ saved | remove _ saved
  | reload _ saved => saved

/-- The call is one of this registration, removes its Node, or reloads the cache. -/
def concerns (registration : NodeRegistrationSnapshot) : CacheCall → Bool
  | remove nodeId _ => nodeId = registration.nodeId
  | call => call.registration?.all fun other =>
      other.nodeId = registration.nodeId && other.tombstoneEpoch = registration.tombstoneEpoch

end CacheCall

namespace NodeProjectionCache

/-- A cache without a file. -/
def empty : NodeProjectionCache := ⟨[], none⟩

/-- One call. A call that fails leaves the memory and the file as they were, and is not a step. -/
def step (c : NodeProjectionCache) : CacheCall → Option NodeProjectionCache
  | .commitProjection registration expectedGeneration observation saved =>
      ((c.commitProjection registration expectedGeneration observation saved).map (·.2)).toOption
  | .markHealth registration expectedGeneration health attemptAtMs retryAtMs saved =>
      ((c.markHealth registration expectedGeneration health attemptAtMs retryAtMs saved).map
        (·.2)).toOption
  | .claimNotifications registration expectedCursor claims digest saved =>
      ((c.claimNotifications registration expectedCursor claims digest saved).map (·.2)).toOption
  | .dismissShell registration shellId saved =>
      ((c.dismissShell registration shellId saved).map (·.2)).toOption
  | .restoreDismissedShells registration saved =>
      ((c.restoreDismissedShells registration saved).map (·.2)).toOption
  | .remove nodeId saved => ((c.remove nodeId saved).map (·.2)).toOption
  | .reload readable saved => some (c.loadAt readable saved)

end NodeProjectionCache

/-- The calls that concern a registration. -/
def purge (registration : NodeRegistrationSnapshot) (calls : List CacheCall) : List CacheCall :=
  calls.filter (·.concerns registration)

/-- No call was made with a later registration of the same Node. -/
def Newest (calls : List CacheCall) (registration : NodeRegistrationSnapshot) : Prop :=
  ∀ call ∈ calls, ∀ other, call.registration? = some other →
    other.nodeId = registration.nodeId → other.tombstoneEpoch ≤ registration.tombstoneEpoch

/-! ## Valid entries -/

namespace CachedNode

/-- An entry without a projection has nothing else that was observed. -/
structure Bare (node : CachedNode) : Prop where
  lastSuccess : node.lastSuccessAtMs = none
  capabilities : node.capabilities = []
  helperVersion : node.observedHelperVersion = none
  cursor : node.cursor = none
  notifications : node.notificationClaims = []
  digests : node.digestClaims = []
  dismissed : node.dismissedShellIds = []

/-- What every entry satisfies: `load` accepts it, and without a projection it is bare. -/
structure Recorded (node : CachedNode) : Prop where
  valid : NodeProjectionCache.validateNode node = .ok ()
  bare : node.projection = none → node.Bare

end CachedNode

/-- A list of entries that `load` accepts. -/
structure Entries (nodes : List CachedNode) : Prop where
  length_le : nodes.length ≤ maxNodes
  distinct : Keyed.Distinct CachedNode.nodeId nodes
  recorded : ∀ node ∈ nodes, node.Recorded

theorem forM_eq_ok {α ε : Type} {l : List α} {f : α → Except ε Unit} {u : Unit} :
    l.forM f = .ok u ↔ ∀ a ∈ l, f a = .ok () := by
  induction l with
  | nil => simp [pure, Except.pure]
  | cons a l ih =>
      have hcons : (a :: l).forM f = (f a >>= fun _ => l.forM f) := rfl
      rw [hcons, bind_eq_ok, List.forall_mem_cons]
      exact ⟨fun ⟨_, ha, hl⟩ => ⟨ha, ih.mp hl⟩, fun ⟨ha, hl⟩ => ⟨(), ha, ih.mpr hl⟩⟩

theorem optionForM_eq_ok {α ε : Type} {o : Option α} {f : α → Except ε Unit} {u : Unit} :
    o.forM f = .ok u ↔ ∀ a, o = some a → f a = .ok () := by
  cases o <;> simp [Option.forM, pure, Except.pure]

namespace NodeProjectionCache

/-- What `validateNode` demands. -/
structure Checked (node : CachedNode) : Prop where
  generation : node.generation ≠ 0
  capabilities : validateCapabilities node.capabilities = .ok ()
  helperVersion : ∀ version, node.observedHelperVersion = some version →
    validateHelperVersion version = .ok ()
  notifications_le : node.notificationClaims.length ≤ maxNotificationClaimsPerNode
  digests_le : node.digestClaims.length ≤ maxDigestClaimsPerNode
  dismissed_le : node.dismissedShellIds.length ≤ maxDismissedShellsPerNode
  names : ∀ shellId ∈ node.dismissedShellIds, validateCacheName shellId = .ok ()
  dismissed : node.dismissedShellIds.Nodup
  notifications : ∀ claim ∈ node.notificationClaims, validateNotificationClaim claim = .ok ()
  digests : ∀ claim ∈ node.digestClaims, validateDigestClaim claim = .ok ()
  projection : ∀ projection, node.projection = some projection →
    projection.nodeId = node.nodeId ∧ validateProjection projection = .ok ()

theorem validateNode_eq_ok {node : CachedNode} : validateNode node = .ok () ↔ Checked node := by
  simp only [validateNode, bind_eq_ok, require_eq_ok, forM_eq_ok, optionForM_eq_ok,
    Bool.and_eq_true, decide_eq_true_eq]
  constructor
  · rintro ⟨-, h₁, _, h₂, -, h₃, -, ⟨⟨h₄, h₅⟩, h₆⟩, -, h₇, -, h₈, -, h₉, -, h₁₀, h₁₁⟩
    refine ⟨h₁, h₂, h₃, h₄, h₅, h₆, h₇, h₈, h₉, h₁₀, fun projection hp => ?_⟩
    rw [hp] at h₁₁
    simpa only [bind_eq_ok, require_eq_ok, decide_eq_true_eq, exists_const] using h₁₁
  · intro h
    refine ⟨(), h.generation, (), h.capabilities, (), h.helperVersion, (),
      ⟨⟨h.notifications_le, h.digests_le⟩, h.dismissed_le⟩, (), h.names, (), h.dismissed, (),
      h.notifications, (), h.digests, ?_⟩
    cases hp : node.projection with
    | none => rfl
    | some projection =>
        simpa only [bind_eq_ok, require_eq_ok, decide_eq_true_eq, exists_const] using
          h.projection projection hp

theorem load_eq_ok {nodes : List CachedNode} (h : Entries nodes) : load nodes = .ok () := by
  simp only [load, bind_eq_ok, require_eq_ok, forM_eq_ok, decide_eq_true_eq]
  exact ⟨(), h.length_le, (), h.distinct, fun node hn => (h.recorded node hn).valid⟩

/-! ## What a write does -/

variable {c d c' d' : NodeProjectionCache} {node : CachedNode} {k : String}
  {saved : Except IoError Unit} {q r : NodeRegistrationSnapshot}

/-- `d` is `c` with this entry for its Node, in memory and in the file. -/
structure Puts (c d : NodeProjectionCache) (node : CachedNode) : Prop where
  file : d.file = some d.nodes
  find : ∀ k, d.find k = if node.nodeId = k then some node else c.find k
  mem : ∀ n ∈ d.nodes, n = node ∨ n ∈ c.nodes
  distinct : Keyed.Distinct CachedNode.nodeId c.nodes →
    Keyed.Distinct CachedNode.nodeId d.nodes
  length_le : c.nodes.length ≤ maxNodes → d.nodes.length ≤ maxNodes

theorem store_eq_ok {nodes : List CachedNode} :
    store nodes saved = .ok d ↔ saved = .ok () ∧ d = ⟨nodes, some nodes⟩ := by
  simp only [store, bind_eq_ok, Except.ok.injEq]
  exact ⟨fun ⟨_, hs, hd⟩ => ⟨hs, hd.symm⟩, fun ⟨hs, hd⟩ => ⟨(), hs, hd.symm⟩⟩

theorem sortNodes_perm (nodes : List CachedNode) : (sortNodes nodes).Perm nodes :=
  List.perm_insertionSort _ _

theorem replace_puts {limit : String} (hd : Keyed.Distinct CachedNode.nodeId c.nodes)
    (h : c.replace node limit saved = .ok d) : c.Puts d node := by
  simp only [replace, bind_eq_ok, require_eq_ok, store_eq_ok, Bool.or_eq_true,
    decide_eq_true_eq] at h
  obtain ⟨-, hroom, -, rfl⟩ := h
  refine ⟨rfl, fun k => ?_, fun n hn => ?_, fun h => ?_, fun hle => ?_⟩
  · unfold find
    rw [hd.upsert.get_perm (sortNodes_perm _).symm, Keyed.get_upsert]
  · rcases Keyed.mem_upsert.mp ((sortNodes_perm _).mem_iff.mp hn) with rfl | ⟨hn, -⟩
    · exact .inl rfl
    · exact .inr hn
  · exact h.upsert.perm (sortNodes_perm _).symm
  · dsimp only
    rw [(sortNodes_perm _).length_eq, Keyed.length_upsert]
    split
    · exact hle
    · next hnew => exact hroom.resolve_left hnew

/-- A replacement succeeds when the file can be written and there is room. -/
theorem replace_ok {limit : String} (hs : saved = .ok ())
    (hroom : (c.find node.nodeId).isSome = true ∨ c.nodes.length < maxNodes) :
    ∃ d, c.replace node limit saved = .ok d := by
  let nodes := sortNodes (Keyed.upsert CachedNode.nodeId c.nodes node)
  refine ⟨⟨nodes, some nodes⟩, ?_⟩
  simp only [replace, bind_eq_ok, require_eq_ok, store_eq_ok, Bool.or_eq_true, decide_eq_true_eq]
  exact ⟨(), hroom, hs, rfl⟩

theorem replace_saved {limit : String} (h : c.replace node limit saved = .ok d) :
    saved = .ok () := by
  simp only [replace, bind_eq_ok, store_eq_ok] at h
  obtain ⟨-, -, hs, -⟩ := h
  exact hs

theorem edit_puts (hf : (c.find node.nodeId).isSome = true) (h : c.edit node saved = .ok d) :
    c.Puts d node := by
  unfold find at hf
  obtain ⟨-, rfl⟩ := store_eq_ok.mp h
  have hup : Keyed.adjust CachedNode.nodeId c.nodes node.nodeId (fun _ => node) =
      Keyed.upsert CachedNode.nodeId c.nodes node := by
    unfold Keyed.upsert
    rw [if_pos hf]
  rw [hup]
  refine ⟨rfl, fun k => Keyed.get_upsert k, fun n hn => ?_, Keyed.Distinct.upsert, fun hle => ?_⟩
  · rcases Keyed.mem_upsert.mp hn with rfl | ⟨hn, -⟩
    · exact .inl rfl
    · exact .inr hn
  · dsimp only
    rw [Keyed.length_upsert, if_pos hf]
    exact hle

theorem edit_saved (h : c.edit node saved = .ok d) : saved = .ok () := (store_eq_ok.mp h).1

theorem edit_ok (hs : saved = .ok ()) : ∃ d, c.edit node saved = .ok d :=
  ⟨_, store_eq_ok.mpr ⟨hs, rfl⟩⟩

/-! ## The cache and its file -/

/-- Memory and file hold valid entries, and differ only in what a reload does to them. -/
structure Settled (c : NodeProjectionCache) : Prop where
  nodes : Entries c.nodes
  file : Entries (c.file.getD [])
  synced : ∀ k, (Keyed.get CachedNode.nodeId (c.file.getD []) k).map CachedNode.recovered =
    (c.find k).map CachedNode.recovered

theorem empty_settled : empty.Settled :=
  have h : Entries [] := ⟨Nat.zero_le _, List.nodup_nil, fun _ hn => absurd hn List.not_mem_nil⟩
  ⟨h, h, fun _ => rfl⟩

theorem Settled.puts (h : c.Settled) (hp : c.Puts d node) (hn : node.Recorded) : d.Settled := by
  have hd : Entries d.nodes := by
    refine ⟨hp.length_le h.nodes.length_le, hp.distinct h.nodes.distinct, fun n hmem => ?_⟩
    rcases hp.mem n hmem with rfl | hmem
    · exact hn
    · exact h.nodes.recorded n hmem
  refine ⟨hd, ?_, fun k => ?_⟩
  · rw [hp.file]
    exact hd
  · rw [hp.file]
    rfl

theorem Settled.visible_recorded (h : c.Settled) (hv : c.visible q = some node) :
    node.Recorded ∧ node.nodeId = q.nodeId ∧ node.tombstoneEpoch = q.tombstoneEpoch ∧
      c.find q.nodeId = some node := by
  obtain ⟨hf, he⟩ := Option.filter_eq_some_iff.mp hv
  exact ⟨h.nodes.recorded node (Keyed.mem_of_get hf), Keyed.key_of_get hf, of_decide_eq_true he, hf⟩

@[simp] theorem recovered_nodeId (node : CachedNode) :
    (CachedNode.recovered node).nodeId = node.nodeId := by
  unfold CachedNode.recovered
  split <;> rfl

@[simp] theorem recovered_tombstoneEpoch (node : CachedNode) :
    (CachedNode.recovered node).tombstoneEpoch = node.tombstoneEpoch := by
  unfold CachedNode.recovered
  split <;> rfl

@[simp] theorem recovered_recovered (node : CachedNode) :
    (CachedNode.recovered (CachedNode.recovered node)) = CachedNode.recovered node := by
  unfold CachedNode.recovered
  split
  · rfl
  · rfl

theorem recovered_recorded (h : node.Recorded) : (CachedNode.recovered node).Recorded := by
  unfold CachedNode.recovered
  split
  · exact ⟨h.valid, fun hp => ⟨(h.bare hp).1, (h.bare hp).2, (h.bare hp).3, (h.bare hp).4,
      (h.bare hp).5, (h.bare hp).6, (h.bare hp).7⟩⟩
  · exact h

theorem recovered_entries {nodes : List CachedNode} (h : Entries nodes) :
    Entries (nodes.map CachedNode.recovered) := by
  refine ⟨?_, h.distinct.map recovered_nodeId, fun node hn => ?_⟩
  · rw [List.length_map]
    exact h.length_le
  · obtain ⟨old, ho, rfl⟩ := List.mem_map.mp hn
    exact recovered_recorded (h.recorded old ho)

/-- What a reload leaves in memory, and that the cache stays settled. -/
theorem Settled.loadAt (h : c.Settled) (readable : Bool) (saved : Except IoError Unit) :
    (c.loadAt readable saved).Settled ∧
      ∀ k, (c.loadAt readable saved).find k =
        if readable then (c.find k).map CachedNode.recovered else none := by
  have hempty : Settled ⟨[], none⟩ := empty_settled
  cases hfile : c.file with
  | none =>
      have hload : c.loadAt readable saved = ⟨[], none⟩ := by
        simp [NodeProjectionCache.loadAt, hfile]
      rw [hload]
      refine ⟨hempty, fun k => ?_⟩
      have hsync := h.synced k
      rw [hfile] at hsync
      rw [← hsync]
      split <;> rfl
  | some nodes =>
      have hnodes : Entries nodes := by
        have := h.file
        rwa [hfile] at this
      cases readable with
      | false =>
          have hload : c.loadAt false saved = ⟨[], none⟩ := by
            simp [NodeProjectionCache.loadAt, hfile]
          rw [hload]
          exact ⟨hempty, fun k => rfl⟩
      | true =>
          have hfind : ∀ k, Keyed.get CachedNode.nodeId (nodes.map CachedNode.recovered) k =
              (c.find k).map CachedNode.recovered := by
            intro k
            rw [Keyed.get_map recovered_nodeId, ← h.synced k, hfile]
            rfl
          have hload : ∃ file, c.loadAt true saved =
              ⟨nodes.map CachedNode.recovered, some file⟩ ∧
                (file = nodes ∨ file = nodes.map CachedNode.recovered) := by
            simp only [NodeProjectionCache.loadAt, hfile, load_eq_ok hnodes]
            refine ⟨_, rfl, ?_⟩
            cases saved with
            | ok => exact .inr rfl
            | error => exact .inl rfl
          obtain ⟨file, hload, hfile'⟩ := hload
          rw [hload]
          refine ⟨⟨recovered_entries hnodes, ?_, fun k => ?_⟩, hfind⟩
          · rcases hfile' with rfl | rfl
            · exact hnodes
            · exact recovered_entries hnodes
          · rcases hfile' with rfl | rfl
            · simp [find, Keyed.get_map recovered_nodeId, Function.comp_def]
            · rfl

/-! ## The effect of a call -/

/-- The generation of an entry, or of none. -/
def generationOf (entry : Option CachedNode) : Nat := (entry.map (·.generation)).getD 0

/-- What is checked of an observation. -/
structure Observable (q : NodeRegistrationSnapshot) (observation : ProjectionObservation) :
    Prop where
  projection : validateProjection observation.projection = .ok ()
  capabilities : validateCapabilities observation.capabilities = .ok ()
  helperVersion : validateHelperVersion observation.helperVersion = .ok ()
  owner : observation.projection.nodeId = q.nodeId

theorem claimed_nodeId (node : CachedNode) (claims : List RemoteNotificationClaim)
    (digest : Option RemoteDigestClaim) : (claimed node claims digest).nodeId = node.nodeId := by
  unfold claimed
  rfl

theorem claimed_tombstoneEpoch (node : CachedNode) (claims : List RemoteNotificationClaim)
    (digest : Option RemoteDigestClaim) :
    (claimed node claims digest).tombstoneEpoch = node.tombstoneEpoch := by
  unfold claimed
  rfl

/-- What a call with the entry `before` of its registration puts in its place, or that it leaves
everything as it is. It never looks at anything else. -/
inductive Effect : CacheCall → Option CachedNode → Option CachedNode → Prop
  | commitStale {q expectedGeneration observation saved before}
      (ho : Observable q observation) (hg : generationOf before ≠ expectedGeneration) :
      Effect (.commitProjection q expectedGeneration observation saved) before none
  | commit {q expectedGeneration observation saved before generation}
      (ho : Observable q observation) (hg : generationOf before = expectedGeneration)
      (hnext : checkedAdd expectedGeneration 1 = some generation) :
      Effect (.commitProjection q expectedGeneration observation saved) before
        (some (committed before q generation observation))
  | markStale {q expectedGeneration health attemptAtMs retryAtMs saved before}
      (hg : generationOf before ≠ expectedGeneration) :
      Effect (.markHealth q expectedGeneration health attemptAtMs retryAtMs saved) before none
  | mark {q expectedGeneration health attemptAtMs retryAtMs saved before generation}
      (hg : generationOf before = expectedGeneration)
      (hnext : checkedAdd expectedGeneration 1 = some generation) :
      Effect (.markHealth q expectedGeneration health attemptAtMs retryAtMs saved) before
        (some (marked (before.getD (unobserved q)) q generation health attemptAtMs retryAtMs))
  | claimNothing {q expectedCursor claims digest saved before}
      (hc : claims.forM validateNotificationClaim = .ok ())
      (hd : digest.forM validateDigestClaim = .ok ())
      (hn : ∀ node, before.filter (·.cursor = some expectedCursor) = some node →
        (!(acceptClaims node.notificationClaims claims).1.any id &&
          !digest.any (· ∉ node.digestClaims)) = true) :
      Effect (.claimNotifications q expectedCursor claims digest saved) before none
  | claim {q expectedCursor claims digest saved before node}
      (hc : claims.forM validateNotificationClaim = .ok ())
      (hd : digest.forM validateDigestClaim = .ok ())
      (hb : before = some node) (hcur : node.cursor = some expectedCursor)
      (hn : (!(acceptClaims node.notificationClaims claims).1.any id &&
        !digest.any (· ∉ node.digestClaims)) = false) :
      Effect (.claimNotifications q expectedCursor claims digest saved) before
        (some (claimed node claims digest))
  | dismissAgain {q shellId saved before node} (hv : validateCacheName shellId = .ok ())
      (hb : before = some node) (ho : node.health ≠ .online)
      (hp : (node.projection.any fun projection =>
        (projection.shells.map (·.id)).contains shellId) = true)
      (hm : shellId ∈ node.dismissedShellIds) :
      Effect (.dismissShell q shellId saved) before none
  | dismiss {q shellId saved before node} (hv : validateCacheName shellId = .ok ())
      (hb : before = some node) (ho : node.health ≠ .online)
      (hp : (node.projection.any fun projection =>
        (projection.shells.map (·.id)).contains shellId) = true)
      (hm : shellId ∉ node.dismissedShellIds)
      (hlt : node.dismissedShellIds.length < maxDismissedShellsPerNode) :
      Effect (.dismissShell q shellId saved) before (some (dismissed node shellId))
  | restoreNone {q saved before node} (hb : before = some node)
      (he : node.dismissedShellIds.isEmpty = true) :
      Effect (.restoreDismissedShells q saved) before none
  | restore {q saved before node} (hb : before = some node)
      (he : node.dismissedShellIds.isEmpty = false) :
      Effect (.restoreDismissedShells q saved) before
        (some { node with dismissedShellIds := [] })

/-- The condition on a call: it does not replace an entry of a later registration, and
`mark_health` does not find a projection of an earlier one. -/
def Keeps (c : NodeProjectionCache) : CacheCall → Prop
  | .commitProjection q expectedGeneration .. =>
      c.actualGeneration q = expectedGeneration → ∀ node, c.find q.nodeId = some node →
        node.tombstoneEpoch ≤ q.tombstoneEpoch
  | .markHealth q expectedGeneration .. =>
      c.actualGeneration q = expectedGeneration → ∀ node, c.find q.nodeId = some node →
        node.tombstoneEpoch = q.tombstoneEpoch ∨
          node.tombstoneEpoch < q.tombstoneEpoch ∧ node.projection = none
  | _ => True

instance (c : NodeProjectionCache) (call : CacheCall) : Decidable (c.Keeps call) :=
  match call with
  | .commitProjection q expectedGeneration _ _ =>
      decidable_of_iff (c.actualGeneration q = expectedGeneration →
        (c.find q.nodeId).all (·.tombstoneEpoch ≤ q.tombstoneEpoch) = true)
        (by simp [Keeps, Option.all_eq_true])
  | .markHealth q expectedGeneration _ _ _ _ =>
      decidable_of_iff (c.actualGeneration q = expectedGeneration →
        (c.find q.nodeId).all (fun node => node.tombstoneEpoch = q.tombstoneEpoch ||
          node.tombstoneEpoch < q.tombstoneEpoch && node.projection.isNone) = true)
        (by simp [Keeps, Option.all_eq_true])
  | .claimNotifications .. | .dismissShell .. | .restoreDismissedShells .. | .remove ..
  | .reload .. => .isTrue trivial

/-- Under the condition, `mark_health` starts from the entry of its own registration. -/
theorem marked_visible (h : c.Settled) {generation attemptAtMs : Nat}
    {health : NodeProjectionHealthCode} {retryAtMs : Option Nat}
    (hk : ∀ node, c.find q.nodeId = some node → node.tombstoneEpoch = q.tombstoneEpoch ∨
      node.tombstoneEpoch < q.tombstoneEpoch ∧ node.projection = none) :
    marked ((c.find q.nodeId).getD (unobserved q)) q generation health attemptAtMs retryAtMs =
      marked ((c.visible q).getD (unobserved q)) q generation health attemptAtMs retryAtMs := by
  unfold visible
  cases hf : c.find q.nodeId with
  | none => rfl
  | some node =>
      have hid : node.nodeId = q.nodeId := Keyed.key_of_get hf
      rcases hk node hf with he | ⟨hlt, hp⟩
      · rw [Option.filter_some, if_pos (by simpa using he)]
      · -- an entry without a projection is bare: everything else is overwritten
        obtain ⟨h₁, h₂, h₃, h₄, h₅, h₆, h₇⟩ :=
          (h.nodes.recorded node (Keyed.mem_of_get hf)).bare hp
        rw [Option.filter_some, if_neg (by simpa using hlt.ne)]
        simp [marked, unobserved, hid, hp, h₁, h₂, h₃, h₄, h₅, h₆, h₇]

/-- A step with a registration is an effect on the entry of this registration. -/
theorem step_effect (h : c.Settled) {call : CacheCall} (hk : c.Keeps call)
    (hq : call.registration? = some q) (hs : c.step call = some d) :
    ∃ after, Effect call (c.visible q) after ∧
      (after = none ∧ d = c ∨
        ∃ node, after = some node ∧ call.saved = .ok () ∧ c.Puts d node) := by
  have hsome : ∀ node, c.visible q = some node → (c.find node.nodeId).isSome = true := by
    intro node hv
    obtain ⟨-, hid, -, hf⟩ := h.visible_recorded hv
    rw [hid, hf]
    rfl
  cases call with
  | commitProjection q' expectedGeneration observation saved =>
      cases hq
      simp only [step, commitProjection, toOption_eq_some, map_eq_ok, bind_eq_ok, require_eq_ok,
        decide_eq_true_eq, Prod.exists, exists_eq_right] at hs
      obtain ⟨answer, _, hproj, _, hcap, _, hver, -, howner, hs⟩ := hs
      have ho : Observable q observation := ⟨hproj, hcap, hver, howner⟩
      split at hs
      next hg =>
        cases hs
        exact ⟨none, .commitStale ho hg, .inl ⟨rfl, rfl⟩⟩
      next hg =>
        split at hs
        next => cases hs
        next generation hnext =>
          simp only [bind_eq_ok, Except.ok.injEq, Prod.mk.injEq] at hs
          obtain ⟨d', hr, -, rfl⟩ := hs
          exact ⟨_, .commit ho (not_not.mp hg) hnext,
            .inr ⟨_, rfl, replace_saved hr, replace_puts h.nodes.distinct hr⟩⟩
  | markHealth q' expectedGeneration health attemptAtMs retryAtMs saved =>
      cases hq
      simp only [step, markHealth, toOption_eq_some, map_eq_ok, Prod.exists, exists_eq_right] at hs
      obtain ⟨answer, hs⟩ := hs
      split at hs
      next hg =>
        cases hs
        exact ⟨none, .markStale hg, .inl ⟨rfl, rfl⟩⟩
      next hg =>
        split at hs
        next => cases hs
        next generation hnext =>
          simp only [bind_eq_ok, Except.ok.injEq, Prod.mk.injEq] at hs
          obtain ⟨d', hr, -, rfl⟩ := hs
          -- The entry that is cloned is the visible one, since the call keeps to this epoch.
          rw [marked_visible h (hk (not_not.mp hg))] at hr
          exact ⟨_, .mark (not_not.mp hg) hnext,
            .inr ⟨_, rfl, replace_saved hr, replace_puts h.nodes.distinct hr⟩⟩
  | claimNotifications q' expectedCursor claims digest saved =>
      cases hq
      simp only [step, claimNotifications, toOption_eq_some, map_eq_ok, bind_eq_ok, Prod.exists,
        exists_eq_right] at hs
      obtain ⟨answer, _, hc, _, hd, hs⟩ := hs
      split at hs
      -- No entry has the cursor, so that nothing is claimed.
      next hv =>
        cases hs
        refine ⟨none, .claimNothing hc hd fun node hn => ?_, .inl ⟨rfl, rfl⟩⟩
        rw [hv] at hn
        cases hn
      next node hv =>
        split at hs
        -- All the claims have been accepted before.
        next hn =>
          cases hs
          refine ⟨none, .claimNothing hc hd fun node' hn' => ?_, .inl ⟨rfl, rfl⟩⟩
          rw [hv] at hn'
          cases hn'
          exact hn
        next hn =>
          simp only [bind_eq_ok, Except.ok.injEq, Prod.mk.injEq] at hs
          obtain ⟨d', he, -, rfl⟩ := hs
          obtain ⟨hvis, hcur⟩ := Option.filter_eq_some_iff.mp hv
          have hf : (c.find (claimed node claims digest).nodeId).isSome = true := by
            rw [claimed_nodeId]
            exact hsome node hvis
          exact ⟨_, .claim hc hd hvis (of_decide_eq_true hcur) (by simpa using hn),
            .inr ⟨_, rfl, edit_saved he, edit_puts hf he⟩⟩
  | dismissShell q' shellId saved =>
      cases hq
      simp only [step, dismissShell, toOption_eq_some, map_eq_ok, bind_eq_ok, Prod.exists,
        exists_eq_right] at hs
      obtain ⟨answer, changed, _, hv, hs⟩ := hs
      split at hs
      next => cases hs
      next node hvis =>
        simp only [bind_eq_ok, require_eq_ok, decide_eq_true_eq] at hs
        obtain ⟨-, ho, -, hp, hs⟩ := hs
        split at hs
        -- The Shell is dismissed already.
        next hm =>
          cases hs
          exact ⟨none, .dismissAgain hv hvis ho hp hm, .inl ⟨rfl, rfl⟩⟩
        next hm =>
          simp only [bind_eq_ok, require_eq_ok, decide_eq_true_eq, Except.ok.injEq,
            Prod.mk.injEq] at hs
          obtain ⟨-, hlt, d', he, -, rfl⟩ := hs
          exact ⟨_, .dismiss hv hvis ho hp hm hlt,
            .inr ⟨_, rfl, edit_saved he, edit_puts (hsome node hvis) he⟩⟩
  | restoreDismissedShells q' saved =>
      cases hq
      simp only [step, restoreDismissedShells, toOption_eq_some, map_eq_ok, Prod.exists,
        exists_eq_right] at hs
      obtain ⟨answer, changed, hs⟩ := hs
      split at hs
      next => cases hs
      next node hvis =>
        split at hs
        next he =>
          cases hs
          -- There was nothing to restore.
          exact ⟨none, .restoreNone hvis he, .inl ⟨rfl, rfl⟩⟩
        next he =>
          simp only [bind_eq_ok, Except.ok.injEq, Prod.mk.injEq] at hs
          obtain ⟨d', hedit, -, rfl⟩ := hs
          exact ⟨_, .restore hvis (by simpa using he),
            .inr ⟨_, rfl, edit_saved hedit, edit_puts (hsome node hvis) hedit⟩⟩
  | remove => cases hq
  | reload => cases hq

end NodeProjectionCache

end Boomux.Nodes
