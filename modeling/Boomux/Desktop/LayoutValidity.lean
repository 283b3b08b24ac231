import Boomux.Desktop.LayoutState

/-!
# What the validation of a layout accepts

`Tree::validate`, the body of the loop over the arrangements and `Document::validate` say yes
exactly to the trees, arrangements and documents described here. From this follows that leaving
out unbound panes keeps a document valid.
-/

set_option autoImplicit false

namespace Boomux.Desktop

open Rust

/-! ## Trees -/

namespace Tree

/-- The panes in the order in which `validate` meets them. -/
def ids : Tree → List Nat
  | .pane id => [id]
  | .split _ _ first second => first.ids ++ second.ids

/-- How many splits lie above the deepest pane. -/
def height : Tree → Nat
  | .pane _ => 0
  | .split _ _ first second => max first.height second.height + 1

/-- A ratio that `validate` accepts. -/
def ratioValid (ratio : Float32) : Bool :=
  ratio.isFinite && (decide ((0.01 : Float32) ≤ ratio) && decide (ratio ≤ (0.99 : Float32)))

/-- Every split has an acceptable ratio. -/
def RatiosValid : Tree → Prop
  | .pane _ => True
  | .split _ ratio first second => ratioValid ratio = true ∧ first.RatiosValid ∧ second.RatiosValid

theorem one_le_length_ids (t : Tree) : 1 ≤ t.ids.length := by
  induction t with
  | pane id => exact Nat.le_refl _
  | split h r first second ih _ =>
      rw [ids, List.length_append]
      omega

/-- `Tree::validate` accepts the trees of bounded height and size with good ratios whose panes are
new and distinct. -/
theorem validate_eq_ok (t : Tree) {depth : Nat} {seen seen' : List Nat} :
    t.validate depth seen = .ok seen' ↔
      depth + t.height ≤ 64 ∧ seen.length + t.ids.length ≤ maxPanes ∧ t.RatiosValid ∧ t.ids.Nodup
        ∧ (∀ id ∈ t.ids, id ∉ seen) ∧ seen' = t.ids.reverse ++ seen := by
  induction t generalizing depth seen seen' with
  | pane id =>
      simp only [validate, require_bind_eq_ok, Except.ok.injEq, ids, height, RatiosValid,
        Bool.not_eq_true', Bool.or_eq_false_iff, decide_eq_false_iff_not, not_lt, not_le,
        List.contains_eq_mem, List.length_singleton, List.nodup_singleton,
        List.forall_mem_singleton, List.reverse_singleton, List.singleton_append, true_and,
        Nat.add_zero]
      constructor
      · rintro ⟨⟨hd, hn⟩, hnew, rfl⟩
        exact ⟨hd, hn, hnew, rfl⟩
      · rintro ⟨hd, hn, hnew, rfl⟩
        exact ⟨⟨hd, hn⟩, hnew, rfl⟩
  -- The panes of the first half are seen when the second is checked.
  | split h ratio first second ih₁ ih₂ =>
      have hone := first.one_le_length_ids
      simp only [validate, require_bind_eq_ok]
      simp only [bind_eq_ok, ih₁, ih₂, ids, height, RatiosValid, ratioValid,
        Bool.not_eq_true', Bool.or_eq_false_iff, decide_eq_false_iff_not, not_lt, not_le,
        List.length_append, List.nodup_append, List.mem_append, List.reverse_append]
      constructor
      · rintro ⟨⟨hd, hn⟩, hratio, mid, ⟨hd₁, hn₁, hr₁, hdist₁, hnew₁, rfl⟩, hd₂, hn₂, hr₂, hdist₂,
          hnew₂, rfl⟩
        rw [List.length_append, List.length_reverse] at hn₂
        refine ⟨by omega, by omega, ⟨hratio, hr₁, hr₂⟩, ⟨hdist₁, hdist₂, ?_⟩, ?_, by simp⟩
        · rintro a ha b hb rfl
          exact hnew₂ a hb (List.mem_append_left _ (List.mem_reverse.mpr ha))
        · rintro id (hid | hid)
          · exact hnew₁ id hid
          · exact fun hs => hnew₂ id hid (List.mem_append_right _ hs)
      · rintro ⟨hd, hn, ⟨hratio, hr₁, hr₂⟩, ⟨hdist₁, hdist₂, hdisjoint⟩, hnew, rfl⟩
        refine ⟨⟨by omega, by omega⟩, hratio, _, ⟨by omega, by omega, hr₁, hdist₁,
          fun id hid => hnew id (Or.inl hid), rfl⟩, by omega, ?_, hr₂, hdist₂, ?_, by simp⟩
        · rw [List.length_append, List.length_reverse]
          omega
        · intro id hid hmem
          rcases List.mem_append.mp hmem with hmem | hmem
          · exact hdisjoint id (List.mem_reverse.mp hmem) id hid rfl
          · exact hnew id (Or.inr hid) hmem

end Tree

/-! ## Floating panes and Shells -/

theorem validateFloating_eq_ok {ids ids' : List Nat} {f : Floating} :
    validateFloating ids f = .ok ids' ↔ f.Valid ∧ f.pane ∉ ids ∧ ids' = f.pane :: ids := by
  unfold validateFloating Floating.Valid
  simp only [require_bind_eq_ok, Except.ok.injEq, Bool.not_eq_true', Bool.or_eq_false_iff,
    Bool.not_eq_false', decide_eq_false_iff_not, List.contains_eq_mem]
  constructor
  · rintro ⟨⟨⟨⟨hnew, hfinite⟩, hw⟩, hh⟩, rfl⟩
    exact ⟨⟨hfinite, hw, hh⟩, hnew, rfl⟩
  · rintro ⟨⟨hfinite, hw, hh⟩, hnew, rfl⟩
    exact ⟨⟨⟨⟨hnew, hfinite⟩, hw⟩, hh⟩, rfl⟩

/-- The Shells that panes are bound to. -/
def boundShells (panes : List Pane) : List String := panes.filterMap Pane.shell

theorem foldlM_validateShell_eq_ok {panes : List Pane} {seen : List String} :
    (∃ seen', panes.foldlM validateShell seen = .ok seen') ↔
      (∀ shell ∈ boundShells panes, shell.utf8ByteSize ≤ 1024) ∧ (boundShells panes).Nodup
        ∧ ∀ shell ∈ boundShells panes, shell ∉ seen := by
  induction panes generalizing seen with
  | nil => simp [boundShells, pure, Except.pure]
  | cons pane panes ih =>
      cases hshell : pane.shell with
      | none =>
          have hbound : boundShells (pane :: panes) = boundShells panes := by
            simp [boundShells, hshell]
          have hstep : (pane :: panes).foldlM validateShell seen =
              panes.foldlM validateShell seen := by
            rw [List.foldlM_cons, validateShell, hshell]
            rfl
          rw [hbound, hstep]
          exact ih
      | some shell =>
          have hbound : boundShells (pane :: panes) = shell :: boundShells panes := by
            simp [boundShells, hshell]
          have hstep (seen' : List String) : validateShell seen pane = .ok seen' ↔
              shell.utf8ByteSize ≤ 1024 ∧ shell ∉ seen ∧ seen' = shell :: seen := by
            rw [validateShell, hshell]
            simp only [require_bind_eq_ok, Except.ok.injEq, Bool.not_eq_true', Bool.or_eq_false_iff,
              decide_eq_false_iff_not, not_lt, List.contains_eq_mem, and_assoc]
            rw [eq_comm (a := seen')]
          simp only [hbound, List.foldlM_cons, bind_eq_ok, hstep, List.forall_mem_cons,
            List.nodup_cons]
          constructor
          · rintro ⟨final, _, ⟨hsize, hnew, rfl⟩, hrest⟩
            obtain ⟨hsizes, hdist, hfresh⟩ := ih.mp ⟨final, hrest⟩
            exact ⟨⟨hsize, hsizes⟩, ⟨fun hmem => hfresh _ hmem (List.mem_cons_self ..), hdist⟩,
              hnew,
              fun shell' hmem hs => hfresh shell' hmem (List.mem_cons_of_mem _ hs)⟩
          · rintro ⟨⟨hsize, hsizes⟩, ⟨hhead, hdist⟩, hnew, hfresh⟩
            have hrest : ∃ seen', panes.foldlM validateShell (shell :: seen) = .ok seen' := by
              refine ih.mpr ⟨hsizes, hdist, fun shell' hmem hs => ?_⟩
              rcases List.mem_cons.mp hs with rfl | hs
              · exact hhead hmem
              · exact hfresh shell' hmem hs
            obtain ⟨final, hrest⟩ := hrest
            exact ⟨final, _, ⟨hsize, hnew, rfl⟩, hrest⟩

/-! ## Arrangements -/

namespace Arrangement

/-- The tiled panes and then the floating ones. -/
def ids (a : Arrangement) : List Nat :=
  (a.tree.elim [] Tree.ids) ++ a.floating.map Floating.pane

/-- What `validate` asks of one arrangement. -/
structure Valid (a : Arrangement) : Prop where
  tree : ∀ t, a.tree = some t → t.height ≤ 64 ∧ t.RatiosValid
  distinct : a.ids.Nodup
  floating : ∀ f ∈ a.floating, f.Valid
  count : a.ids.length = a.panes.len
  references : ∀ id ∈ a.ids, id ∈ a.panes.keys
  focused : ∀ id, a.focused = some id → id ∈ a.ids
  expanded : ∀ id, a.expanded = some id → id ∈ a.ids
  canvas : a.canvas.all (fun v => v.isFinite && decide ((0.0 : Float32) < v)) = true
  shells : (boundShells a.panes.values).Nodup
  sizes : ∀ shell ∈ boundShells a.panes.values, shell.utf8ByteSize ≤ 1024

theorem validateTree_eq_ok {a : Arrangement} {ids : List Nat} : a.validateTree = .ok ids ↔
    (∀ t, a.tree = some t → t.height ≤ 64 ∧ t.RatiosValid) ∧ (a.tree.elim [] Tree.ids).Nodup
      ∧ (a.tree.elim [] Tree.ids).length ≤ maxPanes ∧ ids = (a.tree.elim [] Tree.ids).reverse := by
  unfold validateTree
  cases a.tree with
  | none => simp [eq_comm]
  | some t =>
      simp only [Tree.validate_eq_ok, Option.some.injEq, forall_eq', Option.elim_some,
        List.length_nil, Nat.zero_add, List.not_mem_nil, not_false_eq_true, implies_true, true_and,
        List.append_nil]
      constructor
      · rintro ⟨hh, hn, hr, hd, rfl⟩
        exact ⟨⟨hh, hr⟩, hd, hn, rfl⟩
      · rintro ⟨⟨hh, hr⟩, hd, hn, rfl⟩
        exact ⟨hh, hn, hr, hd, rfl⟩

theorem validate_eq_ok {total total' : Nat} {a : Arrangement} :
    a.validate total = .ok total' ↔
      a.Valid ∧ total + a.ids.length ≤ maxPanes ∧ total' = total + a.ids.length := by
  have hfloating (ids ids' : List Nat) : a.floating.foldlM validateFloating ids = .ok ids' ↔
      (∀ f ∈ a.floating, f.Valid) ∧ (a.floating.map Floating.pane).Nodup
        ∧ (∀ f ∈ a.floating, f.pane ∉ ids)
        ∧ ids' = (a.floating.map Floating.pane).reverse ++ ids :=
    foldlM_collect fun _ _ _ => validateFloating_eq_ok
  have hids : (a.floating.map Floating.pane).reverse ++ (a.tree.elim [] Tree.ids).reverse
      = a.ids.reverse := by
    rw [ids, List.reverse_append]
  have hdistinct : a.ids.Nodup ↔ (a.tree.elim [] Tree.ids).Nodup
      ∧ (a.floating.map Floating.pane).Nodup
      ∧ ∀ f ∈ a.floating, f.pane ∉ (a.tree.elim [] Tree.ids).reverse := by
    rw [ids, List.nodup_append]
    refine and_congr_right fun _ => and_congr_right fun _ => ⟨?_, ?_⟩
    · intro h f hf hmem
      exact h _ (List.mem_reverse.mp hmem) _ (List.mem_map_of_mem hf) rfl
    · intro h id hid id' hid' heq
      obtain ⟨f, hf, rfl⟩ := List.mem_map.mp hid'
      exact h f hf (List.mem_reverse.mpr (heq ▸ hid))
  have hcheck : (!(decide (maxPanes < total + a.ids.reverse.length) ||
      a.ids.reverse.length != a.panes.len || !a.ids.reverse.all a.panes.containsKey)) = true ↔
      total + a.ids.length ≤ maxPanes ∧ a.ids.length = a.panes.len
        ∧ ∀ id ∈ a.ids, id ∈ a.panes.keys := by
    simp [BTreeMap.containsKey_iff, and_assoc]
  have hmembers : (a.focused.toList ++ a.expanded.toList).all a.ids.reverse.contains = true ↔
      (∀ id, a.focused = some id → id ∈ a.ids) ∧ ∀ id, a.expanded = some id → id ∈ a.ids := by
    simp
  unfold validate
  simp only [bind_eq_ok, validateTree_eq_ok, hfloating, require_eq_ok, Except.ok.injEq]
  constructor
  · rintro ⟨_, ⟨htree, hd, -, rfl⟩, _, ⟨hvalid, hdf, hnew, rfl⟩, _, hc, _, hm, _, hcanvas, shells,
      hshells,
      rfl⟩
    rw [hids] at hc hm ⊢
    obtain ⟨htotal, hcount, hreferences⟩ := hcheck.mp hc
    obtain ⟨hfocused, hexpanded⟩ := hmembers.mp hm
    obtain ⟨hsizes, hdistinctShells, -⟩ := foldlM_validateShell_eq_ok.mp ⟨shells, hshells⟩
    exact ⟨⟨htree, hdistinct.mpr ⟨hd, hdf, hnew⟩, hvalid, hcount, hreferences, hfocused, hexpanded,
      hcanvas, hdistinctShells, hsizes⟩, htotal, by rw [List.length_reverse]⟩
  · rintro ⟨h, htotal, rfl⟩
    obtain ⟨hd, hdf, hnew⟩ := hdistinct.mp h.distinct
    obtain ⟨shells, hshells⟩ :=
      foldlM_validateShell_eq_ok.mpr ⟨h.sizes, h.shells, fun _ _ => List.not_mem_nil⟩
    have hsize : (a.tree.elim [] Tree.ids).length ≤ maxPanes := by
      have hlen : a.ids.length = (a.tree.elim [] Tree.ids).length + a.floating.length := by
        rw [ids, List.length_append, List.length_map]
      omega
    refine ⟨_, ⟨h.tree, hd, hsize, rfl⟩, _, ⟨h.floating, hdf, hnew, rfl⟩, (), ?_, (), ?_, (),
      h.canvas,
      shells, hshells, ?_⟩
    · rw [hids]
      exact hcheck.mpr ⟨htotal, h.count, h.references⟩
    · rw [hids]
      exact hmembers.mpr ⟨h.focused, h.expanded⟩
    · rw [hids, List.length_reverse]

theorem foldlM_validate_eq_ok {l : List Arrangement} {total : Nat} (htotal : total ≤ maxPanes) :
    (∃ total', l.foldlM validate total = .ok total') ↔
      (∀ a ∈ l, a.Valid) ∧ total + (l.map fun a => a.ids.length).sum ≤ maxPanes := by
  induction l generalizing total with
  | nil => simpa [pure, Except.pure] using htotal
  | cons a l ih =>
      simp only [List.foldlM_cons, bind_eq_ok, validate_eq_ok, List.forall_mem_cons, List.map_cons,
        List.sum_cons]
      constructor
      · rintro ⟨final, _, ⟨ha, hle, rfl⟩, hrest⟩
        obtain ⟨hl, hsum⟩ := (ih hle).mp ⟨final, hrest⟩
        exact ⟨⟨ha, hl⟩, by omega⟩
      · rintro ⟨⟨ha, hl⟩, hsum⟩
        have hle : total + a.ids.length ≤ maxPanes := by omega
        obtain ⟨final, hrest⟩ := (ih hle).mpr ⟨hl, by omega⟩
        exact ⟨final, _, ⟨ha, hle, rfl⟩, hrest⟩

/-- The panes of an arrangement are those of its map. -/
theorem Valid.ids_perm_keys {a : Arrangement} (h : a.Valid) : a.ids.Perm a.panes.keys :=
  (List.subperm_of_subset h.distinct h.references).perm_of_length_le
    (by rw [BTreeMap.length_keys, h.count])

end Arrangement

/-! ## Documents -/

/-- What `validate` asks of a document. -/
structure Document.Valid (d : Document) : Prop where
  version : d.version = 4
  macWindow : (!d.macWindow.any fun window =>
    decide (128 < window.display.utf8ByteSize) || !windowGeometryValid window.rect) = true
  workspaces : d.arrangements.len ≤ 256
  minimized : d.minimized.length ≤ maxPanes
  workspaceOrder : d.workspaceOrder.length ≤ 4096
  hidden : d.hiddenRemoteWorkspaces.len ≤ 256 ∧ (d.hiddenRemoteWorkspaces.entries.all fun entry =>
    hiddenRemoteWorkspaceValid entry.1 entry.2) = true
  conversations : d.conversations.length ≤ 4096 ∧
    ∃ identities, d.conversations.foldlM validateConversation [] = .ok identities
  arrangements : ∀ a ∈ d.arrangements.values, a.Valid
  total : (d.arrangements.values.map fun a => a.ids.length).sum ≤ maxPanes

theorem Document.validate_eq_ok {d : Document} : d.validate = .ok () ↔ d.Valid := by
  have hfold := Arrangement.foldlM_validate_eq_ok (l := d.arrangements.values)
    (Nat.zero_le maxPanes)
  unfold Document.validate
  simp only [require_bind_eq_ok]
  simp only [bind_eq_ok, Bool.not_eq_true', Bool.or_eq_false_iff, decide_eq_false_iff_not, not_lt,
    beq_iff_eq, decide_eq_true_iff, and_true]
  constructor
  · rintro ⟨hv, hm, ⟨⟨⟨ha, hmin⟩, hh⟩, ho⟩, hhid, hc, identities, hconv, total, hfolded⟩
    obtain ⟨hall, hsum⟩ := hfold.mp ⟨total, hfolded⟩
    exact ⟨hv, by rw [hm]; rfl, ha, hmin, ho, ⟨hh, hhid⟩, ⟨hc, identities, hconv⟩, hall, by omega⟩
  · rintro ⟨hv, hm, ha, hmin, ho, ⟨hh, hhid⟩, ⟨hc, identities, hconv⟩, hall, hsum⟩
    obtain ⟨total, hfolded⟩ := hfold.mpr ⟨hall, by omega⟩
    exact ⟨hv, by simpa using hm, ⟨⟨⟨ha, hmin⟩, hh⟩, ho⟩, hhid, hc, identities, hconv, total,
      hfolded⟩

/-! ## Unbound panes left out -/

namespace Tree

variable {panes : BTreeMap Nat Pane} {t t' : Tree}

/-- What remains keeps its order. -/
theorem ids_prune (panes : BTreeMap Nat Pane) (t : Tree) :
    (t.prune panes).elim [] ids = t.ids.filter panes.containsKey := by
  induction t with
  | pane id =>
      cases h : panes.containsKey id <;> simp [prune, ids, h]
  | split h ratio first second ih₁ ih₂ =>
      rw [prune, ids, List.filter_append, ← ih₁, ← ih₂]
      cases first.prune panes <;> cases second.prune panes <;> simp [ids]

/-- A split keeps both sides, or gives way to the one that remains. -/
theorem prune_split {horizontal : Bool} {ratio : Float32} {first second : Tree}
    (h : (split horizontal ratio first second).prune panes = some t') :
    (∃ first' second', first.prune panes = some first' ∧ second.prune panes = some second'
      ∧ t' = split horizontal ratio first' second')
    ∨ first.prune panes = some t' ∨ second.prune panes = some t' := by
  rw [prune] at h
  cases h₁ : first.prune panes with
  | none =>
      cases h₂ : second.prune panes with
      | none => simp [h₁, h₂] at h
      | some second' => exact Or.inr (Or.inr (by simpa [h₁, h₂] using h))
  | some first' =>
      cases h₂ : second.prune panes with
      | none => exact Or.inr (Or.inl (by simpa [h₁, h₂] using h))
      | some second' => exact Or.inl ⟨first', second', rfl, rfl, by simpa [h₁, h₂] using h.symm⟩

theorem prune_pane {id : Nat} (h : (pane id).prune panes = some t') : t' = pane id := by
  rw [prune] at h
  split at h <;> cases h
  rfl

theorem height_prune (h : t.prune panes = some t') : t'.height ≤ t.height := by
  induction t generalizing t' with
  | pane id => rw [prune_pane h]
  | split horizontal ratio first second ih₁ ih₂ =>
      rcases prune_split h with ⟨first', second', h₁, h₂, rfl⟩ | h₁ | h₂
      · have hfirst := ih₁ h₁
        have hsecond := ih₂ h₂
        rw [height, height]
        omega
      · have hfirst := ih₁ h₁
        rw [height]
        omega
      · have hsecond := ih₂ h₂
        rw [height]
        omega

theorem RatiosValid.prune (hr : t.RatiosValid) (h : t.prune panes = some t') : t'.RatiosValid := by
  induction t generalizing t' with
  | pane id =>
      rw [prune_pane h]
      exact hr
  | split horizontal ratio first second ih₁ ih₂ =>
      rcases prune_split h with ⟨first', second', h₁, h₂, rfl⟩ | h₁ | h₂
      · exact ⟨hr.1, ih₁ hr.2.1 h₁, ih₂ hr.2.2 h₂⟩
      · exact ih₁ hr.2.1 h₁
      · exact ih₂ hr.2.2 h₂

/-- A tree of bound panes is left as it is. -/
theorem prune_of_bound (h : ∀ id ∈ t.ids, panes.containsKey id = true) :
    t.prune panes = some t := by
  induction t with
  | pane id => rw [prune, if_pos (h id (List.mem_singleton_self _))]
  | split horizontal ratio first second ih₁ ih₂ =>
      rw [prune, ih₁ fun id hid => h id (List.mem_append_left _ hid),
        ih₂ fun id hid => h id (List.mem_append_right _ hid)]

end Tree

namespace Arrangement

variable {a : Arrangement}

/-- A pane that stands for a Shell. -/
def bound (a : Arrangement) (id : Nat) : Bool :=
  (a.panes.lookup id).any fun pane => pane.shell.isSome

theorem containsKey_discardUnboundPanes (a : Arrangement) :
    a.discardUnboundPanes.panes.containsKey = a.bound := by
  funext id
  rw [Bool.eq_iff_iff, BTreeMap.containsKey_iff, BTreeMap.mem_keys, bound, Option.any_eq_true]
  constructor
  · rintro ⟨pane, hpane⟩
    obtain ⟨hmem, hsome⟩ := BTreeMap.mem_retain.mp hpane
    exact ⟨pane, BTreeMap.lookup_eq_some.mpr hmem, hsome⟩
  · rintro ⟨pane, hpane, hsome⟩
    exact ⟨pane, BTreeMap.mem_retain.mpr ⟨BTreeMap.lookup_eq_some.mp hpane, hsome⟩⟩

/-- The bound panes remain, in the order in which they were. -/
theorem ids_discardUnboundPanes (a : Arrangement) :
    a.discardUnboundPanes.ids = a.ids.filter a.bound := by
  have htree : a.discardUnboundPanes.tree.elim [] Tree.ids =
      (a.tree.elim [] Tree.ids).filter a.bound := by
    rw [← containsKey_discardUnboundPanes]
    show (a.tree.bind (Tree.prune a.discardUnboundPanes.panes)).elim [] Tree.ids = _
    cases a.tree with
    | none => rfl
    | some t => exact Tree.ids_prune _ t
  rw [ids, ids, htree, List.filter_append, List.filter_map, ← containsKey_discardUnboundPanes]
  rfl

theorem boundShells_discardUnboundPanes (a : Arrangement) :
    boundShells a.discardUnboundPanes.panes.values = boundShells a.panes.values := by
  show ((a.panes.entries.filter fun entry => entry.2.shell.isSome).map Prod.snd).filterMap
      Pane.shell
    = (a.panes.entries.map Prod.snd).filterMap Pane.shell
  rw [List.filterMap_map, List.filterMap_map, List.filterMap_filter]
  refine List.filterMap_congr fun entry _ => ?_
  cases h : entry.2.shell <;> simp [h]

/-- What is left to ask of an arrangement of distinct panes once the unbound ones are left out: the
references are right. -/
theorem discardUnboundPanes_valid_iff (hdistinct : a.ids.Nodup)
    (hkeys : ∀ id ∈ a.panes.keys, id ∈ a.ids) (hfloating : ∀ f ∈ a.floating, f.Valid) :
    a.discardUnboundPanes.Valid ↔
      (∀ t, a.discardUnboundPanes.tree = some t → t.height ≤ 64 ∧ t.RatiosValid)
        ∧ a.canvas.all (fun v => v.isFinite && decide ((0.0 : Float32) < v)) = true
        ∧ (boundShells a.panes.values).Nodup
        ∧ ∀ shell ∈ boundShells a.panes.values, shell.utf8ByteSize ≤ 1024 := by
  have hids := a.ids_discardUnboundPanes
  have hmem (id : Nat) : id ∈ a.discardUnboundPanes.ids ↔
      id ∈ a.discardUnboundPanes.panes.keys := by
    rw [hids, List.mem_filter, ← containsKey_discardUnboundPanes, BTreeMap.containsKey_iff]
    refine and_iff_right_of_imp fun hid => hkeys id ?_
    obtain ⟨pane, hpane⟩ := BTreeMap.mem_keys.mp hid
    exact BTreeMap.mem_keys_of_mem (BTreeMap.mem_retain.mp hpane).1
  have hdistinct' : a.discardUnboundPanes.ids.Nodup := by
    rw [hids]
    exact hdistinct.filter _
  have hperm : a.discardUnboundPanes.ids.Perm a.discardUnboundPanes.panes.keys :=
    (List.perm_ext_iff_of_nodup hdistinct' (BTreeMap.keys_nodup _)).mpr hmem
  rw [← boundShells_discardUnboundPanes]
  refine ⟨fun h => ⟨h.tree, h.canvas, h.shells, h.sizes⟩, fun ⟨htree, hcanvas, hshells, hsizes⟩ =>
    ⟨htree, hdistinct', ?_, ?_, fun id hid => (hmem id).mp hid, ?_, ?_, hcanvas, hshells, hsizes⟩⟩
  · exact fun f hf => hfloating f (List.mem_filter.mp hf).1
  · rw [hperm.length_eq, BTreeMap.length_keys]
  · intro id hid
    rw [hmem]
    rcases Option.or_eq_some_iff.mp hid with hid | ⟨-, hid⟩
    · exact BTreeMap.containsKey_iff.mp (Option.filter_eq_some_iff.mp hid).2
    · exact List.mem_of_head? hid
  · intro id hid
    rw [hmem]
    exact BTreeMap.containsKey_iff.mp (Option.filter_eq_some_iff.mp hid).2

/-- Without its unbound panes a valid arrangement is valid. -/
theorem Valid.discardUnboundPanes (h : a.Valid) : a.discardUnboundPanes.Valid := by
  refine (discardUnboundPanes_valid_iff h.distinct (fun id hid => h.ids_perm_keys.mem_iff.mpr hid)
    h.floating).mpr ⟨fun t ht => ?_, h.canvas, h.shells, h.sizes⟩
  obtain ⟨t₀, ht₀, hprune⟩ := Option.bind_eq_some_iff.mp ht
  obtain ⟨hheight, hratios⟩ := h.tree t₀ ht₀
  exact ⟨(Tree.height_prune hprune).trans hheight, hratios.prune hprune⟩

/-- Leaving out unbound panes a second time changes nothing. -/
theorem discardUnboundPanes_discardUnboundPanes (a : Arrangement) :
    a.discardUnboundPanes.discardUnboundPanes = a.discardUnboundPanes := by
  generalize hb : a.discardUnboundPanes = b
  -- Every pane that is left has a Shell, so that none is left out again.
  have hpanes : b.panes.retain (fun entry => entry.2.shell.isSome) = b.panes := by
    rw [← hb]
    exact BTreeMap.retain_of_forall fun entry hentry => (List.mem_filter.mp hentry).2
  have hbound (id : Nat) (hid : id ∈ b.ids) : b.panes.containsKey id = true := by
    rw [← hb, ids_discardUnboundPanes] at hid
    rw [← hb, containsKey_discardUnboundPanes]
    exact (List.mem_filter.mp hid).2
  have htree : b.tree.bind (Tree.prune b.panes) = b.tree := by
    cases ht : b.tree with
    | none => rfl
    | some t =>
        refine Tree.prune_of_bound fun id hid => hbound id (List.mem_append_left _ ?_)
        rw [ht]
        exact hid
  have hfloating : b.floating.filter (fun f => b.panes.containsKey f.pane) = b.floating :=
    List.filter_eq_self.mpr fun f hf => hbound f.pane
      (List.mem_append_right _ (List.mem_map_of_mem hf))
  -- The focus is on a pane that is left, or on the first one.
  have hfocused : (b.focused.filter b.panes.containsKey).or b.panes.keys.head? = b.focused := by
    cases hf : b.focused with
    | none =>
        rw [← hb] at hf
        rw [← hb]
        exact (Option.or_eq_none_iff.mp hf).2
    | some id =>
        have hid : b.panes.containsKey id = true := by
          rw [← hb] at hf
          rw [← hb]
          rcases Option.or_eq_some_iff.mp hf with hf | ⟨-, hf⟩
          · exact (Option.filter_eq_some_iff.mp hf).2
          · exact BTreeMap.containsKey_iff.mpr (List.mem_of_head? hf)
        simp [Option.filter, hid]
  have hexpanded : b.expanded.filter b.panes.containsKey = b.expanded := by
    rw [← hb, containsKey_discardUnboundPanes]
    show (a.expanded.filter a.discardUnboundPanes.panes.containsKey).filter a.bound
      = a.expanded.filter a.discardUnboundPanes.panes.containsKey
    rw [containsKey_discardUnboundPanes]
    cases a.expanded with
    | none => rfl
    | some id => cases hid : a.bound id <;> simp [Option.filter, hid]
  show ({ b with
    panes := b.panes.retain fun entry => entry.2.shell.isSome
    tree := b.tree.bind (Tree.prune (b.panes.retain fun entry => entry.2.shell.isSome))
    floating := b.floating.filter fun f =>
      (b.panes.retain fun entry => entry.2.shell.isSome).containsKey f.pane
    focused := (b.focused.filter (b.panes.retain fun entry => entry.2.shell.isSome).containsKey).or
      (b.panes.retain fun entry => entry.2.shell.isSome).keys.head?
    expanded := b.expanded.filter (b.panes.retain fun entry => entry.2.shell.isSome).containsKey }
      : Arrangement) = b
  rw [hpanes, htree, hfloating, hfocused, hexpanded]

end Arrangement

/-! ## One arrangement of a document -/

namespace Document

/-- What `validate` asks of the rest of a document, without the arrangement under a key. -/
structure OthersValid (d : Document) (key : String) : Prop where
  version : d.version = 4
  macWindow : (!d.macWindow.any fun window =>
    decide (128 < window.display.utf8ByteSize) || !windowGeometryValid window.rect) = true
  workspaces : (d.arrangements.remove key).len + 1 ≤ 256
  hidden : d.hiddenRemoteWorkspaces.len ≤ 256 ∧ (d.hiddenRemoteWorkspaces.entries.all fun entry =>
    hiddenRemoteWorkspaceValid entry.1 entry.2) = true
  conversations : d.conversations.length ≤ 4096 ∧
    ∃ identities, d.conversations.foldlM validateConversation [] = .ok identities
  arrangements : ∀ a ∈ (d.arrangements.remove key).values, a.Valid

/-- The panes of the arrangements under the other keys. -/
def otherPanes (d : Document) (key : String) : Nat :=
  ((d.arrangements.remove key).values.map fun a => a.panes.len).sum

/-- A document with one arrangement put in: the rest, the arrangement and the count of panes. -/
theorem valid_insert_iff (d : Document) (key : String) (a : Arrangement) :
    ({ d with arrangements := d.arrangements.insert key a }).Valid ↔
    d.OthersValid key ∧ a.Valid ∧ d.otherPanes key + a.panes.len ≤ maxPanes
      ∧ d.minimized.length ≤ maxPanes ∧ d.workspaceOrder.length ≤ 4096 := by
  have hperm := d.arrangements.values_insert_perm key a
  have hcount (h : ∀ a ∈ (d.arrangements.remove key).values, a.Valid) (ha : a.Valid) :
      ((d.arrangements.insert key a).values.map fun a => a.ids.length).sum
        = d.otherPanes key + a.panes.len := by
    have hsum := (hperm.map fun a : Arrangement => a.ids.length).sum_eq
    rw [hsum, List.map_cons, List.sum_cons, ha.count, otherPanes, Nat.add_comm]
    congr 2
    exact List.map_congr_left fun b hb => (h b hb).count
  constructor
  · intro h
    have hall (b : Arrangement) (hb : b ∈ a :: (d.arrangements.remove key).values) : b.Valid :=
      h.arrangements b (hperm.mem_iff.mpr hb)
    have ha := hall a (List.mem_cons_self ..)
    have hothers := fun b hb => hall b (List.mem_cons_of_mem _ hb)
    refine ⟨⟨h.version, h.macWindow, ?_, h.hidden, h.conversations, hothers⟩, ha, ?_, h.minimized,
      h.workspaceOrder⟩
    · rw [← BTreeMap.len_insert (v := a)]
      exact h.workspaces
    · rw [← hcount hothers ha]
      exact h.total
  · rintro ⟨h, ha, htotal, hmin, horder⟩
    refine ⟨h.version, h.macWindow, ?_, hmin, horder, h.hidden, h.conversations, fun b hb => ?_, ?_⟩
    · show (d.arrangements.insert key a).len ≤ 256
      rw [BTreeMap.len_insert]
      exact h.workspaces
    · rcases List.mem_cons.mp (hperm.mem_iff.mp hb) with rfl | hb
      · exact ha
      · exact h.arrangements b hb
    · show ((d.arrangements.insert key a).values.map fun a => a.ids.length).sum ≤ maxPanes
      rw [hcount h.arrangements ha]
      exact htotal

/-- Leaving out the unbound panes of an arrangement keeps the document valid. -/
theorem Valid.insert_discardUnboundPanes {d : Document} {key : String} {a : Arrangement}
    (h : d.Valid)
    (ha : d.arrangements.lookup key = some a) :
    ({ d with arrangements := d.arrangements.insert key a.discardUnboundPanes }).Valid := by
  have hself := d.valid_insert_iff key a
  rw [BTreeMap.insert_of_lookup ha] at hself
  obtain ⟨hothers, hvalid, htotal, hmin, horder⟩ := hself.mp h
  have hfewer : a.discardUnboundPanes.panes.len ≤ a.panes.len := List.length_filter_le ..
  exact (d.valid_insert_iff key _).mpr ⟨hothers, hvalid.discardUnboundPanes, by omega, hmin, horder⟩

end Document

end Boomux.Desktop
