import Mathlib.Data.List.Nodup
import Mathlib.Data.List.Lemmas

/-!
# Lists of records with a key

A list of records that are told apart by a key, `key : α → κ`, is read as a partial map:
`get key l k` is the first record with the key `k`, and `Distinct key l` says that no two
records share a key. The lemmas say what the usual edits by index do to the map.
-/

set_option autoImplicit false

namespace Keyed

variable {α κ : Type*} {key : α → κ} {l l' : List α} {a b : α} {k : κ} {i : Nat}

/-! ## Distinct keys -/

/-- No two records of the list share a key. -/
def Distinct (key : α → κ) (l : List α) : Prop := (l.map key).Nodup

theorem Distinct.tail (h : Distinct key (a :: l)) : Distinct key l :=
  (List.nodup_cons.mp h).2

theorem Distinct.head_ne (h : Distinct key (a :: l)) (hb : b ∈ l) : key b ≠ key a := by
  have hnot : key a ∉ l.map key := (List.nodup_cons.mp h).1
  exact fun he => hnot (he ▸ List.mem_map_of_mem hb)

/-- A record of a list shares its key with no record before it. -/
theorem Distinct.ne_of_mem_append (h : Distinct key (l ++ a :: l')) : ∀ b ∈ l, key b ≠ key a := by
  intro b hb
  have hdis := List.nodup_append.mp (by rw [← List.map_append]; exact h)
  exact hdis.2.2 _ (List.mem_map_of_mem hb) _ (List.mem_map_of_mem List.mem_cons_self)

theorem Distinct.perm (h : Distinct key l) (hp : l.Perm l') : Distinct key l' :=
  (hp.map key).nodup_iff.mp h

theorem map_key_map {f : α → α} (hf : ∀ a, key (f a) = key a) : (l.map f).map key = l.map key := by
  rw [List.map_map]
  exact List.map_congr_left fun a _ => hf a

theorem Distinct.map {f : α → α} (hf : ∀ a, key (f a) = key a) (h : Distinct key l) :
    Distinct key (l.map f) := by
  unfold Distinct
  rw [map_key_map hf]
  exact h

theorem map_key_modify {f : α → α} (hi : l[i]? = some a) (hf : key (f a) = key a) :
    (l.modify i f).map key = l.map key := by
  induction l generalizing i with
  | nil => simp at hi
  | cons b l ih =>
      cases i with
      | zero =>
          obtain rfl : b = a := by simpa using hi
          simp [hf]
      | succ i => simp [ih (by simpa using hi)]

theorem Distinct.modify {f : α → α} (hi : l[i]? = some a) (hf : key (f a) = key a)
    (h : Distinct key l) : Distinct key (l.modify i f) := by
  unfold Distinct
  rw [map_key_modify hi hf]
  exact h

/-- Giving one record a key that no other record has. -/
theorem Distinct.modify_new {f : α → α} (hi : l[i]? = some a)
    (hnew : ∀ b ∈ l.eraseIdx i, key b ≠ key (f a)) (h : Distinct key l) :
    Distinct key (l.modify i f) := by
  induction l generalizing i with
  | nil => simp at hi
  | cons b l ih =>
      cases i with
      | zero =>
          obtain rfl : b = a := by simpa using hi
          rw [List.modify_zero_cons]
          refine List.nodup_cons.mpr ⟨fun hmem => ?_, h.tail⟩
          obtain ⟨c, hc, he⟩ := List.mem_map.mp hmem
          exact hnew c hc he
      | succ i =>
          have hia : l[i]? = some a := by simpa using hi
          rw [List.eraseIdx_cons_succ, List.forall_mem_cons] at hnew
          rw [List.modify_succ_cons]
          refine List.nodup_cons.mpr ⟨fun hmem => ?_, ih hia hnew.2 h.tail⟩
          obtain ⟨c, hc, he⟩ := List.mem_map.mp hmem
          obtain ⟨j, hj⟩ := List.mem_iff_getElem?.mp hc
          rw [List.getElem?_modify] at hj
          obtain ⟨d, hd, rfl⟩ := Option.map_eq_some_iff.mp hj
          split at he
          next hij =>
            obtain rfl : a = d := Option.some.inj (by rw [← hia, ← hd, hij])
            exact hnew.1 he.symm
          next => exact h.head_ne (List.mem_of_getElem? hd) he

theorem Distinct.eraseIdx (h : Distinct key l) : Distinct key (l.eraseIdx i) :=
  List.Nodup.sublist (List.Sublist.map key (List.eraseIdx_sublist l i)) h

theorem Distinct.filter (p : α → Bool) (h : Distinct key l) : Distinct key (l.filter p) :=
  List.Nodup.sublist (List.Sublist.map key List.filter_sublist) h

variable [DecidableEq κ]

/-! ## Reading -/

/-- The first record with the key `k`. -/
def get (key : α → κ) (l : List α) (k : κ) : Option α := l.find? fun a => key a == k

@[simp] theorem get_nil : get key [] k = none := rfl

theorem get_cons : get key (a :: l) k = if key a = k then some a else get key l k := by
  unfold get
  rw [List.find?_cons]
  by_cases h : key a = k
  · simp [h]
  · rw [if_neg h, beq_eq_false_iff_ne.mpr h]

theorem mem_of_get (h : get key l k = some a) : a ∈ l := List.mem_of_find?_eq_some h

theorem key_of_get (h : get key l k = some a) : key a = k := by
  have := List.find?_some h
  simpa using this

theorem get_eq_none : get key l k = none ↔ ∀ a ∈ l, key a ≠ k := by
  simp [get, List.find?_eq_none]

/-- A record of the list is what its own key reads. -/
theorem Distinct.get_of_mem (h : Distinct key l) (ha : a ∈ l) : get key l (key a) = some a := by
  induction l with
  | nil => cases ha
  | cons b l ih =>
      rw [get_cons]
      rcases List.mem_cons.mp ha with rfl | hal
      · simp
      · rw [if_neg (fun he => h.head_ne hal he.symm), ih h.tail hal]

theorem Distinct.get_eq_some (h : Distinct key l) :
    get key l k = some a ↔ a ∈ l ∧ key a = k := by
  constructor
  · exact fun hg => ⟨mem_of_get hg, key_of_get hg⟩
  · rintro ⟨ha, rfl⟩
    exact h.get_of_mem ha

theorem Distinct.get_of_getElem? (h : Distinct key l) (hi : l[i]? = some a) :
    get key l (key a) = some a :=
  h.get_of_mem (List.mem_of_getElem? hi)

/-! ## Edits -/

theorem get_map {f : α → α} (hf : ∀ a, key (f a) = key a) :
    get key (l.map f) k = (get key l k).map f := by
  induction l with
  | nil => rfl
  | cons a l ih =>
      rw [List.map_cons, get_cons, get_cons, hf, ih]
      split <;> rfl

/-- Editing one record changes what its key reads, and nothing else. -/
theorem Distinct.get_modify {f : α → α} (h : Distinct key l) (hi : l[i]? = some a)
    (hf : key (f a) = key a) :
    get key (l.modify i f) k = if key a = k then some (f a) else get key l k := by
  induction l generalizing i with
  | nil => simp at hi
  | cons b l ih =>
      cases i with
      | zero =>
          obtain rfl : b = a := by simpa using hi
          rw [List.modify_zero_cons, get_cons, get_cons, hf]
          split <;> rfl
      | succ i =>
          have hia : l[i]? = some a := by simpa using hi
          rw [List.modify_succ_cons, get_cons, get_cons, ih h.tail hia]
          by_cases hb : key b = k
          · have hne : key a ≠ k := by
              rw [← hb]
              exact h.head_ne (List.mem_of_getElem? hia)
            rw [if_pos hb, if_neg hne, if_pos hb]
          · rw [if_neg hb, if_neg hb]

/-- Removing one record makes its key unbound. -/
theorem Distinct.get_eraseIdx (h : Distinct key l) (hi : l[i]? = some a) :
    get key (l.eraseIdx i) k = if key a = k then none else get key l k := by
  induction l generalizing i with
  | nil => simp at hi
  | cons b l ih =>
      cases i with
      | zero =>
          obtain rfl : b = a := by simpa using hi
          rw [List.eraseIdx_zero, List.tail_cons, get_cons]
          by_cases hb : key b = k
          · rw [if_pos hb, get_eq_none]
            intro c hc
            rw [← hb]
            exact h.head_ne hc
          · rw [if_neg hb, if_neg hb]
      | succ i =>
          have hia : l[i]? = some a := by simpa using hi
          rw [List.eraseIdx_cons_succ, get_cons, get_cons, ih h.tail hia]
          by_cases hb : key b = k
          · have hne : key a ≠ k := by
              rw [← hb]
              exact h.head_ne (List.mem_of_getElem? hia)
            rw [if_pos hb, if_neg hne, if_pos hb]
          · rw [if_neg hb, if_neg hb]

theorem Distinct.mem_modify {f : α → α} (h : Distinct key l) (hi : l[i]? = some a)
    (hf : key (f a) = key a) : b ∈ l.modify i f ↔ b = f a ∨ (b ∈ l ∧ key b ≠ key a) := by
  have hget := h.get_modify (k := key b) hi hf
  have hmodified := (h.modify hi hf).get_eq_some (k := key b) (a := b)
  have hbefore := h.get_eq_some (k := key b) (a := b)
  simp only [and_true] at hmodified hbefore
  rw [← hmodified, hget]
  by_cases he : key a = key b
  · rw [if_pos he, Option.some.injEq, eq_comm]
    refine ⟨.inl, fun hb => hb.resolve_right fun hne => hne.2 he.symm⟩
  · rw [if_neg he, hbefore]
    refine ⟨fun hb => .inr ⟨hb, fun heq => he heq.symm⟩, ?_⟩
    rintro (rfl | hb)
    · exact absurd hf.symm he
    · exact hb.1

theorem Distinct.mem_eraseIdx (h : Distinct key l) (hi : l[i]? = some a) :
    b ∈ l.eraseIdx i ↔ b ∈ l ∧ key b ≠ key a := by
  have herased := (h.eraseIdx (i := i)).get_eq_some (k := key b) (a := b)
  have hbefore := h.get_eq_some (k := key b) (a := b)
  simp only [and_true] at herased hbefore
  rw [← herased, h.get_eraseIdx hi]
  by_cases he : key a = key b
  · rw [if_pos he]
    exact ⟨nofun, fun hb => absurd he.symm hb.2⟩
  · rw [if_neg he, hbefore]
    exact ⟨fun hb => ⟨hb, fun heq => he heq.symm⟩, And.left⟩

theorem get_append_singleton (hnew : get key l (key a) = none) :
    get key (l ++ [a]) k = if key a = k then some a else get key l k := by
  induction l with
  | nil => rw [List.nil_append, get_cons]
  | cons b l ih =>
      rw [get_cons] at hnew
      by_cases hb : key b = key a
      · rw [if_pos hb] at hnew
        cases hnew
      · rw [if_neg hb] at hnew
        rw [List.cons_append, get_cons, get_cons, ih hnew]
        by_cases hk : key b = k
        · rw [if_pos hk, if_neg (fun he => hb (hk.trans he.symm)), if_pos hk]
        · rw [if_neg hk, if_neg hk]

theorem Distinct.append_singleton (h : Distinct key l) (hnew : get key l (key a) = none) :
    Distinct key (l ++ [a]) := by
  unfold Distinct
  rw [List.map_append, List.map_singleton]
  refine List.Nodup.append h (List.nodup_singleton _) ?_
  intro x hx hxa
  obtain ⟨b, hb, rfl⟩ := List.mem_map.mp hx
  exact get_eq_none.mp hnew b hb (List.mem_singleton.mp hxa)

/-! ## Edits by key -/

/-- Editing the record with the key `k`. -/
def adjust (key : α → κ) (l : List α) (k : κ) (f : α → α) : List α :=
  l.map fun a => if key a = k then f a else a

/-- Inserting a record, in the place of one with the same key. -/
def upsert (key : α → κ) (l : List α) (a : α) : List α :=
  if (get key l (key a)).isSome then adjust key l (key a) fun _ => a else l ++ [a]

/-- Removing the records with the key `k`. -/
def remove (key : α → κ) (l : List α) (k : κ) : List α := l.filter (key · ≠ k)

theorem mem_adjust {f : α → α} :
    b ∈ adjust key l k f ↔ (b ∈ l ∧ key b ≠ k) ∨ ∃ a ∈ l, key a = k ∧ b = f a := by
  simp only [adjust, List.mem_map]
  constructor
  · rintro ⟨a, ha, rfl⟩
    split
    next h => exact .inr ⟨a, ha, h, rfl⟩
    next h => exact .inl ⟨ha, h⟩
  · rintro (⟨hb, hne⟩ | ⟨a, ha, hk, rfl⟩)
    · exact ⟨b, hb, if_neg hne⟩
    · exact ⟨a, ha, if_pos hk⟩

private theorem key_adjusted {f : α → α} (hf : ∀ a ∈ l, key a = k → key (f a) = k)
    (ha : a ∈ l) : key (if key a = k then f a else a) = key a := by
  split
  next h => rw [hf a ha h, h]
  next => rfl

theorem Distinct.adjust {f : α → α} (hf : ∀ a ∈ l, key a = k → key (f a) = k)
    (h : Distinct key l) : Distinct key (adjust key l k f) := by
  have hkeys : (Keyed.adjust key l k f).map key = l.map key := by
    unfold Keyed.adjust
    rw [List.map_map]
    exact List.map_congr_left fun a ha => key_adjusted hf ha
  unfold Distinct
  rw [hkeys]
  exact h

theorem get_adjust {f : α → α} (hf : ∀ a ∈ l, key a = k → key (f a) = k) (j : κ) :
    get key (adjust key l k f) j = if j = k then (get key l j).map f else get key l j := by
  induction l with
  | nil => simp [adjust]
  | cons a l ih =>
      have ih := ih fun b hb => hf b (List.mem_cons_of_mem a hb)
      have hhead := key_adjusted hf (List.mem_cons_self (a := a) (l := l))
      unfold adjust at ih ⊢
      rw [List.map_cons, get_cons, get_cons, hhead, ih]
      by_cases hj : j = k
      · subst hj
        by_cases hk : key a = j <;> simp [hk]
      · by_cases hk : key a = j
        · have hne : key a ≠ k := fun he => hj (hk.symm.trans he)
          simp [hk, hj]
        · simp [hk, hj]

theorem upsert_of_get_eq_none (h : get key l (key a) = none) : upsert key l a = l ++ [a] := by
  unfold upsert
  rw [h]
  rfl

theorem mem_upsert : b ∈ upsert key l a ↔ b = a ∨ (b ∈ l ∧ key b ≠ key a) := by
  unfold upsert
  split
  next h =>
    obtain ⟨c, hc⟩ := Option.isSome_iff_exists.mp h
    rw [mem_adjust]
    constructor
    · rintro (hb | ⟨-, -, -, rfl⟩)
      · exact .inr hb
      · exact .inl rfl
    · rintro (rfl | hb)
      · exact .inr ⟨c, mem_of_get hc, key_of_get hc, rfl⟩
      · exact .inl hb
  next h =>
    have hnone : ∀ b ∈ l, key b ≠ key a := get_eq_none.mp (by simpa using h)
    rw [List.mem_append, List.mem_singleton, or_comm]
    exact or_congr_right ⟨fun hb => ⟨hb, hnone b hb⟩, And.left⟩

theorem Distinct.upsert (h : Distinct key l) : Distinct key (upsert key l a) := by
  unfold Keyed.upsert
  split
  next => exact h.adjust fun _ _ _ => rfl
  next hnone => exact h.append_singleton (by simpa using hnone)

theorem get_upsert (k : κ) :
    get key (upsert key l a) k = if key a = k then some a else get key l k := by
  unfold upsert
  split
  next h =>
    rw [get_adjust fun _ _ _ => rfl]
    by_cases hk : key a = k
    · subst hk
      obtain ⟨c, hc⟩ := Option.isSome_iff_exists.mp h
      simp [hc]
    · rw [if_neg hk, if_neg fun he => hk he.symm]
  next h => exact get_append_singleton (by simpa using h)

/-- Another key stays distinct when no record but the replaced one shares it. -/
theorem Distinct.upsert_other {μ : Type*} {other : α → μ} (h : Distinct key l)
    (ho : Distinct other l) (hne : ∀ b ∈ l, key b ≠ key a → other b ≠ other a) :
    Distinct other (Keyed.upsert key l a) := by
  have hinj := List.inj_on_of_nodup_map ho
  refine (List.nodup_map_iff_inj_on h.upsert.of_map).mpr ?_
  intro b hb c hc he
  rcases mem_upsert.mp hb with hba | ⟨hbl, hbk⟩ <;> rcases mem_upsert.mp hc with hca | ⟨hcl, hck⟩
  · rw [hba, hca]
  · exact absurd (hba ▸ he).symm (hne c hcl hck)
  · exact absurd (hca ▸ he) (hne b hbl hbk)
  · exact hinj hbl hcl he

/-- The length grows only when the key is new. -/
theorem length_upsert : (upsert key l a).length =
    if (get key l (key a)).isSome then l.length else l.length + 1 := by
  unfold upsert
  split
  · simp [adjust]
  · simp

theorem mem_remove : b ∈ remove key l k ↔ b ∈ l ∧ key b ≠ k := by
  simp [remove]

theorem Distinct.remove (h : Distinct key l) : Distinct key (remove key l k) := h.filter _

theorem Distinct.get_filter (p : α → Bool) (h : Distinct key l) :
    get key (l.filter p) k = (get key l k).filter p := by
  ext a
  rw [(h.filter p).get_eq_some, Option.filter_eq_some_iff, h.get_eq_some, List.mem_filter]
  exact ⟨fun ⟨⟨ha, hp⟩, hk⟩ => ⟨⟨ha, hk⟩, hp⟩, fun ⟨⟨ha, hk⟩, hp⟩ => ⟨⟨ha, hp⟩, hk⟩⟩

/-- The record with a key comes before all others, up to order. -/
theorem Distinct.perm_cons_remove (h : Distinct key l) (hg : get key l k = some a) :
    l.Perm (a :: Keyed.remove key l k) := by
  induction l with
  | nil => cases hg
  | cons b l ih =>
      rw [get_cons] at hg
      unfold Keyed.remove
      split at hg
      next hb =>
        obtain rfl := Option.some.inj hg
        have hself : (l.filter (key · ≠ k)) = l :=
          List.filter_eq_self.mpr fun c hc => by simpa [← hb] using h.head_ne hc
        rw [List.filter_cons_of_neg (by simp [hb]), hself]
      next hb =>
        rw [List.filter_cons_of_pos (by simp [hb])]
        exact ((ih h.tail hg).cons b).trans (List.Perm.swap _ _ _)

theorem remove_of_get_eq_none (h : get key l k = none) : remove key l k = l :=
  List.filter_eq_self.mpr fun b hb => by simpa using get_eq_none.mp h b hb

theorem Distinct.upsert_perm (h : Distinct key l) :
    (Keyed.upsert key l a).Perm (a :: Keyed.remove key l (key a)) := by
  have hremoved : Keyed.remove key (Keyed.upsert key l a) (key a) = Keyed.remove key l (key a) := by
    unfold Keyed.upsert
    split
    next =>
      unfold Keyed.adjust Keyed.remove
      rw [List.filter_map]
      refine (List.map_congr_left fun b hb => ?_).trans ((List.map_id _).trans
        (List.filter_congr fun b _ => ?_))
      · have hb : key (if key b = key a then a else b) ≠ key a := by
          simpa using (List.mem_filter.mp hb).2
        by_cases he : key b = key a
        · simp [he] at hb
        · simp [he]
      · by_cases he : key b = key a <;> simp [he]
    next => simp [Keyed.remove]
  rw [← hremoved]
  exact h.upsert.perm_cons_remove (by rw [get_upsert, if_pos rfl])

/-- Records with distinct keys are read the same in any order. -/
theorem Distinct.get_perm (h : Distinct key l) (hp : l.Perm l') :
    get key l' k = get key l k := by
  ext a
  rw [(h.perm hp).get_eq_some, h.get_eq_some, hp.mem_iff]

/-- Collecting records with distinct keys one by one keeps them all. -/
theorem foldl_upsert (h : Distinct key (l ++ l')) : l'.foldl (upsert key) l = l ++ l' := by
  induction l' generalizing l with
  | nil => simp
  | cons a l' ih =>
      have hsplit : l ++ a :: l' = l ++ [a] ++ l' := by simp
      have hnone : get key l (key a) = none := get_eq_none.mpr h.ne_of_mem_append
      rw [List.foldl_cons, upsert_of_get_eq_none hnone, hsplit]
      exact ih (hsplit ▸ h)

/-! ## The first record that satisfies a test -/

section First

variable {test : α → Bool} {f : α → α}

/-- Editing the first record that satisfies `test`. -/
def editFirst (test : α → Bool) (f : α → α) : List α → List α
  | [] => []
  | a :: l => if test a then f a :: l else a :: editFirst test f l

omit [DecidableEq κ] in
theorem mem_editFirst (h : b ∈ editFirst test f l) :
    b ∈ l ∨ ∃ a, l.find? test = some a ∧ b = f a := by
  induction l with
  | nil => cases h
  | cons a l ih =>
      unfold editFirst at h
      rw [List.find?_cons]
      cases hp : test a with
      | true =>
          rw [if_pos hp] at h
          rcases List.mem_cons.mp h with rfl | hb
          · exact .inr ⟨a, rfl, rfl⟩
          · exact .inl (List.mem_cons_of_mem a hb)
      | false =>
          rw [if_neg (by simp [hp])] at h
          rcases List.mem_cons.mp h with rfl | hb
          · exact .inl List.mem_cons_self
          · exact (ih hb).imp_left (List.mem_cons_of_mem a)

omit [DecidableEq κ] in
theorem editFirst_eq_self (h : ∀ a, l.find? test = some a → f a = a) : editFirst test f l = l := by
  induction l with
  | nil => rfl
  | cons a l ih =>
      unfold editFirst
      rw [List.find?_cons] at h
      cases hp : test a with
      | true =>
          rw [hp] at h
          rw [if_pos rfl, h a rfl]
      | false =>
          rw [hp] at h
          rw [if_neg Bool.false_ne_true, ih h]

omit [DecidableEq κ] in
theorem map_key_editFirst (hf : ∀ a, l.find? test = some a → key (f a) = key a) :
    (editFirst test f l).map key = l.map key := by
  induction l with
  | nil => rfl
  | cons a l ih =>
      unfold editFirst
      rw [List.find?_cons] at hf
      cases hp : test a with
      | true =>
          rw [hp] at hf
          rw [if_pos rfl, List.map_cons, List.map_cons, hf a rfl]
      | false =>
          rw [hp] at hf
          rw [if_neg Bool.false_ne_true, List.map_cons, List.map_cons, ih hf]

/-- Erasing the first record that satisfies a test, which one record alone does, removes its key. -/
theorem Distinct.eraseP_eq_remove (h : Distinct key l) (ha : a ∈ l) (htest : test a = true)
    (honly : ∀ b ∈ l, test b = true → key b = key a) :
      l.eraseP test = Keyed.remove key l (key a) := by
  induction l with
  | nil => cases ha
  | cons b l ih =>
      rw [List.eraseP_cons, Keyed.remove, List.filter_cons]
      by_cases hb : test b = true
      · have hkey := honly b List.mem_cons_self hb
        have hrest : l.filter (key · ≠ key a) = l :=
          List.filter_eq_self.mpr fun c hc => decide_eq_true (hkey ▸ h.head_ne hc)
        rw [hb, cond_true, if_neg (by simpa using hkey), hrest]
      · have hne : key b ≠ key a := by
          intro he
          rcases List.mem_cons.mp ha with rfl | ha
          · exact hb htest
          · exact h.head_ne ha he.symm
        have hal : a ∈ l := by
          rcases List.mem_cons.mp ha with rfl | ha
          · exact absurd rfl hne
          · exact ha
        rw [Bool.not_eq_true] at hb
        rw [hb, cond_false, if_pos (by simpa using hne),
          ih h.tail hal fun c hc => honly c (List.mem_cons_of_mem _ hc)]
        rfl

end First

end Keyed
