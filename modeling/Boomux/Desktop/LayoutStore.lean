import Boomux.Basic.Run
import Boomux.Desktop.LayoutFile
import Mathlib.Logic.Function.Basic

/-!
# The store of the layout document

Every Desktop process has a `Store` with the revision of the document that it loaded or saved last.
`Store::save` takes a lock, compares that revision with the file's and replaces the file by a
rename. The machine runs any number of Desktops, one file operation at a time; any operation may
fail, and a Desktop may end at any time.
-/

set_option autoImplicit false

namespace Boomux.Desktop

open Rust Transition

/-! ## The machine -/

/-- The file operations of `Store::save`, in their order. -/
inductive Stage
  | createDirectory | openLock | lock | read | create | write | sync | rename | openParent
  | syncParent
  deriving DecidableEq

/-- A save under way. `replaced` is a ghost: what the file held when this save put its own document
in the place. -/
structure Saving where
  document : Document
  stage : Stage
  replaced : Option (Option (List UInt8))

/-- A `Store`. The outcome of its last save is kept for the statements, and so is `last`: what the
file held when this Desktop loaded or saved it last. -/
structure Store where
  revision : String
  saving : Option Saving
  outcome : Option (Except String Unit)
  last : Option (List UInt8)

/-- The directory of the layout file, the lock and the Desktops. The ghosts are the revisions drawn
so far and everything the file has held, each with the revision under which it was put there. -/
structure Machine where
  files : BTreeMap String (List UInt8)
  lock : Option Nat
  stores : Nat → Option Store
  revisions : List String
  history : List (Option (List UInt8) × String)

inductive Act
  /-- `Session::at` in a new process. -/
  | load (p : Nat)
  /-- The writer thread takes a document. -/
  | save (p : Nat) (document : Document)
  /-- The next file operation succeeds. A revision drawn on the way is `uuid`. -/
  | proceed (p : Nat) (uuid : String)
  /-- The next file operation fails. `left` is what then remains of the temporary file. -/
  | fail (p : Nat) (error : String) (left : Option (List UInt8))
  /-- The process ends. -/
  | exit (p : Nat)

/-- The Desktop that acts. -/
def Act.desktop : Act → Nat
  | .load p | .save p _ | .proceed p _ | .fail p _ _ | .exit p => p

def layoutFile : String := "layout-state.json"

def temporaryFile (revision : String) : String := ".layout-" ++ revision

/-- The lock is held from its acquisition on. -/
def Stage.locked : Stage → Bool
  | .createDirectory | .openLock | .lock => false
  | _ => true

/-- The file has been found to be this Desktop's and not yet been replaced. -/
def Stage.checked : Stage → Bool
  | .create | .write | .sync | .rename => true
  | _ => false

/-- The rename has happened. -/
def Stage.renamed : Stage → Bool
  | .openParent | .syncParent => true
  | _ => false

namespace Machine

/-- What the layout file holds. -/
def content (s : Machine) : Option (List UInt8) := s.files.lookup layoutFile

/-- The save under way in a Desktop. -/
def saving (s : Machine) (p : Nat) : Option Saving := (s.stores p).bind Store.saving

def put (s : Machine) (p : Nat) (store : Store) : Machine :=
  { s with stores := Function.update s.stores p (some store) }

/-- The lock file is closed. -/
def unlock (s : Machine) (p : Nat) : Machine :=
  { s with lock := if s.lock = some p then none else s.lock }

/-- `save` returns. -/
def returns (s : Machine) (p : Nat) (store : Store) (outcome : Except String Unit) : Machine :=
  (s.unlock p).put p { store with saving := none, outcome := some outcome }

/-- `save` goes on to its next operation. -/
def goOn (s : Machine) (p : Nat) (store : Store) (saving : Saving) (stage : Stage) : Machine :=
  s.put p { store with saving := some { saving with stage := stage } }

/-- `fs::remove_file` of the temporary file, or what it leaves when it fails. -/
def leave (s : Machine) (saving : Saving) : Option (List UInt8) → Machine
  | none => { s with files := s.files.remove (temporaryFile saving.document.revision) }
  | some bytes => { s with files := s.files.insert (temporaryFile saving.document.revision) bytes }

/-- The next operation of a save. -/
def proceed (serde : Serde) (s : Machine) (p : Nat) (store : Store) (saving : Saving)
    (uuid : String) : Machine :=
  let temporary := temporaryFile saving.document.revision
  match saving.stage with
  | .createDirectory => s.goOn p store saving .openLock
  | .openLock => s.goOn p store saving .lock
  | .lock =>
      if s.lock.isSome then s.returns p store (.error "another Desktop is saving this layout")
      else { s with lock := some p }.goOn p store saving .read
  | .read =>
      match read serde s.content with
      | .error error => s.returns p store (.error error)
      | .ok current =>
          if current.revision ≠ store.revision then
            s.returns p store
              (.error "another Desktop changed this layout; reopen Desktop before saving")
          else
            let document := { saving.document with revision := uuid }
            let s := { s with revisions := uuid :: s.revisions }
            if maxBytes < (serde.toVec document).length then
              s.returns p store (.error "layout state exceeds 2 MiB")
            else s.goOn p store { saving with document := document } .create
  | .create =>
      if s.files.containsKey temporary then
        (s.leave saving none).returns p store (.error "File exists")
      else { s with files := s.files.insert temporary [] }.goOn p store saving .write
  | .write =>
      { s with files := s.files.insert temporary (serde.toVec saving.document) }.goOn p store saving
        .sync
  | .sync => s.goOn p store saving .rename
  | .rename =>
      match s.files.lookup temporary with
      | none => s.returns p store (.error "No such file or directory")
      | some bytes =>
          { s with
            files := (s.files.remove temporary).insert layoutFile bytes
            history := (some bytes, saving.document.revision) :: s.history }.goOn p store
              { saving with replaced := some s.content } .openParent
  | .openParent => s.goOn p store saving .syncParent
  | .syncParent =>
      s.returns p { store with
        revision := saving.document.revision
        last := some (serde.toVec saving.document) } (.ok ())

/-- The next operation of a save fails. -/
def fail (s : Machine) (p : Nat) (store : Store) (saving : Saving) (error : String)
    (left : Option (List UInt8)) : Machine :=
  (if saving.stage.checked then s.leave saving left else s).returns p store (.error error)

def step (serde : Serde) (s : Machine) : Act → Option Machine
  | .load p =>
      match s.stores p, read serde s.content with
      | none, .ok document => some (s.put p ⟨document.revision, none, none, s.content⟩)
      | none, .error _ => some s
      | some _, _ => none
  | .save p document =>
      match s.stores p with
      | some store =>
          if store.saving.isSome then none
          else match document.validate with
          | .error error => some (s.returns p store (.error error))
          | .ok () => some (s.put p { store with
              saving := some ⟨document, .createDirectory, none⟩, outcome := none })
      | none => none
  | .proceed p uuid =>
      match s.stores p with
      | some store => store.saving.map fun saving => s.proceed serde p store saving uuid
      | none => none
  | .fail p error left =>
      match s.stores p with
      | some store => store.saving.map fun saving => s.fail p store saving error left
      | none => none
  | .exit p => some { s.unlock p with stores := Function.update s.stores p none }

end Machine

/-! ## The temporary file -/

theorem temporaryFile_injective {r r' : String} (h : temporaryFile r = temporaryFile r') : r = r' :=
  String.append_right_inj _ |>.mp h

theorem temporaryFile_ne_layoutFile (r : String) : layoutFile ≠ temporaryFile r := by
  intro h
  have hlist := congrArg String.toList h
  rw [temporaryFile, String.toList_append] at hlist
  cases hlist

/-! ## What holds between two operations -/

namespace Machine

variable {serde : Serde} {s t : Machine} {p q : Nat} {store store' : Store} {w : Saving}

/-- What the files, past and present, have in common: their revisions differ, and what can be read
is read under its own. -/
structure FilesInv (serde : Serde) (s : Machine) : Prop where
  content_mem : ∃ r, (s.content, r) ∈ s.history
  unique : ∀ c ∈ s.history, ∀ c' ∈ s.history, c.2 = c'.2 → c = c'
  reads : ∀ c ∈ s.history, ∀ d, read serde c.1 = .ok d → d.revision = c.2
  drawn : ∀ c ∈ s.history, c.2 ∈ s.revisions
  names : ∀ r, temporaryFile r ∈ s.files.keys → r ∈ s.revisions

/-- A save under way. -/
structure SavingInv (serde : Serde) (s : Machine) (store : Store) (w : Saving) : Prop where
  valid : w.document.validate = .ok ()
  kept : w.stage.renamed = false → w.replaced = none
  small : w.stage.checked = true ∨ w.stage.renamed = true →
    (serde.toVec w.document).length ≤ maxBytes
  own : w.stage.checked = true → s.content = store.last
  fresh : w.stage.checked = true → w.document.revision ∈ s.revisions ∧
    ∀ c ∈ s.history, c.2 ≠ w.document.revision
  written : w.stage = .sync ∨ w.stage = .rename →
    s.files.lookup (temporaryFile w.document.revision) = some (serde.toVec w.document)
  renamed : w.stage.renamed = true → s.content = some (serde.toVec w.document)
    ∧ (s.content, w.document.revision) ∈ s.history ∧ w.replaced = some store.last
    ∧ store.revision ≠ w.document.revision

/-- A store knows the revision of what it loaded or saved last. -/
structure StoreInv (serde : Serde) (s : Machine) (p : Nat) (store : Store) : Prop where
  known : (store.last, store.revision) ∈ s.history
  lock : s.lock = some p ↔ ∃ w, store.saving = some w ∧ w.stage.locked = true
  saving : ∀ w, store.saving = some w → SavingInv serde s store w

structure Inv (serde : Serde) (s : Machine) : Prop where
  files : FilesInv serde s
  stores : ∀ p store, s.stores p = some store → StoreInv serde s p store
  holder : ∀ p, s.lock = some p → ∃ store, s.stores p = some store

theorem locked_of_checked {stage : Stage} (h : stage.checked = true) : stage.locked = true := by
  cases stage <;> first | rfl | cases h

theorem locked_of_renamed {stage : Stage} (h : stage.renamed = true) : stage.locked = true := by
  cases stage <;> first | rfl | cases h

/-- A store whose Desktop does not hold the lock, or whose files nobody has touched, is as it
was. -/
theorem StoreInv.frame (h : StoreInv serde s q store)
    (hlock : t.lock = some q ↔ s.lock = some q)
    (hsame : s.lock = some q → t.files = s.files ∧ t.history = s.history)
    (hhistory : ∀ c ∈ s.history, c ∈ t.history) (hrevisions : ∀ r ∈ s.revisions, r ∈ t.revisions) :
    StoreInv serde t q store := by
  refine ⟨hhistory _ h.known, hlock.trans h.lock, fun w hw => ?_⟩
  have hs := h.saving w hw
  by_cases hheld : w.stage.locked = true
  · obtain ⟨hfiles, hhist⟩ := hsame (h.lock.mpr ⟨w, hw, hheld⟩)
    have hcontent : t.content = s.content := congrArg (BTreeMap.lookup · layoutFile) hfiles
    refine ⟨hs.valid, hs.kept, hs.small, ?_, ?_, ?_, ?_⟩
    · rw [hcontent]
      exact hs.own
    · rw [hhist]
      exact fun hc => ⟨hrevisions _ (hs.fresh hc).1, (hs.fresh hc).2⟩
    · rw [hfiles]
      exact hs.written
    · rw [hcontent, hhist]
      exact hs.renamed
  · have hnc : w.stage.checked ≠ true := fun hc => hheld (locked_of_checked hc)
    have hnr : w.stage.renamed ≠ true := fun hr => hheld (locked_of_renamed hr)
    refine ⟨hs.valid, hs.kept, hs.small, fun hc => absurd hc hnc, fun hc => absurd hc hnc, ?_,
      fun hr => absurd hr hnr⟩
    rintro (hst | hst) <;> exact absurd (by rw [hst]; rfl) hnc

/-- One Desktop moves: what has to hold of it and of the files. -/
theorem Inv.move (hi : Inv serde s) (hstores : t.stores = Function.update s.stores p (some store'))
    (hlock : ∀ q, q ≠ p → (t.lock = some q ↔ s.lock = some q))
    (hsame : ∀ q, q ≠ p → s.lock = some q → t.files = s.files ∧ t.history = s.history)
    (hhistory : ∀ c ∈ s.history, c ∈ t.history) (hrevisions : ∀ r ∈ s.revisions, r ∈ t.revisions)
    (hfiles : FilesInv serde t) (hstore : StoreInv serde t p store') : Inv serde t := by
  refine ⟨hfiles, fun q store hq => ?_, fun q hq => ?_⟩
  · rw [hstores] at hq
    by_cases hqp : q = p
    · subst hqp
      rw [Function.update_self] at hq
      obtain rfl := Option.some.inj hq
      exact hstore
    · rw [Function.update_of_ne hqp] at hq
      exact (hi.stores q store hq).frame (hlock q hqp) (hsame q hqp) hhistory hrevisions
  · rw [hstores]
    by_cases hqp : q = p
    · subst hqp
      exact ⟨store', Function.update_self ..⟩
    · rw [Function.update_of_ne hqp]
      exact hi.holder q ((hlock q hqp).mp hq)

theorem content_insert_temporary (s : Machine) (r : String) (bytes : List UInt8) :
    (s.files.insert (temporaryFile r) bytes).lookup layoutFile = s.content := by
  rw [BTreeMap.lookup_insert, if_neg (temporaryFile_ne_layoutFile r)]
  rfl

theorem content_leave (left : Option (List UInt8)) : (s.leave w left).content = s.content := by
  cases left with
  | none =>
      show (s.files.remove _).lookup layoutFile = _
      rw [BTreeMap.lookup_remove, if_neg (temporaryFile_ne_layoutFile _)]
      rfl
  | some bytes => exact content_insert_temporary ..

/-- A step that only touches the temporary file of a drawn revision. -/
theorem FilesInv.temporary (h : FilesInv serde s) (hcontent : t.content = s.content)
    (hhistory : t.history = s.history) (hrevisions : ∀ r ∈ s.revisions, r ∈ t.revisions)
    (hnames : ∀ r, temporaryFile r ∈ t.files.keys → temporaryFile r ∈ s.files.keys
      ∨ r ∈ t.revisions) :
    FilesInv serde t := by
  refine ⟨?_, ?_, ?_, ?_, ?_⟩
  · rw [hcontent, hhistory]
    exact h.content_mem
  · rw [hhistory]
    exact h.unique
  · rw [hhistory]
    exact h.reads
  · rw [hhistory]
    exact fun c hc => hrevisions _ (h.drawn c hc)
  · intro r hr
    rcases hnames r hr with hr | hr
    · exact hrevisions _ (h.names r hr)
    · exact hr

theorem FilesInv.leave (h : FilesInv serde s) (hr : w.document.revision ∈ s.revisions)
    (left : Option (List UInt8)) : FilesInv serde (s.leave w left) := by
  refine h.temporary (content_leave left) (by cases left <;> rfl)
    (by cases left <;> exact fun _ => id)
    fun r hmem => ?_
  cases left with
  | none =>
      obtain ⟨bytes, hb⟩ := BTreeMap.mem_keys.mp hmem
      exact Or.inl (BTreeMap.mem_keys_of_mem (BTreeMap.mem_remove.mp hb).1)
  | some bytes =>
      rcases BTreeMap.mem_keys_insert.mp hmem with heq | hmem
      · rw [temporaryFile_injective heq]
        exact Or.inr hr
      · exact Or.inl hmem

theorem lock_unlock {q : Nat} (hqp : q ≠ p) : (s.unlock p).lock = some q ↔ s.lock = some q := by
  show (if s.lock = some p then none else s.lock) = some q ↔ _
  split
  · rename_i h
    rw [h]
    simp [Ne.symm hqp]
  · rfl

theorem unlock_ne (s : Machine) (p : Nat) : (s.unlock p).lock ≠ some p := by
  show (if s.lock = some p then none else s.lock) ≠ some p
  split
  · exact nofun
  · assumption

/-- A save returns, from a state `t` of the files that this Desktop alone has changed. -/
theorem Inv.returns (hi : Inv serde s) (hlock : t.lock = s.lock) (hstores : t.stores = s.stores)
    (hsame : s.lock = some p ∨ t.files = s.files) (hhistory : t.history = s.history)
    (hrevisions : ∀ r ∈ s.revisions, r ∈ t.revisions) (hfiles : FilesInv serde t)
    (hknown : (store'.last, store'.revision) ∈ s.history) (outcome : Except String Unit) :
      Inv serde (t.returns p store' outcome) := by
  have hmoved : (t.returns p store' outcome).stores
      = Function.update s.stores p
        (some { store' with saving := none, outcome := some outcome }) := by
    rw [← hstores]
    rfl
  refine hi.move hmoved ?_ ?_ ?_ hrevisions ?_ ?_
  · intro q hqp
    show (t.unlock p).lock = some q ↔ _
    rw [lock_unlock hqp, hlock]
  · intro q hqp hq
    refine ⟨?_, hhistory⟩
    rcases hsame with hp | hf
    · rw [hp] at hq
      exact absurd (Option.some.inj hq).symm hqp
    · exact hf
  · intro c hc
    show c ∈ t.history
    rw [hhistory]
    exact hc
  · exact ⟨hfiles.content_mem, hfiles.unique, hfiles.reads, hfiles.drawn, hfiles.names⟩
  · refine ⟨?_, ?_, by simp⟩
    · show (store'.last, store'.revision) ∈ t.history
      rw [hhistory]
      exact hknown
    · constructor
      · exact fun h => absurd h (unlock_ne t p)
      · rintro ⟨w, hw, -⟩
        cases hw

/-- A save goes on, and this Desktop alone has changed the files. -/
theorem Inv.goOn (hi : Inv serde s) (hstores : t.stores = s.stores)
    (hlock : ∀ q, q ≠ p → (t.lock = some q ↔ s.lock = some q))
    (hsame : s.lock = some p ∨ t.files = s.files) (hhistory : t.history = s.history)
    (hrevisions : ∀ r ∈ s.revisions, r ∈ t.revisions) (hfiles : FilesInv serde t)
    (hknown : (store.last, store.revision) ∈ s.history) {stage : Stage}
    (hheld : t.lock = some p ↔ stage.locked = true)
    (hsaving : SavingInv serde t store { w with stage := stage }) :
    Inv serde (t.goOn p store w stage) := by
  have hmoved : (t.goOn p store w stage).stores
      = Function.update s.stores p
        (some { store with saving := some { w with stage := stage } }) := by
    rw [← hstores]
    rfl
  refine hi.move hmoved hlock ?_ ?_ hrevisions ?_ ?_
  · intro q hqp hq
    refine ⟨?_, hhistory⟩
    rcases hsame with hp | hf
    · rw [hp] at hq
      exact absurd (Option.some.inj hq).symm hqp
    · exact hf
  · intro c hc
    show c ∈ t.history
    rw [hhistory]
    exact hc
  · exact ⟨hfiles.content_mem, hfiles.unique, hfiles.reads, hfiles.drawn, hfiles.names⟩
  · refine ⟨?_, ?_, ?_⟩
    · show (store.last, store.revision) ∈ t.history
      rw [hhistory]
      exact hknown
    · refine hheld.trans ⟨fun h => ⟨_, rfl, h⟩, ?_⟩
      rintro ⟨w', hw', h⟩
      obtain rfl := Option.some.inj hw'
      exact h
    · intro w' hw'
      obtain rfl := Option.some.inj hw'
      exact ⟨hsaving.valid, hsaving.kept, hsaving.small, hsaving.own, hsaving.fresh,
        hsaving.written,
        hsaving.renamed⟩

/-- A save that has not come to the lock. -/
theorem SavingInv.early (stage : Stage) (hvalid : w.document.validate = .ok ())
    (hkept : w.replaced = none) (hc : stage.checked = false) (hr : stage.renamed = false) :
    SavingInv serde s store { w with stage := stage } := by
  have hnc : ¬ stage.checked = true := by rw [hc]; exact nofun
  have hnr : ¬ stage.renamed = true := by rw [hr]; exact nofun
  refine ⟨hvalid, fun _ => hkept, ?_, fun h => absurd h hnc, fun h => absurd h hnc, ?_,
    fun h => absurd h hnr⟩
  · rintro (h | h)
    · exact absurd h hnc
    · exact absurd h hnr
  · rintro (rfl | rfl) <;> cases hc

/-- The new document takes the old one's place, under a revision that the file never had. -/
theorem Inv.rename (hi : Inv serde s) (hst : StoreInv serde s p store) (hl : s.lock = some p)
    (hvalid : w.document.validate = .ok ()) (hsmall : (serde.toVec w.document).length ≤ maxBytes)
    (hfresh : w.document.revision ∈ s.revisions ∧
      ∀ c ∈ s.history, c.2 ≠ w.document.revision)
    (hown : s.content = store.last) (hserde : serde.Faithful) :
    Inv serde ({ s with
      files := (s.files.remove (temporaryFile w.document.revision)).insert layoutFile
        (serde.toVec w.document)
      history := (some (serde.toVec w.document), w.document.revision) :: s.history }.goOn p store
        { w with replaced := some s.content } .openParent) := by
  generalize ht : ({ s with
      files := (s.files.remove (temporaryFile w.document.revision)).insert layoutFile
        (serde.toVec w.document)
      history := (some (serde.toVec w.document), w.document.revision) :: s.history } : Machine) = t
  have hcontent : t.content = some (serde.toVec w.document) := by
    subst ht
    show (BTreeMap.insert _ _ _).lookup _ = _
    rw [BTreeMap.lookup_insert, if_pos rfl]
  have hhistory : t.history = (some (serde.toVec w.document), w.document.revision) ::
      s.history := by
    rw [← ht]
  have hrevisions : t.revisions = s.revisions := by rw [← ht]
  have hfiles : FilesInv serde t := by
    refine ⟨?_, ?_, ?_, ?_, ?_⟩
    -- What the file holds now is in its history.
    · rw [hcontent, hhistory]
      exact ⟨_, List.mem_cons_self ..⟩
    -- The revision is new, so that no two contents of the history have one revision.
    · rw [hhistory]
      intro c hc c' hc' heq
      rcases List.mem_cons.mp hc with rfl | hc <;> rcases List.mem_cons.mp hc' with rfl | hc'
      · rfl
      · exact absurd heq.symm (hfresh.2 c' hc')
      · exact absurd heq (hfresh.2 c hc)
      · exact hi.files.unique c hc c' hc' heq
    · rw [hhistory]
      -- What a content of the history reads as has the revision that goes with it.
      intro c hc d hd
      rcases List.mem_cons.mp hc with rfl | hc
      · exact revision_of_read hserde hvalid hd
      · exact hi.files.reads c hc d hd
    · rw [hhistory, hrevisions]
      intro c hc
      rcases List.mem_cons.mp hc with rfl | hc
      · exact hfresh.1
      · exact hi.files.drawn c hc
    · rw [hrevisions]
      -- The temporary file is gone, and the other names are those of drawn revisions.
      subst ht
      intro r hr
      rcases BTreeMap.mem_keys_insert.mp hr with heq | hr
      · exact absurd heq.symm (temporaryFile_ne_layoutFile r)
      · obtain ⟨bytes, hb⟩ := BTreeMap.mem_keys.mp hr
        exact hi.files.names r (BTreeMap.mem_keys_of_mem (BTreeMap.mem_remove.mp hb).1)
  have hmoved : (t.goOn p store { w with replaced := some s.content } .openParent).stores
      = Function.update s.stores p (some { store with
        saving := some { w with replaced := some s.content, stage := .openParent } }) := by
    rw [← ht]
    rfl
  refine hi.move hmoved ?_ ?_ ?_ ?_
    ⟨hfiles.content_mem, hfiles.unique, hfiles.reads, hfiles.drawn, hfiles.names⟩ ?_
  · intro q _
    rw [← ht]
    rfl
  -- Only the process that holds the lock renames.
  · intro q hqp hq
    rw [hl] at hq
    exact absurd (Option.some.inj hq).symm hqp
  · intro c hc
    show c ∈ t.history
    rw [hhistory]
    exact List.mem_cons_of_mem _ hc
  · intro r hr
    show r ∈ t.revisions
    rwa [hrevisions]
  · refine ⟨?_, ?_, ?_⟩
    · show (store.last, store.revision) ∈ t.history
      rw [hhistory]
      exact List.mem_cons_of_mem _ hst.known
    · rw [← ht]
      exact ⟨fun _ => ⟨_, rfl, rfl⟩, fun _ => hl⟩
    · intro w' hw'
      obtain rfl := Option.some.inj hw'
      -- Until the parent directory is synced, the save knows what it has replaced.
      refine ⟨hvalid, nofun, fun _ => hsmall, nofun, nofun, nofun, fun _ => ⟨hcontent, ?_, ?_, ?_⟩⟩
      · show (t.content, _) ∈ t.history
        rw [hcontent, hhistory]
        exact List.mem_cons_self ..
      · exact congrArg some hown
      · exact hfresh.2 _ hst.known

/-- Every operation of a save keeps the invariant. -/
theorem Inv.proceed (hserde : serde.Faithful) (hi : Inv serde s) (hp : s.stores p = some store)
    (hw : store.saving = some w) {uuid : String}
    (hfresh : w.stage = .read → uuid ∉ s.revisions) :
    Inv serde (s.proceed serde p store w uuid) := by
  have hst := hi.stores p store hp
  have hsv := hst.saving w hw
  have hheld (stage : Stage) (hs : w.stage = stage) : s.lock = some p ↔ stage.locked = true := by
    rw [hst.lock]
    constructor
    · rintro ⟨w', hw', h⟩
      rw [hw] at hw'
      obtain rfl := Option.some.inj hw'
      rwa [← hs]
    · intro h
      exact ⟨w, hw, by rwa [hs]⟩
  unfold Machine.proceed
  dsimp only
  split
  -- Before the lock nothing of the directory is touched.
  case h_1 hs =>
    exact hi.goOn rfl (fun _ _ => Iff.rfl) (Or.inr rfl) rfl (fun _ => id) hi.files hst.known
      (show _ ↔ _ from hheld .createDirectory hs)
      (.early .openLock hsv.valid (hsv.kept (by rw [hs]; rfl)) rfl rfl)
  case h_2 hs =>
    exact hi.goOn rfl (fun _ _ => Iff.rfl) (Or.inr rfl) rfl (fun _ => id) hi.files hst.known
      (show _ ↔ _ from hheld .openLock hs)
      (.early .lock hsv.valid (hsv.kept (by rw [hs]; rfl)) rfl rfl)
  case h_3 hs =>
    split
    -- The lock is another's: the save returns, as it does on every error below.
    · exact hi.returns rfl rfl (Or.inr rfl) rfl (fun _ => id) hi.files hst.known _
    · rename_i hfree
      rw [Bool.not_eq_true, Option.isSome_eq_false_iff, Option.isNone_iff_eq_none] at hfree
      -- Nobody else holds the lock, so taking it changes no other store's claim to it.
      refine hi.goOn (t := { s with lock := some p }) rfl (fun q hqp => ?_) (Or.inr rfl) rfl
        (fun _ => id) ⟨hi.files.content_mem, hi.files.unique, hi.files.reads, hi.files.drawn,
          hi.files.names⟩ hst.known
        ⟨fun _ => rfl, fun _ => rfl⟩
        (.early .read hsv.valid (hsv.kept (by rw [hs]; rfl)) rfl rfl)
      rw [hfree]
      simp [Ne.symm hqp]
  case h_4 hs =>
    have hl : s.lock = some p := (hheld .read hs).mpr rfl
    -- From here on the lock is held; a revision is drawn as soon as the file has been read.
    have hdrawn : FilesInv serde { s with revisions := uuid :: s.revisions } :=
      hi.files.temporary rfl rfl (fun _ => List.mem_cons_of_mem _) fun _ => Or.inl
    split
    · exact hi.returns rfl rfl (Or.inr rfl) rfl (fun _ => id) hi.files hst.known _
    · rename_i current hread
      split
      · exact hi.returns rfl rfl (Or.inr rfl) rfl (fun _ => id) hi.files hst.known _
      · rename_i hsame
        rw [not_not] at hsame
        split
        · exact hi.returns (t := { s with revisions := uuid :: s.revisions }) rfl rfl
            (Or.inr rfl) rfl
            (fun _ => List.mem_cons_of_mem _) hdrawn hst.known _
        · rename_i hsmall
          refine hi.goOn (t := { s with revisions := uuid :: s.revisions })
            (w := { w with document := { w.document with revision := uuid } }) rfl
            (fun _ _ => Iff.rfl) (Or.inr rfl) rfl (fun _ => List.mem_cons_of_mem _) hdrawn hst.known
              ⟨fun _ => rfl, fun _ => hl⟩
            ⟨hsv.valid, fun _ => hsv.kept (by rw [hs]; rfl), fun _ => not_lt.mp hsmall, fun _ => ?_,
              fun _ => ⟨List.mem_cons_self .., fun c hc heq => ?_⟩, ?_, nofun⟩
          · -- the file has this store's revision, and so what this store knows
            obtain ⟨r, hr⟩ := hi.files.content_mem
            have hrev : r = store.revision := (hi.files.reads _ hr _ hread).symm.trans hsame
            exact congrArg Prod.fst (hi.files.unique _ hr _ hst.known hrev)
          · exact hfresh hs ((show c.2 = uuid from heq) ▸ hi.files.drawn c hc)
          · rintro (h | h) <;> cases h
  case h_5 hs =>
    have hl : s.lock = some p := (hheld .create hs).mpr rfl
    have hc : w.stage.checked = true := by rw [hs]; rfl
    split
    -- The temporary file is left empty, or not at all: neither is the file of the layout.
    · exact hi.returns (t := s.leave w none) rfl rfl (Or.inl hl) rfl (fun _ => id)
        (hi.files.leave (hsv.fresh hc).1 none) hst.known _
    · refine hi.goOn (t := s.leave w (some [])) rfl (fun _ _ => Iff.rfl) (Or.inl hl) rfl
        (fun _ => id)
        (hi.files.leave (hsv.fresh hc).1 (some [])) hst.known ⟨fun _ => rfl, fun _ => hl⟩
        ⟨hsv.valid, fun _ => hsv.kept (by rw [hs]; rfl), fun _ => hsv.small (Or.inl hc),
          fun _ => ?_,
          fun _ => hsv.fresh hc, ?_, nofun⟩
      · exact (content_insert_temporary ..).trans (hsv.own hc)
      · rintro (h | h) <;> cases h
  case h_6 hs =>
    have hl : s.lock = some p := (hheld .write hs).mpr rfl
    have hc : w.stage.checked = true := by rw [hs]; rfl
    -- The temporary file has the whole document now.
    refine hi.goOn (t := s.leave w (some (serde.toVec w.document))) rfl (fun _ _ => Iff.rfl)
      (Or.inl hl) rfl (fun _ => id) (hi.files.leave (hsv.fresh hc).1 (some _)) hst.known
        ⟨fun _ => rfl, fun _ => hl⟩
      ⟨hsv.valid, fun _ => hsv.kept (by rw [hs]; rfl), fun _ => hsv.small (Or.inl hc), fun _ => ?_,
        fun _ => hsv.fresh hc, fun _ => ?_, nofun⟩
    · exact (content_insert_temporary ..).trans (hsv.own hc)
    · show (s.files.insert _ _).lookup _ = _
      rw [BTreeMap.lookup_insert, if_pos rfl]
  case h_7 hs =>
    have hl : s.lock = some p := (hheld .sync hs).mpr rfl
    have hc : w.stage.checked = true := by rw [hs]; rfl
    exact hi.goOn rfl (fun _ _ => Iff.rfl) (Or.inl hl) rfl (fun _ => id) hi.files hst.known
      ⟨fun _ => rfl, fun _ => hl⟩
      ⟨hsv.valid, fun _ => hsv.kept (by rw [hs]; rfl), fun _ => hsv.small (Or.inl hc),
        fun _ => hsv.own hc, fun _ => hsv.fresh hc, fun _ => hsv.written (Or.inl hs), nofun⟩
  case h_8 hs =>
    have hl : s.lock = some p := (hheld .rename hs).mpr rfl
    have hc : w.stage.checked = true := by rw [hs]; rfl
    rw [hsv.written (Or.inr hs)]
    dsimp only
    -- The one operation that replaces the file.
    exact hi.rename hst hl hsv.valid (hsv.small (Or.inl hc)) (hsv.fresh hc) (hsv.own hc) hserde
  case h_9 hs =>
    have hl : s.lock = some p := (hheld .openParent hs).mpr rfl
    have hr : w.stage.renamed = true := by rw [hs]; rfl
    exact hi.goOn rfl (fun _ _ => Iff.rfl) (Or.inl hl) rfl (fun _ => id) hi.files hst.known
      ⟨fun _ => rfl, fun _ => hl⟩
      ⟨hsv.valid, nofun, fun _ => hsv.small (Or.inr hr), nofun, nofun, nofun, fun _ =>
        hsv.renamed hr⟩
  case h_10 hs =>
    have hr : w.stage.renamed = true := by rw [hs]; rfl
    -- The save is over: what it has recorded is in the history.
    refine hi.returns rfl rfl (Or.inr rfl) rfl (fun _ => id) hi.files ?_ _
    show (some _, _) ∈ s.history
    rw [← (hsv.renamed hr).1]
    exact (hsv.renamed hr).2.1

/-! ## Runs -/

/-- No Desktop is running, and every revision in the directory counts as drawn. -/
structure Initial (serde : Serde) (s : Machine) : Prop where
  stores : ∀ p, s.stores p = none
  lock : s.lock = none
  history : ∃ r ∈ s.revisions, s.history = [(s.content, r)] ∧
    ∀ d, read serde s.content = .ok d → d.revision = r
  names : ∀ r, temporaryFile r ∈ s.files.keys → r ∈ s.revisions

/-- `Uuid::new_v4` never repeats itself. -/
def Fresh (s : Machine) : Act → Prop
  | .proceed p uuid => ∀ w ∈ s.saving p, w.stage = .read → uuid ∉ s.revisions
  | _ => True

theorem saving_eq (hp : s.stores p = some store) (hw : store.saving = some w) :
    s.saving p = some w := by
  rw [saving, hp, Option.bind_some, hw]

theorem Inv.initial (h : Initial serde s) : Inv serde s := by
  obtain ⟨r, hr, hhistory, hreads⟩ := h.history
  refine ⟨⟨⟨r, ?_⟩, ?_, ?_, ?_, h.names⟩, ?_, ?_⟩
  · rw [hhistory]
    exact List.mem_singleton_self _
  · rw [hhistory]
    intro c hc c' hc' _
    rw [List.mem_singleton.mp hc, List.mem_singleton.mp hc']
  · rw [hhistory]
    intro c hc
    rw [List.mem_singleton.mp hc]
    exact hreads
  · rw [hhistory]
    intro c hc
    rw [List.mem_singleton.mp hc]
    exact hr
  · intro p store hp
    rw [h.stores p] at hp
    cases hp
  · intro p hp
    rw [h.lock] at hp
    cases hp

theorem Inv.step (hserde : serde.Faithful) (hi : Inv serde s) {a : Act} (hfresh : Fresh s a)
    (hstep : s.step serde a = some t) : Inv serde t := by
  cases a with
  | load p =>
      dsimp only [Machine.step] at hstep
      split at hstep
      case h_1 document hp hread =>
        obtain rfl := Option.some.inj hstep
        refine hi.move (p := p) rfl (fun _ _ => Iff.rfl) (fun _ _ _ => ⟨rfl, rfl⟩) (fun _ => id)
          (fun _ => id) ⟨hi.files.content_mem, hi.files.unique, hi.files.reads, hi.files.drawn,
            hi.files.names⟩
          ⟨?_, ⟨fun hl => ?_, by simp⟩, by simp⟩
        · -- the document was read under the revision under which it was put there
          obtain ⟨r, hr⟩ := hi.files.content_mem
          show (s.content, document.revision) ∈ s.history
          rwa [hi.files.reads _ hr document hread]
        obtain ⟨store, hstore⟩ := hi.holder p hl
        rw [hp] at hstore
        cases hstore
      case h_2 =>
        obtain rfl := Option.some.inj hstep
        exact hi
      case h_3 => cases hstep
  | save p document =>
      dsimp only [Machine.step] at hstep
      split at hstep
      case h_1 store hp =>
        have hst := hi.stores p store hp
        split at hstep
        · cases hstep
        · rename_i hidle
          split at hstep
          · obtain rfl := Option.some.inj hstep
            exact hi.returns rfl rfl (Or.inr rfl) rfl (fun _ => id) hi.files hst.known _
          · rename_i hvalid
            obtain rfl := Option.some.inj hstep
            have hfree : s.lock = some p ↔ false = true := by
              rw [hst.lock]
              refine ⟨?_, by simp⟩
              rintro ⟨w, hw, -⟩
              rw [hw] at hidle
              exact absurd rfl hidle
            refine hi.move (p := p) rfl (fun _ _ => Iff.rfl) (fun _ _ _ => ⟨rfl, rfl⟩) (fun _ => id)
              (fun _ => id) ⟨hi.files.content_mem, hi.files.unique, hi.files.reads, hi.files.drawn,
                hi.files.names⟩
              ⟨hst.known, ?_, ?_⟩
            · refine hfree.trans ⟨by simp, ?_⟩
              rintro ⟨w, hw, hl⟩
              obtain rfl := Option.some.inj hw
              exact hl
            · intro w hw
              obtain rfl := Option.some.inj hw
              exact SavingInv.early (w := ⟨document, .createDirectory, none⟩) .createDirectory
                hvalid rfl
                rfl rfl
      case h_2 => cases hstep
  | proceed p uuid =>
      dsimp only [Machine.step] at hstep
      split at hstep
      case h_1 store hp =>
        obtain ⟨w, hw, rfl⟩ := Option.map_eq_some_iff.mp hstep
        exact hi.proceed hserde hp hw (hfresh w (saving_eq hp hw))
      case h_2 => cases hstep
  | fail p error left =>
      dsimp only [Machine.step] at hstep
      split at hstep
      case h_1 store hp =>
        obtain ⟨w, hw, rfl⟩ := Option.map_eq_some_iff.mp hstep
        have hst := hi.stores p store hp
        have hsv := hst.saving w hw
        unfold Machine.fail
        split
        · rename_i hc
          have hl : s.lock = some p := hst.lock.mpr ⟨w, hw, locked_of_checked hc⟩
          exact hi.returns (by cases left <;> rfl) (by cases left <;> rfl) (Or.inl hl)
            (by cases left <;> rfl) (by cases left <;> exact fun _ => id)
            (hi.files.leave (hsv.fresh hc).1 left) hst.known _
        · exact hi.returns rfl rfl (Or.inr rfl) rfl (fun _ => id) hi.files hst.known _
      case h_2 => cases hstep
  | exit p =>
      obtain rfl := Option.some.inj hstep
      refine ⟨⟨hi.files.content_mem, hi.files.unique, hi.files.reads, hi.files.drawn,
        hi.files.names⟩,
        fun q store hq => ?_, fun q hq => ?_⟩
      · by_cases hqp : q = p
        · subst hqp
          change Function.update s.stores q none q = _ at hq
          rw [Function.update_self] at hq
          cases hq
        · change Function.update s.stores p none q = _ at hq
          rw [Function.update_of_ne hqp] at hq
          exact (hi.stores q store hq).frame (lock_unlock hqp) (fun _ => ⟨rfl, rfl⟩) (fun _ => id)
            (fun _ => id)
      · by_cases hqp : q = p
        · exact absurd (hqp ▸ hq) (unlock_ne s p)
        · obtain ⟨store, hstore⟩ := hi.holder q ((lock_unlock hqp).mp hq)
          exact ⟨store, (Function.update_of_ne hqp _ _).trans hstore⟩

/-! ## What one step changes -/

theorem put_stores (s : Machine) (p : Nat) (store : Store) :
    (s.put p store).stores p = some store :=
  Function.update_self ..

theorem returns_stores (s : Machine) (p : Nat) (store : Store) (outcome : Except String Unit) :
    (s.returns p store outcome).stores p
      = some { store with saving := none, outcome := some outcome } :=
  put_stores ..

theorem proceed_stores_ne {uuid : String} (hq : q ≠ p) :
    (s.proceed serde p store w uuid).stores q = s.stores q := by
  unfold Machine.proceed
  dsimp only
  split
  case h_3 => split <;> exact Function.update_of_ne hq ..
  case h_4 =>
    split
    · exact Function.update_of_ne hq ..
    · split
      · exact Function.update_of_ne hq ..
      · split <;> exact Function.update_of_ne hq ..
  case h_5 => split <;> exact Function.update_of_ne hq ..
  case h_8 => split <;> exact Function.update_of_ne hq ..
  all_goals exact Function.update_of_ne hq ..

/-- A step of one Desktop leaves the others' stores alone. -/
theorem step_stores_ne {a : Act} (hstep : s.step serde a = some t) (hq : q ≠ a.desktop) :
    t.stores q = s.stores q := by
  cases a with
  | load p =>
      dsimp only [Machine.step] at hstep
      split at hstep <;> cases hstep
      · exact Function.update_of_ne hq ..
      · rfl
  | save p document =>
      dsimp only [Machine.step] at hstep
      split at hstep
      · split at hstep
        · cases hstep
        · split at hstep <;> cases hstep <;> exact Function.update_of_ne hq ..
      · cases hstep
  | proceed p uuid =>
      dsimp only [Machine.step] at hstep
      split at hstep
      · obtain ⟨w, -, rfl⟩ := Option.map_eq_some_iff.mp hstep
        exact proceed_stores_ne hq
      · cases hstep
  | fail p error left =>
      dsimp only [Machine.step] at hstep
      split at hstep
      · obtain ⟨w, -, rfl⟩ := Option.map_eq_some_iff.mp hstep
        unfold Machine.fail
        split
        · cases left <;> exact Function.update_of_ne hq ..
        · exact Function.update_of_ne hq ..
      · cases hstep
  | exit p =>
      obtain rfl := Option.some.inj hstep
      exact Function.update_of_ne hq ..

/-- Only the rename changes what the file holds. -/
theorem proceed_content {uuid : String} (hs : w.stage ≠ .rename) :
    (s.proceed serde p store w uuid).content = s.content := by
  unfold Machine.proceed
  dsimp only
  split
  case h_1 => rfl
  case h_2 => rfl
  case h_3 => split <;> rfl
  case h_4 =>
    split
    · rfl
    · split
      · rfl
      · split <;> rfl
  case h_5 =>
    split
    · exact content_leave none
    · exact content_insert_temporary ..
  case h_6 => exact content_insert_temporary ..
  case h_7 => rfl
  case h_8 hrename => exact absurd hrename hs
  case h_9 => rfl
  case h_10 => rfl

/-- Before its last operation a save leaves alone what the store knows, and when it returns it
returns an error and has not renamed. -/
theorem proceed_store (serde : Serde) (s : Machine) (p : Nat) (store : Store) (uuid : String)
    (hs : w.stage ≠ .syncParent) : ∃ saving outcome,
      (s.proceed serde p store w uuid).stores p
        = some { store with saving := saving, outcome := outcome }
      ∧ (saving = none → (∃ error, outcome = some (.error error)) ∧ w.stage.renamed = false) := by
  unfold Machine.proceed
  dsimp only
  split
  case h_3 hs' =>
    split
    · exact ⟨none, _, put_stores .., fun _ => ⟨⟨_, rfl⟩, by rw [hs']; rfl⟩⟩
    · exact ⟨some _, _, put_stores .., nofun⟩
  case h_4 hs' =>
    split
    · exact ⟨none, _, put_stores .., fun _ => ⟨⟨_, rfl⟩, by rw [hs']; rfl⟩⟩
    · split
      · exact ⟨none, _, put_stores .., fun _ => ⟨⟨_, rfl⟩, by rw [hs']; rfl⟩⟩
      · split
        · exact ⟨none, _, put_stores .., fun _ => ⟨⟨_, rfl⟩, by rw [hs']; rfl⟩⟩
        · exact ⟨some _, _, put_stores .., nofun⟩
  case h_5 hs' =>
    split
    · exact ⟨none, _, put_stores .., fun _ => ⟨⟨_, rfl⟩, by rw [hs']; rfl⟩⟩
    · exact ⟨some _, _, put_stores .., nofun⟩
  case h_8 hs' =>
    split
    · exact ⟨none, _, put_stores .., fun _ => ⟨⟨_, rfl⟩, by rw [hs']; rfl⟩⟩
    · exact ⟨some _, _, put_stores .., nofun⟩
  case h_10 hlast => exact absurd hlast hs
  all_goals exact ⟨some _, _, put_stores .., nofun⟩

/-- The last operation makes the saved document the one the store knows. -/
theorem proceed_last (s : Machine) (p : Nat) (store : Store) (uuid : String)
    (hs : w.stage = .syncParent) :
    (s.proceed serde p store w uuid).stores p = some ⟨w.document.revision, none, some (.ok ()),
      some (serde.toVec w.document)⟩ := by
  simp only [Machine.proceed, hs, returns_stores]

/-- A save that returns an error of its own has not renamed. -/
theorem proceed_error {uuid error : String}
    (hp : (s.proceed serde p store w uuid).stores p = some store') (hidle : store'.saving = none)
    (herror : store'.outcome = some (.error error)) : w.stage.renamed = false := by
  by_cases hs : w.stage = .syncParent
  · obtain rfl := Option.some.inj (hp.symm.trans (proceed_last s p store uuid hs))
    cases herror
  · obtain ⟨saving, outcome, hkept, hreturn⟩ := proceed_store serde s p store uuid hs
    obtain rfl := Option.some.inj (hp.symm.trans hkept)
    exact (hreturn hidle).2

/-- A save that returns success has come to its end. -/
theorem proceed_ok {uuid : String}
    (hp : (s.proceed serde p store w uuid).stores p = some store') (hidle : store'.saving = none)
    (hok : store'.outcome = some (.ok ())) : w.stage = .syncParent := by
  by_contra hs
  obtain ⟨saving, outcome, hkept, hreturn⟩ := proceed_store serde s p store uuid hs
  obtain rfl := Option.some.inj (hp.symm.trans hkept)
  obtain ⟨⟨error, herror⟩, -⟩ := hreturn hidle
  rw [herror] at hok
  cases hok

theorem fail_content {error : String} {left : Option (List UInt8)} :
    (s.fail p store w error left).content = s.content := by
  unfold Machine.fail
  split
  · exact content_leave left
  · rfl

/-- `p` has put its document in the place of what the file held. -/
def Replaces (serde : Serde) (s t : Machine) (p : Nat) : Prop :=
  ∃ store w store' w', s.stores p = some store ∧ store.saving = some w ∧ t.stores p = some store'
    ∧ store'.saving = some w' ∧ w'.replaced = some s.content ∧ s.content = store.last
    ∧ t.content = some (serde.toVec w.document)

/-- The file changes only when a Desktop replaces what it loaded or saved last. -/
theorem Inv.replaces (hi : Inv serde s) {a : Act} (hstep : s.step serde a = some t)
    (hne : t.content ≠ s.content) : ∃ p, Replaces serde s t p := by
  cases a with
  | load p =>
      dsimp only [Machine.step] at hstep
      split at hstep <;> cases hstep <;> exact absurd rfl hne
  | save p document =>
      dsimp only [Machine.step] at hstep
      split at hstep
      · split at hstep
        · cases hstep
        · split at hstep <;> cases hstep <;> exact absurd rfl hne
      · cases hstep
  | fail p error left =>
      dsimp only [Machine.step] at hstep
      split at hstep
      · obtain ⟨w, -, rfl⟩ := Option.map_eq_some_iff.mp hstep
        exact absurd fail_content hne
      · cases hstep
  | exit p =>
      obtain rfl := Option.some.inj hstep
      exact absurd rfl hne
  | proceed p uuid =>
      dsimp only [Machine.step] at hstep
      split at hstep
      · rename_i store hp
        obtain ⟨w, hw, rfl⟩ := Option.map_eq_some_iff.mp hstep
        have hsv := (hi.stores p store hp).saving w hw
        by_cases hs : w.stage = .rename
        · have hc : w.stage.checked = true := by rw [hs]; rfl
          have hrename : s.proceed serde p store w uuid = ({ s with
              files := (s.files.remove (temporaryFile w.document.revision)).insert layoutFile
                (serde.toVec w.document)
              history := (some (serde.toVec w.document), w.document.revision) :: s.history
              }.goOn p store
                { w with replaced := some s.content } .openParent) := by
            simp only [Machine.proceed, hs, hsv.written (Or.inr hs)]
          rw [hrename]
          refine ⟨p, store, w, _, _, hp, hw, put_stores .., rfl, rfl, hsv.own hc, ?_⟩
          show (BTreeMap.insert _ _ _).lookup _ = _
          rw [BTreeMap.lookup_insert, if_pos rfl]
        · exact absurd (proceed_content hs) hne
      · cases hstep

/-! ## Failed saves -/

/-- The step ends a save of `p` with an error. -/
def Fails (s t : Machine) (p : Nat) (store : Store) (w : Saving) (store' : Store) : Prop :=
  s.stores p = some store ∧ store.saving = some w ∧ t.stores p = some store' ∧ store'.saving = none
    ∧ ∃ error, store'.outcome = some (.error error)

/-- The directory cannot be opened or flushed after the rename. -/
def FlushFails (s : Machine) : Act → Prop
  | .fail p _ _ => ∃ w ∈ s.saving p, w.stage.renamed = true
  | _ => False

/-- A save ends only in a step of its own Desktop. -/
theorem acts {a : Act} (hstep : s.step serde a = some t) (hp : s.stores p = some store)
    (hw : store.saving = some w) (hp' : t.stores p = some store') (hidle : store'.saving = none) :
    a.desktop = p := by
  by_contra hne
  rw [step_stores_ne hstep (Ne.symm hne), hp] at hp'
  obtain rfl := Option.some.inj hp'
  rw [hw] at hidle
  cases hidle

/-- After a failed save the file holds what it held, or the store knows the new revision, exactly
when it was not the directory's flush that failed. -/
theorem Inv.fails_iff (hi : Inv serde s) {a : Act} (hstep : s.step serde a = some t)
    (hf : Fails s t p store w store') :
    (w.replaced = none ∨ store'.revision = w.document.revision) ↔ ¬ FlushFails s a := by
  obtain ⟨hp, hw, hp', hidle, error, herror⟩ := hf
  have hsv := (hi.stores p store hp).saving w hw
  have hdesktop : a.desktop = p := acts hstep hp hw hp' hidle
  cases a with
  | load p' =>
      obtain rfl : p' = p := hdesktop
      simp [Machine.step, hp] at hstep
  | save p' document =>
      obtain rfl : p' = p := hdesktop
      simp [Machine.step, hp, hw] at hstep
  | exit p' =>
      obtain rfl : p' = p := hdesktop
      obtain rfl := Option.some.inj hstep
      change Function.update s.stores p' none p' = _ at hp'
      rw [Function.update_self] at hp'
      cases hp'
  | proceed p' uuid =>
      obtain rfl : p' = p := hdesktop
      simp only [Machine.step, hp, hw, Option.map_some, Option.some.injEq] at hstep
      subst hstep
      exact iff_of_true (Or.inl (hsv.kept (proceed_error hp' hidle herror))) id
  | fail p' error' left =>
      obtain rfl : p' = p := hdesktop
      simp only [Machine.step, hp, hw, Option.map_some, Option.some.injEq] at hstep
      subst hstep
      have hstore : store' = { store with saving := none, outcome := some (.error error') } := by
        have hret : (s.fail p' store w error' left).stores p'
            = some { store with saving := none, outcome := some (.error error') } :=
              returns_stores ..
        exact Option.some.inj (hp'.symm.trans hret)
      by_cases hr : w.stage.renamed = true
      · -- the file has the new revision, the store the old one
        refine iff_of_false ?_ fun h => h ⟨w, saving_eq hp hw, hr⟩
        obtain ⟨-, -, hreplaced, hrev⟩ := hsv.renamed hr
        rintro (h | h)
        · rw [hreplaced] at h
          cases h
        · rw [hstore] at h
          exact hrev h
      · refine iff_of_true (Or.inl (hsv.kept (Bool.eq_false_iff.mpr hr))) ?_
        rintro ⟨w₁, hw₁, hr₁⟩
        rw [saving_eq hp hw] at hw₁
        obtain rfl := Option.some.inj hw₁
        exact hr hr₁

/-! ## The only writer -/

/-- The action starts no save of another Desktop. -/
def OnlyWriter (p : Nat) : Act → Prop
  | .save q _ => q = p
  | _ => True

/-- A document that is too deep to be read takes the file's place. -/
def Buries (s : Machine) : Act → Prop
  | .proceed p _ => ∃ w ∈ s.saving p, w.stage = .rename ∧ recursionLimit ≤ w.document.nesting
  | _ => False

/-- What keeps the only writer able to save: no flush of the directory fails, and no document that
takes the file's place is too deep to be read. -/
def Lasting (s : Machine) (a : Act) : Prop := ¬ FlushFails s a ∧ ¬ Buries s a

/-- What holds while only `p` saves, and its saves last. -/
structure Alone (serde : Serde) (p : Nat) (s : Machine) : Prop where
  inv : Inv serde s
  readable : ∀ store, s.stores p = some store → ∃ d, read serde s.content = .ok d
  others : ∀ q, q ≠ p → ∀ store, s.stores q = some store → store.saving = none
  own : ∀ store, s.stores p = some store →
    (∀ w, store.saving = some w → w.stage.renamed = false) → s.content = store.last

/-- The lock is free for `p`. -/
theorem Alone.lock_free (h : Alone serde p s) (hp : s.stores p = some store)
    (hidle : store.saving = none) : s.lock = none := by
  cases hl : s.lock with
  | none => rfl
  | some q =>
      obtain ⟨store', hq⟩ := h.inv.holder q hl
      obtain ⟨w, hw, -⟩ := (h.inv.stores q store' hq).lock.mp hl
      by_cases hqp : q = p
      · subst hqp
        rw [hp] at hq
        obtain rfl := Option.some.inj hq
        rw [hidle] at hw
        cases hw
      · rw [h.others q hqp store' hq] at hw
        cases hw

/-- After the rename a save goes on to the directory. -/
theorem proceed_rename (p : Nat) (store : Store) (uuid : String) (hs : w.stage = .rename)
    (hbytes : s.files.lookup (temporaryFile w.document.revision) = some (serde.toVec w.document)) :
    ∃ w', (s.proceed serde p store w uuid).stores p = some { store with saving := some w' }
      ∧ w'.stage.renamed = true := by
  simp only [Machine.proceed, hs, hbytes]
  exact ⟨_, put_stores .., rfl⟩

/-- The rename puts the saved document in the file's place. -/
theorem content_rename (p : Nat) (store : Store) (uuid : String) (hs : w.stage = .rename)
    (hbytes : s.files.lookup (temporaryFile w.document.revision) = some (serde.toVec w.document)) :
    (s.proceed serde p store w uuid).content = some (serde.toVec w.document) := by
  simp only [Machine.proceed, hs, hbytes]
  show (BTreeMap.insert _ _ _).lookup _ = _
  rw [BTreeMap.lookup_insert, if_pos rfl]

/-- What the only writer loaded or saved can be read. -/
theorem Alone.readable_step (hserde : serde.Faithful) (h : Alone serde p s) {a : Act}
    (hbury : ¬ Buries s a) (hstep : s.step serde a = some t) (hp' : t.stores p = some store') :
    ∃ d, read serde t.content = .ok d := by
  cases a with
  | load q =>
      dsimp only [Machine.step] at hstep
      split at hstep <;> cases hstep
      · rename_i document hq hread
        exact ⟨document, hread⟩
      · exact h.readable store' hp'
  | save q document =>
      dsimp only [Machine.step] at hstep
      split at hstep
      · rename_i store hq
        have hread (hstores : t.stores = Function.update s.stores q (t.stores q)) :
            ∃ d, read serde s.content = .ok d := by
          by_cases hqp : p = q
          · exact h.readable store (hqp ▸ hq)
          · rw [hstores, Function.update_of_ne hqp] at hp'
            exact h.readable store' hp'
        split at hstep
        · cases hstep
        · split at hstep <;> cases hstep
          · exact hread (by rw [returns_stores]; rfl)
          · exact hread (by rw [put_stores]; rfl)
      · cases hstep
  | exit q =>
      obtain rfl := Option.some.inj hstep
      by_cases hqp : p = q
      · subst hqp
        change Function.update s.stores p none p = _ at hp'
        rw [Function.update_self] at hp'
        cases hp'
      · exact h.readable store' ((Function.update_of_ne hqp ..).symm.trans hp')
  | fail q error left =>
      dsimp only [Machine.step] at hstep
      split at hstep
      · rename_i store hq
        obtain ⟨w, hw, rfl⟩ := Option.map_eq_some_iff.mp hstep
        rw [fail_content]
        by_cases hqp : q = p
        · exact h.readable store (hqp ▸ hq)
        · rw [h.others q hqp store hq] at hw
          cases hw
      · cases hstep
  | proceed q uuid =>
      dsimp only [Machine.step] at hstep
      split at hstep
      · rename_i store hq
        obtain ⟨w, hw, rfl⟩ := Option.map_eq_some_iff.mp hstep
        have hsv := (h.inv.stores q store hq).saving w hw
        by_cases hqp : q = p
        · by_cases hs : w.stage = .rename
          · have hlevels : w.document.nesting < recursionLimit :=
              not_le.mp fun hdeep => hbury ⟨w, saving_eq hq hw, hs, hdeep⟩
            have hc : w.stage.checked = true := by rw [hs]; rfl
            rw [content_rename q store uuid hs (hsv.written (Or.inr hs))]
            obtain ⟨d, hd, -⟩ := read_toVec hserde hsv.valid hlevels (hsv.small (Or.inl hc))
            exact ⟨d, hd⟩
          · rw [proceed_content hs]
            exact h.readable store (hqp ▸ hq)
        · rw [h.others q hqp store hq] at hw
          cases hw
      · cases hstep

theorem Alone.step (hserde : serde.Faithful) (h : Alone serde p s) {a : Act} (hfresh : Fresh s a)
    (hlasting : Lasting s a) (honly : OnlyWriter p a) (hstep : s.step serde a = some t) :
    Alone serde p t := by
  obtain ⟨hflush, hbury⟩ := hlasting
  refine ⟨h.inv.step hserde hfresh hstep, fun store => h.readable_step hserde hbury hstep,
    fun q hq store hstore => ?_, fun store hstore hnr => ?_⟩
  -- Another Desktop than the writer has no save, also after its own action.
  · by_cases hqa : q = a.desktop
    · cases a with
      | load q' =>
          obtain rfl : q = q' := hqa
          dsimp only [Machine.step] at hstep
          split at hstep <;> cases hstep
          · rw [put_stores] at hstore
            obtain rfl := Option.some.inj hstore
            rfl
          · exact h.others q hq store hstore
      | save q' document => exact absurd (hqa.trans honly) hq
      | proceed q' uuid =>
          obtain rfl : q = q' := hqa
          dsimp only [Machine.step] at hstep
          split at hstep
          · rename_i store' hq'
            rw [h.others q hq store' hq'] at hstep
            cases hstep
          · cases hstep
      | fail q' error left =>
          obtain rfl : q = q' := hqa
          dsimp only [Machine.step] at hstep
          split at hstep
          · rename_i store' hq'
            rw [h.others q hq store' hq'] at hstep
            cases hstep
          · cases hstep
      | exit q' =>
          obtain rfl : q = q' := hqa
          obtain rfl := Option.some.inj hstep
          change Function.update s.stores q none q = _ at hstore
          rw [Function.update_self] at hstore
          cases hstore
    · rw [step_stores_ne hstep hqa] at hstore
      exact h.others q hq store hstore
  -- The writer's store knows what the file holds, unless a save of its own is past the rename.
  · cases a with
    | load q =>
        dsimp only [Machine.step] at hstep
        split at hstep <;> cases hstep
        · by_cases hqp : p = q
          · subst hqp
            rw [put_stores] at hstore
            obtain rfl := Option.some.inj hstore
            rfl
          · exact h.own store ((Function.update_of_ne hqp ..).symm.trans hstore) hnr
        · exact h.own store hstore hnr
    | save q document =>
        obtain rfl : q = p := honly
        dsimp only [Machine.step] at hstep
        split at hstep
        · rename_i store' hp
          -- A store with a save refuses another one.
          have hidle : store'.saving = none := by
            cases hsv : store'.saving with
            | none => rfl
            | some w =>
                rw [hsv] at hstep
                cases hstep
          have hown := h.own store' hp fun w hw => by rw [hidle] at hw; cases hw
          simp only [hidle, Option.isSome_none, Bool.false_eq_true, if_false] at hstep
          split at hstep <;> cases hstep
          · rw [returns_stores] at hstore
            obtain rfl := Option.some.inj hstore
            exact hown
          · rw [put_stores] at hstore
            obtain rfl := Option.some.inj hstore
            exact hown
        · cases hstep
    | exit q =>
        obtain rfl := Option.some.inj hstep
        by_cases hqp : p = q
        · subst hqp
          change Function.update s.stores p none p = _ at hstore
          rw [Function.update_self] at hstore
          cases hstore
        · exact h.own store ((Function.update_of_ne hqp ..).symm.trans hstore) hnr
    | fail q error left =>
        dsimp only [Machine.step] at hstep
        split at hstep
        · rename_i store' hq
          obtain ⟨w, hw, rfl⟩ := Option.map_eq_some_iff.mp hstep
          rw [fail_content]
          by_cases hqp : q = p
          · subst hqp
            have hret : (s.fail q store' w error left).stores q
                = some { store' with saving := none, outcome := some (.error error) } :=
              returns_stores ..
            obtain rfl := Option.some.inj (hstore.symm.trans hret)
            refine h.own store' hq fun w' hw' => ?_
            rw [hw] at hw'
            obtain rfl := Option.some.inj hw'
            -- A save that fails after its rename is what `Lasting` excludes.
            exact Bool.eq_false_iff.mpr fun hr => hflush ⟨w, saving_eq hq hw, hr⟩
          · rw [h.others q hqp store' hq] at hw
            cases hw
        · cases hstep
    | proceed q uuid =>
        dsimp only [Machine.step] at hstep
        split at hstep
        · rename_i store' hq
          obtain ⟨w, hw, rfl⟩ := Option.map_eq_some_iff.mp hstep
          by_cases hqp : q = p
          · subst hqp
            have hsv := (h.inv.stores q store' hq).saving w hw
            by_cases hr : w.stage.renamed = true
            · have hcontent := (hsv.renamed hr).1
              cases hs : w.stage <;> rw [hs] at hr <;> first | cases hr; done | skip
              · -- the directory has been opened, and the save is not over
                simp only [Machine.proceed, hs, Machine.goOn, put_stores,
                  Option.some.injEq] at hstore
                subst hstore
                cases hnr _ rfl
              · -- the file holds what was saved
                simp only [Machine.proceed, hs, returns_stores, Option.some.injEq] at hstore ⊢
                subst hstore
                exact hcontent
            · by_cases hrename : w.stage = .rename
              · obtain ⟨w', hw', hr'⟩ := proceed_rename q store' uuid hrename
                  (hsv.written (Or.inr hrename))
                obtain rfl := Option.some.inj (hstore.symm.trans hw')
                rw [hnr w' rfl] at hr'
                cases hr'
              · obtain ⟨saving, outcome, hkept, -⟩ := proceed_store serde s q store' uuid
                  (w := w) fun hs => hr (by rw [hs]; rfl)
                obtain rfl := Option.some.inj (hstore.symm.trans hkept)
                rw [proceed_content hrename]
                refine h.own store' hq fun w' hw' => ?_
                rw [hw] at hw'
                obtain rfl := Option.some.inj hw'
                exact Bool.eq_false_iff.mpr hr
          · rw [h.others q hqp store' hq] at hw
            cases hw
        · cases hstep

/-- Nothing stands in the way of the only writer: a save of a valid document that fits goes
through. -/
theorem Alone.can_save (h : Alone serde p s) (hp : s.stores p = some store)
    (hidle : store.saving = none) {document : Document} (hvalid : document.validate = .ok ())
    {uuid : String} (hfresh : uuid ∉ s.revisions)
    (hsmall : (serde.toVec { document with revision := uuid }).length ≤ maxBytes) :
    ∃ t, exec (Machine.step serde) s (.save p document :: List.replicate 10 (.proceed p uuid)) =
      some t
      ∧ t.stores p = some ⟨uuid, none, some (.ok ()),
          some (serde.toVec { document with revision := uuid })⟩
      ∧ t.content = some (serde.toVec { document with revision := uuid }) := by
  have hlock := h.lock_free hp hidle
  have hown := h.own store hp fun w hw => by rw [hidle] at hw; cases hw
  obtain ⟨current, hread⟩ := h.readable store hp
  have hrev : current.revision = store.revision := by
    have hknown := (h.inv.stores p store hp).known
    rw [← hown] at hknown
    exact h.inv.files.reads _ hknown current hread
  have hnew : s.files.containsKey (temporaryFile uuid) = false := by
    rw [Bool.eq_false_iff]
    intro hmem
    exact hfresh (h.inv.files.names uuid (BTreeMap.containsKey_iff.mp hmem))
  have hlarge : ¬ maxBytes < (serde.toVec { document with revision := uuid }).length :=
    not_lt.mpr hsmall
  replace hread : read serde (s.files.lookup layoutFile) = .ok current := hread
  simp only [List.replicate, exec_cons, exec_nil, Machine.step, Machine.proceed, Machine.goOn,
    Machine.put, Machine.returns, Machine.unlock, Machine.content, hp, hidle, hvalid, hlock, hread,
    hrev, hnew, hlarge, Function.update_self, BTreeMap.lookup_insert,
    Option.isSome_none, Bool.false_eq_true, if_false, Option.map_some, Option.bind_some, ne_eq,
    not_true_eq_false, if_true, Option.some.injEq, exists_eq_left', and_true]

/-! ## Successful saves -/

/-- The step ends a save of `p` with success. -/
def Succeeds (s t : Machine) (p : Nat) (store : Store) (w : Saving) (store' : Store) : Prop :=
  s.stores p = some store ∧ store.saving = some w ∧ t.stores p = some store' ∧ store'.saving = none
    ∧ store'.outcome = some (.ok ())

/-- A successful save leaves the file and the store with the saved document and its revision. -/
theorem Inv.succeeds (hi : Inv serde s) {a : Act} (hstep : s.step serde a = some t)
    (hs : Succeeds s t p store w store') :
    t.content = some (serde.toVec w.document) ∧ store'.last = t.content
      ∧ store'.revision = w.document.revision := by
  obtain ⟨hp, hw, hp', hidle, hok⟩ := hs
  have hsv := (hi.stores p store hp).saving w hw
  have hdesktop : a.desktop = p := acts hstep hp hw hp' hidle
  cases a with
  | load p' =>
      obtain rfl : p' = p := hdesktop
      simp [Machine.step, hp] at hstep
  | save p' document =>
      obtain rfl : p' = p := hdesktop
      simp [Machine.step, hp, hw] at hstep
  | exit p' =>
      obtain rfl : p' = p := hdesktop
      obtain rfl := Option.some.inj hstep
      change Function.update s.stores p' none p' = _ at hp'
      rw [Function.update_self] at hp'
      cases hp'
  | fail p' error left =>
      obtain rfl : p' = p := hdesktop
      simp only [Machine.step, hp, hw, Option.map_some, Option.some.injEq] at hstep
      subst hstep
      obtain rfl := Option.some.inj (hp'.symm.trans (returns_stores ..))
      cases hok
  | proceed p' uuid =>
      obtain rfl : p' = p := hdesktop
      simp only [Machine.step, hp, hw, Option.map_some, Option.some.injEq] at hstep
      subst hstep
      have hs := proceed_ok hp' hidle hok
      have hr : w.stage.renamed = true := by rw [hs]; rfl
      obtain rfl := Option.some.inj (hp'.symm.trans (proceed_last s p' store uuid hs))
      have hcontent : (s.proceed serde p' store w uuid).content = some (serde.toVec w.document) :=
        (proceed_content (by rw [hs]; exact nofun)).trans (hsv.renamed hr).1
      exact ⟨hcontent, hcontent.symm, rfl⟩

/-! ## Every run -/

/-- The only writer of a run in which every save lasts. -/
theorem Alone.of_run (hserde : serde.Faithful) {s₀ : Machine} (h₀ : Initial serde s₀)
    {as : List Act} (hfresh : Meets (Machine.step serde) Fresh s₀ as)
    (halone : Meets (Machine.step serde) (fun s a => OnlyWriter p a ∧ Lasting s a) s₀ as)
    (hrun : exec (Machine.step serde) s₀ as = some s) : Alone serde p s := by
  have hinit : Alone serde p s₀ :=
    ⟨.initial h₀, fun store hp => absurd hp (by rw [h₀.stores p]; exact nofun),
      fun q _ store hq => absurd hq (by rw [h₀.stores q]; exact nofun),
      fun store hp => absurd hp (by rw [h₀.stores p]; exact nofun)⟩
  exact (reach_of_exec (hfresh.and halone) hrun).invariant hinit fun _ _ _ h hok hstep =>
    h.step hserde hok.1 hok.2.2 hok.2.1 hstep

/-- In every run of any number of Desktops: the file changes only when a Desktop replaces what it
loaded or saved last; a successful save leaves the file and its store with the saved document; a
failed save has not touched the file or left its store with the new revision exactly when it was
not the directory's flush that failed; and where every save lasts, a Desktop that alone saves can
save again. -/
theorem save_keeps_store (hserde : serde.Faithful) {s₀ : Machine} (h₀ : Initial serde s₀)
    {as : List Act} (hfresh : Meets (Machine.step serde) Fresh s₀ as)
    (hrun : exec (Machine.step serde) s₀ as = some s) :
    (∀ a t, s.step serde a = some t → t.content ≠ s.content → ∃ p, Replaces serde s t p)
    ∧ (∀ a t p store w store', s.step serde a = some t → Succeeds s t p store w store' →
        t.content = some (serde.toVec w.document) ∧ store'.last = t.content
          ∧ store'.revision = w.document.revision)
    ∧ (∀ a t p store w store', s.step serde a = some t → Fails s t p store w store' →
        ((w.replaced = none ∨ store'.revision = w.document.revision) ↔ ¬ FlushFails s a))
    ∧ ∀ p, Meets (Machine.step serde) (fun s a => OnlyWriter p a ∧ Lasting s a) s₀ as →
        ∀ store, s.stores p = some store → store.saving = none →
        ∀ document uuid, document.validate = .ok () → uuid ∉ s.revisions →
        (serde.toVec { document with revision := uuid }).length ≤ maxBytes →
        ∃ t, exec (Machine.step serde) s
            (.save p document :: List.replicate 10 (.proceed p uuid)) = some t
          ∧ t.stores p = some ⟨uuid, none, some (.ok ()),
              some (serde.toVec { document with revision := uuid })⟩
          ∧ t.content = some (serde.toVec { document with revision := uuid }) := by
  have hi : Inv serde s :=
    (reach_of_exec hfresh hrun).invariant (.initial h₀) fun _ _ _ h hok hstep =>
      h.step hserde hok hstep
  refine ⟨fun a t => hi.replaces, fun a t p store w store' => hi.succeeds,
    fun a t p store w store' => hi.fails_iff, fun p halone store hp hidle document uuid hvalid
      hnew hsmall => ?_⟩
  exact (Alone.of_run hserde h₀ hfresh halone hrun).can_save hp hidle hvalid hnew hsmall

/-! ## An empty directory -/

/-- The JSON of a document that holds nothing, up to its revision and from there on. -/
def emptyHead : List UInt8 := asBytes "\x7b\"version\":4,\"revision\":\""

def emptyTail : List UInt8 :=
  asBytes ("\",\"owner\":\"\",\"active\":\"\",\"arrangements\":\x7b\x7d,\"minimized\":[]," ++
    "\"workspace_order\":[],\"hidden_remote_workspaces\":\x7b\x7d,\"conversations\":[]," ++
    "\"mac_window\":null\x7d")

/-- `serde_json` on documents that hold nothing. -/
def emptySerde : Serde := .ofTemplate .default emptyHead emptyTail

theorem emptySerde_faithful : emptySerde.Faithful := Serde.faithful_ofTemplate rfl rfl

/-- Nothing is there yet. -/
def emptyDirectory : Machine := ⟨.empty, none, fun _ => none, [""], [(none, "")]⟩

theorem initial_emptyDirectory : Initial emptySerde emptyDirectory := by
  refine ⟨fun _ => rfl, rfl, ⟨"", List.mem_singleton_self _, rfl, fun d hd => ?_⟩,
    fun r hr => by cases hr⟩
  obtain rfl := Except.ok.inj (show Except.ok Document.default = Except.ok d from hd)
  rfl

/-- Two Desktops start; one of them saves, and saves again until its disk is full. -/
def busyRun : List Act :=
  [.load 0, .load 1, .save 0 .default] ++ List.replicate 10 (.proceed 0 "5b8d") ++
    .save 0 .default :: List.replicate 5 (.proceed 0 "9c1e") ++
    [.fail 0 "No space left on device" none]

/-- The state after the first actions of that run. -/
def busyState (n : Nat) : Machine :=
  (exec (Machine.step emptySerde) emptyDirectory (busyRun.take n)).getD emptyDirectory

/-- The store of the Desktop that saves, and its save. -/
def busyStore (n : Nat) : Store := ((busyState n).stores 0).getD ⟨"", none, none, none⟩

def busySaving (n : Nat) : Saving :=
  (busyStore n).saving.getD ⟨.default, .createDirectory, none⟩

theorem exec_busyState {n : Nat}
    (h : (exec (Machine.step emptySerde) emptyDirectory (busyRun.take n)).isSome = true) :
    exec (Machine.step emptySerde) emptyDirectory (busyRun.take n) = some (busyState n) :=
  eq_some_getD _ h

theorem step_busyState {n : Nat} {a : Act} (ha : busyRun[n]? = some a)
    (h : (exec (Machine.step emptySerde) emptyDirectory (busyRun.take n)).isSome = true)
    (h' : (exec (Machine.step emptySerde) emptyDirectory (busyRun.take (n + 1))).isSome = true) :
    (busyState n).step emptySerde a = some (busyState (n + 1)) := by
  have hrun := exec_busyState h'
  rw [List.take_add_one, ha, exec_append, exec_busyState h] at hrun
  simpa using hrun

instance : DecidablePred (Fresh s)
  | .proceed _ _ => inferInstanceAs (Decidable (∀ w ∈ s.saving _, _ → _ ∉ s.revisions))
  | .load _ | .save _ _ | .fail _ _ _ | .exit _ => isTrue trivial

instance : DecidablePred (FlushFails s)
  | .fail _ _ _ => inferInstanceAs (Decidable (∃ w ∈ s.saving _, _))
  | .load _ | .save _ _ | .proceed _ _ | .exit _ => isFalse id

instance : DecidablePred (Buries s)
  | .proceed _ _ => inferInstanceAs (Decidable (∃ w ∈ s.saving _, _ ∧ _))
  | .load _ | .save _ _ | .fail _ _ _ | .exit _ => isFalse id

instance : DecidablePred (OnlyWriter p)
  | .save q _ => inferInstanceAs (Decidable (q = p))
  | .load _ | .proceed _ _ | .fail _ _ _ | .exit _ => isTrue trivial

instance : DecidablePred (Lasting s) := fun a =>
  inferInstanceAs (Decidable (¬ FlushFails s a ∧ ¬ Buries s a))

/-- The first save replaces the empty file and succeeds; the second one fails and leaves the file
alone; and after it the Desktop saves once more. -/
theorem save_keeps_store_busyRun :
    (∃ p, Replaces emptySerde (busyState 10) (busyState 11) p)
    ∧ (busyState 13).content = some (emptySerde.toVec (busySaving 12).document)
    ∧ (busyStore 13).last = (busyState 13).content
    ∧ (busyStore 13).revision = (busySaving 12).document.revision
    ∧ ((busySaving 19).replaced = none
      ∨ (busyStore 20).revision = (busySaving 19).document.revision)
    ∧ ∃ t, exec (Machine.step emptySerde) (busyState 20)
        (.save 0 .default :: List.replicate 10 (.proceed 0 "e07f")) = some t
      ∧ t.stores 0 = some ⟨"e07f", none, some (.ok ()),
          some (emptySerde.toVec { Document.default with revision := "e07f" })⟩
      ∧ t.content = some (emptySerde.toVec { Document.default with revision := "e07f" }) := by
  obtain ⟨hruns, hfresh, halone, hstores, hsavings, hreturned, hchanged⟩ :
      (∀ n ∈ [10, 11, 12, 13, 19, 20],
        (exec (Machine.step emptySerde) emptyDirectory (busyRun.take n)).isSome = true)
      ∧ (∀ n ∈ [10, 12, 19, 20],
        allMeet (Machine.step emptySerde) Fresh emptyDirectory (busyRun.take n) = true)
      ∧ allMeet (Machine.step emptySerde) (fun s a => OnlyWriter 0 a ∧ Lasting s a)
        emptyDirectory (busyRun.take 20) = true
      ∧ (∀ n ∈ [12, 13, 19, 20], ((busyState n).stores 0).isSome = true)
      ∧ (∀ n ∈ [12, 19], (busyStore n).saving.isSome = true)
      ∧ (∀ n ∈ [13, 20], (busyStore n).saving.isNone = true)
      ∧ (busyState 11).content ≠ (busyState 10).content := by
    decide +kernel
  have hstore (n : Nat) (hn : n ∈ [12, 13, 19, 20]) :
      (busyState n).stores 0 = some (busyStore n) :=
    eq_some_getD _ (hstores n hn)
  have hsucceeds :
      Succeeds (busyState 12) (busyState 13) 0 (busyStore 12) (busySaving 12) (busyStore 13) :=
    ⟨hstore 12 (by decide), eq_some_getD _ (hsavings 12 (by decide)), hstore 13 (by decide),
      Option.isNone_iff_eq_none.mp (hreturned 13 (by decide)), by decide +kernel⟩
  have hfails :
      Fails (busyState 19) (busyState 20) 0 (busyStore 19) (busySaving 19) (busyStore 20) :=
    ⟨hstore 19 (by decide), eq_some_getD _ (hsavings 19 (by decide)), hstore 20 (by decide),
      Option.isNone_iff_eq_none.mp (hreturned 20 (by decide)), "No space left on device",
      by decide +kernel⟩
  -- the theorem before the rename, before the end of the first save, before the failure, after it
  have hrename := (save_keeps_store emptySerde_faithful initial_emptyDirectory
    (meets_of_allMeet (hfresh 10 (by decide))) (exec_busyState (hruns 10 (by decide)))).1
    (.proceed 0 "5b8d") _ (step_busyState rfl (hruns 10 (by decide)) (hruns 11 (by decide)))
    hchanged
  obtain ⟨hcontent, hlast, hrevision⟩ := (save_keeps_store emptySerde_faithful
    initial_emptyDirectory (meets_of_allMeet (hfresh 12 (by decide)))
    (exec_busyState (hruns 12 (by decide)))).2.1 (.proceed 0 "5b8d") _ 0 _ _ _
    (step_busyState rfl (hruns 12 (by decide)) (hruns 13 (by decide))) hsucceeds
  have hkept := (save_keeps_store emptySerde_faithful initial_emptyDirectory
    (meets_of_allMeet (hfresh 19 (by decide))) (exec_busyState (hruns 19 (by decide)))).2.2.1
    (.fail 0 "No space left on device" none) _ 0 _ _ _
    (step_busyState rfl (hruns 19 (by decide)) (hruns 20 (by decide))) hfails
  have hagain := (save_keeps_store emptySerde_faithful initial_emptyDirectory
    (meets_of_allMeet (hfresh 20 (by decide))) (exec_busyState (hruns 20 (by decide)))).2.2.2 0
    (meets_of_allMeet halone) _ (hstore 20 (by decide))
    (Option.isNone_iff_eq_none.mp (hreturned 20 (by decide))) .default "e07f" rfl
      (by decide +kernel)
    (by decide +kernel)
  exact ⟨hrename, hcontent, hlast, hrevision, hkept.mpr (by decide +kernel), hagain⟩

/-- The save whose directory cannot be flushed after the rename. -/
def lostSave : List Act :=
  [.load 0, .save 0 .default] ++ List.replicate 9 (.proceed 0 "5b8d") ++
    [.fail 0 "Input/output error" none]

/-- A further save of the same Desktop, without failures as far as it comes. -/
def nextSave : List Act := .save 0 .default :: List.replicate 4 (.proceed 0 "9c1e")

/-- The error that a save returned. -/
def errorOf : Option (Except String Unit) → Option String
  | some (.error error) => some error
  | _ => none

/-- The only Desktop has put its first document in place and still knows the revision of before,
and so its next save is refused. -/
theorem flush_failure_bars_saving :
    ((exec (Machine.step emptySerde) emptyDirectory lostSave).bind fun t =>
        (t.stores 0).map fun store => (store.revision, store.saving.isNone, errorOf store.outcome,
          t.content.isSome, (read emptySerde t.content).toOption.map (·.revision)))
      = some ("", true, some "Input/output error", true, some "5b8d")
    ∧ ((exec (Machine.step emptySerde) emptyDirectory (lostSave ++ nextSave)).bind fun t =>
        (t.stores 0).map fun store => (store.saving.isNone, errorOf store.outcome))
      = some (true, some "another Desktop changed this layout; reopen Desktop before saving") := by
  decide +kernel

/-- `n` splits one inside the other. -/
def deepTree : Nat → Tree
  | 0 => .pane 0
  | n + 1 => .split true 0.5 (.pane (n + 1)) (deepTree n)

/-- A window of 63 panes with a Shell each, tiled by 62 nested splits. -/
def deepDocument : Document :=
  { Document.default with
    arrangements := BTreeMap.insert .empty "mixed"
      { tree := some (deepTree 62)
        floating := []
        panes := .collect ((List.range 63).map fun id => (id, ⟨some (toString id), some "w"⟩))
        focused := none
        expanded := none
        canvas := #v[1200.0, 800.0] } }

/-- The document of 62 nested splits is saved with success, and from then on the only Desktop is
refused: the file cannot be read. -/
theorem deep_layout_bars_saving :
    ((exec (Machine.step emptySerde) emptyDirectory
        ([.load 0, .save 0 deepDocument] ++ List.replicate 10 (.proceed 0 "5b8d"))).bind fun t =>
        (t.stores 0).map fun store => (store.revision, store.outcome))
      = some ("5b8d", some (.ok ()))
    ∧ ((exec (Machine.step emptySerde) emptyDirectory
        ([.load 0, .save 0 deepDocument] ++ List.replicate 10 (.proceed 0 "5b8d") ++
          nextSave)).bind fun t => (t.stores 0).map fun store => store.outcome)
      = some (some (.error "recursion limit exceeded")) := by
  decide +kernel

end Machine

end Boomux.Desktop
