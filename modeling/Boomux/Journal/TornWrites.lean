import Boomux.Journal.LocalShell
import Mathlib.Data.List.Induction

/-!
# Torn writes of the journal

A crash leaves a prefix of the bytes that the accepted appends wrote. Loading it gives the
records of its complete lines, cuts off the rest, and leaves a journal that goes on as the one
in which only those records were appended (`load_torn`).
-/

set_option autoImplicit false

namespace Boomux.Journal

open Rust

variable {c : Codec} {j j' : LocalShellJournal} {r : LocalShellJournalRecord}
  {rs rs' : List LocalShellJournalRecord} {tail : List UInt8} {shellId : String}

/-! ## Sequences -/

theorem validateSequence_eq_ok {u : Unit} :
    validateSequence rs = .ok u ↔ ∃ seen, rs.foldlM Sequence.record .empty = .ok seen := by
  unfold validateSequence
  rw [bind_eq_ok]
  exact ⟨fun ⟨seen, h, _⟩ => ⟨seen, h⟩, fun ⟨seen, h⟩ => ⟨seen, h, rfl⟩⟩

/-- The validator accepts every prefix of what it accepts. -/
theorem validateSequence_of_append {u : Unit} (h : validateSequence (rs ++ rs') = .ok u) :
    validateSequence rs = .ok () := by
  obtain ⟨seen, hseen⟩ := validateSequence_eq_ok.mp h
  rw [List.foldlM_append, bind_eq_ok] at hseen
  obtain ⟨mid, hmid, -⟩ := hseen
  exact validateSequence_eq_ok.mpr ⟨mid, hmid⟩

/-- Whether the record starts a run of the Shell. -/
def LocalShellJournalRecord.starts (shellId : String) : LocalShellJournalRecord → Bool
  | .create _ => false
  | .start transaction => transaction.shellId == shellId

/-- How many runs of the Shell the records start. -/
def startCount (shellId : String) (rs : List LocalShellJournalRecord) : Nat :=
  rs.countP (·.starts shellId)

theorem record_create_eq_ok {seen seen' : Sequence} {transaction : LocalShellTransaction} :
    seen.record (.create transaction) = .ok seen' ↔
      seen.generations.lookup transaction.shellId = none ∧
        seen' = { seen with generations := seen.generations.insert transaction.shellId 0 } := by
  simp only [Sequence.record]
  split
  next hsome => simp [hsome]
  next hnone => simp [hnone, eq_comm]

theorem record_start_eq_ok {seen seen' : Sequence} {transaction : LocalShellStartTransaction} :
    seen.record (.start transaction) = .ok seen' ↔
      ∃ generation, seen.generations.lookup transaction.shellId = some generation ∧
        generation + 1 ≤ u64Max ∧ transaction.run.generation = generation + 1 ∧
        transaction.run.endedAtMs = none ∧ transaction.run.exitReason = none ∧
        transaction.run.id ∉ seen.runIds ∧
        seen' = ⟨seen.generations.insert transaction.shellId (generation + 1),
          transaction.run.id :: seen.runIds⟩ := by
  simp only [Sequence.record]
  split
  next hnone => simp [hnone]
  next generation hsome =>
    rw [hsome]
    split
    next hnext =>
      unfold checkedAdd at hnext
      simp only [reduceCtorEq, Option.some.injEq, false_iff, not_exists, not_and]
      rintro generation' rfl hle
      rw [if_pos hle] at hnext
      cases hnext
    next expected hnext =>
      obtain ⟨hle, rfl⟩ := checkedAdd_eq_some.mp hnext
      rw [require_bind_eq_ok]
      simp only [Bool.and_eq_true, beq_iff_eq, Option.isNone_iff_eq_none, Bool.not_eq_true',
        List.contains_eq_mem, decide_eq_false_iff_not, Except.ok.injEq]
      constructor
      · rintro ⟨⟨⟨⟨hgen, hended⟩, hreason⟩, hid⟩, rfl⟩
        exact ⟨generation, rfl, hle, hgen, hended, hreason, hid, rfl⟩
      · rintro ⟨generation', he, -, hgen, hended, hreason, hid, rfl⟩
        obtain rfl := Option.some.inj he
        exact ⟨⟨⟨⟨hgen, hended⟩, hreason⟩, hid⟩, rfl⟩

theorem record_generation {seen seen' : Sequence} (h : seen.record r = .ok seen')
    (shellId : String) : (seen'.generations.lookup shellId).getD 0 =
      (seen.generations.lookup shellId).getD 0 + if r.starts shellId then 1 else 0 := by
  cases r with
  | create transaction =>
      obtain ⟨hnone, rfl⟩ := record_create_eq_ok.mp h
      rw [HashMap.get_insert]
      by_cases he : shellId = transaction.shellId
      · rw [if_pos he, he, hnone]
        rfl
      · rw [if_neg he]
        rfl
  | start transaction =>
      obtain ⟨generation, hsome, -, -, -, -, -, rfl⟩ := record_start_eq_ok.mp h
      rw [HashMap.get_insert]
      by_cases he : shellId = transaction.shellId
      · subst he
        simp [hsome, LocalShellJournalRecord.starts]
      · rw [if_neg he]
        simp [LocalShellJournalRecord.starts, Ne.symm he]

/-- The generation of a Shell is the number of its runs. -/
theorem foldlM_generation {seen seen' : Sequence} (h : rs.foldlM Sequence.record seen = .ok seen')
    (shellId : String) : (seen'.generations.lookup shellId).getD 0 =
      (seen.generations.lookup shellId).getD 0 + startCount shellId rs := by
  induction rs generalizing seen with
  | nil =>
      cases h
      rfl
  | cons r rs ih =>
      rw [List.foldlM_cons, bind_eq_ok] at h
      obtain ⟨mid, hmid, hrest⟩ := h
      rw [ih hrest, record_generation hmid shellId]
      unfold startCount
      rw [List.countP_cons]
      omega

/-- A run that continues an accepted sequence has the next generation of its Shell. -/
theorem next_generation {transaction : LocalShellStartTransaction} {u : Unit}
    (h : validateSequence (rs ++ [.start transaction]) = .ok u) :
    transaction.run.generation = startCount transaction.shellId rs + 1 := by
  obtain ⟨seen, hseen⟩ := validateSequence_eq_ok.mp h
  rw [List.foldlM_append, bind_eq_ok] at hseen
  obtain ⟨mid, hmid, hlast⟩ := hseen
  have hcount := foldlM_generation hmid transaction.shellId
  rw [List.foldlM_cons, bind_eq_ok] at hlast
  obtain ⟨last, hrecord, -⟩ := hlast
  obtain ⟨generation, hsome, -, hgeneration, -⟩ := record_start_eq_ok.mp hrecord
  rw [hgeneration]
  rw [hsome] at hcount
  simpa [Sequence.empty] using hcount

/-! ## Appends -/

/-- `serde_json` gives back the record's entry and writes it on one line. -/
structure Codec.Faithful (c : Codec) (r : LocalShellJournalRecord) : Prop where
  parse_print : c.parse (c.print (c.entry r)) = .ok (c.entry r)
  one_line : newline ∉ c.print (c.entry r)

/-- The file after the records have been appended to an empty one. -/
def Codec.text (c : Codec) (rs : List LocalShellJournalRecord) : List UInt8 :=
  Lines.unlines newline (rs.map c.line)

@[simp] theorem text_nil : c.text [] = [] := rfl

theorem text_append : c.text (rs ++ rs') = c.text rs ++ c.text rs' := by
  unfold Codec.text
  rw [List.map_append, Lines.unlines_append]

theorem text_singleton : c.text [r] = c.line r ++ [newline] := by
  simp [Codec.text, Lines.unlines]

/-- The journal after a sequence of accepted appends. -/
def Codec.acceptAll (c : Codec) (j : LocalShellJournal) (rs : List LocalShellJournalRecord) :
    Except IoError LocalShellJournal :=
  rs.foldlM c.accept j

theorem accept_eq_ok : c.accept j r = .ok j' ↔
    j.failed = false ∧ validateSequence (j.records ++ [r]) = .ok () ∧
      (j.file ++ c.text [r]).length ≤ maxBytes ∧
      j' = ⟨j.file ++ c.text [r], j.records ++ [r], false⟩ := by
  have hadmits : c.admits j r = .ok () ↔ j.failed = false ∧
      validateSequence (j.records ++ [r]) = .ok () ∧
      (j.file ++ c.text [r]).length ≤ maxBytes := by
    rw [text_singleton, List.length_append]
    exact admits_eq_ok
  unfold Codec.accept Codec.append
  split
  next j'' hj =>
    split at hj
    next => simp at hj
    next hok =>
      obtain ⟨hfailed, hseq, hsize⟩ := hadmits.mp hok
      simp only [Prod.mk.injEq, true_and] at hj
      rw [← hj, hfailed, text_singleton]
      rw [text_singleton] at hsize
      simp only [Except.ok.injEq, true_and, hseq, hsize]
      exact eq_comm
  next error j'' hj =>
    split at hj
    next herror =>
      simp only [reduceCtorEq, false_iff]
      rintro ⟨hfailed, hseq, hsize, -⟩
      rw [hadmits.mpr ⟨hfailed, hseq, hsize⟩] at herror
      cases herror
    next => simp at hj

/-- What the accepted appends leave: their text, and the records in order. -/
theorem acceptAll_eq_ok : c.acceptAll .empty rs = .ok j ↔
    validateSequence rs = .ok () ∧ (c.text rs).length ≤ maxBytes ∧ j = ⟨c.text rs, rs, false⟩ := by
  induction rs using List.reverseRecOn generalizing j with
  | nil =>
      constructor
      · intro h
        cases h
        exact ⟨rfl, Nat.zero_le _, rfl⟩
      · rintro ⟨-, -, rfl⟩
        rfl
  | append_singleton rs r ih =>
      have hfold : c.acceptAll .empty (rs ++ [r]) = c.acceptAll .empty rs >>= (c.accept · r) := by
        unfold Codec.acceptAll
        rw [List.foldlM_append]
        simp
      rw [hfold, bind_eq_ok, text_append]
      constructor
      · rintro ⟨mid, hmid, hlast⟩
        obtain ⟨-, -, rfl⟩ := ih.mp hmid
        obtain ⟨-, hseq, hsize, rfl⟩ := accept_eq_ok.mp hlast
        exact ⟨hseq, hsize, rfl⟩
      · rintro ⟨hseq, hsize, rfl⟩
        have hprefix : (c.text rs).length ≤ maxBytes := by
          rw [List.length_append] at hsize
          omega
        exact ⟨_, ih.mpr ⟨validateSequence_of_append hseq, hprefix, rfl⟩,
          accept_eq_ok.mpr ⟨rfl, hseq, hsize, rfl⟩⟩

/-! ## Loading -/

/-- The loop of `parse_records` on complete lines and a rest without a newline. -/
theorem parseLines_text (hfaithful : ∀ r ∈ rs, c.Faithful r) (htail : newline ∉ tail)
    (acc : List LocalShellJournalRecord) (offset : Nat) :
    c.parseLines acc offset (Lines.splitInclusive newline (c.text rs ++ tail)) =
      .ok (acc ++ rs, offset + (c.text rs).length) := by
  induction rs generalizing acc offset with
  | nil =>
      rw [text_nil, List.nil_append, Lines.splitInclusive_rest htail]
      split
      next => simp [Codec.parseLines]
      next =>
        have hlast : tail.getLast? ≠ some newline := fun h => htail (List.mem_of_getLast? h)
        simp [Codec.parseLines, hlast]
  | cons r rs ih =>
      have hr : c.Faithful r := hfaithful r List.mem_cons_self
      have hsplit : c.text (r :: rs) ++ tail =
          c.line r ++ [newline] ++ (c.text rs ++ tail) := by
        simp [Codec.text, Lines.unlines_cons]
      have hlen : (c.text (r :: rs)).length =
          (c.line r ++ [newline]).length + (c.text rs).length := by
        rw [← List.length_append]
        simp [Codec.text, Lines.unlines_cons]
      have hline : newline ∉ c.line r := hr.one_line
      rw [hsplit, Lines.splitInclusive_line hline, hlen]
      unfold Codec.parseLines
      have hparse : c.parse (c.line r ++ [newline]).dropLast = .ok (c.entry r) := by
        rw [List.dropLast_concat]
        exact hr.parse_print
      have hrest := ih (fun r' hr' => hfaithful r' (List.mem_cons_of_mem r hr')) (acc ++ [r])
        (offset + (c.line r ++ [newline]).length)
      rw [if_neg (by simp), hparse, List.append_cons acc r rs, ← Nat.add_assoc]
      refine require_bind_eq_ok.mpr ⟨?_, require_bind_eq_ok.mpr ⟨?_, hrest⟩⟩
      · exact beq_self_eq_true version
      · exact beq_self_eq_true (c.digest (c.payload r))

/-- Loading the text of a sequence with a torn rest. -/
theorem load_text (hfaithful : ∀ r ∈ rs, c.Faithful r) (htail : newline ∉ tail)
    (hseq : validateSequence rs = .ok ()) (hsize : (c.text rs ++ tail).length ≤ maxBytes) :
    c.load (c.text rs ++ tail) = .ok ⟨c.text rs, rs, false⟩ := by
  have hlines := parseLines_text hfaithful htail [] 0
  rw [List.nil_append, Nat.zero_add] at hlines
  have hparse : c.parseRecords (c.text rs ++ tail) = .ok (rs, (c.text rs).length) := by
    unfold Codec.parseRecords
    rw [hlines]
    simp [bind, Except.bind, hseq]
  unfold Codec.load
  rw [require_bind_eq_ok, hparse]
  exact ⟨by simpa using hsize, by simp [bind, Except.bind]⟩

/-- A cut anywhere in the text leaves some complete lines and a rest without a newline. -/
theorem take_text (hfaithful : ∀ r ∈ rs, c.Faithful r) (k : Nat) :
    ∃ kept tail, kept <+: rs ∧ newline ∉ tail ∧ (c.text rs).take k = c.text kept ++ tail := by
  have hlines : ∀ line ∈ rs.map c.line, newline ∉ line := by
    intro line hline
    obtain ⟨r, hr, rfl⟩ := List.mem_map.mp hline
    exact (hfaithful r hr).one_line
  obtain ⟨lines, tail, hprefix, htail, hcut⟩ := Lines.take_unlines k hlines
  have hmap : (rs.take lines.length).map c.line = lines := by
    rw [List.map_take]
    exact (List.prefix_iff_eq_take.mp hprefix).symm
  refine ⟨rs.take lines.length, tail, List.take_prefix _ _, htail, ?_⟩
  unfold Codec.text
  rw [hmap]
  exact hcut

/-- For every sequence of accepted appends and every cut of the file: loading keeps the records
of the complete lines and exactly their bytes, and the journal is the one in which only these
were appended. It accepts a record that continues their sequence, with the next generation when
it is a start, and loading the file again gives the old records followed by the new one. -/
theorem load_torn {records : List LocalShellJournalRecord}
    (hfaithful : ∀ r ∈ records, c.Faithful r) (happended : c.acceptAll .empty records = .ok j)
    (k : Nat) :
    ∃ kept tail loaded, kept <+: records ∧ newline ∉ tail ∧
      j.file.take k = c.text kept ++ tail ∧ c.load (j.file.take k) = .ok loaded ∧
      loaded.records = kept ∧ loaded.file = c.text kept ∧
      c.acceptAll .empty kept = .ok loaded ∧
      (∀ r, (∃ next, c.accept loaded r = .ok next) ↔ validateSequence (kept ++ [r]) = .ok () ∧
        (c.text kept ++ c.text [r]).length ≤ maxBytes) ∧
      ∀ r next, c.Faithful r → c.accept loaded r = .ok next →
        (∀ transaction, r = .start transaction →
          transaction.run.generation = startCount transaction.shellId kept + 1) ∧
        next.file = c.text kept ++ (c.line r ++ [newline]) ∧ next.records = kept ++ [r] ∧
        c.load next.file = .ok next := by
  obtain ⟨hseq, hsize, rfl⟩ := acceptAll_eq_ok.mp happended
  -- A cut ends within a line; the complete lines before it are kept.
  obtain ⟨kept, tail, hkept, htail, hcut⟩ := take_text hfaithful k
  have hkeptFaithful : ∀ r ∈ kept, c.Faithful r := fun r hr => hfaithful r (hkept.subset hr)
  have hkeptSeq : validateSequence kept = .ok () := by
    obtain ⟨rest, rfl⟩ := hkept
    exact validateSequence_of_append hseq
  have hcutSize : (c.text kept ++ tail).length ≤ maxBytes := by
    rw [← hcut, List.length_take]
    omega
  have hkeptSize : (c.text kept).length ≤ maxBytes := by
    rw [List.length_append] at hcutSize
    omega
  refine ⟨kept, tail, ⟨c.text kept, kept, false⟩, hkept, htail, hcut, ?_, rfl, rfl,
    acceptAll_eq_ok.mpr ⟨hkeptSeq, hkeptSize, rfl⟩, fun r => ?_, ?_⟩
  -- The tail is dropped, since it has no newline.
  · rw [hcut]
    exact load_text hkeptFaithful htail hkeptSeq hcutSize
  · simp only [accept_eq_ok, true_and]
    exact ⟨fun ⟨_, hnextSeq, hnextSize, _⟩ => ⟨hnextSeq, hnextSize⟩,
      fun ⟨hnextSeq, hnextSize⟩ => ⟨_, hnextSeq, hnextSize, rfl⟩⟩
  · intro r next hr haccept
    obtain ⟨-, hnextSeq, hnextSize, rfl⟩ := accept_eq_ok.mp haccept
    refine ⟨?_, by rw [text_singleton], rfl, ?_⟩
    · rintro transaction rfl
      exact next_generation hnextSeq
    -- The line that is appended is complete, so that the next load keeps it too.
    · have hall : ∀ r' ∈ kept ++ [r], c.Faithful r' := by
        intro r' hr'
        rcases List.mem_append.mp hr' with hmem | hmem
        · exact hkeptFaithful r' hmem
        · exact List.mem_singleton.mp hmem ▸ hr
      have hload := load_text hall List.not_mem_nil hnextSeq
        (by rw [List.append_nil, text_append]; exact hnextSize)
      rw [List.append_nil, text_append] at hload
      exact hload

/-! ## A torn journal of two records -/

/-- A record with its JSON and the digest of it. -/
structure Text where
  record : LocalShellJournalRecord
  payload : List String
  digest : String

/-- The bytes of an ASCII text. -/
def asciiBytes (parts : List String) : List UInt8 :=
  parts.flatMap fun part => part.toList.map fun ch => UInt8.ofNat ch.toNat

/-- The JSON of the record's entry. -/
def Text.entry (t : Text) : List String :=
  ["\x7b\"version\":1,", "\"record\":"] ++ t.payload ++ [",\"checksum\":\"", t.digest, "\"\x7d"]

/-- The texts of these records as `serde_json` and `Sha256` give them. -/
def textCodec (texts : List Text) : Codec where
  payload record := ((texts.find? (·.record = record)).map (asciiBytes ·.payload)).getD []
  digest bytes := ((texts.find? (asciiBytes ·.payload = bytes)).map (·.digest)).getD ""
  print entry := ((texts.find? (·.record = entry.record)).map (asciiBytes ·.entry)).getD []
  parse bytes := match texts.find? (asciiBytes ·.entry = bytes) with
    | some t => .ok ⟨version, t.record, t.digest⟩
    | none => .error "expected value at line 1 column 1"

def createdShell : LocalShellTransaction where
  operationId := "o"
  requestFingerprint := "f"
  requestBytes := 9
  globalWorkspaceId := "g"
  expectedGlobalRevision := 1
  nodeId := "n"
  requestedOwnerWorkspaceId := "w"
  ownerWorkspaceId := "w"
  ownerWorkspaceName := "p"
  ownerRevision := 2
  defaultCwd := none
  shellId := "s"
  shell := ⟨"s", [], "/"⟩
  resultShell := ⟨"s", 1, "w", "s", "/", [], .pending, none, none, none⟩

def startedRun : LocalShellStartTransaction where
  shellId := "s"
  run := ⟨⟨"r", 1, none, 0, ⟨none, none, none, none, 24, 80, 0, 0⟩, none⟩, 1, none, true⟩

def createdText : Text where
  record := .create createdShell
  payload := [
    "\x7b\"kind\":\"create\",", "\"operation_id\":\"o\",", "\"request_fingerprint\":\"f\",",
    "\"request_bytes\":9,", "\"global_workspace_id\":\"g\",", "\"expected_global_revision\":1,",
    "\"node_id\":\"n\",", "\"requested_owner_workspace_id\":\"w\",",
    "\"owner_workspace_id\":\"w\",", "\"owner_workspace_name\":\"p\",", "\"owner_revision\":2,",
    "\"default_cwd\":null,", "\"shell_id\":\"s\",", "\"shell\":\x7b\"name\":\"s\",",
    "\"command\":[],", "\"cwd\":\"/\"\x7d,", "\"result_shell\":\x7b",
    "\"id\":\"s\",\"revision\":1,", "\"workspace_id\":\"w\",", "\"name\":\"s\",",
    "\"cwd\":\"/\",", "\"status\":\"pending\",", "\"run\":null\x7d\x7d"]
  digest := "94c81dd464063e1ffd809ecdbceb4c54e780135f78ae53f303e6f81249495d7f"

def startedText : Text where
  record := .start startedRun
  payload := [
    "\x7b\"kind\":\"start\",", "\"shell_id\":\"s\",", "\"run\":\x7b\"id\":\"r\",",
    "\"generation\":1,", "\"started_at_ms\":1,", "\"ended_at_ms\":null,", "\"exit_reason\":null,",
    "\"output_revision\":0,", "\"environment_has_run_id\":true,", "\"profile\":\x7b",
    "\"term\":null,", "\"colorterm\":null,", "\"term_program\":null,",
    "\"term_program_version\":null,", "\"rows\":24,", "\"cols\":80,", "\"pixel_width\":0,",
    "\"pixel_height\":0\x7d\x7d\x7d"]
  digest := "6d2b067b5205eec6aa4354c179570a71bc20116b557699cdea2cf74fe14841cf"

/-- A cut in the middle of the second line keeps the first record. -/
theorem load_torn_started :
    ∃ j, (textCodec [createdText, startedText]).acceptAll .empty
        [.create createdShell, .start startedRun] = .ok j ∧
      ∃ kept tail loaded, kept <+: [.create createdShell, .start startedRun] ∧
        newline ∉ tail ∧
        j.file.take 700 = (textCodec [createdText, startedText]).text kept ++ tail ∧
        (textCodec [createdText, startedText]).load (j.file.take 700) = .ok loaded := by
  have hfaithful : ∀ r ∈ [.create createdShell, .start startedRun],
      (textCodec [createdText, startedText]).Faithful r := by
    intro r hr
    rcases List.mem_pair.mp hr with rfl | rfl
    · exact ⟨by decide +kernel, by decide +kernel⟩
    · exact ⟨by decide +kernel, by decide +kernel⟩
  have hseq : validateSequence [.create createdShell, .start startedRun] = .ok () := by
    decide +kernel
  have happended := (acceptAll_eq_ok (c := textCodec [createdText, startedText])).mpr
    ⟨hseq, by decide +kernel, rfl⟩
  obtain ⟨kept, tail, loaded, hkept, htail, hcut, hload, -⟩ := load_torn hfaithful happended 700
  exact ⟨_, happended, kept, tail, loaded, hkept, htail, hcut, hload⟩

end Boomux.Journal
