import Boomux.Basic.Bytes
import Boomux.Basic.Lines
import Mathlib.Tactic.IntervalCases

/-!
# The status of a worktree

`parse_status` reads what `git status --porcelain=v2 --branch -z` writes: fields that end in NUL,
one for each branch header and for each entry, and one more for the source of a rename. Here are
both sides, the parser and the format, and the proof that the parser reads the format back
(`parseStatus_porcelain`). The paths are any bytes without NUL.
-/

set_option autoImplicit false

namespace Boomux.Git

open Rust

/-! ## The parser -/

/-- `Status`. -/
structure Status where
  staged : Nat
  unstaged : Nat
  untracked : Nat
  conflicts : Nat
  upstream : Option String
  divergenceKnown : Bool
  ahead : Nat
  behind : Nat
  deriving DecidableEq, Repr

/-- `Status::default`. -/
def Status.default : Status := ⟨0, 0, 0, 0, none, false, 0, 0⟩

/-- What the loop of `parse_status` keeps. -/
structure Reading where
  status : Status
  branch : Option String
  head : String
  deriving DecidableEq, Repr

/-- `slice::strip_prefix`. -/
def stripPrefix (label : String) (record : List UInt8) : Option (List UInt8) :=
  if (asBytes label).isPrefixOf record then some (record.drop (asBytes label).length) else none

/-- `text.split_once(' ')`. -/
def splitOnce (text : List Char) : Option (List Char × List Char) :=
  match text.dropWhile (· ≠ ' ') with
  | _ :: after => some (text.takeWhile (· ≠ ' '), after)
  | [] => none

/-- The value of a `# branch.ab` header. -/
def parseDivergence (value : List UInt8) (status : Status) : Except String Status := do
  let some (ahead, behind) := splitOnce (fromUtf8Lossy value).toList
    | .error "Invalid ahead/behind"
  let some ahead := parseUsize (ahead.dropWhile (· = '+')) | .error "Invalid ahead"
  let some behind := parseUsize (behind.dropWhile (· = '-')) | .error "Invalid behind"
  .ok { status with divergenceKnown := true, ahead := ahead, behind := behind }

/-- `usize::from(byte != b'.')`. -/
def touched (byte : Option UInt8) : Nat := (decide (byte ≠ some 0x2E)).toNat

/-- A nonempty record that is no branch header. -/
def parseEntry (record : List UInt8) (status : Status) : Except String Status :=
  match record with
  | 0x31 :: _ | 0x32 :: _ =>
      if record.length < 5 then .error "Truncated Git record"
      else .ok { status with
        staged := status.staged + touched record[2]?
        unstaged := status.unstaged + touched record[3]? }
  | 0x3F :: _ => .ok { status with untracked := status.untracked + 1 }
  | 0x75 :: _ => .ok { status with conflicts := status.conflicts + 1 }
  | 0x23 :: _ | 0x21 :: _ => .ok status
  | _ => .error "Unknown Git status record"

/-- A branch header; `none` for any other record. -/
def parseHeader (record : List UInt8) (r : Reading) : Option (Except String Reading) :=
  match stripPrefix "# branch.head " record with
  | some value => some (.ok { r with branch := some (fromUtf8Lossy value) })
  | none =>
      match stripPrefix "# branch.oid " record with
      | some value => some (.ok { r with head := fromUtf8Lossy value })
      | none =>
          match stripPrefix "# branch.upstream " record with
          | some value => some (.ok { r with status.upstream := some (fromUtf8Lossy value) })
          | none =>
              (stripPrefix "# branch.ab " record).map fun value =>
                (parseDivergence value r.status).map fun status => { r with status := status }

/-- The loop of `parse_status`. -/
def parseRecords : List (List UInt8) → Reading → Except String Reading
  | [], r => .ok r
  | record :: records, r =>
      if record.isEmpty then parseRecords records r
      else
        match parseHeader record r with
        | some (.error error) => .error error
        | some (.ok r) => parseRecords records r
        | none =>
            match parseEntry record r.status with
            | .error error => .error error
            | .ok status =>
                if record.head? = some 0x32 then
                  -- `records.next()` takes the source of a rename
                  match records with
                  | [] => .error "Missing rename source"
                  | _ :: records => parseRecords records { r with status := status }
                else parseRecords records { r with status := status }

/-- `parse_status`: the branch, the head and the status. -/
def parseStatus (bytes : List UInt8) : Except String (String × String × Status) := do
  let r ← parseRecords (bytes.splitOn 0) ⟨.default, none, ""⟩
  let some branch := r.branch | .error "Missing Git branch"
  if branch.isEmpty || r.head.isEmpty then .error "Incomplete Git branch metadata"
  else if 1024 < branch.utf8ByteSize || 128 < r.head.utf8ByteSize ||
      r.status.upstream.any (1024 < ·.utf8ByteSize) then
    .error "Git metadata exceeds label limits"
  else .ok (branch, r.head, r.status)

/-! ## The format -/

/-- Bytes without NUL. -/
structure Text where
  bytes : List UInt8
  noNul : 0 ∉ bytes

/-- The name of a file. -/
structure Path extends Text where
  nonempty : bytes ≠ []

/-- The value of a branch header. -/
structure Label (limit : Nat) where
  value : String
  noNul : 0 ∉ asBytes value
  nonempty : value.isEmpty = false
  bounded : value.utf8ByteSize ≤ limit

/-- How far the branch and its upstream have gone apart. -/
structure Divergence where
  ahead : Nat
  behind : Nat
  ahead_le : ahead ≤ u64Max
  behind_le : behind ≤ u64Max

structure BranchHeaders where
  oid : Label 128
  head : Label 1024
  upstream : Option (Label 1024)
  divergence : Option Divergence

/-- One half of the `XY` of an entry. -/
inductive Change
  | unmodified | modified | typeChanged | added | deleted | renamed | copied | unmerged
  deriving DecidableEq, Repr

def Change.byte : Change → UInt8
  | unmodified => 0x2E
  | modified => 0x4D
  | typeChanged => 0x54
  | added => 0x41
  | deleted => 0x44
  | renamed => 0x52
  | copied => 0x43
  | unmerged => 0x55

/-- An entry; `fields` are the modes, the object names and the score between `XY` and the path. -/
inductive Entry
  | ordinary (index worktree : Change) (fields : Text) (path : Path)
  /-- renamed or copied -/
  | moved (index worktree : Change) (fields : Text) (path source : Path)
  | unmerged (ours theirs : Change) (fields : Text) (path : Path)
  | untracked (path : Path)

namespace BranchHeaders

variable (h : BranchHeaders)

def records : List (List UInt8) :=
  [asBytes "# branch.oid " ++ asBytes h.oid.value,
    asBytes "# branch.head " ++ asBytes h.head.value] ++
  (h.upstream.map fun upstream =>
    asBytes "# branch.upstream " ++ asBytes upstream.value).toList ++
  (h.divergence.map fun d =>
    asBytes "# branch.ab " ++ asBytes ("+" ++ toString d.ahead ++ " -" ++ toString d.behind)).toList

end BranchHeaders

namespace Entry

/-- `<kind> <XY> <fields> <path>`. -/
def record (kind : UInt8) (x y : Change) (fields : Text) (path : Path) : List UInt8 :=
  kind :: 0x20 :: x.byte :: y.byte :: 0x20 :: (fields.bytes ++ 0x20 :: path.bytes)

def records : Entry → List (List UInt8)
  | ordinary x y fields path => [record 0x31 x y fields path]
  | moved x y fields path source => [record 0x32 x y fields path, source.bytes]
  | unmerged x y fields path => [record 0x75 x y fields path]
  | untracked path => [0x3F :: 0x20 :: path.bytes]

/-- Something of the entry is in the index. -/
def staged : Entry → Bool
  | ordinary index .. | moved index .. => index ≠ .unmodified
  | unmerged .. | untracked _ => false

/-- Something of the entry is in the worktree only. -/
def unstaged : Entry → Bool
  | ordinary _ worktree .. | moved _ worktree .. => worktree ≠ .unmodified
  | unmerged .. | untracked _ => false

def isUntracked : Entry → Bool
  | untracked _ => true
  | _ => false

def conflicting : Entry → Bool
  | unmerged .. => true
  | _ => false

end Entry

/-- The output of Git. -/
def porcelain (headers : BranchHeaders) (entries : List Entry) : List UInt8 :=
  Lines.unlines 0 (headers.records ++ entries.flatMap Entry.records)

/-- The status that it describes. -/
def statusOf (headers : BranchHeaders) (entries : List Entry) : Status where
  staged := entries.countP Entry.staged
  unstaged := entries.countP Entry.unstaged
  untracked := entries.countP Entry.isUntracked
  conflicts := entries.countP Entry.conflicting
  upstream := headers.upstream.map (·.value)
  divergenceKnown := headers.divergence.isSome
  ahead := (headers.divergence.map (·.ahead)).getD 0
  behind := (headers.divergence.map (·.behind)).getD 0

/-! ## Headers -/

theorem stripPrefix_label (label : String) (value : List UInt8) :
    stripPrefix label (asBytes label ++ value) = some value := by
  have hprefix : (asBytes label).isPrefixOf (asBytes label ++ value) = true :=
    List.isPrefixOf_iff_prefix.mpr (List.prefix_append _ _)
  unfold stripPrefix
  rw [if_pos hprefix, List.drop_left]

theorem parseHeader_oid (value : String) (r : Reading) :
    parseHeader (asBytes "# branch.oid " ++ asBytes value) r =
      some (.ok { r with head := value }) := by
  have hhead : stripPrefix "# branch.head " (asBytes "# branch.oid " ++ asBytes value) = none := rfl
  unfold parseHeader
  rw [hhead, stripPrefix_label]
  dsimp only
  rw [fromUtf8Lossy_asBytes]

theorem parseHeader_head (value : String) (r : Reading) :
    parseHeader (asBytes "# branch.head " ++ asBytes value) r =
      some (.ok { r with branch := some value }) := by
  unfold parseHeader
  rw [stripPrefix_label]
  dsimp only
  rw [fromUtf8Lossy_asBytes]

theorem parseHeader_upstream (value : String) (r : Reading) :
    parseHeader (asBytes "# branch.upstream " ++ asBytes value) r =
      some (.ok { r with status.upstream := some value }) := by
  have hhead : stripPrefix "# branch.head " (asBytes "# branch.upstream " ++ asBytes value) =
      none :=
    rfl
  have hoid : stripPrefix "# branch.oid " (asBytes "# branch.upstream " ++ asBytes value) = none :=
    rfl
  unfold parseHeader
  rw [hhead, hoid, stripPrefix_label]
  dsimp only
  rw [fromUtf8Lossy_asBytes]

theorem splitOnce_append {before after : List Char} (h : ' ' ∉ before) :
    splitOnce (before ++ ' ' :: after) = some (before, after) := by
  have hall : ∀ c ∈ before, decide (c ≠ ' ') = true := fun c hc =>
    decide_eq_true fun he => h (he ▸ hc)
  have hdrop : (before ++ ' ' :: after).dropWhile (· ≠ ' ') = ' ' :: after := by
    rw [List.dropWhile_append_of_pos hall, List.dropWhile_cons_of_neg (by simp)]
  have htake : (before ++ ' ' :: after).takeWhile (· ≠ ' ') = before := by
    rw [List.takeWhile_append_of_pos hall, List.takeWhile_cons_of_neg (by simp), List.append_nil]
  unfold splitOnce
  rw [hdrop, htake]

theorem isDigit_of_toDigits {n : Nat} {c : Char} (h : c ∈ Nat.toDigits 10 n) : c.isDigit = true :=
  Nat.isDigit_of_mem_toDigits (by decide) (by decide) h

/-- A sign in front of the digits is trimmed. -/
theorem dropWhile_sign {sign : Char} (hsign : sign.isDigit = false) (n : Nat) :
    (sign :: Nat.toDigits 10 n).dropWhile (· = sign) = Nat.toDigits 10 n := by
  rw [List.dropWhile_cons_of_pos (by simp)]
  cases hdigits : Nat.toDigits 10 n with
  | nil => rfl
  | cons c cs =>
      have hc : c.isDigit = true := isDigit_of_toDigits (n := n) (hdigits ▸ List.mem_cons_self)
      rw [List.dropWhile_cons_of_neg]
      intro he
      rw [of_decide_eq_true he, hsign] at hc
      cases hc

theorem parseDivergence_ok (d : Divergence) (status : Status) :
    parseDivergence (asBytes ("+" ++ toString d.ahead ++ " -" ++ toString d.behind)) status =
      .ok { status with divergenceKnown := true, ahead := d.ahead, behind := d.behind } := by
  have htext : ("+" ++ toString d.ahead ++ " -" ++ toString d.behind).toList =
      ('+' :: Nat.toDigits 10 d.ahead) ++ ' ' :: ('-' :: Nat.toDigits 10 d.behind) := by
    simp
  have hspace : ' ' ∉ '+' :: Nat.toDigits 10 d.ahead := by
    intro hmem
    rcases List.mem_cons.mp hmem with he | hmem
    · cases he
    · exact absurd (isDigit_of_toDigits hmem) (by decide)
  unfold parseDivergence
  rw [fromUtf8Lossy_asBytes, htext, splitOnce_append hspace]
  dsimp only
  rw [dropWhile_sign rfl, dropWhile_sign rfl, parseUsize_toDigits d.ahead_le,
    parseUsize_toDigits d.behind_le]

theorem parseHeader_divergence (d : Divergence) (r : Reading) :
    parseHeader (asBytes "# branch.ab " ++
        asBytes ("+" ++ toString d.ahead ++ " -" ++ toString d.behind)) r =
      some (.ok { r with
        status.divergenceKnown := true, status.ahead := d.ahead, status.behind := d.behind }) := by
  generalize hvalue : asBytes ("+" ++ toString d.ahead ++ " -" ++ toString d.behind) = value
  have hhead : stripPrefix "# branch.head " (asBytes "# branch.ab " ++ value) = none := rfl
  have hoid : stripPrefix "# branch.oid " (asBytes "# branch.ab " ++ value) = none := rfl
  have hupstream : stripPrefix "# branch.upstream " (asBytes "# branch.ab " ++ value) = none := rfl
  unfold parseHeader
  rw [hhead, hoid, hupstream, stripPrefix_label, ← hvalue]
  dsimp only [Option.map_some]
  rw [parseDivergence_ok]
  rfl

theorem parseRecords_header {record : List UInt8} {r r' : Reading}
    (h : parseHeader record r = some (.ok r')) (hne : record ≠ []) (records : List (List UInt8)) :
    parseRecords (record :: records) r = parseRecords records r' := by
  rw [parseRecords, h, if_neg (by simp [hne])]

/-- What the loop has read after the headers. -/
def BranchHeaders.reading (h : BranchHeaders) : Reading where
  status := statusOf h []
  branch := some h.head.value
  head := h.oid.value

theorem parseRecords_headers (h : BranchHeaders) (records : List (List UInt8)) :
    parseRecords (h.records ++ records) ⟨.default, none, ""⟩ = parseRecords records h.reading := by
  obtain ⟨oid, head, upstream, divergence⟩ := h
  have hupstream := fun (u : Label 1024) r =>
    parseRecords_header (parseHeader_upstream u.value r) nofun
  have hdivergence := fun d r => parseRecords_header (parseHeader_divergence d r) nofun
  refine (parseRecords_header (parseHeader_oid oid.value _) nofun _).trans ?_
  refine (parseRecords_header (parseHeader_head head.value _) nofun _).trans ?_
  cases upstream with
  | none =>
      cases divergence with
      | none => rfl
      | some d => exact hdivergence d _ _
  | some u =>
      refine (hupstream u _ _).trans ?_
      cases divergence with
      | none => rfl
      | some d => exact hdivergence d _ _

/-! ## Entries -/

/-- A record that begins with another byte is no branch header. -/
theorem parseHeader_eq_none {first : UInt8} (hfirst : first ≠ 0x23) (rest : List UInt8)
    (r : Reading) : parseHeader (first :: rest) r = none := by
  have hstrip : ∀ label, (asBytes label).head? = some 0x23 →
      stripPrefix label (first :: rest) = none := by
    intro label hlabel
    unfold stripPrefix
    rw [if_neg]
    intro hprefix
    obtain ⟨rest', hrest⟩ := List.isPrefixOf_iff_prefix.mp hprefix
    cases heq : asBytes label with
    | nil =>
        rw [heq] at hlabel
        cases hlabel
    | cons b bs =>
        rw [heq] at hlabel hrest
        cases hlabel
        exact hfirst (List.cons.inj hrest).1.symm
  unfold parseHeader
  rw [hstrip _ rfl, hstrip _ rfl, hstrip _ rfl, hstrip _ rfl]
  rfl

/-- The status with one more entry. -/
def Entry.count (e : Entry) (status : Status) : Status :=
  { status with
    staged := status.staged + e.staged.toNat
    unstaged := status.unstaged + e.unstaged.toNat
    untracked := status.untracked + e.isUntracked.toNat
    conflicts := status.conflicts + e.conflicting.toNat }

theorem touched_byte (c : Change) : touched (some c.byte) = (decide (c ≠ .unmodified)).toNat := by
  cases c <;> rfl

/-- The `XY` of an ordinary or a renamed entry. -/
theorem parseEntry_changed {kind : UInt8} (hkind : kind = 0x31 ∨ kind = 0x32) (x y : Change)
    (fields : Text) (path : Path) (status : Status) :
    parseEntry (Entry.record kind x y fields path) status = .ok { status with
      staged := status.staged + (decide (x ≠ .unmodified)).toNat
      unstaged := status.unstaged + (decide (y ≠ .unmodified)).toNat } := by
  have hlen : ¬ (Entry.record kind x y fields path).length < 5 := by
    simp only [Entry.record, List.length_cons]
    omega
  rw [← touched_byte, ← touched_byte]
  rcases hkind with rfl | rfl <;>
  · rw [Entry.record, parseEntry, ← Entry.record, if_neg hlen]
    rfl

/-- The loop takes exactly the records of an entry. -/
theorem parseRecords_entry (e : Entry) (records : List (List UInt8)) (r : Reading) :
    parseRecords (e.records ++ records) r =
      parseRecords records { r with status := e.count r.status } := by
  have hchanged : ∀ {kind : UInt8} (x y : Change) (fields : Text) (path : Path)
      (records : List (List UInt8)), kind ≠ 0x23 → parseRecords
        (Entry.record kind x y fields path :: records) r =
      match parseEntry (Entry.record kind x y fields path) r.status with
      | .error error => .error error
      | .ok status =>
          if some kind = some 0x32 then
            match records with
            | [] => .error "Missing rename source"
            | _ :: records => parseRecords records { r with status := status }
          else parseRecords records { r with status := status } := by
    intro kind x y fields path records hkind
    rw [Entry.record, parseRecords, parseHeader_eq_none hkind]
    rfl
  cases e with
  | ordinary x y fields path =>
      refine (hchanged x y fields path records (by decide)).trans ?_
      rw [parseEntry_changed (.inl rfl)]
      rfl
  | moved x y fields path source =>
      refine (hchanged x y fields path (source.bytes :: records) (by decide)).trans ?_
      rw [parseEntry_changed (.inr rfl)]
      rfl
  | unmerged x y fields path =>
      exact hchanged x y fields path records (by decide)
  | untracked path =>
      rw [Entry.records, List.singleton_append, parseRecords, parseHeader_eq_none (by decide)]
      rfl

/-- The status with more entries. -/
def Status.counting (status : Status) (entries : List Entry) : Status :=
  { status with
    staged := status.staged + entries.countP Entry.staged
    unstaged := status.unstaged + entries.countP Entry.unstaged
    untracked := status.untracked + entries.countP Entry.isUntracked
    conflicts := status.conflicts + entries.countP Entry.conflicting }

theorem Status.counting_cons (status : Status) (e : Entry) (entries : List Entry) :
    (e.count status).counting entries = status.counting (e :: entries) := by
  have hcount : ∀ p : Entry → Bool, ∀ n, n + (p e).toNat + entries.countP p =
      n + (e :: entries).countP p := by
    intro p n
    rw [List.countP_cons]
    cases p e with
    | false => simp
    | true =>
        simp only [Bool.toNat_true, if_true]
        omega
  simp only [Status.counting, Entry.count, hcount]

theorem parseRecords_entries : ∀ (entries : List Entry) (r : Reading),
    parseRecords (entries.flatMap Entry.records ++ [[]]) r =
      .ok { r with status := r.status.counting entries }
  | [], r => by simp [parseRecords, Status.counting]
  | e :: entries, r => by
      rw [List.flatMap_cons, List.append_assoc, parseRecords_entry, parseRecords_entries entries,
        ← Status.counting_cons]

/-! ## The output of Git -/

theorem Change.byte_ne_zero (c : Change) : (0 : UInt8) ≠ c.byte := by
  cases c <;> decide

theorem Entry.noNul (e : Entry) : ∀ record ∈ e.records, 0 ∉ record := by
  have hrecord : ∀ (kind : UInt8) (x y : Change) (fields : Text) (path : Path), 0 ≠ kind →
      0 ∉ Entry.record kind x y fields path := by
    intro kind x y fields path hkind
    simp only [Entry.record, List.mem_cons, List.mem_append, not_or]
    exact ⟨hkind, by decide, x.byte_ne_zero, y.byte_ne_zero, by decide, fields.noNul, by decide,
      path.noNul⟩
  intro record hmem
  cases e with
  | ordinary x y fields path =>
      rw [List.mem_singleton.mp hmem]
      exact hrecord _ _ _ _ _ (by decide)
  | moved x y fields path source =>
      rcases List.mem_cons.mp hmem with rfl | hmem
      · exact hrecord _ _ _ _ _ (by decide)
      · rw [List.mem_singleton.mp hmem]
        exact source.noNul
  | unmerged x y fields path =>
      rw [List.mem_singleton.mp hmem]
      exact hrecord _ _ _ _ _ (by decide)
  | untracked path =>
      rw [List.mem_singleton.mp hmem]
      simp only [List.mem_cons, not_or]
      exact ⟨by decide, by decide, path.noNul⟩

/-- Decimal digits are no NUL. -/
theorem zero_not_mem_toString (n : Nat) : 0 ∉ asBytes (toString n) := by
  intro hmem
  rw [asBytes, Nat.toString_eq_ofList_toDigits, String.toList_ofList] at hmem
  obtain ⟨c, hc, hzero⟩ := List.mem_flatMap.mp hmem
  have hdigit : c.isDigit = true := isDigit_of_toDigits hc
  have hbounds : 48 ≤ c.toNat ∧ c.toNat ≤ 57 := by
    simpa [Char.isDigit, UInt32.le_iff_toNat_le] using hdigit
  have hof : Char.ofNat c.toNat = c := Char.ofNat_toNat c
  rw [← hof] at hzero
  obtain ⟨hlow, hhigh⟩ := hbounds
  interval_cases c.toNat <;> revert hzero <;> decide

theorem BranchHeaders.noNul (h : BranchHeaders) : ∀ record ∈ h.records, 0 ∉ record := by
  have happend : ∀ {label value : List UInt8}, 0 ∉ label → 0 ∉ value → 0 ∉ label ++ value :=
    fun hl hv hmem => (List.mem_append.mp hmem).elim hl hv
  obtain ⟨oid, head, upstream, divergence⟩ := h
  intro record hmem
  simp only [records, List.mem_append, List.mem_cons, List.not_mem_nil, or_false,
    Option.mem_toList, Option.map_eq_some_iff] at hmem
  rcases hmem with ((rfl | rfl) | ⟨u, -, rfl⟩) | ⟨d, -, rfl⟩
  · exact happend (by decide +kernel) oid.noNul
  · exact happend (by decide +kernel) head.noNul
  · exact happend (by decide +kernel) u.noNul
  · refine happend (by decide +kernel) ?_
    rw [asBytes_append, asBytes_append, asBytes_append]
    exact happend (happend (happend (by decide +kernel) (zero_not_mem_toString _))
      (by decide +kernel)) (zero_not_mem_toString _)

/-- **The parser reads the format.** -/
theorem parseStatus_porcelain (headers : BranchHeaders) (entries : List Entry) :
    parseStatus (porcelain headers entries) =
      .ok (headers.head.value, headers.oid.value, statusOf headers entries) := by
  -- No record has a NUL in it, so that splitting at NUL gives the records back.
  have hfields : ∀ record ∈ headers.records ++ entries.flatMap Entry.records, 0 ∉ record := by
    intro record hmem
    rcases List.mem_append.mp hmem with hmem | hmem
    · exact headers.noNul record hmem
    · obtain ⟨e, -, hmem⟩ := List.mem_flatMap.mp hmem
      exact e.noNul record hmem
  have hstatus : (statusOf headers []).counting entries = statusOf headers entries := by
    simp [Status.counting, statusOf]
  -- The limits on the lengths are met by the headers themselves.
  have hupstream : ¬ (headers.upstream.map (·.value)).any (1024 < ·.utf8ByteSize) := by
    cases headers.upstream with
    | none => simp
    | some upstream => simpa using upstream.bounded
  -- The loop over the records reads the headers, and then the entries.
  have hread : parseRecords ((porcelain headers entries).splitOn 0) ⟨.default, none, ""⟩ =
      .ok ⟨statusOf headers entries, some headers.head.value, headers.oid.value⟩ := by
    unfold porcelain
    rw [Lines.splitOn_unlines hfields, List.append_assoc, parseRecords_headers,
      parseRecords_entries, ← hstatus]
    rfl
  unfold parseStatus
  rw [hread]
  have hbounded : ¬ (1024 < headers.head.value.utf8ByteSize ∨
      128 < headers.oid.value.utf8ByteSize ∨
      (headers.upstream.map (·.value)).any (1024 < ·.utf8ByteSize) = true) := by
    rintro (hhead | hoid | hany)
    · exact absurd headers.head.bounded (Nat.not_le.mpr hhead)
    · exact absurd headers.oid.bounded (Nat.not_le.mpr hoid)
    · exact hupstream hany
  simp only [bind, Except.bind, headers.head.nonempty, headers.oid.nonempty, Bool.or_self,
    Bool.false_eq_true, if_false]
  rw [if_neg]
  simpa [or_assoc, statusOf] using hbounded

-- The source of the rename looks like a header.
example : parseStatus (asBytes
      "# branch.oid 0c\x00# branch.head main\x002 R. N... b\x00# branch.head x\x00") =
    .ok ("main", "0c", { Status.default with staged := 1 }) := by
  decide +kernel

end Boomux.Git
