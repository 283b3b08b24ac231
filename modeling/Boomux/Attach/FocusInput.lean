import Mathlib.Data.List.Basic
import Mathlib.Data.List.Count
import Mathlib.Data.List.Induction

/-!
# Focus reports in attach input

A terminal reports that it gained or lost the focus by a sequence of three bytes. The client counts
the reports of gained focus in its input, and takes all reports out unless the program has asked for
them. Input comes in reads of any size: the start of a sequence at the end of a read is held back
for the next read, or flushed when nothing follows for a while.
-/

set_option autoImplicit false

namespace Boomux.Attach

/-- `ESC [ I`. -/
def focusGained : List UInt8 := [0x1b, 0x5b, 0x49]

/-- `ESC [ O`. -/
def focusLost : List UInt8 := [0x1b, 0x5b, 0x4f]

/-- The bytes that wait for the rest of a sequence; since when they wait is left out. -/
structure FocusInput where
  pending : List UInt8
  deriving DecidableEq, Repr

namespace FocusInput

/-! ## Scanning -/

/-- What the loop of `process` has made of the bytes: those to forward, the gained events, those
held. -/
structure Scanned where
  forwarded : List UInt8
  gained : Nat
  pending : List UInt8
  deriving DecidableEq, Repr

def Scanned.push (byte : UInt8) (s : Scanned) : Scanned :=
  { s with forwarded := byte :: s.forwarded }

def Scanned.focus (forwardFocus : Bool) (sequence : List UInt8) (gained : Nat) (s : Scanned) :
    Scanned :=
  { s with
    forwarded := (if forwardFocus then sequence else []) ++ s.forwarded
    gained := gained + s.gained }

/-- The remaining bytes, fewer than a sequence has, may be the start of one. -/
def held (remaining : List UInt8) : Bool :=
  remaining.isPrefixOf focusGained || remaining.isPrefixOf focusLost

/-- The loop of `process`. -/
def scan (forwardFocus : Bool) : List UInt8 → Scanned
  | a :: b :: c :: rest =>
      if [a, b, c] = focusGained then (scan forwardFocus rest).focus forwardFocus focusGained 1
      else if [a, b, c] = focusLost then (scan forwardFocus rest).focus forwardFocus focusLost 0
      else (scan forwardFocus (b :: c :: rest)).push a
  | [a, b] => if held [a, b] then ⟨[], 0, [a, b]⟩ else (scan forwardFocus [b]).push a
  | [a] => if held [a] then ⟨[], 0, [a]⟩ else (scan forwardFocus []).push a
  | [] => ⟨[], 0, []⟩

/-- `process`: the bytes to forward, and the gained events. -/
def process (input : FocusInput) (bytes : List UInt8) (forwardFocus : Bool) :
    (List UInt8 × Nat) × FocusInput :=
  let scanned := scan forwardFocus (input.pending ++ bytes)
  ((scanned.forwarded, scanned.gained), ⟨scanned.pending⟩)

/-- `flush_pending`. -/
def flushPending (input : FocusInput) : List UInt8 × FocusInput := (input.pending, ⟨[]⟩)

/-! ## Calls -/

inductive Call
  | process (bytes : List UInt8) (forwardFocus : Bool)
  | flush
  deriving DecidableEq, Repr

/-- The bytes that a call takes in. -/
def Call.bytes : Call → List UInt8
  | .process bytes _ => bytes
  | .flush => []

/-- The input between two calls, with all that it has given so far. -/
structure Session where
  input : FocusInput
  forwarded : List UInt8
  gained : Nat
  deriving DecidableEq, Repr

def Session.start : Session := ⟨⟨[]⟩, [], 0⟩

def Session.call (s : Session) : Call → Session
  | .process bytes forwardFocus =>
      let ((forwarded, gained), input) := s.input.process bytes forwardFocus
      ⟨input, s.forwarded ++ forwarded, s.gained + gained⟩
  | .flush =>
      let (pending, input) := s.input.flushPending
      ⟨input, s.forwarded ++ pending, s.gained⟩

def run (calls : List Call) : Session := calls.foldl Session.call .start

/-- All bytes, the flushed rest among them, and all gained events. -/
def Session.finish (s : Session) : List UInt8 × Nat :=
  (s.forwarded ++ s.input.flushPending.1, s.gained)

/-! ## Steps of the scan -/

variable {f : Bool} {a : UInt8} {l rest : List UInt8}

/-- The bytes start with a sequence or may be the start of one. -/
def Starts (l : List UInt8) : Prop :=
  ∃ sequence ∈ [focusGained, focusLost], sequence <+: l ∨ l <+: sequence

theorem scan_gained (f : Bool) (rest : List UInt8) :
    scan f (focusGained ++ rest) = (scan f rest).focus f focusGained 1 := rfl

theorem scan_lost (f : Bool) (rest : List UInt8) :
    scan f (focusLost ++ rest) = (scan f rest).focus f focusLost 0 := rfl

theorem held_iff : held l = true ↔ l <+: focusGained ∨ l <+: focusLost := by
  rw [held, Bool.or_eq_true, List.isPrefixOf_iff_prefix, List.isPrefixOf_iff_prefix]

theorem scan_held (h : held l = true) (hlength : l.length < 3) : scan f l = ⟨[], 0, l⟩ := by
  match l, hlength with
  | [], _ => rfl
  | [a], _ => rw [scan, if_pos h]
  | [a, b], _ => rw [scan, if_pos h]

/-- A byte that is not the first of a sequence is forwarded. -/
theorem scan_push (h : ¬Starts (a :: l)) : scan f (a :: l) = (scan f l).push a := by
  have hgained : ¬(focusGained <+: a :: l ∨ a :: l <+: focusGained) := fun hp =>
    h ⟨focusGained, List.mem_cons_self, hp⟩
  have hlost : ¬(focusLost <+: a :: l ∨ a :: l <+: focusLost) := fun hp =>
    h ⟨focusLost, List.mem_cons_of_mem _ List.mem_cons_self, hp⟩
  have hheld : held (a :: l) = false := by
    rw [← Bool.not_eq_true, held_iff]
    exact fun hp => hp.elim (fun hp => hgained (Or.inr hp)) fun hp => hlost (Or.inr hp)
  match l with
  | [] => rw [scan, hheld, if_neg Bool.false_ne_true]
  | [b] => rw [scan, hheld, if_neg Bool.false_ne_true]
  | b :: c :: rest =>
      have hne {sequence : List UInt8} (hs : ¬sequence <+: a :: b :: c :: rest) :
          [a, b, c] ≠ sequence := by
        rintro rfl
        exact hs ⟨rest, rfl⟩
      rw [scan, if_neg (hne fun hp => hgained (Or.inl hp)),
        if_neg (hne fun hp => hlost (Or.inl hp))]

/-- Bytes are the start of a sequence and nothing more, or begin with a sequence, or with another
byte. -/
theorem scan_induction {motive : List UInt8 → Prop} (hheld : ∀ l, held l = true → l.length < 3 →
    motive l)
    (hgained : ∀ rest, motive rest → motive (focusGained ++ rest))
    (hlost : ∀ rest, motive rest → motive (focusLost ++ rest))
    (hpush : ∀ a rest, ¬Starts (a :: rest) → motive rest → motive (a :: rest)) (l : List UInt8) :
      motive l := by
  induction hn : l.length using Nat.strongRecOn generalizing l with
  | ind n ih =>
      subst hn
      by_cases hstarts : Starts l
      · obtain ⟨sequence, hsequence, hp⟩ := hstarts
        have hlength : sequence.length = 3 := by
          rcases List.mem_cons.mp hsequence with rfl | hsequence
          · rfl
          · rw [List.mem_singleton.mp hsequence]
            rfl
        by_cases hshort : l.length < 3
        · refine hheld l (held_iff.mpr ?_) hshort
          have hp : l <+: sequence := hp.resolve_left fun hp => absurd hp.length_le (by omega)
          rcases List.mem_cons.mp hsequence with rfl | hsequence
          · exact Or.inl hp
          · exact Or.inr (List.mem_singleton.mp hsequence ▸ hp)
        · have hp : sequence <+: l := by
            rcases hp with hp | hp
            · exact hp
            · have hlength := hp.length_le
              exact hp.eq_of_length (by omega) ▸ List.prefix_refl _
          obtain ⟨rest, rfl⟩ := hp
          have hrest := ih rest.length (by rw [List.length_append]; omega) rest rfl
          rcases List.mem_cons.mp hsequence with rfl | hsequence
          · exact hgained rest hrest
          · exact List.mem_singleton.mp hsequence ▸ hlost rest hrest
      · cases l with
        | nil => exact absurd ⟨focusGained, List.mem_cons_self, Or.inr List.nil_prefix⟩ hstarts
        | cons a rest => exact hpush a rest hstarts (ih rest.length (Nat.lt_succ_self _) rest rfl)

/-! ## Reads of any size -/

/-- What is held of the first bytes is scanned again before the next ones: the bytes may be cut
anywhere. -/
theorem scan_append (f : Bool) (l l' : List UInt8) : scan f (l ++ l')
    = ⟨(scan f l).forwarded ++ (scan f ((scan f l).pending ++ l')).forwarded,
        (scan f l).gained + (scan f ((scan f l).pending ++ l')).gained,
        (scan f ((scan f l).pending ++ l')).pending⟩ := by
  induction l using scan_induction with
  | hheld l hheld hlength => rw [scan_held hheld hlength, List.nil_append, Nat.zero_add]
  | hgained rest ih =>
      rw [List.append_assoc, scan_gained, scan_gained, ih]
      simp [Scanned.focus, Nat.add_assoc]
  | hlost rest ih =>
      rw [List.append_assoc, scan_lost, scan_lost, ih]
      simp [Scanned.focus]
  | hpush a rest hstarts ih =>
      have hstarts' : ¬Starts (a :: (rest ++ l')) := by
        have hfirst : a :: rest <+: a :: (rest ++ l') := List.prefix_append (a :: rest) l'
        rintro ⟨sequence, hsequence, hp | hp⟩
        · exact hstarts ⟨sequence, hsequence, List.prefix_or_prefix_of_prefix hp hfirst⟩
        · exact hstarts ⟨sequence, hsequence, Or.inr (hfirst.trans hp)⟩
      rw [List.cons_append, scan_push hstarts', scan_push hstarts, ih]
      rfl

/-! ## The reports of a stream -/

/-- The sequence stands in the bytes at a place. -/
def occursAt (sequence : List UInt8) (l : List UInt8) (i : Nat) : Bool :=
  sequence.isPrefixOf (l.drop i)

/-- The byte at a place is one of a report. -/
def reported (l : List UInt8) (i : Nat) : Bool :=
  (List.range (i + 1)).any fun j =>
    i < j + 3 && (occursAt focusGained l j || occursAt focusLost l j)

/-- The bytes that are in no report. -/
def withoutReports (l : List UInt8) : List UInt8 :=
  (List.range l.length).filterMap fun i => if reported l i then none else l[i]?

/-- How often a gained focus is reported. -/
def gainedReports (l : List UInt8) : Nat := (List.range l.length).countP (occursAt focusGained l)

/-- A report stands at the start of the bytes. -/
def reportFirst (l : List UInt8) : Bool := occursAt focusGained l 0 || occursAt focusLost l 0

theorem reported_succ (a : UInt8) (l : List UInt8) (i : Nat) :
    reported (a :: l) (i + 1) = (i < 2 && reportFirst (a :: l) || reported l i) := by
  unfold reported
  rw [List.range_succ_eq_map, List.any_cons, List.any_map]
  congr 1
  · have hlt : decide (i + 1 < 0 + 3) = decide (i < 2) := decide_eq_decide.mpr (by omega)
    rw [hlt]
    rfl
  · refine congrArg (List.any _) (funext fun j => ?_)
    have hlt : decide (i + 1 < j.succ + 3) = decide (i < j + 3) := decide_eq_decide.mpr (by omega)
    rw [Function.comp_apply, hlt]
    rfl

theorem withoutReports_cons (a : UInt8) (l : List UInt8)
    (h : ∀ i, reported (a :: l) (i + 1) = reported l i) :
    withoutReports (a :: l) = (if reportFirst (a :: l) then [] else [a]) ++ withoutReports l := by
  have hfirst : reported (a :: l) 0 = reportFirst (a :: l) := by simp [reported, reportFirst]
  have hrest : ((List.range l.length).map Nat.succ).filterMap (fun i => if reported (a :: l) i then
      none else (a :: l)[i]?)
      = withoutReports l := by
    rw [List.filterMap_map]
    refine List.filterMap_congr fun i _ => ?_
    rw [Function.comp_apply, Nat.succ_eq_add_one, h, List.getElem?_cons_succ]
  unfold withoutReports
  rw [List.length_cons, List.range_succ_eq_map, List.filterMap_cons, hfirst]
  cases reportFirst (a :: l) with
  | true => exact hrest
  | false => exact congrArg (a :: ·) hrest

theorem gainedReports_cons (a : UInt8) (l : List UInt8) :
    gainedReports (a :: l) = (if occursAt focusGained (a :: l) 0 then 1
      else 0) + gainedReports l := by
  unfold gainedReports
  rw [List.length_cons, List.range_succ_eq_map, List.countP_cons, List.countP_map, Nat.add_comm]
  rfl

/-- The reports of bytes that do not begin with one are those of the bytes behind the first. -/
theorem reported_of_not_first (h : reportFirst (a :: l) = false) (i : Nat) :
    reported (a :: l) (i + 1) = reported l i := by
  rw [reported_succ, h, Bool.and_false, Bool.false_or]

/-- Behind a report the reports are those of the bytes behind it, for no report begins within
another. -/
theorem reports_behind (b c : UInt8) (rest : List UInt8) (hb : ∀ l, reportFirst (b :: l) = false)
    (hc : ∀ l, reportFirst (c :: l) = false)
    (hfirst : reportFirst (a :: b :: c :: rest) = true) :
    withoutReports (a :: b :: c :: rest) = withoutReports rest
      ∧ gainedReports (a :: b :: c :: rest)
        = (if occursAt focusGained (a :: b :: c :: rest) 0 then 1 else 0) + gainedReports rest := by
  have hnone {l : List UInt8} (h : reportFirst l = false) : occursAt focusGained l 0 = false :=
    (Bool.or_eq_false_iff.mp h).1
  have hlengths : (List.range (rest.length + 3)) = 0 :: 1 :: 2 :: (List.range rest.length).map
      (· + 3) := by
    rw [List.range_succ_eq_map, List.range_succ_eq_map, List.range_succ_eq_map]
    simp [Function.comp_def]
  have hreported (i : Nat) : reported (a :: b :: c :: rest) (i + 3) = reported rest i := by
    have hfar : decide (i + 2 < 2) = false := decide_eq_false (by omega)
    rw [reported_succ, reported_of_not_first (hb _), reported_of_not_first (hc _), hfar]
    rfl
  have hwithin : ∀ i < 3, reported (a :: b :: c :: rest) i = true := by
    intro i hi
    unfold reported
    rw [List.any_eq_true]
    refine ⟨0, List.mem_range.mpr (Nat.succ_pos i), ?_⟩
    rw [Bool.and_eq_true]
    exact ⟨decide_eq_true (by omega), hfirst⟩
  constructor
  · unfold withoutReports
    rw [List.length_cons, List.length_cons, List.length_cons, hlengths]
    rw [List.filterMap_cons, hwithin 0 (by decide), List.filterMap_cons, hwithin 1 (by decide),
      List.filterMap_cons,
      hwithin 2 (by decide), List.filterMap_map]
    refine List.filterMap_congr fun i _ => ?_
    rw [Function.comp_apply, hreported]
    rfl
  · rw [gainedReports_cons, gainedReports_cons, gainedReports_cons, hnone (hb _), hnone (hc _)]
    simp

/-- Bytes that do not begin with a report begin with none of gained focus. -/
theorem reports_cons (h : reportFirst (a :: l) = false) :
    withoutReports (a :: l) = a :: withoutReports l ∧ gainedReports (a :: l) = gainedReports l := by
  rw [withoutReports_cons a l (reported_of_not_first h), gainedReports_cons,
    h, (Bool.or_eq_false_iff.mp h).1]
  simp

theorem reportFirst_of_not_starts (h : ¬Starts l) : reportFirst l = false := by
  rw [← Bool.not_eq_true, reportFirst, Bool.or_eq_true]
  rintro (hp | hp)
  · exact h ⟨focusGained, List.mem_cons_self, Or.inl (List.isPrefixOf_iff_prefix.mp hp)⟩
  · exact h ⟨focusLost, List.mem_cons_of_mem _ List.mem_cons_self,
      Or.inl (List.isPrefixOf_iff_prefix.mp hp)⟩

theorem reports_short (h : l.length < 3) : withoutReports l = l ∧ gainedReports l = 0 := by
  induction l with
  | nil => exact ⟨rfl, rfl⟩
  | cons a l ih =>
      obtain ⟨hwithout, hgained⟩ := ih (Nat.lt_of_succ_lt h)
      have hfirst : reportFirst (a :: l) = false := by
        rw [← Bool.not_eq_true, reportFirst, Bool.or_eq_true]
        rintro (hp | hp)
        · exact absurd (List.isPrefixOf_iff_prefix.mp hp).length_le (Nat.not_le.mpr h)
        · exact absurd (List.isPrefixOf_iff_prefix.mp hp).length_le (Nat.not_le.mpr h)
      rw [(reports_cons hfirst).1, (reports_cons hfirst).2, hwithout, hgained]
      exact ⟨rfl, rfl⟩

/-- The scan takes out the reports unless they are forwarded, and counts those of gained focus. -/
theorem scan_spec (f : Bool) (l : List UInt8) :
    (scan f l).forwarded ++ (scan f l).pending = (if f then l else withoutReports l)
      ∧ (scan f l).gained = gainedReports l := by
  induction l using scan_induction with
  -- What is held back is too short to be a report.
  | hheld l hheld hlength =>
      obtain ⟨hwithout, hgained⟩ := reports_short hlength
      rw [scan_held hheld hlength, hwithout, hgained]
      exact ⟨(ite_self l).symm, rfl⟩
  -- A report of gained focus, and then one of lost focus.
  | hgained rest ih =>
      obtain ⟨hbytes, hcount⟩ := ih
      obtain ⟨hwithout, hgained⟩ := reports_behind (a := 0x1b) 0x5b 0x49 rest (fun _ => rfl)
        (fun _ => rfl) rfl
      refine ⟨?_, (congrArg (1 + ·) hcount).trans hgained.symm⟩
      rw [scan_gained, Scanned.focus, List.append_assoc, hbytes]
      cases f with
      | true => rfl
      | false => exact hwithout.symm
  | hlost rest ih =>
      obtain ⟨hbytes, hcount⟩ := ih
      obtain ⟨hwithout, hgained⟩ := reports_behind (a := 0x1b) 0x5b 0x4f rest (fun _ => rfl)
        (fun _ => rfl) rfl
      refine ⟨?_, (congrArg (0 + ·) hcount).trans hgained.symm⟩
      rw [scan_lost, Scanned.focus, List.append_assoc, hbytes]
      cases f with
      | true => rfl
      | false => exact hwithout.symm
  -- A byte that starts no report.
  | hpush a rest hstarts ih =>
      obtain ⟨hbytes, hcount⟩ := ih
      obtain ⟨hwithout, hgained⟩ := reports_cons (reportFirst_of_not_starts hstarts)
      rw [scan_push hstarts, hwithout, hgained]
      refine ⟨?_, hcount⟩
      rw [Scanned.push, List.cons_append, hbytes]
      cases f with
      | true => rfl
      | false => rfl

/-! ## What the calls make of the input -/

/-- A piece of the input: a byte that is forwarded, or a report, forwarded or not. -/
inductive Piece
  | byte (value : UInt8)
  | report (gained kept : Bool)
  deriving DecidableEq, Repr

namespace Piece

def bytes : Piece → List UInt8
  | .byte value => [value]
  | .report gained _ => if gained then focusGained else focusLost

/-- What is forwarded of a piece. -/
def forwarded : Piece → List UInt8
  | .byte value => [value]
  | .report gained kept => if kept then (if gained then focusGained else focusLost) else []

def isGained : Piece → Bool
  | .byte _ => false
  | .report gained _ => gained

end Piece

/-- The input is these pieces, and what the calls have given is what is forwarded of them. -/
structure Made (pieces : List Piece) (input forwarded : List UInt8) (gained : Nat) : Prop where
  input : input = pieces.flatMap Piece.bytes
  forwarded : forwarded = pieces.flatMap Piece.forwarded
  gained : gained = pieces.countP Piece.isGained

theorem Made.append {pieces pieces' : List Piece} {input input' forwarded forwarded' : List UInt8}
    {gained gained' : Nat} (h : Made pieces input forwarded gained)
    (h' : Made pieces' input' forwarded' gained') :
    Made (pieces ++ pieces') (input ++ input') (forwarded ++ forwarded') (gained + gained') where
  input := by rw [List.flatMap_append, h.input, h'.input]
  forwarded := by rw [List.flatMap_append, h.forwarded, h'.forwarded]
  gained := by rw [List.countP_append, h.gained, h'.gained]

/-- Bytes that are forwarded as they are. -/
theorem Made.bytes (l : List UInt8) : Made (l.map .byte) l l 0 where
  input := by simp [List.flatMap_map, Piece.bytes]
  forwarded := by simp [List.flatMap_map, Piece.forwarded]
  gained := by
    rw [List.countP_map]
    exact (List.countP_eq_zero.mpr fun _ _ => Bool.false_ne_true).symm

theorem Made.report (gained kept : Bool) : Made [.report gained kept] (if gained then focusGained
    else focusLost)
    (if kept then (if gained then focusGained else focusLost) else []) (if gained then 1
      else 0) where
  input := (List.append_nil _).symm
  forwarded := by cases kept <;> exact (List.append_nil _).symm
  gained := by cases gained <;> rfl

/-- One scan makes pieces of all bytes but those it holds back. -/
theorem scan_made (f : Bool) (l : List UInt8) : ∃ pieces read, l = read ++ (scan f l).pending
    ∧ Made pieces read (scan f l).forwarded (scan f l).gained := by
  induction l using scan_induction with
  | hheld l hheld hlength =>
      rw [scan_held hheld hlength]
      exact ⟨[], [], rfl, Made.bytes []⟩
  | hgained rest ih =>
      obtain ⟨pieces, read, hread, hmade⟩ := ih
      refine ⟨.report true f :: pieces, focusGained ++ read, ?_, (Made.report true f).append hmade⟩
      conv_lhs => rw [hread]
      rw [scan_gained, List.append_assoc]
      rfl
  | hlost rest ih =>
      obtain ⟨pieces, read, hread, hmade⟩ := ih
      refine ⟨.report false f :: pieces, focusLost ++ read, ?_, (Made.report false f).append hmade⟩
      conv_lhs => rw [hread]
      rw [scan_lost, List.append_assoc]
      rfl
  | hpush a rest hstarts ih =>
      obtain ⟨pieces, read, hread, hmade⟩ := ih
      rw [scan_push hstarts]
      refine ⟨.byte a :: pieces, a :: read, ?_, ?_⟩
      · conv_lhs => rw [hread]
        rfl
      · have := (Made.bytes [a]).append hmade
        rwa [Nat.zero_add] at this

/-- What has come in is made into pieces, up to the bytes that are held back. -/
theorem run_made (calls : List Call) : ∃ pieces read, calls.flatMap Call.bytes = read ++
    (run calls).input.pending
    ∧ Made pieces read (run calls).forwarded (run calls).gained := by
  induction calls using List.reverseRecOn with
  | nil => exact ⟨[], [], rfl, Made.bytes []⟩
  | append_singleton calls call ih =>
      obtain ⟨pieces, read, hread, hmade⟩ := ih
      have hrun : run (calls ++ [call]) = (run calls).call call := by
        rw [run, List.foldl_append]
        rfl
      rw [hrun, List.flatMap_append, hread]
      cases call with
      | process bytes f =>
          obtain ⟨pieces', read', hread', hmade'⟩ :=
            scan_made f ((run calls).input.pending ++ bytes)
          refine ⟨pieces ++ pieces', read ++ read', ?_, hmade.append hmade'⟩
          show read ++ (run calls).input.pending ++ (bytes ++ []) = _
          rw [List.append_nil, List.append_assoc, hread', List.append_assoc]
          rfl
      | flush =>
          refine ⟨pieces ++ (run calls).input.pending.map .byte, read ++ (run calls).input.pending,
            ?_, ?_⟩
          · rfl
          · exact hmade.append (Made.bytes _)

/-- Calls with one value of `forward_focus` scan what they have read as one. -/
theorem run_chunks (f : Bool) (chunks : List (List UInt8)) :
    run (chunks.map (Call.process · f)) = run [.process chunks.flatten f] := by
  have hone (bytes : List UInt8) : run [.process bytes f]
      = ⟨⟨(scan f bytes).pending⟩, (scan f bytes).forwarded, (scan f bytes).gained⟩ := by
    show (⟨_, [] ++ (scan f ([] ++ bytes)).forwarded,
        0 + (scan f ([] ++ bytes)).gained⟩ : Session) = _
    rw [Nat.zero_add]
    rfl
  induction chunks using List.reverseRecOn with
  | nil => rfl
  | append_singleton chunks chunk ih =>
      rw [hone] at ih ⊢
      rw [List.map_append, run, List.foldl_append]
      show Session.call (run (chunks.map (Call.process · f))) (.process chunk f) = _
      rw [ih, List.flatten_append, List.flatten_singleton, scan_append]
      rfl

/-- The focus reports of an input. Cut into reads in any way it gives the same bytes and the same
gained events; with reports forwarded the bytes are the input, without they are those in no report,
and the gained events are the reports of gained focus; and whatever is flushed between the reads,
the bytes are the input up to whole reports that are taken out. -/
theorem focus_input_filtered :
    (∀ (f : Bool) (chunks : List (List UInt8)),
      (run (chunks.map (Call.process · f))).finish = (run [.process chunks.flatten f]).finish)
    ∧ (∀ input, (run [.process input true]).finish = (input, gainedReports input))
    ∧ (∀ input, (run [.process input false]).finish = (withoutReports input, gainedReports input))
    ∧ ∀ calls : List Call, ∃ pieces, Made pieces (calls.flatMap Call.bytes) (run calls).finish.1
      (run calls).finish.2 := by
  have hone (f : Bool) (input : List UInt8) : (run [.process input f]).finish
      = (if f then input else withoutReports input, gainedReports input) := by
    obtain ⟨hbytes, hgained⟩ := scan_spec f input
    refine Prod.ext hbytes ?_
    exact (Nat.zero_add _).trans hgained
  refine ⟨fun f chunks => ?_, hone true, hone false, fun calls => ?_⟩
  · rw [run_chunks]
  · obtain ⟨pieces, read, hread, hmade⟩ := run_made calls
    refine ⟨pieces ++ (run calls).input.pending.map .byte, ?_⟩
    rw [hread]
    exact hmade.append (Made.bytes _)

/-- A sequence that is cut after each byte is a report; after a flush its rest is not. -/
example : (run [.process [0x61, 0x1b] false, .process [0x5b] false,
    .process [0x49, 0x62] false]).finish
      = ([0x61, 0x62], 1)
    ∧ (run [.process [0x61, 0x1b] false, .flush, .process [0x5b, 0x49] false]).finish
      = ([0x61, 0x1b, 0x5b, 0x49], 0) := by decide

end FocusInput

end Boomux.Attach
