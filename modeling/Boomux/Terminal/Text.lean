import Boomux.Basic.Utf8
import Boomux.Terminal.Screen
import Mathlib.Data.List.Chain

/-!
# The text of a terminal

The plain text of a terminal is the text of its scrollback and then that of its screen; a row that
is wrapped goes on in the next one. `plain_text_suffix` reads the rows from the last one up and
stops as soon as it has enough. It agrees with the full text except where a row without text follows
a wrapped one above the screen: there it reads one line end more.
-/

set_option autoImplicit false

namespace Boomux.Terminal

open Rust

/-! ## The text of a row -/

/-- The characters that `plain_text` and `plain_row` keep. -/
def kept (c : Char) : Bool := !isControl c || c == '\n' || c == '\t'

/-- One column of a row's text: the text, and the column after it. -/
def textCol (cells : Nat → Option Cell) (keep : Char → Bool) (acc : List Char × Nat) (col : Nat) :
    List Char × Nat :=
  match cells col with
  | none => acc
  | some cell =>
      if cell.isWideContinuation || !cell.hasContents then acc
      else (acc.1 ++ List.replicate (col - acc.2) ' ' ++ cell.contents.filter keep,
        col + if cell.isWide then 2 else 1)

/-- `plain_row`. -/
def plainRow (screen : Screen) (row cols : Nat) (wrapping : Bool) : List Char :=
  let (text, nextCol) := (List.range cols).foldl (textCol (screen.cell row) kept) ([], 0)
  text ++ if nextCol = 0 && wrapping then ['\n'] else []

/-- The contents of the cells of a row that have any, each after blanks up to its column. -/
def Row.text (cols : Nat) (row : Row) : List Char :=
  ((List.range cols).foldl (textCol (row.cells[·]?) fun _ => true) ([], 0)).1

/-! ## The full text -/

/-- `trim_end_matches('\n')`. -/
def trimEnd (text : List Char) : List Char := text.rdropWhile (· == '\n')

/-- The text of a row after another one that is wrapped or not: a row without text after a wrapped
one still ends the line before it. -/
def Row.piece (cols : Nat) (wrapping : Bool) (row : Row) : List Char :=
  row.text cols ++ (if (row.text cols).isEmpty && wrapping then ['\n'] else [])
    ++ if !row.wrapped then ['\n'] else []

/-- The text of rows. -/
def joined (cols : Nat) : Bool → List Row → List Char
  | _, [] => []
  | wrapping, row :: rows => row.piece cols wrapping ++ joined cols row.wrapped rows

/-- What is used of the text that the `vt100` crate makes of a screen. -/
structure Vt100Text where
  rows : Screen → Nat → Nat → List (List Char)
  contents : Screen → List Char

/-- `scrollback_text`. -/
def scrollbackText (vt : Vt100Text) (screen : Screen) : List Char :=
  (List.range (screen.setScrollback u64Max).scrollback).reverse.flatMap fun offset =>
    let scrolled := screen.setScrollback (offset + 1)
    match (vt.rows scrolled 0 scrolled.cols).head? with
    | some row => row ++ if !scrolled.rowWrapped 0 then ['\n'] else []
    | none => []

/-- `plain_text`. -/
def plainText (vt : Vt100Text) (screen : Screen) : List Char :=
  (scrollbackText vt screen ++ vt.contents screen).filter kept

/-! ## The suffix -/

/-- The pieces read so far, the newest first read, and how many bytes they have. -/
structure Pieces where
  pieces : List (List Char)
  bytes : Nat

def Pieces.push (acc : Pieces) (piece : List Char) : Pieces :=
  ⟨acc.pieces ++ [piece], acc.bytes + byteLen piece⟩

/-- `join_utf8_suffix`. -/
def joinUtf8Suffix (pieces : List (List Char)) (maxBytes : Nat) : List Char :=
  (newestBytes pieces.reverse.flatten maxBytes).2

/-- The loop over the rows of the screen; whether it has enough. -/
def screenPieces (screen : Screen) (scrollbackRows maxBytes : Nat) : Nat → Bool → Pieces →
    Bool × Pieces
  | 0, _, acc => (false, acc)
  | row + 1, trimmingEnd, acc =>
      let wrapping :=
        if row > 0 then screen.rowWrapped (row - 1)
        else if scrollbackRows > 0 then (screen.setScrollback 1).rowWrapped 0
        else false
      let piece := plainRow screen row screen.cols wrapping ++ if !screen.rowWrapped row then ['\n']
        else []
      let piece := if trimmingEnd then trimEnd piece else piece
      let acc := acc.push piece
      if acc.bytes ≥ maxBytes then (true, acc)
      else screenPieces screen scrollbackRows maxBytes row (trimmingEnd && piece.isEmpty) acc

/-- The loop over the scrollback, with so many rows to go. -/
def scrollbackPieces (screen : Screen) (scrollbackRows maxBytes : Nat) : Nat → Pieces → Pieces
  | 0, acc => acc
  | remaining + 1, acc =>
      let offset := scrollbackRows - remaining
      let scrolled := screen.setScrollback offset
      let wrapping := if offset < scrollbackRows then
        (screen.setScrollback (offset + 1)).rowWrapped 0 else false
      let piece := plainRow scrolled 0 screen.cols wrapping ++ if !scrolled.rowWrapped 0 then ['\n']
        else []
      let acc := acc.push piece
      if acc.bytes ≥ maxBytes then acc
        else scrollbackPieces screen scrollbackRows maxBytes remaining acc

/-- `plain_text_suffix`. -/
def plainTextSuffix (screen : Screen) (maxBytes : Nat) : List Char :=
  if maxBytes = 0 then []
  else
    let scrollbackRows := (screen.setScrollback u64Max).scrollback
    let screen := screen.setScrollback 0
    match screenPieces screen scrollbackRows maxBytes screen.rows.length true ⟨[], 0⟩ with
    | (true, acc) => joinUtf8Suffix acc.pieces maxBytes
    | (false, acc) =>
        joinUtf8Suffix (scrollbackPieces screen scrollbackRows maxBytes scrollbackRows acc).pieces
          maxBytes

/-! ## Reading the rows of a screen -/

/-- The screens that a terminal has: there is a row, and the screen is not scrolled back. Text does
not go on in a next row where there is only one; the scrollback may have wrapped rows from before
the terminal was made that small. -/
structure Screen.Provided (screen : Screen) : Prop where
  rows : screen.rows ≠ []
  single : ∀ row, screen.rows = [row] → row.wrapped = false
  unscrolled : screen.offset = 0
  scrollback : screen.scrollbackRows.length ≤ u64Max

variable {screen : Screen} {row : Row} {rows older : List Row} {cols : Nat} {wrapping : Bool}
    {text a b : List Char}

theorem Screen.visibleRows_unscrolled (h : screen.offset = 0) :
    screen.visibleRows = screen.rows := by
  rw [visibleRows, h, Nat.sub_zero, List.drop_left, List.take_length]

theorem Screen.Provided.setScrollback_max (h : screen.Provided) :
    (screen.setScrollback u64Max).scrollback = screen.scrollbackRows.length :=
      Nat.min_eq_right h.scrollback

theorem Screen.Provided.setScrollback_zero (h : screen.Provided) :
    screen.setScrollback 0 = screen := by
  obtain ⟨rows, scrollbackRows, cols, offset⟩ := screen
  obtain rfl : offset = 0 := h.unscrolled
  simp [setScrollback]

/-- Scrolled back by so many rows, the screen shows that row of the scrollback first. -/
theorem Screen.Provided.visibleRows_head (h : screen.Provided) {newer : List Row}
    (hrows : screen.scrollbackRows = older ++ row :: newer) :
    (screen.setScrollback (newer.length + 1)).visibleRows[0]? = some row := by
  obtain ⟨shown, rest, hshown⟩ := List.exists_cons_of_ne_nil h.rows
  have hlength : screen.scrollbackRows.length = older.length + (newer.length + 1) := by
    rw [hrows, List.length_append, List.length_cons]
  have hoffset : screen.scrollbackRows.length - min
      (newer.length + 1) screen.scrollbackRows.length = older.length := by
    omega
  show (((screen.scrollbackRows ++ screen.rows).drop (screen.scrollbackRows.length
    - min (newer.length + 1) screen.scrollbackRows.length)).take screen.rows.length)[0]? = some row
  rw [hoffset, hrows, List.append_assoc, List.drop_left, hshown]
  rfl

/-! ## The text of a row -/

theorem kept_of_drawn {c : Char} (h : isControl c = false) : kept c = true := by
  rw [kept, h]
  rfl

/-- The contents of a cell are kept, so that `plain_row` reads the text of the row. -/
theorem textCol_kept (cells : Nat → Option Cell) (acc : List Char × Nat) (col : Nat) :
    textCol cells kept acc col = textCol cells (fun _ => true) acc col := by
  unfold textCol
  split
  · rfl
  next cell _ =>
      have hkept : cell.contents.filter kept = cell.contents :=
        List.filter_eq_self.mpr fun c hc => kept_of_drawn (cell.drawn c hc)
      rw [hkept, List.filter_true]

/-- A row has no text exactly if no column was read. -/
theorem textCols_spec (cells : Nat → Option Cell) (list : List Nat) (acc : List Char × Nat)
    (hacc : (acc.1 = [] ↔ acc.2 = 0) ∧ ∀ c ∈ acc.1, isControl c = false) :
    let read := list.foldl (textCol cells fun _ => true) acc
    (read.1 = [] ↔ read.2 = 0) ∧ ∀ c ∈ read.1, isControl c = false := by
  induction list generalizing acc with
  | nil => exact hacc
  | cons col list ih =>
      refine ih _ ?_
      unfold textCol
      split
      · exact hacc
      next cell _ =>
          split
          · exact hacc
          next hcell =>
              rw [Bool.or_eq_true, not_or, Bool.not_eq_true', Bool.not_eq_false, Cell.hasContents,
                Bool.not_eq_true', List.isEmpty_eq_false_iff] at hcell
              rw [List.filter_true]
              refine ⟨iff_of_false (fun he => hcell.2 (List.append_eq_nil_iff.mp he).2) ?_,
                fun c hc => ?_⟩
              · split <;> simp
              · rcases List.mem_append.mp hc with hc | hc
                · rcases List.mem_append.mp hc with hc | hc
                  · exact hacc.2 c hc
                  · rw [List.eq_of_mem_replicate hc]
                    rfl
                · exact cell.drawn c hc

theorem Row.text_drawn (cols : Nat) (row : Row) : ∀ c ∈ row.text cols, isControl c = false :=
  (textCols_spec _ (List.range cols) ([], 0) (by simp)).2

/-- `plain_row` reads the text of the row that is shown there. -/
theorem plainRow_eq {index : Nat} (h : screen.visibleRows[index]? = some row) (cols : Nat)
    (wrapping : Bool) :
    plainRow screen index cols wrapping
      = row.text cols ++ if (row.text cols).isEmpty && wrapping then ['\n'] else [] := by
  have hcells : screen.cell index = (row.cells[·]?) := by
    funext col
    rw [Screen.cell, h]
    rfl
  have hkept : textCol (row.cells[·]?) kept = textCol (row.cells[·]?) fun _ => true :=
    funext fun acc => funext (textCol_kept (row.cells[·]?) acc)
  have hspec := (textCols_spec (row.cells[·]?) (List.range cols) ([], 0) (by simp)).1
  unfold plainRow Row.text
  rw [hcells, hkept]
  dsimp only
  have hblank : ((List.range cols).foldl (textCol (row.cells[·]?) fun _ => true) ([], 0)).1.isEmpty
      = decide (((List.range cols).foldl (textCol (row.cells[·]?) fun _ => true) ([], 0)).2 =
        0) := by
    rw [Bool.eq_iff_iff, List.isEmpty_iff, decide_eq_true_iff]
    exact hspec
  rw [hblank]

theorem rowWrapped_eq {index : Nat} (h : screen.visibleRows[index]? = some row) :
    screen.rowWrapped index = row.wrapped := by
  rw [Screen.rowWrapped, h]
  rfl

/-! ## Line ends -/

theorem trimEnd_append (a b : List Char) : trimEnd (a ++ b) = if trimEnd b = [] then trimEnd a
    else a ++ trimEnd b := by
  induction b using List.reverseRecOn with
  | nil => simp [trimEnd]
  | append_singleton b c ih =>
      unfold trimEnd at ih ⊢
      rw [← List.append_assoc, List.rdropWhile_concat, List.rdropWhile_concat]
      split
      · exact ih
      · rw [if_neg (by simp), List.append_assoc]

/-- Text that has drawn characters, and line ends after it, is not trimmed away. -/
theorem trimEnd_eq_nil_iff (text : List Char) : trimEnd text = [] ↔ ∀ c ∈ text, c = '\n' := by
  unfold trimEnd
  rw [List.rdropWhile_eq_nil_iff]
  simp

theorem trimEnd_kept (h : ∀ c ∈ text, kept c = true) : ∀ c ∈ trimEnd text, kept c = true :=
  fun c hc => h c ((List.rdropWhile_prefix _ text).mem hc)

/-! ## Rows from the last one up -/

/-- Whether the last of the rows is wrapped. -/
def lastWrapped : Bool → List Row → Bool
  | wrapped, [] => wrapped
  | _, row :: rows => lastWrapped row.wrapped rows

theorem lastWrapped_append (wrapping : Bool) (older rows : List Row) :
    lastWrapped wrapping (older ++ rows) = lastWrapped (lastWrapped wrapping older) rows := by
  induction older generalizing wrapping with
  | nil => rfl
  | cons row older ih => exact ih row.wrapped

theorem joined_append (cols : Nat) (wrapping : Bool) (older rows : List Row) :
    joined cols wrapping (older ++ rows) = joined cols wrapping older ++ joined cols
      (lastWrapped wrapping older) rows := by
  induction older generalizing wrapping with
  | nil => rfl
  | cons row older ih => rw [List.cons_append, joined, ih, joined, lastWrapped, List.append_assoc]

/-- The pieces make up a text. -/
def Pieces.Read (acc : Pieces) (text : List Char) : Prop :=
  acc.pieces.reverse.flatten = text ∧ acc.bytes = byteLen text

theorem Pieces.Read.push {acc : Pieces} (h : acc.Read text) (piece : List Char) :
    (acc.push piece).Read (piece ++ text) := by
  refine ⟨?_, ?_⟩
  · rw [Pieces.push, List.reverse_append, List.reverse_singleton, List.singleton_append,
      List.flatten_cons, h.1]
  · rw [Pieces.push, byteLen_append, h.2, Nat.add_comm]

/-- What is read of a row that is shown is its piece of the text. -/
theorem piece_eq {index : Nat} (h : screen.visibleRows[index]? = some row) (cols : Nat)
    (wrapping : Bool) :
    (plainRow screen index cols wrapping ++ if !screen.rowWrapped index then ['\n']
      else []) = row.piece cols wrapping := by
  rw [plainRow_eq h, rowWrapped_eq h, Row.piece]

/-- The row that is scrolled back to is the last of those before `newer`. -/
theorem rowWrapped_scrolled (h : screen.Provided) {newer : List Row}
    (hrows : screen.scrollbackRows = older ++ newer) :
    (if newer.length < screen.scrollbackRows.length then
      (screen.setScrollback (newer.length + 1)).rowWrapped 0 else false)
      = lastWrapped false older := by
  induction older using List.reverseRecOn with
  | nil =>
      rw [hrows, List.nil_append, if_neg (Nat.lt_irrefl _)]
      rfl
  | append_singleton older row =>
      rw [lastWrapped_append]
      rw [List.append_assoc, List.singleton_append] at hrows
      rw [if_pos (by rw [hrows, List.length_append, List.length_cons]; omega),
        rowWrapped_eq (h.visibleRows_head hrows)]
      rfl

/-- The row above one of the screen is on the screen, or the last of the scrollback. -/
theorem rowWrapped_above (h : screen.Provided) (hrows : screen.rows = older ++ rows) :
    (if older.length > 0 then screen.rowWrapped (older.length - 1)
      else if screen.scrollbackRows.length > 0 then (screen.setScrollback 1).rowWrapped 0
        else false)
      = lastWrapped (lastWrapped false screen.scrollbackRows) older := by
  rcases List.eq_nil_or_concat' older with rfl | ⟨before, last, rfl⟩
  · exact rowWrapped_scrolled h (List.append_nil _).symm
  · have hlast : screen.visibleRows[before.length]? = some last := by
      rw [Screen.visibleRows_unscrolled h.unscrolled, hrows]
      simp
    rw [if_pos (by simp), List.length_append, List.length_singleton, Nat.add_sub_cancel,
      rowWrapped_eq hlast,
      lastWrapped_append]
    rfl

/-- The loop over the screen reads the text of its rows without the line ends at its end, or enough
of it. -/
theorem screenPieces_spec (h : screen.Provided) {newer : List Row} {maxBytes : Nat}
    (hmax : 0 < maxBytes)
    (hrows : screen.rows = older ++ newer) {acc : Pieces} {tail whole : List Char}
    (hwhole : whole = trimEnd
      (joined screen.cols (lastWrapped false screen.scrollbackRows) screen.rows))
    (htail : tail = trimEnd (joined screen.cols
      (lastWrapped (lastWrapped false screen.scrollbackRows) older) newer)) (hacc : acc.Read tail) :
    ∃ text, (screenPieces screen screen.scrollbackRows.length maxBytes older.length tail.isEmpty
      acc).2.Read text
      ∧ if (screenPieces screen screen.scrollbackRows.length maxBytes older.length tail.isEmpty
        acc).1 then
          maxBytes ≤ byteLen text ∧ text <:+ whole
        else text = whole := by
  induction older using List.reverseRecOn generalizing newer acc tail with
  | nil =>
      refine ⟨tail, hacc, ?_⟩
      rw [htail, hwhole, hrows]
      rfl
  | append_singleton older row ih =>
      rw [List.append_assoc, List.singleton_append] at hrows
      rw [lastWrapped_append] at htail
      have hrow : screen.visibleRows[older.length]? = some row := by
        rw [Screen.visibleRows_unscrolled h.unscrolled, hrows]
        simp
      have habove := rowWrapped_above h hrows
      rw [List.length_append, List.length_singleton, screenPieces, habove, piece_eq hrow]
      -- The rows from this one on, trimmed: the row itself is trimmed while nothing follows it.
      have htail' := trimEnd_append (row.piece screen.cols
        (lastWrapped (lastWrapped false screen.scrollbackRows) older))
          (joined screen.cols row.wrapped newer)
      rw [← show tail = trimEnd (joined screen.cols row.wrapped newer) from htail] at htail'
      have hjoined : joined screen.cols
          (lastWrapped (lastWrapped false screen.scrollbackRows) older) (row :: newer)
          = row.piece screen.cols (lastWrapped (lastWrapped false screen.scrollbackRows) older)
            ++ joined screen.cols row.wrapped newer := rfl
      generalize row.piece screen.cols
        (lastWrapped (lastWrapped false screen.scrollbackRows) older) = piece at *
      have hread : (acc.push (if tail.isEmpty then trimEnd piece else piece)).Read
          (if tail = [] then trimEnd piece else piece ++ tail) := by
        by_cases hnil : tail = []
        · have hpush := hacc.push (trimEnd piece)
          rw [hnil, List.append_nil] at hpush
          rw [if_pos hnil, if_pos (List.isEmpty_iff.mpr hnil)]
          exact hpush
        · rw [if_neg hnil, if_neg (by rw [List.isEmpty_iff]; exact hnil)]
          exact hacc.push piece
      by_cases henough : (acc.push (if tail.isEmpty then trimEnd piece else piece)).bytes ≥ maxBytes
      · rw [if_pos henough]
        refine ⟨_, hread, ?_⟩
        rw [if_pos rfl]
        rw [hread.2] at henough
        rw [hwhole, hrows, joined_append, hjoined, trimEnd_append _ (piece ++ _), htail']
        generalize (if tail = [] then trimEnd piece else piece ++ tail) = text at *
        refine ⟨henough, ?_⟩
        split
        next hnil =>
            rw [hnil] at henough
            exact absurd (Nat.lt_of_lt_of_le hmax henough) (Nat.lt_irrefl 0)
        next => exact List.suffix_append _ _
      · rw [if_neg henough]
        have hempty : (tail.isEmpty && (if tail.isEmpty then trimEnd piece else piece).isEmpty)
            = (if tail = [] then trimEnd piece else piece ++ tail).isEmpty := by
          by_cases hnil : tail = []
          · simp [hnil]
          · rw [if_neg hnil, List.isEmpty_eq_false_iff.mpr hnil, Bool.false_and]
            exact (List.isEmpty_eq_false_iff.mpr fun he =>
              hnil (List.append_eq_nil_iff.mp he).2).symm
        rw [hempty]
        exact ih hrows (by rw [hjoined, htail']) hread

theorem scrollbackPieces_spec (h : screen.Provided) {newer : List Row} {maxBytes : Nat}
    (hrows : screen.scrollbackRows = older ++ newer) {acc : Pieces} {last tail : List Char}
    (htail : tail = joined screen.cols (lastWrapped false older) newer ++ last)
    (hacc : acc.Read tail) :
    ∃ text, (scrollbackPieces screen screen.scrollbackRows.length maxBytes older.length acc).Read
      text
      ∧ (text = joined screen.cols false screen.scrollbackRows ++ last
        ∨ maxBytes ≤ byteLen text ∧ text <:+ joined screen.cols false screen.scrollbackRows ++
          last) := by
  induction older using List.reverseRecOn generalizing newer acc tail with
  | nil =>
      refine ⟨tail, hacc, Or.inl ?_⟩
      rw [htail, hrows]
      rfl
  | append_singleton older row ih =>
      rw [List.append_assoc, List.singleton_append] at hrows
      rw [lastWrapped_append] at htail
      have hoffset : screen.scrollbackRows.length - older.length = newer.length + 1 := by
        rw [hrows, List.length_append, List.length_cons]
        omega
      have habove := rowWrapped_scrolled h hrows
      rw [List.length_cons] at habove
      have hcols : (screen.setScrollback (newer.length + 1)).cols = screen.cols := rfl
      rw [List.length_append, List.length_singleton, scrollbackPieces, hoffset, habove,
        piece_eq (h.visibleRows_head hrows)]
      have hread := hacc.push (row.piece screen.cols (lastWrapped false older))
      have hjoined : row.piece screen.cols (lastWrapped false older) ++ tail
          = joined screen.cols (lastWrapped false older) (row :: newer) ++ last := by
        rw [htail, joined, List.append_assoc]
        rfl
      split
      next henough =>
          refine ⟨_, hread, Or.inr ⟨hread.2 ▸ henough, ?_⟩⟩
          rw [hjoined, hrows, joined_append, List.append_assoc]
          exact List.suffix_append _ _
      next => exact ih hrows hjoined hread

/-- The text that the suffix is cut from. -/
def suffixText (screen : Screen) : List Char :=
  joined screen.cols false screen.scrollbackRows
    ++ trimEnd (joined screen.cols (lastWrapped false screen.scrollbackRows) screen.rows)

/-- The suffix is cut from the text of all rows, though the rows are read only as far as needed. -/
theorem plainTextSuffix_spec (h : screen.Provided) (maxBytes : Nat) :
    LongestSuffix (suffixText screen) maxBytes (plainTextSuffix screen maxBytes) := by
  unfold plainTextSuffix
  split
  -- No byte is asked for.
  next hzero =>
      refine ⟨List.nil_suffix, Nat.zero_le _, fun t _ hlen => ?_⟩
      rw [hzero, Nat.le_zero, byteLen_eq_zero] at hlen
      rw [hlen]
  next hmax =>
      rw [h.setScrollback_max, h.setScrollback_zero]
      obtain ⟨text, hread, htext⟩ :=
        @screenPieces_spec screen screen.rows h [] maxBytes (Nat.pos_of_ne_zero hmax)
        (List.append_nil _).symm ⟨[], 0⟩ [] _ rfl rfl ⟨rfl, rfl⟩
      have hdone {acc : Pieces} {text : List Char} (hacc : acc.Read text) :
          LongestSuffix text maxBytes (joinUtf8Suffix acc.pieces maxBytes) := by
        rw [joinUtf8Suffix, hacc.1]
        exact (newestBytes_spec text maxBytes).1
      rw [List.isEmpty_nil] at hread htext
      dsimp only
      split
      -- The screen has enough, and the scrollback is not read.
      next acc hpieces =>
          rw [hpieces] at hread htext
          obtain ⟨henough, front, hfront⟩ := htext
          have hlong := (hdone hread).append henough
            (joined screen.cols false screen.scrollbackRows ++ front)
          rw [List.append_assoc, hfront] at hlong
          exact hlong
      -- The scrollback comes before what the screen has.
      next acc hpieces =>
          rw [hpieces] at hread htext
          obtain rfl : text = trimEnd
              (joined screen.cols (lastWrapped false screen.scrollbackRows) screen.rows) := htext
          obtain ⟨text', hread', htext'⟩ :=
            @scrollbackPieces_spec screen screen.scrollbackRows h [] maxBytes
            (List.append_nil _).symm acc
            (trimEnd (joined screen.cols (lastWrapped false screen.scrollbackRows) screen.rows)) _
              rfl hread
          rcases htext' with rfl | ⟨henough, front, hfront⟩
          · exact hdone hread'
          · rw [suffixText, ← hfront]
            exact (hdone hread').append henough front

/-! ## The full text -/

/-- What the crate says of the text of a screen: the rows that are shown, each without line ends,
and all of them with a line end after each that is not wrapped, up to the last that has text. A row
without text after a wrapped one ends the line. -/
structure Vt100Text.Documented (vt : Vt100Text) : Prop where
  rows : ∀ screen, vt.rows screen 0 screen.cols = screen.visibleRows.map (Row.text screen.cols)
  contents : ∀ screen, vt.contents screen = trimEnd (joined screen.cols false screen.visibleRows)

/-- The text of rows, each ended unless it is wrapped. -/
def ended (cols : Nat) (rows : List Row) : List Char := rows.flatMap (Row.piece cols false)

@[simp] theorem ended_cons (cols : Nat) (row : Row) (rows : List Row) :
    ended cols (row :: rows) = row.piece cols false ++ ended cols rows := rfl

variable {vt : Vt100Text}

theorem scrollbackText_eq (hvt : vt.Documented) (h : screen.Provided) :
    scrollbackText vt screen = ended screen.cols screen.scrollbackRows := by
  have hrows (before rest : List Row) (hrest : screen.scrollbackRows = before ++ rest) :
      ((List.range rest.length).reverse.flatMap fun offset =>
        let scrolled := screen.setScrollback (offset + 1)
        match (vt.rows scrolled 0 scrolled.cols).head? with
        | some row => row ++ if !scrolled.rowWrapped 0 then ['\n'] else []
        | none => []) = ended screen.cols rest := by
    induction rest generalizing before with
    | nil => rfl
    | cons row rest ih =>
        have hrow := h.visibleRows_head hrest
        have hhead : (vt.rows (screen.setScrollback (rest.length + 1)) 0 screen.cols).head?
            = some (row.text screen.cols) := by
          have hdocumented := hvt.rows (screen.setScrollback (rest.length + 1))
          rw [show (screen.setScrollback (rest.length + 1)).cols = screen.cols from rfl]
            at hdocumented
          rw [hdocumented, List.head?_map, List.head?_eq_getElem?, hrow]
          rfl
        rw [List.length_cons, List.range_succ, List.reverse_append, List.reverse_singleton,
          List.singleton_append,
          List.flatMap_cons, ih (before ++ [row]) (by rw [hrest, List.append_assoc]; rfl)]
        dsimp only
        rw [show (screen.setScrollback (rest.length + 1)).cols = screen.cols from rfl, hhead,
          rowWrapped_eq hrow]
        simp [ended, Row.piece]
  unfold scrollbackText
  rw [h.setScrollback_max]
  exact hrows [] _ rfl

theorem piece_kept (cols : Nat) (wrapping : Bool) (row : Row) : ∀ c ∈ row.piece cols wrapping,
    kept c = true := by
  intro c hc
  unfold Row.piece at hc
  rcases List.mem_append.mp hc with hc | hc
  · rcases List.mem_append.mp hc with hc | hc
    · exact kept_of_drawn (row.text_drawn cols c hc)
    · split at hc
      · rw [List.mem_singleton.mp hc]
        rfl
      · cases hc
  · split at hc
    · rw [List.mem_singleton.mp hc]
      rfl
    · cases hc

theorem joined_kept (cols : Nat) (wrapping : Bool) (rows : List Row) :
    ∀ c ∈ joined cols wrapping rows, kept c = true := by
  induction rows generalizing wrapping with
  | nil => exact fun c hc => absurd hc List.not_mem_nil
  | cons row rows ih =>
      intro c hc
      rcases List.mem_append.mp hc with hc | hc
      · exact piece_kept cols wrapping row c hc
      · exact ih row.wrapped c hc

theorem plainText_eq (hvt : vt.Documented) (h : screen.Provided) :
    plainText vt screen
      = ended screen.cols screen.scrollbackRows ++ trimEnd
        (joined screen.cols false screen.rows) := by
  rw [plainText, scrollbackText_eq hvt h, hvt.contents, Screen.visibleRows_unscrolled h.unscrolled,
    List.filter_eq_self]
  intro c hc
  rcases List.mem_append.mp hc with hc | hc
  · obtain ⟨row, -, hc⟩ := List.mem_flatMap.mp hc
    exact piece_kept _ _ row c hc
  · exact trimEnd_kept (joined_kept _ _ _) c hc

/-! ## Where the two texts agree -/

/-- The row has text, or no wrapped row stands before it. -/
def Follows (cols : Nat) (wrapping : Bool) (row : Row) : Prop :=
  wrapping = true → row.text cols ≠ []

/-- No row without text follows a wrapped row. -/
def NoneBlank (cols : Nat) : Bool → List Row → Prop
  | _, [] => True
  | wrapping, row :: rows => Follows cols wrapping row ∧ NoneBlank cols row.wrapped rows

/-- No row of the scrollback without text follows a wrapped one, and the first row of the screen
does not so follow the last one of the scrollback, unless no row below it has text. -/
def Screen.LinesEnd (screen : Screen) : Prop :=
  NoneBlank screen.cols false screen.scrollbackRows
    ∧ ((∀ row ∈ screen.rows.tail, row.text screen.cols = [])
      ∨ ∀ row ∈ screen.rows.head?,
        Follows screen.cols (lastWrapped false screen.scrollbackRows) row)

theorem piece_of_follows (h : Follows cols wrapping row) :
    row.piece cols wrapping = row.piece cols false := by
  unfold Row.piece
  cases wrapping with
  | false => rfl
  | true => rw [List.isEmpty_eq_false_iff.mpr (h rfl), Bool.false_and, Bool.false_and]

/-- Otherwise there is one line end more. -/
theorem piece_of_not_follows (h : ¬ Follows cols wrapping row) :
    row.piece cols wrapping = '\n' :: row.piece cols false := by
  unfold Follows at h
  push Not at h
  obtain ⟨rfl, htext⟩ := h
  unfold Row.piece
  rw [htext]
  rfl

theorem joined_of_noneBlank (h : NoneBlank cols wrapping rows) :
    joined cols wrapping rows = ended cols rows := by
  induction rows generalizing wrapping with
  | nil => rfl
  | cons row rows ih => rw [joined, ih h.2, piece_of_follows h.1, ended_cons]

theorem byteLen_joined_le (cols : Nat) (wrapping : Bool) (rows : List Row) :
    byteLen (ended cols rows) ≤ byteLen (joined cols wrapping rows) := by
  induction rows generalizing wrapping with
  | nil => exact Nat.le_refl _
  | cons row rows ih =>
      have hpiece : byteLen (row.piece cols false) ≤ byteLen (row.piece cols wrapping) := by
        by_cases hfollows : Follows cols wrapping row
        · rw [piece_of_follows hfollows]
        · rw [piece_of_not_follows hfollows, byteLen_cons]
          exact Nat.le_add_left _ _
      rw [joined, ended_cons, byteLen_append, byteLen_append]
      exact Nat.add_le_add hpiece (ih row.wrapped)

/-- The texts of rows have one length only if no row without text follows a wrapped one. -/
theorem noneBlank_of_byteLen (h : byteLen (joined cols wrapping rows) ≤ byteLen (ended cols rows)) :
    NoneBlank cols wrapping rows := by
  induction rows generalizing wrapping with
  | nil => exact trivial
  | cons row rows ih =>
      have hrest := byteLen_joined_le cols row.wrapped rows
      rw [joined, ended_cons, byteLen_append, byteLen_append] at h
      by_cases hfollows : Follows cols wrapping row
      · rw [piece_of_follows hfollows] at h
        exact ⟨hfollows, ih (Nat.le_of_add_le_add_left h)⟩
      · rw [piece_of_not_follows hfollows, byteLen_cons] at h
        have hpos := ('\n' : Char).utf8Size_pos
        omega

/-- A row without text is read as line ends at most. -/
theorem piece_lineEnds (htext : row.text cols = []) : ∀ c ∈ row.piece cols wrapping, c = '\n' := by
  intro c hc
  unfold Row.piece at hc
  rw [htext, List.nil_append] at hc
  rcases List.mem_append.mp hc with hc | hc
  · split at hc
    · exact List.mem_singleton.mp hc
    · cases hc
  · split at hc
    · exact List.mem_singleton.mp hc
    · cases hc

/-- Rows without text leave nothing when their line ends are trimmed. -/
theorem trimEnd_joined_eq_nil (cols : Nat) (wrapping : Bool) (rows : List Row) :
    trimEnd (joined cols wrapping rows) = [] ↔ ∀ row ∈ rows, row.text cols = [] := by
  rw [trimEnd_eq_nil_iff]
  induction rows generalizing wrapping with
  | nil => simp [joined]
  | cons row rows ih =>
      rw [joined, List.forall_mem_append, ih, List.forall_mem_cons]
      refine and_congr_left fun _ => ?_
      constructor
      · intro hall
        by_contra htext
        obtain ⟨c, text, hc⟩ := List.exists_cons_of_ne_nil htext
        have hmem : c ∈ row.text cols := hc ▸ List.mem_cons_self
        have hend := hall c (List.mem_append_left _ (List.mem_append_left _ hmem))
        have hdrawn := row.text_drawn cols c hmem
        rw [hend] at hdrawn
        exact absurd hdrawn (by decide)
      · exact piece_lineEnds

/-- What is read of the screen, by whether a wrapped row stands before it. -/
theorem trimEnd_joined_cons (cols : Nat) (wrapping : Bool) (row : Row) (rows : List Row) :
    ((∀ row ∈ rows, row.text cols = []) ∨ Follows cols wrapping row →
        trimEnd (joined cols wrapping (row :: rows)) = trimEnd (joined cols false (row :: rows)))
      ∧ (¬ ((∀ row ∈ rows, row.text cols = []) ∨ Follows cols wrapping row) →
        trimEnd (joined cols wrapping (row :: rows)) = '\n' :: trimEnd
          (joined cols false (row :: rows))) := by
  rw [joined, joined, trimEnd_append, trimEnd_append, ← trimEnd_joined_eq_nil cols row.wrapped rows]
  by_cases hfollows : Follows cols wrapping row
  · rw [piece_of_follows hfollows]
    exact ⟨fun _ => rfl, fun hnot => absurd (Or.inr hfollows) hnot⟩
  · rw [piece_of_not_follows hfollows]
    by_cases hnil : trimEnd (joined cols row.wrapped rows) = []
    · rw [if_pos hnil, if_pos hnil]
      have htext : row.text cols = [] := by
        unfold Follows at hfollows
        push Not at hfollows
        exact hfollows.2
      refine ⟨fun _ => ?_, fun hnot => absurd (Or.inl hnil) hnot⟩
      have hend : ∀ c ∈ row.piece cols false, c = '\n' := piece_lineEnds htext
      rw [(trimEnd_eq_nil_iff _).mpr hend, trimEnd_eq_nil_iff]
      exact List.forall_mem_cons.mpr ⟨rfl, hend⟩
    · rw [if_neg hnil, if_neg hnil]
      exact ⟨fun hor => absurd hor (not_or.mpr ⟨hnil, hfollows⟩), fun _ => rfl⟩

/-- The suffixes are those of the full text exactly if the line ends agree. -/
theorem plainTextSuffix_iff (hvt : vt.Documented) (h : screen.Provided) :
    (∀ maxBytes, LongestSuffix (plainText vt screen) maxBytes (plainTextSuffix screen maxBytes))
      ↔ screen.LinesEnd := by
  obtain ⟨row, rows, hrows⟩ := List.exists_cons_of_ne_nil h.rows
  have hscreen := trimEnd_joined_cons screen.cols (lastWrapped false screen.scrollbackRows) row rows
  have hlines : screen.LinesEnd ↔ NoneBlank screen.cols false screen.scrollbackRows
      ∧ ((∀ row ∈ rows, row.text screen.cols = [])
        ∨ Follows screen.cols (lastWrapped false screen.scrollbackRows) row) := by
    rw [Screen.LinesEnd, hrows]
    simp
  have hplain := plainText_eq hvt h
  rw [hrows] at hplain
  rw [hlines]
  constructor
  · intro hall
    -- With room for all of the text, the suffix is the text.
    obtain ⟨limit, hlimit⟩ : ∃ limit, limit = byteLen (suffixText screen) + byteLen
        (plainText vt screen) := ⟨_, rfl⟩
    have hwhole {text s : List Char} (hs : LongestSuffix text limit s)
        (hle : byteLen text ≤ limit) : s = text :=
      hs.1.eq_of_length_le (hs.2.2 text (List.suffix_refl text) hle).length_le
    have hsame : suffixText screen = plainText vt screen := by
      rw [← hwhole (plainTextSuffix_spec h limit) (by omega), hwhole (hall limit) (by omega)]
    rw [suffixText, hrows, hplain] at hsame
    have hbytes := congrArg byteLen hsame
    rw [byteLen_append, byteLen_append] at hbytes
    have hle := byteLen_joined_le screen.cols false screen.scrollbackRows
    by_cases hor : (∀ row ∈ rows, row.text screen.cols = [])
        ∨ Follows screen.cols (lastWrapped false screen.scrollbackRows) row
    · rw [hscreen.1 hor] at hbytes
      exact ⟨noneBlank_of_byteLen (by omega), hor⟩
    · rw [hscreen.2 hor, byteLen_cons] at hbytes
      have hpos := ('\n' : Char).utf8Size_pos
      omega
  · rintro ⟨hblank, hor⟩ maxBytes
    have hsame : suffixText screen = plainText vt screen := by
      rw [suffixText, hrows, hplain, hscreen.1 hor, joined_of_noneBlank hblank]
    rw [← hsame]
    exact plainTextSuffix_spec h maxBytes

end Boomux.Terminal
