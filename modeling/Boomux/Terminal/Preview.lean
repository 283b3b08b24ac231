import Boomux.Terminal.Text
import Mathlib.Tactic.SplitIfs

/-!
# Previews of a terminal

A preview shows the newest logical lines of a terminal, as spans of one style. A logical line is a
row that is not wrapped with the wrapped rows before it. The rows are read from the last one up,
blank lines are kept back until a line with text stands above them, and lines are taken as long as
they fit; of a newest line that does not fit, the end is taken.
-/

set_option autoImplicit false

namespace Boomux.Terminal

open Rust

/-! ## Lines -/

structure TerminalPreviewSpan where
  text : List Char
  style : TerminalStyle
  deriving DecidableEq, Repr

/-- The spans of a `TerminalPreviewLine`. -/
abbrev TerminalPreviewLine := List TerminalPreviewSpan

/-- `append_preview_span`. -/
def appendPreviewSpan (line : TerminalPreviewLine) (text : List Char) (style : TerminalStyle) :
    TerminalPreviewLine :=
  match line.getLast? with
  | some span =>
      if span.style = style then line.dropLast ++ [⟨span.text ++ text, style⟩]
        else line ++ [⟨text, style⟩]
  | none => [⟨text, style⟩]

/-- The loop body of `append_preview_row_contents`. -/
def appendPreviewCell (cells : Nat → Option Cell) (line : TerminalPreviewLine) (col : Nat) :
    TerminalPreviewLine :=
  match cells col with
  | none => line
  | some cell =>
      if cell.isWideContinuation then line
      else appendPreviewSpan line (if cell.hasContents then cell.contents else [' ']) cell.style

/-- `append_preview_row_contents`. -/
def appendPreviewRowContents (line : TerminalPreviewLine) (screen : Screen) (row : Nat) :
    TerminalPreviewLine :=
  match lastCol screen row with
  | none => line
  | some last => (List.range (last + 1)).foldl (appendPreviewCell (screen.cell row)) line

/-- `prepend_preview_row`. -/
def prependPreviewRow (current : TerminalPreviewLine) (screen : Screen) (row : Nat) :
    TerminalPreviewLine :=
  current.foldl (fun line span => appendPreviewSpan line span.text span.style)
    (appendPreviewRowContents [] screen row)

/-- `preview_line_is_blank`. -/
def previewLineIsBlank (line : TerminalPreviewLine) : Bool := line.all (·.text.all isWhitespace)

def lineBytes (line : TerminalPreviewLine) : Nat := (line.map fun span => byteLen span.text).sum

/-! ## Selecting -/

structure Limits where
  maxBytes : Nat
  maxLines : Nat
  maxSpans : Nat

/-- The lines that are selected, the newest first, the blank ones kept back, and what they amount
to. -/
structure Selection where
  selected : List TerminalPreviewLine
  pendingBlanks : List TerminalPreviewLine
  bytes : Nat
  spans : Nat
  sawContent : Bool

def Selection.start : Selection := ⟨[], [], 0, 0, false⟩

/-- The loop over the spans of a line that does not fit, the newest first. -/
def boundSpans : Nat → List TerminalPreviewSpan → List TerminalPreviewSpan
  | _, [] => []
  | remaining, span :: spans =>
      if remaining = 0 then []
      else
        let (start, text) := newestBytes span.text remaining
        let bounded := if start ≠ 0 then [] else boundSpans (remaining - byteLen text) spans
        if text.isEmpty then bounded else ⟨text, span.style⟩ :: bounded

variable (limits : Limits)

/-- The end of a line that does not fit. -/
def boundLine (line : TerminalPreviewLine) : TerminalPreviewLine :=
  (boundSpans limits.maxBytes (line.reverse.take limits.maxSpans)).reverse

/-- `push_preview_line`: whether no more lines are taken. -/
def pushPreviewLine (sel : Selection) (line : TerminalPreviewLine) : Bool × Selection :=
  let truncated := sel.bytes + lineBytes line > limits.maxBytes ||
    sel.spans + line.length > limits.maxSpans
  if truncated && !sel.selected.isEmpty then (true, sel)
  else
    let line := if truncated then boundLine limits line else line
    if truncated && line.isEmpty then (true, sel)
    else
      let sel := { sel with
        selected := sel.selected ++ [line]
        bytes := sel.bytes + lineBytes line
        spans := sel.spans + line.length }
      (truncated || sel.selected.length ≥ limits.maxLines, sel)

/-- Lines taken one after another, until no more are. -/
def untilDone {α σ : Type} (f : σ → α → Bool × σ) : List α → σ → Bool × σ
  | [], state => (false, state)
  | a :: rest, state =>
      if (f state a).1 then (true, (f state a).2) else untilDone f rest (f state a).2

/-- `select_preview_line`. -/
def selectPreviewLine (sel : Selection) (line : TerminalPreviewLine) : Bool × Selection :=
  if !sel.sawContent && previewLineIsBlank line then (false, sel)
  else if previewLineIsBlank line then
    (false, { sel with pendingBlanks := sel.pendingBlanks ++ [line] })
  else
    let blanks := sel.pendingBlanks
    let (done, sel) := untilDone (pushPreviewLine limits) blanks
      { sel with sawContent := true, pendingBlanks := [] }
    if done then (true, sel) else pushPreviewLine limits sel line

/-- The loop over the rows of the screen: the line that is being read, and the selection. -/
def screenLines (screen : Screen) (scrollbackRows : Nat) :
    Nat → TerminalPreviewLine → Selection → Bool × TerminalPreviewLine × Selection
  | 0, current, sel => (false, current, sel)
  | row + 1, current, sel =>
      let current := prependPreviewRow current screen row
      let previousWrapped :=
        if row > 0 then screen.rowWrapped (row - 1)
        else if scrollbackRows > 0 then (screen.setScrollback 1).rowWrapped 0
        else false
      if previousWrapped then screenLines screen scrollbackRows row current sel
      else
        let (done, sel) := selectPreviewLine limits sel current
        if done then (true, [], sel) else screenLines screen scrollbackRows row [] sel

/-- The loop over the scrollback, with so many rows to go. -/
def scrollbackLines (screen : Screen) (scrollbackRows : Nat) : Nat → TerminalPreviewLine →
    Selection → Selection
  | 0, _, sel => sel
  | remaining + 1, current, sel =>
      let offset := scrollbackRows - remaining
      let current := prependPreviewRow current (screen.setScrollback offset) 0
      let previousWrapped :=
        if offset < scrollbackRows then (screen.setScrollback (offset + 1)).rowWrapped 0 else false
      if previousWrapped then scrollbackLines screen scrollbackRows remaining current sel
      else
        let (done, sel) := selectPreviewLine limits sel current
        if done then sel else scrollbackLines screen scrollbackRows remaining [] sel

/-- `preview`: the lines. -/
def preview (screen : Screen) : List TerminalPreviewLine :=
  if limits.maxBytes = 0 || limits.maxLines = 0 || limits.maxSpans = 0 then []
  else
    let scrollbackRows := (screen.setScrollback u64Max).scrollback
    let screen := screen.setScrollback 0
    match screenLines limits screen scrollbackRows screen.rows.length [] .start with
    | (true, _, sel) => sel.selected.reverse
    | (false, current, sel) =>
        (scrollbackLines limits screen scrollbackRows scrollbackRows current sel).selected.reverse

/-! ## Lines and their characters -/

/-- The characters of a line, each with its style. -/
def styled (line : TerminalPreviewLine) : List (Char × TerminalStyle) :=
  line.flatMap fun span => span.text.map fun c => (c, span.style)

/-- The line that characters make up. -/
def ofStyled (chars : List (Char × TerminalStyle)) : TerminalPreviewLine :=
  chars.foldl (fun line c => appendPreviewSpan line [c.1] c.2) []

/-- Every span has text, and the spans next to each other have different styles. -/
structure Merged (line : TerminalPreviewLine) : Prop where
  texts : ∀ span ∈ line, span.text ≠ []
  styles : (line.map (·.style)).IsChain (· ≠ ·)

variable {limits} {line other : TerminalPreviewLine} {span : TerminalPreviewSpan} {text : List Char}
  {style : TerminalStyle} {chars : List (Char × TerminalStyle)}

@[simp] theorem styled_append (a b : TerminalPreviewLine) :
    styled (a ++ b) = styled a ++ styled b :=
  List.flatMap_append

@[simp] theorem styled_singleton (span : TerminalPreviewSpan) :
    styled [span] = span.text.map fun c => (c, span.style) := List.flatMap_singleton _ span

theorem ofStyled_concat (chars : List (Char × TerminalStyle)) (c : Char × TerminalStyle) :
    ofStyled (chars ++ [c]) = appendPreviewSpan (ofStyled chars) [c.1] c.2 := by
  rw [ofStyled, List.foldl_append]
  rfl

theorem appendPreviewSpan_concat (line : TerminalPreviewLine) (span : TerminalPreviewSpan)
    (text : List Char)
    (style : TerminalStyle) : appendPreviewSpan (line ++ [span]) text style
      = if span.style = style then line ++ [⟨span.text ++ text, style⟩]
        else line ++ [span, ⟨text, style⟩] := by
  rw [appendPreviewSpan, List.getLast?_concat, List.dropLast_concat, List.append_assoc]
  rfl

theorem styled_appendPreviewSpan (line : TerminalPreviewLine) (text : List Char)
    (style : TerminalStyle) :
    styled (appendPreviewSpan line text style) = styled line ++ text.map fun c => (c, style) := by
  rcases List.eq_nil_or_concat' line with rfl | ⟨front, span, rfl⟩
  · exact styled_singleton _
  · rw [appendPreviewSpan_concat]
    split
    next hstyle =>
        rw [styled_append, styled_append, styled_singleton, styled_singleton, List.map_append,
          ← hstyle,
          List.append_assoc]
    next => rw [List.append_cons, styled_append, styled_singleton]

theorem Merged.appendPreviewSpan (h : Merged line) (htext : text ≠ []) (style : TerminalStyle) :
    Merged (appendPreviewSpan line text style) := by
  rcases List.eq_nil_or_concat' line with rfl | ⟨front, span, rfl⟩
  · exact ⟨fun span hspan => by rw [List.mem_singleton.mp hspan]; exact htext,
      List.isChain_singleton _⟩
  · have hstyles := h.styles
    rw [appendPreviewSpan_concat]
    split
    next hstyle =>
        refine ⟨fun other hother => ?_, ?_⟩
        · rcases List.mem_append.mp hother with hother | hother
          · exact h.texts other (List.mem_append_left _ hother)
          · rw [List.mem_singleton.mp hother]
            exact fun he => htext (List.append_eq_nil_iff.mp he).2
        · rw [List.map_append] at hstyles ⊢
          rw [← hstyle]
          exact hstyles
    next hstyle =>
        refine ⟨fun other hother => ?_, ?_⟩
        · rw [List.append_cons] at hother
          rcases List.mem_append.mp hother with hother | hother
          · exact h.texts other hother
          · rw [List.mem_singleton.mp hother]
            exact htext
        · rw [List.append_cons, List.map_append, List.isChain_append]
          refine ⟨hstyles, List.isChain_singleton _, fun a ha b hb => ?_⟩
          rw [List.map_append, List.map_singleton, List.getLast?_concat, Option.mem_some_iff] at ha
          rw [List.map_singleton, List.head?_cons, Option.mem_some_iff] at hb
          rw [← ha, ← hb]
          exact hstyle

theorem styled_ofStyled (chars : List (Char × TerminalStyle)) :
    styled (ofStyled chars) = chars := by
  induction chars using List.reverseRecOn with
  | nil => rfl
  | append_singleton chars c ih =>
      rw [ofStyled_concat, styled_appendPreviewSpan, ih, List.map_singleton]

theorem merged_ofStyled (chars : List (Char × TerminalStyle)) : Merged (ofStyled chars) := by
  induction chars using List.reverseRecOn with
  | nil => exact ⟨fun _ h => absurd h List.not_mem_nil, List.isChain_nil⟩
  | append_singleton chars c ih =>
      rw [ofStyled_concat]
      exact ih.appendPreviewSpan (List.cons_ne_nil _ _) c.2

/-- Characters of one style can be appended together. -/
theorem appendPreviewSpan_ofStyled (chars : List (Char × TerminalStyle)) (htext : text ≠ [])
    (style : TerminalStyle) :
    appendPreviewSpan (ofStyled chars) text style = ofStyled (chars ++ text.map fun c =>
      (c, style)) := by
  induction text using List.reverseRecOn with
  | nil => exact absurd rfl htext
  | append_singleton text c ih =>
      rcases eq_or_ne text [] with rfl | hnil
      · exact (ofStyled_concat chars (c, style)).symm
      · rw [List.map_append, ← List.append_assoc, List.map_singleton, ofStyled_concat, ← ih hnil]
        rcases List.eq_nil_or_concat' (ofStyled chars) with hline | ⟨front, span, hline⟩
        · rw [hline]
          simp [appendPreviewSpan]
        · rw [hline, appendPreviewSpan_concat, appendPreviewSpan_concat]
          split
          · rw [appendPreviewSpan_concat, if_pos rfl, List.append_assoc]
          · rw [List.append_cons front span [⟨text, style⟩], appendPreviewSpan_concat, if_pos rfl,
              ← List.append_cons]

/-- A line can be appended span by span. -/
theorem foldl_appendPreviewSpan (chars : List (Char × TerminalStyle))
    (h : ∀ span ∈ line, span.text ≠ []) :
    line.foldl (fun line span => appendPreviewSpan line span.text span.style) (ofStyled chars)
      = ofStyled (chars ++ styled line) := by
  induction line generalizing chars with
  | nil => rw [List.foldl_nil, show styled [] = [] from rfl, List.append_nil]
  | cons span line ih =>
      rw [List.foldl_cons, appendPreviewSpan_ofStyled chars (h span List.mem_cons_self),
        ih _ fun other hother => h other (List.mem_cons_of_mem _ hother), List.append_assoc]
      rfl

/-- A merged line is the one that its characters make up. -/
theorem Merged.ofStyled_styled (h : Merged line) : ofStyled (styled line) = line := by
  have hfold := foldl_appendPreviewSpan [] h.texts
  rw [List.nil_append] at hfold
  rw [← hfold]
  clear hfold
  induction line using List.reverseRecOn with
  | nil => rfl
  | append_singleton line span ih =>
      have hstyles := h.styles
      rw [List.map_append, List.isChain_append] at hstyles
      have hfront := ih ⟨fun other hother => h.texts other (List.mem_append_left _ hother),
        hstyles.1⟩
      rw [List.foldl_append, hfront, List.foldl_cons, List.foldl_nil]
      rcases List.eq_nil_or_concat' line with rfl | ⟨front, last, rfl⟩
      · rfl
      · have hne : last.style ≠ span.style := by
          refine hstyles.2.2 last.style ?_ span.style rfl
          rw [List.map_append, List.map_singleton, List.getLast?_concat, Option.mem_some_iff]
        rw [appendPreviewSpan_concat, if_neg hne, List.append_assoc]
        rfl

/-! ## The end of a line -/

/-- The bytes of characters. -/
def charBytes (chars : List (Char × TerminalStyle)) : Nat := byteLen (chars.map Prod.fst)

@[simp] theorem charBytes_append (a b : List (Char × TerminalStyle)) :
    charBytes (a ++ b) = charBytes a + charBytes b := by
  rw [charBytes, List.map_append, byteLen_append]
  rfl

@[simp] theorem charBytes_map (text : List Char) (style : TerminalStyle) :
    charBytes (text.map fun c => (c, style)) = byteLen text := by
  rw [charBytes, List.map_map]
  exact congrArg byteLen (List.map_id text)

theorem charBytes_styled (line : TerminalPreviewLine) :
    charBytes (styled line) = lineBytes line := by
  induction line with
  | nil => rfl
  | cons span line ih =>
      rw [← List.singleton_append, styled_append, charBytes_append, ih, styled_singleton,
        charBytes_map]
      rfl

/-- A suffix of two lists after each other is one of the second, or goes into the first. -/
theorem suffix_append_iff {α : Type} {t a b : List α} :
    t <:+ a ++ b ↔ t <:+ b ∨ ∃ front, t = front ++ b ∧ front <:+ a := by
  constructor
  · intro h
    rcases List.suffix_or_suffix_of_suffix h (List.suffix_append a b) with hb | ⟨front, rfl⟩
    · exact Or.inl hb
    · obtain ⟨before, hbefore⟩ := h
      rw [← List.append_assoc] at hbefore
      exact Or.inr ⟨front, rfl, before, List.append_cancel_right hbefore⟩
  · rintro (h | ⟨front, rfl, before, rfl⟩)
    · exact h.trans (List.suffix_append a b)
    · exact ⟨before, (List.append_assoc before front b).symm⟩

/-- A suffix of the characters of a line that is shorter by spans lies behind as many of them. -/
theorem Merged.suffix_drop (h : Merged line) (hchars : chars <:+ styled line) :
    chars <:+ styled (line.drop (line.length - (ofStyled chars).length)) := by
  induction line with
  | nil =>
      rw [List.drop_nil]
      exact hchars
  | cons span line ih =>
      have hline : Merged line :=
        ⟨fun other hother => h.texts other (List.mem_cons_of_mem _ hother),
          (List.isChain_cons.mp h.styles).2⟩
      rw [← List.singleton_append, styled_append, styled_singleton, suffix_append_iff] at hchars
      rcases hchars with hchars | ⟨front, rfl, hfront⟩
      · have hlater := ih hline hchars
        rcases Nat.lt_or_ge line.length (ofStyled chars).length with hlong | hshort
        · rw [List.length_cons, show line.length + 1 - (ofStyled chars).length = 0 by omega,
            List.drop_zero]
          exact hchars.trans ⟨_, (styled_append [span] line).symm⟩
        · rw [List.length_cons, Nat.sub_add_comm hshort, List.drop_succ_cons]
          exact hlater
      · rcases eq_or_ne front [] with rfl | hne
        · rw [List.nil_append, hline.ofStyled_styled, List.length_cons, Nat.add_sub_cancel_left,
            List.drop_succ_cons,
            List.drop_zero]
        · -- The first span goes on into the suffix, which has as many spans as the line then.
          obtain ⟨before, hbefore⟩ := hfront
          obtain ⟨_, text, htext, rfl, rfl⟩ := List.map_eq_append_iff.mp hbefore.symm
          have hother : Merged (⟨text, span.style⟩ :: line) := by
            refine ⟨fun other hother => ?_, h.styles⟩
            rcases List.mem_cons.mp hother with rfl | hother
            · exact fun he => hne (by rw [show text = [] from he, List.map_nil])
            · exact hline.texts other hother
          have hsame := hother.ofStyled_styled
          rw [← List.singleton_append, styled_append, styled_singleton,
            List.singleton_append] at hsame
          rw [hsame, List.length_cons, List.length_cons, Nat.sub_self, List.drop_zero,
            ← List.singleton_append,
            styled_append, styled_singleton, htext, List.map_append, List.append_assoc]
          exact List.suffix_append _ _

/-- The loop over the spans takes the longest suffix with so many bytes. -/
theorem boundSpans_spec {remaining : Nat} {spans : List TerminalPreviewSpan}
    (h : ∀ span ∈ spans, span.text ≠ []) :
    let bounded := (boundSpans remaining spans).reverse
    styled bounded <:+ styled spans.reverse ∧ charBytes (styled bounded) ≤ remaining
      ∧ (∀ chars, chars <:+ styled spans.reverse → charBytes chars ≤ remaining →
        chars <:+ styled bounded)
      ∧ (∀ span ∈ bounded, span.text ≠ [])
        ∧ bounded.map (·.style) <:+ spans.reverse.map (·.style) := by
  induction spans generalizing remaining with
  | nil =>
      exact ⟨List.suffix_refl _, Nat.zero_le _, fun _ h _ => h, fun _ h =>
        absurd h List.not_mem_nil,
        List.suffix_refl _⟩
  | cons span spans ih =>
      dsimp only
      rw [boundSpans]
      split
      -- There is no room for another character.
      next hzero =>
          refine ⟨List.nil_suffix, Nat.zero_le _, fun chars _ hbytes => ?_,
            fun _ h => absurd h List.not_mem_nil, List.nil_suffix⟩
          rw [hzero, Nat.le_zero, charBytes, byteLen_eq_zero, List.map_eq_nil_iff] at hbytes
          rw [hbytes]
          exact List.nil_suffix
      next =>
          obtain ⟨⟨hsuffix, hle, hlongest⟩, hstart⟩ := newestBytes_spec span.text remaining
          generalize newestBytes span.text remaining = cut at *
          obtain ⟨start, text⟩ := cut
          dsimp only at *
          have htexts : ∀ span ∈ spans, span.text ≠ [] :=
            fun other hother => h other (List.mem_cons_of_mem _ hother)
          have hchars {text : List Char} (h : text <:+ span.text) :
              (text.map fun c => (c, span.style)) <:+ span.text.map fun c => (c, span.style) :=
                h.map _
          rw [List.reverse_cons, styled_append, styled_singleton, List.map_append,
            List.map_singleton]
          by_cases hzero : start = 0
          · -- The whole span fits, and the loop goes on with what remains.
            have hwhole := hlongest span.text (List.suffix_refl _) (by omega)
            obtain rfl : text = span.text := hsuffix.eq_of_length_le hwhole.length_le
            obtain ⟨hsuffix', hle', hlongest', htexts', hstyles'⟩ :=
              @ih (remaining - byteLen span.text) htexts
            have hne := h span List.mem_cons_self
            rw [if_neg (by simpa using hne), if_neg (by simpa using hzero), List.reverse_cons,
              styled_append,
              styled_singleton, List.map_append, List.map_singleton, charBytes_append,
                charBytes_map]
            dsimp only
            refine ⟨suffix_append_iff.mpr (Or.inr ⟨_, rfl, hsuffix'⟩), by omega,
              fun chars ht hbytes => ?_, ?_,
              suffix_append_iff.mpr (Or.inr ⟨_, rfl, hstyles'⟩)⟩
            · rcases suffix_append_iff.mp ht with ht | ⟨front, rfl, hfront⟩
              · exact ht.trans (List.suffix_append _ _)
              · rw [charBytes_append, charBytes_map] at hbytes
                exact suffix_append_iff.mpr (Or.inr ⟨front, rfl, hlongest' front hfront (by omega)⟩)
            · rw [List.forall_mem_append, List.forall_mem_singleton]
              exact ⟨htexts', hne⟩
          · -- Only the end of the span fits.
            rw [if_pos hzero]
            have hshown : styled (if text.isEmpty then [] else [⟨text, span.style⟩]).reverse
                = text.map fun c => (c, span.style) := by
              split
              next hempty =>
                  rw [List.isEmpty_iff.mp hempty]
                  rfl
              next => exact styled_singleton _
            rw [hshown, charBytes_map]
            refine ⟨(hchars hsuffix).trans (List.suffix_append _ _), hle, fun chars ht hbytes => ?_,
              ?_, ?_⟩
            · rcases suffix_append_iff.mp ht with ⟨before, hbefore⟩ | ⟨front, rfl, -⟩
              · obtain ⟨before, text', htext', rfl, rfl⟩ := List.map_eq_append_iff.mp hbefore.symm
                rw [charBytes_map] at hbytes
                exact (hlongest text' ⟨before, htext'.symm⟩ hbytes).map _
              · rw [charBytes_append, charBytes_map] at hbytes
                have hwhole := byteLen_le_of_suffix (hlongest span.text (List.suffix_refl _)
                  (by omega))
                omega
            · intro other hother
              split at hother
              next => exact absurd hother List.not_mem_nil
              next hempty =>
                  rw [List.mem_singleton.mp hother]
                  exact fun he => hempty (List.isEmpty_iff.mpr he)
            · split
              · exact List.nil_suffix
              · exact List.suffix_append _ _

/-! ## The lines that are shown -/

/-- The lines are within the limits. -/
structure Limits.Fit (limits : Limits) (lines : List TerminalPreviewLine) : Prop where
  count : lines.length ≤ limits.maxLines
  bytes : (lines.map lineBytes).sum ≤ limits.maxBytes
  spans : (lines.map List.length).sum ≤ limits.maxSpans

/-- The longest end of a line within the limits. -/
structure Limits.End (limits : Limits) (line cut : TerminalPreviewLine) : Prop where
  merged : Merged cut
  suffix : styled cut <:+ styled line
  bytes : lineBytes cut ≤ limits.maxBytes
  spans : cut.length ≤ limits.maxSpans
  longest : ∀ other, Merged other → styled other <:+ styled line →
    lineBytes other ≤ limits.maxBytes →
    other.length ≤ limits.maxSpans → styled other <:+ styled cut

/-- What is shown of lines, the newest first: as many as are within the limits, or the end of the
newest line if it alone is not within them. -/
inductive Limits.Shows (limits : Limits) : List TerminalPreviewLine → List TerminalPreviewLine →
    Prop
  | whole {lines shown : List TerminalPreviewLine}
      (first : ∀ line ∈ lines.head?, 0 < limits.maxLines → limits.Fit [line])
      (newest : shown <+: lines) (fit : limits.Fit shown)
      (longest : ∀ other, other <+: lines → limits.Fit other → other <+: shown) :
        limits.Shows lines shown
  | cut {line cut : TerminalPreviewLine} {older : List TerminalPreviewLine}
      (long : ¬ limits.Fit [line])
      (some : 0 < limits.maxLines) (newest : limits.End line cut) :
      limits.Shows (line :: older) (if cut.isEmpty then [] else [cut])

theorem Limits.Fit.of_prefix {limits : Limits} {a b : List TerminalPreviewLine} (h : limits.Fit b)
    (hfront : a <+: b) :
    limits.Fit a := by
  obtain ⟨rest, rfl⟩ := hfront
  have hcount := h.count
  have hbytes := h.bytes
  have hspans := h.spans
  simp only [List.length_append, List.map_append, List.sum_append] at hcount hbytes hspans
  exact ⟨by omega, by omega, by omega⟩

theorem boundLine_spec (h : Merged line) : limits.End line (boundLine limits line) := by
  have hdrop : (line.reverse.take limits.maxSpans).reverse = line.drop
      (line.length - limits.maxSpans) := by
    rw [List.take_reverse, List.reverse_reverse]
  have htexts : ∀ span ∈ line.reverse.take limits.maxSpans, span.text ≠ [] :=
    fun span hspan => h.texts span (List.mem_reverse.mp (List.mem_of_mem_take hspan))
  obtain ⟨hsuffix, hbytes, hlongest, hshown, hstyles⟩ := @boundSpans_spec limits.maxBytes _ htexts
  have hlast : line.drop (line.length - limits.maxSpans) <:+ line := List.drop_suffix _ _
  have hstyled {n : Nat} : styled (line.drop n) <:+ styled line :=
    ⟨styled (line.take n), by rw [← styled_append, List.take_append_drop]⟩
  rw [hdrop] at hsuffix hlongest hstyles
  refine ⟨⟨hshown, ?_⟩, hsuffix.trans hstyled, ?_, ?_, ?_⟩
  · exact h.styles.suffix (hstyles.trans (hlast.map _))
  · rw [← charBytes_styled]
    exact hbytes
  · have hlength := hstyles.length_le
    rw [List.length_map, List.length_map, List.length_drop] at hlength
    exact hlength.trans (by omega)
  · intro other hother hsuffix' hbytes' hspans'
    refine hlongest _ ?_ (by rw [charBytes_styled]; exact hbytes')
    have hend := h.suffix_drop hsuffix'
    rw [hother.ofStyled_styled] at hend
    refine hend.trans ⟨styled ((line.drop (line.length - limits.maxSpans)).take
      (line.length - other.length - (line.length - limits.maxSpans))), ?_⟩
    rw [← styled_append]
    have htake := List.take_append_drop
      (line.length - other.length - (line.length - limits.maxSpans))
      (line.drop (line.length - limits.maxSpans))
    rw [List.drop_drop, show line.length - limits.maxSpans
      + (line.length - other.length - (line.length - limits.maxSpans)) =
        line.length - other.length by omega] at htake
    rw [htake]

/-! ## Taking lines -/

theorem untilDone_append {α σ : Type} (f : σ → α → Bool × σ) (a b : List α) (state : σ) :
    untilDone f (a ++ b) state
      = if (untilDone f a state).1 then untilDone f a state
        else untilDone f b (untilDone f a state).2 := by
  induction a generalizing state with
  | nil => rfl
  | cons first a ih =>
      rw [List.cons_append, untilDone, untilDone]
      split
      next => rfl
      next => exact ih _

theorem untilDone_singleton {α σ : Type} (f : σ → α → Bool × σ) (a : α) (state : σ) :
    untilDone f [a] state = f state a := by
  rw [untilDone]
  split
  next hdone => exact Prod.ext hdone.symm rfl
  next hdone => exact Prod.ext (Bool.eq_false_iff.mpr hdone).symm rfl

variable {sel : Selection} {lines shown : List TerminalPreviewLine}

/-- What the selected lines amount to. -/
structure Selection.Sums (sel : Selection) : Prop where
  bytes : sel.bytes = (sel.selected.map lineBytes).sum
  spans : sel.spans = (sel.selected.map List.length).sum

/-- The line is within the limits after the lines that are selected, but for their number. -/
def Selection.Room (sel : Selection) (limits : Limits) (line : TerminalPreviewLine) : Prop :=
  sel.bytes + lineBytes line ≤ limits.maxBytes ∧ sel.spans + line.length ≤ limits.maxSpans

theorem Selection.Sums.fit_iff (h : sel.Sums) (hlines : sel.selected.length < limits.maxLines) :
    limits.Fit (sel.selected ++ [line]) ↔ sel.Room limits line := by
  have hsums : ((sel.selected ++ [line]).map lineBytes).sum = sel.bytes + lineBytes line
      ∧ ((sel.selected ++ [line]).map List.length).sum = sel.spans + line.length := by
    rw [List.map_append, List.sum_append, List.map_append, List.sum_append, h.bytes, h.spans]
    exact ⟨rfl, rfl⟩
  constructor
  · intro hfit
    exact ⟨hsums.1 ▸ hfit.bytes, hsums.2 ▸ hfit.spans⟩
  · intro hroom
    refine ⟨?_, hsums.1 ▸ hroom.1, hsums.2 ▸ hroom.2⟩
    rw [List.length_append, List.length_singleton]
    exact hlines

theorem pushPreviewLine_room (hroom : sel.Room limits line) : pushPreviewLine limits sel line
    = (decide (sel.selected.length + 1 ≥ limits.maxLines),
      { sel with
        selected := sel.selected ++ [line]
        bytes := sel.bytes + lineBytes line
        spans := sel.spans + line.length }) := by
  have hfits : (decide (sel.bytes + lineBytes line > limits.maxBytes)
        || decide (sel.spans + line.length > limits.maxSpans))
      = false := by
    rw [Bool.or_eq_false_iff, decide_eq_false_iff_not, decide_eq_false_iff_not]
    exact ⟨Nat.not_lt.mpr hroom.1, Nat.not_lt.mpr hroom.2⟩
  unfold pushPreviewLine
  rw [hfits]
  simp

/-- A line without room is not taken after others, and of the first one its end is. -/
theorem pushPreviewLine_full (hroom : ¬ sel.Room limits line) :
    (pushPreviewLine limits sel line).1 = true
    ∧ (pushPreviewLine limits sel line).2.selected = if sel.selected = [] then
        if (boundLine limits line).isEmpty then [] else [boundLine limits line]
          else sel.selected := by
  have hlong : (decide (sel.bytes + lineBytes line > limits.maxBytes)
        || decide (sel.spans + line.length > limits.maxSpans))
      = true := by
    rw [Bool.or_eq_true, decide_eq_true_iff, decide_eq_true_iff]
    by_contra hnot
    rw [not_or, Nat.not_lt, Nat.not_lt] at hnot
    exact hroom hnot
  unfold pushPreviewLine
  rw [hlong]
  by_cases hnil : sel.selected = []
  · by_cases hempty : (boundLine limits line).isEmpty = true
    · simp [hnil, hempty]
    · simp [hnil, hempty]
  · simp [hnil]

/-- Lines are taken as long as they are within the limits, once there is one. -/
theorem untilDone_push (hsums : sel.Sums) (hlines : sel.selected.length < limits.maxLines)
    (hfit : limits.Fit sel.selected) (hfirst : sel.selected = [] → ∀ line ∈ lines.head?,
      sel.Room limits line) :
    ∃ taken, (untilDone (pushPreviewLine limits) lines sel).2.selected = sel.selected ++ taken
      ∧ taken <+: lines
      ∧ limits.Fit (sel.selected ++ taken)
      ∧ ∀ other, other <+: lines → limits.Fit (sel.selected ++ other) → other <+: taken := by
  induction lines generalizing sel with
  | nil =>
      rw [← List.append_nil sel.selected] at hfit
      exact ⟨[], (List.append_nil _).symm, List.prefix_refl _, hfit, fun _ h _ => h⟩
  | cons line lines ih =>
      rw [untilDone]
      by_cases hroom : sel.Room limits line
      · have hfit' := (hsums.fit_iff hlines).mpr hroom
        -- The line fits.
        rw [pushPreviewLine_room hroom]
        dsimp only
        by_cases hdone : sel.selected.length + 1 ≥ limits.maxLines
        -- It is the last one that the count allows.
        · rw [if_pos (decide_eq_true hdone)]
          refine ⟨[line], rfl, ⟨lines, rfl⟩, hfit', fun other hother hfits => ?_⟩
          have hcount := hfits.count
          rw [List.length_append] at hcount
          exact List.prefix_of_prefix_length_le hother ⟨lines, rfl⟩
            (by rw [List.length_singleton]; omega)
        · rw [if_neg (by rw [decide_eq_true_iff]; exact hdone)]
          obtain ⟨taken, hselected, hfront, hfits, hlongest⟩ := @ih
            { sel with
              selected := sel.selected ++ [line]
              bytes := sel.bytes + lineBytes line
              spans := sel.spans + line.length }
            ⟨by rw [hsums.bytes]; simp, by rw [hsums.spans]; simp⟩ (by simpa using hdone) hfit'
              (by simp)
          rw [List.append_assoc, List.singleton_append] at hselected hfits
          refine ⟨line :: taken, hselected, List.cons_prefix_cons.mpr ⟨rfl, hfront⟩, hfits,
            fun other hother hfit'' => ?_⟩
          cases other with
          | nil => exact List.nil_prefix
          -- A longer selection begins with this line as well.
          | cons first other =>
              obtain ⟨rfl, hrest⟩ := List.cons_prefix_cons.mp hother
              refine List.cons_prefix_cons.mpr ⟨rfl, hlongest other hrest ?_⟩
              rw [List.append_assoc, List.singleton_append]
              exact hfit''
      -- The line does not fit, and it is not the first.
      · obtain ⟨hdone, hselected⟩ := pushPreviewLine_full hroom
        have hsome : sel.selected ≠ [] := fun hnil => hroom (hfirst hnil line rfl)
        rw [if_pos hdone, hselected, if_neg hsome]
        rw [← List.append_nil sel.selected] at hfit
        refine ⟨[], (List.append_nil _).symm, List.nil_prefix, hfit, fun other hother hfits => ?_⟩
        cases other with
        | nil => exact List.nil_prefix
        | cons first other =>
            obtain ⟨rfl, -⟩ := List.cons_prefix_cons.mp hother
            refine absurd ((hsums.fit_iff hlines).mp (hfits.of_prefix ?_)) hroom
            exact ⟨other, by rw [List.append_assoc]; rfl⟩

theorem shows_push (hmax : 0 < limits.maxLines) (hsums : sel.Sums) (hnone : sel.selected = [])
    (hmerged : ∀ line ∈ lines, Merged line) :
    limits.Shows lines (untilDone (pushPreviewLine limits) lines sel).2.selected := by
  have hlines : sel.selected.length < limits.maxLines := by
    rw [hnone]
    exact hmax
  have hfirst {line : TerminalPreviewLine} : limits.Fit [line] ↔ sel.Room limits line := by
    rw [← hsums.fit_iff hlines, hnone, List.nil_append]
  by_cases hroom : ∀ line ∈ lines.head?, sel.Room limits line
  · have hfit : limits.Fit sel.selected := by
      rw [hnone]
      exact ⟨Nat.zero_le _, Nat.zero_le _, Nat.zero_le _⟩
    obtain ⟨taken, hselected, hfront, hfit, hlongest⟩ :=
      @untilDone_push limits sel lines hsums hlines hfit fun _ => hroom
    rw [hnone, List.nil_append] at hselected hfit
    rw [hselected]
    refine .whole (fun line hline _ => hfirst.mpr (hroom line hline)) hfront hfit
      fun other hother hfits => ?_
    exact hlongest other hother (by rw [hnone]; exact hfits)
  · push Not at hroom
    obtain ⟨line, hline, hroom⟩ := hroom
    obtain ⟨older, rfl⟩ := List.head?_eq_some_iff.mp hline
    obtain ⟨hdone, hselected⟩ := pushPreviewLine_full hroom
    rw [untilDone, if_pos hdone, hselected, if_pos hnone]
    exact .cut (fun hfit => hroom (hfirst.mp hfit)) hmax
      (boundLine_spec (hmerged line List.mem_cons_self))

/-! ## Blank lines -/

/-- The lines, the newest first, without the blank ones at both ends. -/
def trimmed (lines : List TerminalPreviewLine) : List TerminalPreviewLine :=
  (lines.dropWhile previewLineIsBlank).rdropWhile previewLineIsBlank

theorem rdropWhile_append_cons {α : Type} {p : α → Bool} {x : α} (hx : p x = false) (a b : List α) :
    (a ++ x :: b).rdropWhile p = a ++ x :: b.rdropWhile p := by
  induction b using List.reverseRecOn with
  | nil => rw [List.rdropWhile_concat_neg _ _ _ (by rw [hx]; decide), List.rdropWhile_nil]
  | append_singleton b y ih =>
      rw [← List.cons_append, ← List.append_assoc, List.rdropWhile_concat, List.rdropWhile_concat]
      split
      next => exact ih
      next => rw [List.append_assoc, List.cons_append]

/-- Taking lines does not touch what is kept back. -/
theorem untilDone_push_keeps (lines : List TerminalPreviewLine) (sel : Selection) :
    (untilDone (pushPreviewLine limits) lines sel).2.pendingBlanks = sel.pendingBlanks
      ∧ (untilDone (pushPreviewLine limits) lines sel).2.sawContent = sel.sawContent := by
  induction lines generalizing sel with
  | nil => exact ⟨rfl, rfl⟩
  | cons line lines ih =>
      have hpush : (pushPreviewLine limits sel line).2.pendingBlanks = sel.pendingBlanks
          ∧ (pushPreviewLine limits sel line).2.sawContent = sel.sawContent := by
        unfold pushPreviewLine
        dsimp only
        split_ifs <;> exact ⟨rfl, rfl⟩
      rw [untilDone]
      split
      next => exact hpush
      next => exact ⟨(ih _).1.trans hpush.1, (ih _).2.trans hpush.2⟩

/-- A line with text is taken after the blank ones that were kept back. -/
theorem selectPreviewLine_content (hline : previewLineIsBlank line = false) (sel : Selection) :
    selectPreviewLine limits sel line = untilDone (pushPreviewLine limits)
      (sel.pendingBlanks ++ [line])
      { sel with sawContent := true, pendingBlanks := [] } := by
  unfold selectPreviewLine
  rw [hline, untilDone_append, untilDone_singleton]
  simp only [Bool.and_false, Bool.false_eq_true, if_false]
  split
  next hdone => exact Prod.ext hdone.symm rfl
  next => rfl

theorem selectPreviewLine_blank (hline : previewLineIsBlank line = true) (sel : Selection) :
    selectPreviewLine limits sel line = (false,
      if sel.sawContent then { sel with pendingBlanks := sel.pendingBlanks ++ [line] }
        else sel) := by
  unfold selectPreviewLine
  rw [hline]
  cases sel.sawContent <;> rfl

/-- After a line with text, the blank lines at the end are left out. -/
theorem untilDone_select (hsaw : sel.sawContent = true)
    (hblank : ∀ line ∈ sel.pendingBlanks, previewLineIsBlank line = true) :
    (untilDone (selectPreviewLine limits) lines sel).2.selected
      = (untilDone (pushPreviewLine limits)
        ((sel.pendingBlanks ++ lines).rdropWhile previewLineIsBlank)
        { sel with pendingBlanks := [] }).2.selected := by
  induction lines generalizing sel with
  | nil =>
      rw [List.append_nil, List.rdropWhile_eq_nil_iff.mpr hblank]
      rfl
  | cons line lines ih =>
      rw [untilDone]
      cases hline : previewLineIsBlank line with
      | true =>
          have hblank' : ∀ other ∈ sel.pendingBlanks ++ [line],
              previewLineIsBlank other = true := by
            rw [List.forall_mem_append, List.forall_mem_singleton]
            exact ⟨hblank, hline⟩
          have hlater := @ih { sel with pendingBlanks := sel.pendingBlanks ++ [line] } hsaw hblank'
          rw [List.append_assoc, List.singleton_append] at hlater
          rw [selectPreviewLine_blank hline, if_pos hsaw]
          exact hlater
      | false =>
          have hkeeps := @untilDone_push_keeps limits
            (sel.pendingBlanks ++ [line]) { sel with pendingBlanks := [] }
          have hstate : ({ sel with sawContent := true, pendingBlanks := [] } : Selection)
              = { sel with pendingBlanks := [] } := by rw [← hsaw]
          have happend := untilDone_append (pushPreviewLine limits) (sel.pendingBlanks ++ [line])
            (lines.rdropWhile previewLineIsBlank) { sel with pendingBlanks := [] }
          rw [List.append_assoc, List.singleton_append] at happend
          rw [selectPreviewLine_content hline, rdropWhile_append_cons hline, hstate, happend]
          clear happend
          generalize untilDone (pushPreviewLine limits) (sel.pendingBlanks ++ [line])
            { sel with pendingBlanks := [] } = pushed at *
          split
          next => rfl
          next =>
              have hlater := @ih pushed.2 (hkeeps.2.trans hsaw)
                (by rw [hkeeps.1]; exact fun _ h => absurd h List.not_mem_nil)
              rw [hkeeps.1, List.nil_append] at hlater
              rw [hlater, ← show pushed.2.pendingBlanks = [] from hkeeps.1]

/-- Of the lines without the blank ones at both ends, the newest ones are shown. -/
theorem shows_select (hmax : 0 < limits.maxLines) (hmerged : ∀ line ∈ lines, Merged line) :
    limits.Shows (trimmed lines)
      (untilDone (selectPreviewLine limits) lines .start).2.selected := by
  have htrimmed : ∀ line ∈ trimmed lines, Merged line := fun line hline =>
    hmerged line ((List.dropWhile_suffix _).mem ((List.rdropWhile_prefix _ _).mem hline))
  induction lines with
  | nil => exact @shows_push limits .start [] hmax ⟨rfl, rfl⟩ rfl htrimmed
  | cons line lines ih =>
      cases hline : previewLineIsBlank line with
      | true =>
          rw [trimmed, List.dropWhile_cons_of_pos hline] at htrimmed ⊢
          rw [untilDone, selectPreviewLine_blank hline]
          exact ih (fun other hother => hmerged other (List.mem_cons_of_mem _ hother)) htrimmed
      | false =>
          have hselect := @untilDone_select limits { Selection.start with sawContent := true }
            (line :: lines) rfl
            fun _ h => absurd h List.not_mem_nil
          rw [trimmed, List.dropWhile_cons_of_neg (by rw [hline]; decide)] at htrimmed ⊢
          rw [untilDone, selectPreviewLine_content hline] at hselect ⊢
          refine Eq.subst hselect.symm ?_
          exact shows_push hmax ⟨rfl, rfl⟩ rfl htrimmed

/-! ## Logical lines -/

/-- The last column of a row that is read: all of a wrapped row, or up to the last cell that shows
anything. -/
def Row.lastCol (cols : Nat) (row : Row) : Option Nat :=
  if row.wrapped then if cols = 0 then none else some (cols - 1)
  else (List.range cols).reverse.find? fun col =>
    row.cells[col]?.any fun cell => cell.hasContents || cell.style ≠ .plain

/-- The characters of a cell. -/
def cellStyled : Option Cell → List (Char × TerminalStyle)
  | none => []
  | some cell =>
      if cell.isWideContinuation then []
      else (if cell.hasContents then cell.contents else [' ']).map fun c => (c, cell.style)

/-- The characters of a row. -/
def Row.styled (cols : Nat) (row : Row) : List (Char × TerminalStyle) :=
  match row.lastCol cols with
  | none => []
  | some last => (List.range (last + 1)).flatMap fun col => cellStyled row.cells[col]?

/-- The line that a row goes on in, if it is wrapped, and the other lines. -/
def opened {α : Type} : Bool → List (List α) → List α × List (List α)
  | true, line :: lines => (line, lines)
  | _, lines => ([], lines)

@[simp] theorem opened_nil {α : Type} (wrapping : Bool) :
    opened wrapping ([] : List (List α)) = ([], []) := by
  cases wrapping <;> rfl

@[simp] theorem opened_false {α : Type} (lines : List (List α)) :
    opened false lines = ([], lines) := rfl

/-- The characters of the logical lines of rows: a wrapped row goes on in the next one. -/
def logicalLines (cols : Nat) : List Row → List (List (Char × TerminalStyle))
  | [] => []
  | row :: rows =>
      let (line, lines) := opened row.wrapped (logicalLines cols rows)
      (row.styled cols ++ line) :: lines

/-- The logical lines of a screen and its scrollback, the newest first. -/
def Screen.newestLines (screen : Screen) : List TerminalPreviewLine :=
  (logicalLines screen.cols (screen.scrollbackRows ++ screen.rows)).reverse.map ofStyled

variable {screen : Screen} {row : Row} {rows older newer : List Row} {cols : Nat} {wrapping : Bool}

theorem appendPreviewCells (cells : Nat → Option Cell) (list : List Nat)
    (chars : List (Char × TerminalStyle)) :
    list.foldl (appendPreviewCell cells) (ofStyled chars)
      = ofStyled (chars ++ list.flatMap fun col => cellStyled (cells col)) := by
  induction list generalizing chars with
  | nil => rw [List.flatMap_nil, List.append_nil, List.foldl_nil]
  | cons col list ih =>
      rw [List.foldl_cons, List.flatMap_cons, ← List.append_assoc, ← ih]
      congr 1
      unfold appendPreviewCell cellStyled
      cases cells col with
      | none => rw [List.append_nil]
      | some cell =>
          dsimp only
          split
          next => rw [List.append_nil]
          next =>
              refine appendPreviewSpan_ofStyled chars ?_ cell.style
              split
              next hcontents =>
                  rw [Cell.hasContents, Bool.not_eq_true', List.isEmpty_eq_false_iff] at hcontents
                  exact hcontents
              next => exact List.cons_ne_nil _ _

/-- A row that is shown is put before the characters that were read. -/
theorem prependPreviewRow_eq {index : Nat} (h : screen.visibleRows[index]? = some row)
    (chars : List (Char × TerminalStyle)) :
    prependPreviewRow (ofStyled chars) screen index = ofStyled
      (row.styled screen.cols ++ chars) := by
  have hcells : screen.cell index = (row.cells[·]?) := by
    funext col
    rw [Screen.cell, h]
    rfl
  have hlast : lastCol screen index = row.lastCol screen.cols := by
    rw [lastCol, rowWrapped_eq h, hcells]
    rfl
  have hrow : appendPreviewRowContents [] screen index = ofStyled (row.styled screen.cols) := by
    unfold appendPreviewRowContents Row.styled
    rw [hlast, hcells]
    cases row.lastCol screen.cols with
    | none => rfl
    | some last => exact appendPreviewCells _ _ []
  rw [prependPreviewRow, hrow, foldl_appendPreviewSpan _ (merged_ofStyled chars).texts,
    styled_ofStyled]

/-- The lines that are complete when the newer rows are read are the last ones. -/
theorem opened_suffix (cols : Nat) (older newer : List Row) :
    (opened (lastWrapped false older) (logicalLines cols newer)).2 <:+ logicalLines cols
      (older ++ newer) := by
  induction older using List.reverseRecOn generalizing newer with
  | nil => exact List.suffix_refl _
  | append_singleton older row ih =>
      rw [List.append_assoc, List.singleton_append, lastWrapped_append]
      refine List.IsSuffix.trans ?_ (ih (row :: newer))
      rw [logicalLines]
      cases lastWrapped false older with
      | true => exact List.suffix_refl _
      | false => exact List.suffix_cons _ _

/-- What was selected of the lines that are complete. -/
def readLines (limits : Limits) (cols : Nat) (wrapping : Bool) (newer : List Row) :
    Bool × Selection :=
  untilDone (selectPreviewLine limits)
    ((opened wrapping (logicalLines cols newer)).2.reverse.map ofStyled) .start

/-- The newer rows are read: the line that goes on above them, and what was selected of the others.
-/
structure Reading (limits : Limits) (cols : Nat) (wrapping : Bool) (newer : List Row)
    (current : TerminalPreviewLine)
    (sel : Selection) : Prop where
  current : current = ofStyled (opened wrapping (logicalLines cols newer)).1
  lines : readLines limits cols wrapping newer = (false, sel)

variable {current : TerminalPreviewLine} {index : Nat}

/-- A row above whose line goes on is read. -/
theorem Reading.wrapped (h : Reading limits screen.cols row.wrapped newer current sel)
    (hrow : screen.visibleRows[index]? = some row) :
    Reading limits screen.cols true (row :: newer)
      (prependPreviewRow current screen index) sel := by
  refine ⟨?_, h.lines⟩
  rw [h.current, prependPreviewRow_eq hrow]
  rfl

/-- A row above that begins its line is read, and the line is selected. -/
theorem Reading.selected (h : Reading limits screen.cols row.wrapped newer current sel)
    (hrow : screen.visibleRows[index]? = some row) :
    selectPreviewLine limits sel (prependPreviewRow current screen index)
      = readLines limits screen.cols false (row :: newer) := by
  have hlines := h.lines
  unfold readLines at hlines ⊢
  rw [h.current, prependPreviewRow_eq hrow, logicalLines]
  dsimp only
  rw [opened_false]
  dsimp only
  rw [List.reverse_cons, List.map_append, List.map_singleton, untilDone_append, hlines,
    if_neg Bool.false_ne_true,
    untilDone_singleton]

/-- When no more is taken, older rows make no difference. -/
theorem readLines_done (hdone : (readLines limits cols (lastWrapped false older) newer).1 = true) :
    (untilDone (selectPreviewLine limits)
      ((logicalLines cols (older ++ newer)).reverse.map ofStyled) .start)
      = readLines limits cols (lastWrapped false older) newer := by
  obtain ⟨front, happend⟩ := opened_suffix cols older newer
  unfold readLines at hdone ⊢
  rw [← happend, List.reverse_append, List.map_append, untilDone_append, if_pos hdone]

/-- The loop over the screen reads its rows, or as many as are needed. -/
theorem screenLines_spec (h : screen.Provided) (hrows : screen.rows = older ++ newer)
    (hreading : Reading limits screen.cols
      (lastWrapped (lastWrapped false screen.scrollbackRows) older) newer
      current sel) :
    match screenLines limits screen screen.scrollbackRows.length older.length current sel with
    | (true, _, sel) => (untilDone (selectPreviewLine limits) screen.newestLines .start).2 = sel
    | (false, current, sel) =>
        Reading limits screen.cols (lastWrapped false screen.scrollbackRows) screen.rows current
          sel := by
  induction older using List.reverseRecOn generalizing newer current sel with
  | nil =>
      rw [hrows]
      exact hreading
  | append_singleton older row ih =>
      rw [List.append_assoc, List.singleton_append] at hrows
      rw [lastWrapped_append] at hreading
      have hreading : Reading limits screen.cols row.wrapped newer current sel := hreading
      have hrow : screen.visibleRows[older.length]? = some row := by
        rw [Screen.visibleRows_unscrolled h.unscrolled, hrows]
        simp
      -- A row continues the one above it: the last of `older`, or of the scrollback.
      have hall : lastWrapped (lastWrapped false screen.scrollbackRows) older
          = lastWrapped false (screen.scrollbackRows ++ older) := (lastWrapped_append _ _ _).symm
      rw [List.length_append, List.length_singleton, screenLines, rowWrapped_above h hrows]
      dsimp only
      cases habove : lastWrapped (lastWrapped false screen.scrollbackRows) older with
      -- The line begins further up.
      | true =>
          rw [if_pos rfl]
          exact ih hrows (habove ▸ hreading.wrapped hrow)
      -- The line is complete.
      | false =>
          have hselected := hreading.selected hrow
          rw [if_neg Bool.false_ne_true]
          cases hselect : selectPreviewLine limits sel
            (prependPreviewRow current screen older.length) with
          | mk done sel' =>
              rw [hselect] at hselected
              cases done with
              | true =>
                  rw [if_pos rfl]
                  have hdone := @readLines_done limits (screen.scrollbackRows ++ older)
                    (row :: newer) screen.cols
                    (by rw [← hall, habove, ← hselected])
                  rw [← hall, habove, ← hselected, List.append_assoc, ← hrows] at hdone
                  exact congrArg Prod.snd hdone
              | false =>
                  rw [if_neg Bool.false_ne_true]
                  exact ih hrows (by rw [habove]; exact ⟨rfl, hselected.symm⟩)

/-- The loop over the scrollback reads the rows above the screen, or as many as are needed. -/
theorem scrollbackLines_spec (h : screen.Provided) (hrows : screen.scrollbackRows = older ++ newer)
    (hreading : Reading limits screen.cols (lastWrapped false older)
      (newer ++ screen.rows) current sel) :
    scrollbackLines limits screen screen.scrollbackRows.length older.length current sel
      = (untilDone (selectPreviewLine limits) screen.newestLines .start).2 := by
  induction older using List.reverseRecOn generalizing newer current sel with
  | nil =>
      obtain rfl : screen.scrollbackRows = newer := hrows
      exact (congrArg Prod.snd hreading.lines).symm
  | append_singleton older row ih =>
      rw [List.append_assoc, List.singleton_append] at hrows
      rw [lastWrapped_append] at hreading
      have hreading : Reading limits (screen.setScrollback (newer.length + 1)).cols row.wrapped
        (newer ++ screen.rows) current sel := hreading
      have hoffset : screen.scrollbackRows.length - older.length = newer.length + 1 := by
        rw [hrows, List.length_append, List.length_cons]
        omega
      have habove := rowWrapped_scrolled h hrows
      rw [List.length_cons] at habove
      have hrow := h.visibleRows_head hrows
      rw [List.length_append, List.length_singleton, scrollbackLines, hoffset, habove]
      dsimp only
      cases hwrapped : lastWrapped false older with
      | true =>
          rw [if_pos rfl]
          exact ih hrows (hwrapped ▸ hreading.wrapped hrow)
      | false =>
          have hselected := hreading.selected hrow
          rw [if_neg Bool.false_ne_true]
          cases hselect : selectPreviewLine limits sel
            (prependPreviewRow current (screen.setScrollback (newer.length + 1)) 0) with
          | mk done sel' =>
              rw [hselect] at hselected
              cases done with
              | true =>
                  rw [if_pos rfl]
                  have hdone := @readLines_done limits older
                    (row :: newer ++ screen.rows) screen.cols
                    (by rw [hwrapped]; exact (congrArg Prod.fst hselected).symm)
                  rw [hwrapped, ← List.append_assoc, ← hrows] at hdone
                  exact (congrArg Prod.snd (hdone.trans hselected.symm)).symm
              | false =>
                  rw [if_neg Bool.false_ne_true]
                  exact ih hrows (by rw [hwrapped]; exact ⟨rfl, hselected.symm⟩)

theorem Reading.start (limits : Limits) (cols : Nat) (wrapping : Bool) :
    Reading limits cols wrapping [] [] .start := by
  refine ⟨?_, ?_⟩
  · rw [logicalLines, opened_nil]
    rfl
  · rw [readLines, logicalLines, opened_nil]
    rfl

/-- The first line that is left has text. -/
theorem trimmed_head (hline : line ∈ (trimmed lines).head?) : previewLineIsBlank line = false := by
  have hfront := List.rdropWhile_prefix previewLineIsBlank (lines.dropWhile previewLineIsBlank)
  obtain ⟨older, holder⟩ := List.head?_eq_some_iff.mp hline
  rw [← trimmed, holder] at hfront
  obtain ⟨rest, hrest⟩ := hfront
  have hhead := List.head?_dropWhile_not previewLineIsBlank lines
  rw [← hrest] at hhead
  exact hhead

theorem lineBytes_pos (hline : previewLineIsBlank line = false) : 0 < lineBytes line := by
  rw [← charBytes_styled, Nat.pos_iff_ne_zero, charBytes, Ne, byteLen_eq_zero, List.map_eq_nil_iff,
    styled,
    List.flatMap_eq_nil_iff]
  intro hnil
  rw [previewLineIsBlank, List.all_eq_false] at hline
  obtain ⟨span, hspan, hblank⟩ := hline
  rw [List.map_eq_nil_iff.mp (hnil span hspan)] at hblank
  exact hblank rfl

/-- Without room for anything, nothing is shown. -/
theorem shows_nothing (hzero : limits.maxBytes = 0 ∨ limits.maxLines = 0 ∨ limits.maxSpans = 0)
    (lines : List TerminalPreviewLine) : limits.Shows (trimmed lines) [] := by
  have hfit : limits.Fit [] := ⟨Nat.zero_le _, Nat.zero_le _, Nat.zero_le _⟩
  by_cases hfirst : ∀ line ∈ (trimmed lines).head?, 0 < limits.maxLines → limits.Fit [line]
  · refine .whole hfirst List.nil_prefix hfit fun other hother hfits => ?_
    cases other with
    | nil => exact List.prefix_refl _
    | cons line other =>
        obtain ⟨rest, hrest⟩ := hother
        have hpos := lineBytes_pos
          (trimmed_head (show line ∈ (trimmed lines).head? by rw [← hrest]; rfl))
        have hline := hfits.of_prefix ⟨other, List.singleton_append⟩
        have hbytes := hline.bytes
        have hcount := hline.count
        have hspans := hline.spans
        rw [List.map_singleton, List.sum_singleton] at hbytes hspans
        rw [List.length_singleton] at hcount
        have hnone : limits.maxSpans ≠ 0 := by
          intro hzero
          rw [hzero, Nat.le_zero, List.length_eq_zero_iff] at hspans
          rw [hspans] at hpos
          exact absurd hpos (Nat.lt_irrefl 0)
        omega
  · push Not at hfirst
    obtain ⟨line, hline, hmax, hlong⟩ := hfirst
    obtain ⟨older, holder⟩ := List.head?_eq_some_iff.mp hline
    rw [holder]
    refine @Limits.Shows.cut limits line [] older hlong hmax
      ⟨⟨fun _ h => absurd h List.not_mem_nil, List.isChain_nil⟩,
      List.nil_suffix, Nat.zero_le _, Nat.zero_le _, fun other hother _ hbytes hspans => ?_⟩
    rcases hzero with hzero | hzero | hzero
    · rw [← charBytes_styled, hzero, Nat.le_zero, charBytes, byteLen_eq_zero,
        List.map_eq_nil_iff] at hbytes
      rw [hbytes]
      exact List.nil_suffix
    · exact absurd hzero (Nat.ne_of_gt hmax)
    · rw [hzero, Nat.le_zero, List.length_eq_zero_iff] at hspans
      rw [hspans]

/-- A preview shows the newest of the logical lines of the screen and its scrollback. -/
theorem preview_shows (h : screen.Provided) (limits : Limits) :
    limits.Shows (trimmed screen.newestLines) (preview limits screen).reverse := by
  have hmerged : ∀ line ∈ screen.newestLines, Merged line := by
    intro line hline
    obtain ⟨chars, -, rfl⟩ := List.mem_map.mp hline
    exact merged_ofStyled chars
  unfold preview
  split
  next hzero =>
      rw [Bool.or_eq_true, Bool.or_eq_true, decide_eq_true_iff, decide_eq_true_iff,
        decide_eq_true_iff,
        or_assoc] at hzero
      exact shows_nothing hzero _
  next hsome =>
      have hmax : 0 < limits.maxLines := by
        refine Nat.pos_of_ne_zero fun hlines => hsome ?_
        simp [hlines]
      have hshows := shows_select hmax hmerged
      have hscreen := screenLines_spec h (List.append_nil _).symm
        (Reading.start limits screen.cols _)
      rw [h.setScrollback_max, h.setScrollback_zero]
      dsimp only
      split
      next sel hlines =>
          rw [hlines] at hscreen
          rw [List.reverse_reverse, ← hscreen]
          exact hshows
      next current sel hlines =>
          rw [hlines] at hscreen
          have hall := @scrollbackLines_spec limits sel screen screen.scrollbackRows [] current h
            (List.append_nil _).symm hscreen
          rw [List.reverse_reverse, hall]
          exact hshows

/-! ## The text and the preview of a screen -/

/-- The suffixes are those of the full text exactly if the line ends agree, and the previews always
show the newest lines within their limits. -/
theorem text_and_preview_iff {vt : Vt100Text} (hvt : vt.Documented) (h : screen.Provided) :
    ((∀ maxBytes, LongestSuffix (plainText vt screen) maxBytes (plainTextSuffix screen maxBytes))
      ∧ ∀ limits : Limits, limits.Shows (trimmed screen.newestLines)
        (preview limits screen).reverse)
      ↔ screen.LinesEnd := by
  rw [plainTextSuffix_iff hvt h]
  exact and_iff_left (preview_shows h)

/-- The text of a screen as the crate says it. -/
def Vt100Text.said : Vt100Text where
  rows screen _ _ := screen.visibleRows.map (Row.text screen.cols)
  contents screen := trimEnd (joined screen.cols false screen.visibleRows)

theorem Vt100Text.said_documented : Vt100Text.said.Documented := ⟨fun _ => rfl, fun _ => rfl⟩

def Cell.drawnWith (c : Char) (h : isControl c = false) : Cell :=
  ⟨[c], false, false, .plain, fun d hd => by rw [List.mem_singleton.mp hd]; exact h⟩

/-- Two rows of two columns: `abX` went on in the second row, which was erased; then `c` and `d`
were written on lines of their own, and the first two rows were scrolled off. -/
def erasedScreen : Screen where
  rows := [⟨[.drawnWith 'c' rfl, .blank], false⟩, ⟨[.drawnWith 'd' rfl, .blank], false⟩]
  scrollbackRows :=
    [⟨[.drawnWith 'a' rfl, .drawnWith 'b' rfl], true⟩, ⟨[.blank, .blank], false⟩]
  cols := 2
  offset := 0

theorem erasedScreen_provided : erasedScreen.Provided :=
  ⟨by decide, fun row hrow => (by cases hrow), rfl, by decide⟩

theorem text_and_preview_erased :
    ((∀ maxBytes, LongestSuffix (plainText .said erasedScreen) maxBytes
        (plainTextSuffix erasedScreen maxBytes))
      ∧ ∀ limits : Limits, limits.Shows (trimmed erasedScreen.newestLines)
        (preview limits erasedScreen).reverse)
      ↔ erasedScreen.LinesEnd :=
  text_and_preview_iff Vt100Text.said_documented erasedScreen_provided

/-- The erased row ends the line once in the full text, and twice in the suffix. -/
theorem erasedScreen_reads_more : plainText .said erasedScreen = ['a', 'b', '\n', 'c', '\n', 'd']
    ∧ plainTextSuffix erasedScreen 10 = ['a', 'b', '\n', '\n', 'c', '\n', 'd']
    ∧ ¬ ∀ maxBytes, LongestSuffix (plainText .said erasedScreen) maxBytes
      (plainTextSuffix erasedScreen maxBytes) := by
  have hplain : plainText .said erasedScreen = ['a', 'b', '\n', 'c', '\n', 'd'] := by decide
  have hsuffix : plainTextSuffix erasedScreen 10 = ['a', 'b', '\n', '\n', 'c', '\n', 'd'] := by
    decide
  refine ⟨hplain, hsuffix, fun hall => ?_⟩
  have hlength := (hall 10).1.length_le
  rw [hplain, hsuffix] at hlength
  exact absurd hlength (by decide)

end Boomux.Terminal
