import Boomux.Basic.Run
import Boomux.Terminal.Screen
import Mathlib.Tactic.SplitIfs

/-!
# The modes of a terminal

Whether a program has asked its terminal for reports of focus and of the colour scheme is read from
its output, byte by byte. When the terminal is resized, its state is made anew from a reconstruction
of it, which ends with the sequences that restore these modes. The start of a sequence that has not
ended yet is then forgotten; while no resize falls into a sequence, the modes are those that the
output sets.
-/

set_option autoImplicit false

namespace Boomux.Terminal

open Rust Transition

/-! ## Reading the modes -/

/-- `ParseState`; `sequence` is `Private`. -/
inductive ParseState
  | normal | escape | csi | sequence
  deriving DecidableEq, Repr

structure TerminalModes where
  focusReporting : Bool
  colorSchemeReporting : Bool
  state : ParseState
  parameters : List UInt8
  deriving DecidableEq, Repr

/-- `b"1004"`. -/
def focusParameter : List UInt8 := [0x31, 0x30, 0x30, 0x34]

/-- `b"2031"`. -/
def colorSchemeParameter : List UInt8 := [0x32, 0x30, 0x33, 0x31]

/-- `ENABLE_FOCUS_REPORTING`. -/
def enableFocusReporting : List UInt8 := [0x1b, 0x5b, 0x3f] ++ focusParameter ++ [0x68]

/-- `ENABLE_COLOR_SCHEME_REPORTING`. -/
def enableColorSchemeReporting : List UInt8 := [0x1b, 0x5b, 0x3f] ++ colorSchemeParameter ++ [0x68]

namespace TerminalModes

/-- `TerminalModes::default`. -/
def default : TerminalModes := ⟨false, false, .normal, []⟩

/-- One parameter of a sequence that sets or resets modes. -/
def setMode (enabled : Bool) (modes : TerminalModes) (parameter : List UInt8) : TerminalModes :=
  if parameter = focusParameter then { modes with focusReporting := enabled }
  else if parameter = colorSchemeParameter then { modes with colorSchemeReporting := enabled }
  else modes

/-- The byte goes on with the parameters. -/
def isParameter (byte : UInt8) : Bool := (0x30 ≤ byte && byte ≤ 0x39) || byte == 0x3b

/-- The loop body of `process`. -/
def step (modes : TerminalModes) (byte : UInt8) : TerminalModes :=
  match modes.state with
  | .normal => { modes with state := if byte = 0x1b then .escape else .normal }
  | .escape =>
      { modes with state := if byte = 0x5b then .csi else if byte = 0x1b then .escape else .normal }
  | .csi =>
      if byte = 0x3f then { modes with state := .sequence, parameters := [] }
      else { modes with state := if byte = 0x1b then .escape else .normal }
  | .sequence =>
      if isParameter byte then
        if modes.parameters.length < 128 then
          { modes with parameters := modes.parameters ++ [byte] }
        else { modes with state := .normal }
      else if byte = 0x68 || byte = 0x6c then
        { (modes.parameters.splitOn 0x3b).foldl
          (setMode (byte = 0x68)) modes with state := .normal }
      else { modes with state := if byte = 0x1b then .escape else .normal }

/-- The byte ends a sequence that resets the reports of focus. -/
def disablesFocus (modes : TerminalModes) (byte : UInt8) : Bool :=
  modes.state = .sequence && byte = 0x6c && (modes.parameters.splitOn 0x3b).contains focusParameter

/-- `process`: whether the reports of focus were reset, and the modes. -/
def process (modes : TerminalModes) (bytes : List UInt8) : Bool × TerminalModes :=
  bytes.foldl (fun (focusDisabled, modes) byte => (focusDisabled || modes.disablesFocus byte,
    modes.step byte))
    (false, modes)

/-- `append_restore_sequence`: what is appended. -/
def restoreSequence (modes : TerminalModes) : List UInt8 :=
  (if modes.focusReporting then enableFocusReporting else [])
    ++ if modes.colorSchemeReporting then enableColorSchemeReporting else []

end TerminalModes

/-! ## The terminal -/

/-- What is used of the `vt100` crate: a parser, the screens it keeps, and the sequences that it
writes to reproduce them. `process` is taken as total: the crate panics where text would go on in a
next row of a terminal that has only one. -/
structure Vt100 (Parser Inner : Type) where
  new : Nat → Nat → Nat → Parser
  process : Parser → List UInt8 → Parser
  screen : Parser → Inner
  withScreen : Parser → Inner → Parser
  grid : Inner → Screen
  alternateScreen : Inner → Bool
  hideCursor : Inner → Bool
  cursorPosition : Inner → Nat × Nat
  style : Inner → TerminalStyle
  contentsFormatted : Inner → List UInt8
  inputModeFormatted : Inner → List UInt8
  cursorStateFormatted : Inner → List UInt8
  attributesFormatted : Inner → List UInt8

/-- The bytes of an ASCII text with an escape before it. -/
def escaped (text : String) : List UInt8 := 0x1b :: asBytes text

/-- `write_color`: what is written. -/
def writeColor (color : TerminalColor) (foreground : Bool) : List UInt8 :=
  match color with
  | .default => []
  | .indexed index => asBytes ((if foreground then ";38;5;" else ";48;5;") ++ toString index.toNat)
  | .rgb red green blue =>
      asBytes ((if foreground then ";38;2;" else ";48;2;") ++ toString red.toNat ++ ";"
      ++ toString green.toNat ++ ";" ++ toString blue.toNat)

/-- `write_escape_code`: what is written. -/
def TerminalStyle.writeEscapeCode (style : TerminalStyle) : List UInt8 :=
  escaped "[0" ++ (if style.bold then asBytes ";1" else if style.dim then asBytes ";2" else [])
    ++ (if style.italic then asBytes ";3" else []) ++ (if style.underline then asBytes ";4" else [])
    ++ (if style.inverse then asBytes ";7" else []) ++ writeColor style.foreground true
    ++ writeColor style.background false ++ asBytes "m"

/-- One column of `append_reflowable_row`: the output and the style. -/
def reflowCell (screen : Screen) (row : Nat) (acc : List UInt8 × TerminalStyle) (col : Nat) :
    List UInt8 × TerminalStyle :=
  match screen.cell row col with
  | none => acc
  | some cell =>
      if cell.isWideContinuation then acc
      else (acc.1 ++ (if cell.style ≠ acc.2 then cell.style.writeEscapeCode else [])
        ++ (if cell.hasContents then cell.contents.flatMap String.utf8EncodeChar else [0x20]),
          cell.style)

/-- `append_reflowable_row`: what is appended. -/
def reflowableRow (screen : Screen) (row : Nat) (terminate : Bool) : List UInt8 :=
  match lastCol screen row with
  | none => if terminate then [0x0d, 0x0a] else []
  | some last =>
      let (output, style) := (List.range (last + 1)).foldl (reflowCell screen row) ([], .plain)
      output ++ (if style ≠ .plain then escaped "[0m" else [])
        ++ if terminate && !screen.rowWrapped row then [0x0d, 0x0a] else []

/-- `reflowable_contents_formatted`. -/
def reflowableContentsFormatted (screen : Screen) (cursorRow : Nat) : List UInt8 :=
  let scrolled := screen.setScrollback u64Max
  let scrollback := (List.range scrolled.scrollback).reverse.flatMap fun offset =>
    reflowableRow (scrolled.setScrollback (offset + 1)) 0 true
  let scrolled := scrolled.setScrollback 0
  let lastContentRow := (List.range scrolled.rows.length).reverse.find? fun row =>
    (List.range scrolled.cols).any fun col =>
      (scrolled.cell row col).any fun cell => cell.hasContents || cell.style ≠ .plain
  let lastRow := max (lastContentRow.getD 0) cursorRow
  scrollback ++ (List.range (lastRow + 1)).flatMap fun row => reflowableRow scrolled row
    (row < lastRow)

/-- `SCROLLBACK_ROWS`. -/
def scrollbackLimit : Nat := 2000

structure TerminalState (Parser : Type) where
  parser : Parser
  terminalModes : TerminalModes

namespace TerminalState

variable {Parser Inner : Type} (vt : Vt100 Parser Inner)

/-- `TerminalState::new`. -/
def new (rows cols : Nat) : TerminalState Parser := ⟨vt.new rows cols scrollbackLimit, .default⟩

/-- `process`. -/
def process (terminal : TerminalState Parser) (bytes : List UInt8) : TerminalState Parser :=
  ⟨vt.process terminal.parser bytes, (terminal.terminalModes.process bytes).2⟩

/-- `primary_screen`. -/
def primaryScreen (terminal : TerminalState Parser) : Inner :=
  let screen := vt.screen terminal.parser
  if !vt.alternateScreen screen then screen
  else
    let primary := vt.withScreen (vt.new 1 1 0) screen
    let primary := vt.process primary (escaped "[?47l")
    let cursor := vt.cursorStateFormatted (vt.screen primary)
    let primary := vt.process primary (escaped "[?1049l")
    let attributes := vt.attributesFormatted (vt.screen primary)
    let primary := vt.process primary (escaped "[?6l")
    let primary := vt.process primary cursor
    let primary := vt.process primary attributes
    vt.screen primary

/-- What `resize` replays. -/
def reflowed (terminal : TerminalState Parser) : List UInt8 :=
  let screen := vt.screen terminal.parser
  let primary := terminal.primaryScreen vt
  reflowableContentsFormatted (vt.grid primary) (vt.cursorPosition primary).1
    ++ (if vt.alternateScreen screen then escaped "[?1049h" ++ vt.contentsFormatted screen
      else (vt.style screen).writeEscapeCode ++ escaped (if vt.hideCursor screen then "[?25l"
        else "[?25h"))
    ++ vt.inputModeFormatted screen ++ terminal.terminalModes.restoreSequence

/-- `resize`. -/
def resize (terminal : TerminalState Parser) (rows cols : Nat) : TerminalState Parser :=
  if (vt.grid (vt.screen terminal.parser)).size = (rows, cols) then terminal
  else (new vt rows cols).process vt (terminal.reflowed vt)

/-- A call that changes a terminal. -/
inductive Call
  | process (bytes : List UInt8)
  | resize (rows cols : Nat)
  deriving DecidableEq, Repr

def call (terminal : TerminalState Parser) : Call → Option (TerminalState Parser)
  | .process bytes => some (terminal.process vt bytes)
  | .resize rows cols => some (terminal.resize vt rows cols)

/-- The output that the calls process. -/
def Call.bytes : Call → List UInt8
  | .process bytes => bytes
  | .resize _ _ => []

end TerminalState

/-! ## Reading byte by byte -/

namespace TerminalModes

variable {modes modes' : TerminalModes} {bytes a b : List UInt8}

theorem process_snd (modes : TerminalModes) (bytes : List UInt8) :
    (modes.process bytes).2 = bytes.foldl step modes := by
  unfold process
  generalize false = focusDisabled
  induction bytes generalizing modes focusDisabled with
  | nil => rfl
  | cons byte bytes ih => exact ih (modes.step byte) _

theorem process_append (modes : TerminalModes) (a b : List UInt8) :
    (modes.process (a ++ b)).2 = ((modes.process a).2.process b).2 := by
  rw [process_snd, process_snd, process_snd, List.foldl_append]

/-- The modes agree, and go on in the same way: the parameters count only inside a sequence. -/
structure Agrees (modes modes' : TerminalModes) : Prop where
  focus : modes.focusReporting = modes'.focusReporting
  colorScheme : modes.colorSchemeReporting = modes'.colorSchemeReporting
  state : modes.state = modes'.state
  parameters : modes.state = .sequence → modes.parameters = modes'.parameters

theorem Agrees.refl (modes : TerminalModes) : modes.Agrees modes := ⟨rfl, rfl, rfl, fun _ => rfl⟩

theorem Agrees.symm (h : modes.Agrees modes') : modes'.Agrees modes :=
  ⟨h.focus.symm, h.colorScheme.symm, h.state.symm, fun hs => (h.parameters (h.state.trans hs)).symm⟩

theorem Agrees.trans {modes'' : TerminalModes} (h : modes.Agrees modes')
    (h' : modes'.Agrees modes'') :
    modes.Agrees modes'' :=
  ⟨h.focus.trans h'.focus, h.colorScheme.trans h'.colorScheme, h.state.trans h'.state,
    fun hs => (h.parameters hs).trans (h'.parameters (h.state.symm.trans hs))⟩

/-- Outside a sequence the parameters do not count. -/
theorem Agrees.of_normal (hfocus : modes.focusReporting = modes'.focusReporting)
    (hcolor : modes.colorSchemeReporting = modes'.colorSchemeReporting)
    (hstate : modes.state = .normal)
    (hstate' : modes'.state = .normal) : modes.Agrees modes' :=
  ⟨hfocus, hcolor, hstate.trans hstate'.symm, fun hs => by rw [hstate] at hs; cases hs⟩

theorem Agrees.step (h : modes.Agrees modes') (byte : UInt8) :
    (modes.step byte).Agrees (modes'.step byte) := by
  obtain ⟨focus, colorScheme, state, parameters⟩ := modes
  obtain ⟨focus', colorScheme', state', parameters'⟩ := modes'
  obtain ⟨rfl, rfl, rfl, hparameters⟩ := h
  cases state with
  | normal =>
      exact ⟨rfl, rfl, rfl,
        fun hs => by simp only [TerminalModes.step] at hs; split at hs <;> cases hs⟩
  | escape =>
      refine ⟨rfl, rfl, rfl, fun hs => ?_⟩
      simp only [TerminalModes.step] at hs
      split at hs
      · cases hs
      · split at hs <;> cases hs
  | csi =>
      simp only [TerminalModes.step]
      split
      · exact .refl _
      · exact ⟨rfl, rfl, rfl, fun hs => by dsimp only at hs; split at hs <;> cases hs⟩
  | sequence =>
      obtain rfl := hparameters rfl
      exact .refl _

theorem Agrees.process (h : modes.Agrees modes') (bytes : List UInt8) :
    (modes.process bytes).2.Agrees (modes'.process bytes).2 := by
  rw [process_snd, process_snd]
  induction bytes generalizing modes modes' with
  | nil => exact h
  | cons byte bytes ih => exact ih (h.step byte)

/-! ## Bytes that leave the modes -/

/-- Read between two sequences, the bytes end between two sequences and set no mode. -/
def Quiet (bytes : List UInt8) : Prop :=
  ∀ modes : TerminalModes, modes.state = .normal → (modes.process bytes).2.Agrees modes

theorem Quiet.nil : Quiet [] := fun modes _ => .refl modes

theorem Quiet.append (ha : Quiet a) (hb : Quiet b) : Quiet (a ++ b) := by
  intro modes hmodes
  rw [process_append]
  have hfirst := ha modes hmodes
  exact (hb _ (hfirst.state.trans hmodes)).trans hfirst

theorem Quiet.ite {condition : Prop} [Decidable condition] (ha : Quiet a) (hb : Quiet b) :
    Quiet (if condition then a else b) := by
  split
  · exact ha
  · exact hb

theorem Quiet.flatMap {α : Type} {l : List α} {f : α → List UInt8} (h : ∀ x ∈ l, Quiet (f x)) :
    Quiet (l.flatMap f) := by
  induction l with
  | nil => exact .nil
  | cons x l ih =>
      rw [List.flatMap_cons]
      exact (h x List.mem_cons_self).append (ih fun y hy => h y (List.mem_cons_of_mem x hy))

/-- Text without an escape is quiet. -/
theorem Quiet.text (h : 0x1b ∉ bytes) : Quiet bytes := by
  intro modes hmodes
  rw [process_snd]
  induction bytes with
  | nil => exact .refl modes
  | cons byte bytes ih =>
      obtain ⟨hbyte, hbytes⟩ := not_or.mp (mt List.mem_cons.mpr h)
      have hstep : modes.step byte = modes := by
        obtain ⟨focus, colorScheme, state, parameters⟩ := modes
        obtain rfl : state = .normal := hmodes
        simp [TerminalModes.step, Ne.symm hbyte]
      rw [List.foldl_cons, hstep]
      exact ih hbytes

/-- A control sequence that is not private is quiet. -/
theorem Quiet.csi {byte : UInt8} (hbyte : byte ≠ 0x3f) (h : 0x1b ∉ byte :: bytes) :
    Quiet (0x1b :: 0x5b :: byte :: bytes) := by
  intro modes hmodes
  have hesc : byte ≠ 0x1b := fun he => h (he ▸ List.mem_cons_self)
  have hstart : (modes.process [0x1b, 0x5b, byte]).2 = { modes with state := .normal } := by
    obtain ⟨focus, colorScheme, state, parameters⟩ := modes
    obtain rfl : state = .normal := hmodes
    simp [process_snd, TerminalModes.step, hbyte, hesc]
  rw [show 0x1b :: 0x5b :: byte :: bytes = [0x1b, 0x5b, byte] ++ bytes from rfl, process_append,
    hstart]
  have htext := Quiet.text (mt (List.mem_cons_of_mem byte) h) { modes with state := .normal } rfl
  exact htext.trans (.of_normal rfl rfl rfl hmodes)

/-- The sequences of private modes that the terminal writes itself. -/
theorem Quiet.private : Quiet (escaped "[?1049h") ∧ Quiet (escaped "[?25l")
    ∧ Quiet (escaped "[?25h") := by
  refine ⟨?_, ?_, ?_⟩ <;> rintro ⟨focus, colorScheme, state, parameters⟩ (rfl : state = .normal) <;>
    exact .of_normal rfl rfl rfl rfl

theorem quiet_reset : Quiet (escaped "[0m") :=
  show Quiet [0x1b, 0x5b, 0x30, 0x6d] from .csi (by decide) (by decide)

end TerminalModes

open TerminalModes

/-! ## What a resize replays -/

theorem quiet_asBytes {text : String} (h : text.toList.all (·.toNat != 0x1b) = true) :
    Quiet (asBytes text) := by
  refine Quiet.text fun hmem => ?_
  obtain ⟨c, hc, hbyte⟩ := List.mem_flatMap.mp hmem
  exact bne_iff_ne.mp (List.all_eq_true.mp h c hc) (toNat_of_mem_utf8EncodeChar (by decide) hbyte)

theorem quiet_number (n : Nat) : Quiet (asBytes (toString n)) := by
  refine quiet_asBytes (List.all_eq_true.mpr fun c hc => bne_iff_ne.mpr fun he => ?_)
  have hdigit : c.isDigit = true := by
    rw [Nat.toString_eq_repr, Nat.toList_repr] at hc
    exact Nat.isDigit_of_mem_toDigits (by decide) (by decide) hc
  obtain rfl : c = Char.ofNat 0x1b := by rw [← he, Char.ofNat_toNat]
  exact absurd hdigit (by decide)

theorem quiet_writeColor (color : TerminalColor) (foreground : Bool) :
    Quiet (writeColor color foreground) := by
  have hseparator : Quiet (asBytes ";") := quiet_asBytes rfl
  cases color with
  | default => exact .nil
  | indexed index =>
      have hstart : Quiet (asBytes (if foreground then ";38;5;" else ";48;5;")) :=
        quiet_asBytes (by cases foreground <;> rfl)
      rw [writeColor, asBytes_append]
      exact hstart.append (quiet_number _)
  | rgb red green blue =>
      have hstart : Quiet (asBytes (if foreground then ";38;2;" else ";48;2;")) :=
        quiet_asBytes (by cases foreground <;> rfl)
      rw [writeColor, asBytes_append, asBytes_append, asBytes_append, asBytes_append,
        asBytes_append]
      exact ((((hstart.append (quiet_number _)).append hseparator).append (quiet_number _)).append
        hseparator).append
        (quiet_number _)

theorem quiet_writeEscapeCode (style : TerminalStyle) : Quiet style.writeEscapeCode := by
  have hstart : Quiet (escaped "[0") :=
    show Quiet [0x1b, 0x5b, 0x30] from .csi (by decide) (by decide)
  have hbold : Quiet (asBytes ";1") := quiet_asBytes rfl
  have hdim : Quiet (asBytes ";2") := quiet_asBytes rfl
  have hitalic : Quiet (asBytes ";3") := quiet_asBytes rfl
  have hunderline : Quiet (asBytes ";4") := quiet_asBytes rfl
  have hinverse : Quiet (asBytes ";7") := quiet_asBytes rfl
  have hend : Quiet (asBytes "m") := quiet_asBytes rfl
  exact ((((((hstart.append (hbold.ite (hdim.ite .nil))).append (hitalic.ite .nil)).append
    (hunderline.ite .nil)).append
    (hinverse.ite .nil)).append (quiet_writeColor _ true)).append (quiet_writeColor _ false)).append
      hend

theorem quiet_contents (cell : Cell) : Quiet (cell.contents.flatMap String.utf8EncodeChar) := by
  refine Quiet.text fun hmem => ?_
  obtain ⟨c, hc, hbyte⟩ := List.mem_flatMap.mp hmem
  have hcontrol := cell.drawn c hc
  rw [isControl, toNat_of_mem_utf8EncodeChar (by decide) hbyte] at hcontrol
  exact absurd hcontrol (by decide)

theorem quiet_reflowableRow (screen : Screen) (row : Nat) (terminate : Bool) :
    Quiet (reflowableRow screen row terminate) := by
  have hend : Quiet [0x0d, 0x0a] := .text (by decide)
  unfold reflowableRow
  split
  · exact hend.ite .nil
  next last _ =>
      have hcells (cols : List Nat) (acc : List UInt8 × TerminalStyle) (hacc : Quiet acc.1) :
          Quiet (cols.foldl (reflowCell screen row) acc).1 := by
        induction cols generalizing acc with
        | nil => exact hacc
        | cons col cols ih =>
            refine ih _ ?_
            unfold reflowCell
            split
            · exact hacc
            next cell _ =>
                split
                · exact hacc
                · exact (hacc.append ((quiet_writeEscapeCode _).ite .nil)).append
                    ((quiet_contents cell).ite (.text (by decide)))
      exact ((hcells _ _ .nil).append (quiet_reset.ite .nil)).append (hend.ite .nil)

theorem quiet_reflowableContentsFormatted (screen : Screen) (cursorRow : Nat) :
    Quiet (reflowableContentsFormatted screen cursorRow) :=
  (Quiet.flatMap fun _ _ => quiet_reflowableRow _ 0 true).append
    (Quiet.flatMap fun _ _ => quiet_reflowableRow _ _ _)

/-- What the crate says of the sequences it writes: each is written to its end, and they set the
cursor, the attributes, the contents and the input modes, the reports of focus and of the colour
scheme not among them. -/
structure Vt100.Documented {Parser Inner : Type} (vt : Vt100 Parser Inner) : Prop where
  contentsFormatted : ∀ screen, Quiet (vt.contentsFormatted screen)
  inputModeFormatted : ∀ screen, Quiet (vt.inputModeFormatted screen)

/-- The restore sequence sets the modes it was made from. -/
theorem process_restoreSequence (modes : TerminalModes) {fresh : TerminalModes}
    (hfresh : fresh.Agrees .default)
    (hstate : modes.state = .normal) : (fresh.process modes.restoreSequence).2.Agrees modes := by
  refine (hfresh.process _).trans ?_
  obtain ⟨focus, colorScheme, state, parameters⟩ := modes
  obtain rfl : state = .normal := hstate
  cases focus <;> cases colorScheme <;> exact .of_normal rfl rfl rfl rfl

namespace TerminalState

variable {Parser Inner : Type} {vt : Vt100 Parser Inner} {terminal : TerminalState Parser}
    {rows cols : Nat}

/-- A resize that falls into no sequence keeps the modes. -/
theorem resize_agrees (hvt : vt.Documented) (h : terminal.terminalModes.state = .normal)
    (rows cols : Nat) :
    (terminal.resize vt rows cols).terminalModes.Agrees terminal.terminalModes := by
  unfold resize
  split
  · exact .refl _
  · have hcontents : Quiet (reflowableContentsFormatted (vt.grid (terminal.primaryScreen vt))
        (vt.cursorPosition (terminal.primaryScreen vt)).1
          ++ (if vt.alternateScreen (vt.screen terminal.parser) then
              escaped "[?1049h" ++ vt.contentsFormatted (vt.screen terminal.parser)
            else (vt.style (vt.screen terminal.parser)).writeEscapeCode
              ++ escaped (if vt.hideCursor (vt.screen terminal.parser) then "[?25l" else "[?25h"))
          ++ vt.inputModeFormatted (vt.screen terminal.parser)) := by
      have hcursor : Quiet (escaped (if vt.hideCursor (vt.screen terminal.parser) then "[?25l"
          else "[?25h")) := by
        split
        · exact Quiet.private.2.1
        · exact Quiet.private.2.2
      exact ((quiet_reflowableContentsFormatted _ _).append (Quiet.ite
        (Quiet.private.1.append (hvt.contentsFormatted _))
          ((quiet_writeEscapeCode _).append hcursor))).append
        (hvt.inputModeFormatted _)
    have hreplayed : (TerminalModes.default.process (terminal.reflowed vt)).2.Agrees
        terminal.terminalModes := by
      rw [reflowed, process_append]
      exact process_restoreSequence _ (hcontents .default rfl) h
    exact hreplayed

/-- A resize to another size falls into no sequence. -/
def Settled (vt : Vt100 Parser Inner) (terminal : TerminalState Parser) : Call → Prop
  | .process _ => True
  | .resize rows cols => (vt.grid (vt.screen terminal.parser)).size = (rows, cols)
      ∨ terminal.terminalModes.state = .normal

theorem call_agrees (hvt : vt.Documented) {call : Call} {terminal' : TerminalState Parser}
    {modes : TerminalModes}
    (h : terminal.terminalModes.Agrees modes) (hok : Settled vt terminal call)
    (hcall : terminal.call vt call = some terminal') :
    terminal'.terminalModes.Agrees (modes.process call.bytes).2 := by
  cases call with
  | process bytes =>
      obtain rfl := Option.some.inj hcall
      exact h.process bytes
  | resize rows cols =>
      obtain rfl := Option.some.inj hcall
      rcases hok with hsize | hstate
      · rw [resize, if_pos hsize]
        exact h
      · exact (resize_agrees hvt hstate rows cols).trans h

theorem calls_agree (hvt : vt.Documented) {calls : List Call} {start : TerminalState Parser}
    {modes : TerminalModes}
    (hstart : start.terminalModes.Agrees modes) (hok : Meets (call vt) (Settled vt) start calls)
    (h : exec (call vt) start calls = some terminal) :
    terminal.terminalModes.Agrees (modes.process (calls.flatMap Call.bytes)).2 := by
  induction calls generalizing start modes with
  | nil =>
      obtain rfl := Option.some.inj h
      exact hstart
  | cons call calls ih =>
      obtain ⟨next, hnext, hrest⟩ := Option.bind_eq_some_iff.mp h
      obtain ⟨hcall, hcalls⟩ := hok next hnext
      rw [List.flatMap_cons, process_append]
      exact ih (call_agrees hvt hstart hcall hnext) hcalls hrest

/-- While no resize falls into a sequence, the modes are those that the whole output sets. -/
theorem modes_of_calls (hvt : vt.Documented) {calls : List Call}
    (hok : Meets (call vt) (Settled vt) (new vt rows cols) calls)
    (h : exec (call vt) (new vt rows cols) calls = some terminal) :
    terminal.terminalModes.focusReporting
        = (TerminalModes.default.process (calls.flatMap Call.bytes)).2.focusReporting
      ∧ terminal.terminalModes.colorSchemeReporting
        = (TerminalModes.default.process (calls.flatMap Call.bytes)).2.colorSchemeReporting
      ∧ terminal.terminalModes.restoreSequence
        = (TerminalModes.default.process (calls.flatMap Call.bytes)).2.restoreSequence := by
  have hagrees := calls_agree hvt (.refl _) hok h
  exact ⟨hagrees.focus,
    hagrees.colorScheme, by rw [restoreSequence, hagrees.focus, hagrees.colorScheme]; rfl⟩

end TerminalState

/-! ## A resize within a sequence -/

namespace TerminalModes

theorem process_parameters (modes : TerminalModes) (hstate : modes.state = .sequence)
    (bytes : List UInt8)
    (hbytes : ∀ byte ∈ bytes, isParameter byte = true)
    (hroom : modes.parameters.length + bytes.length ≤ 128) :
    (modes.process bytes).2 = { modes with parameters := modes.parameters ++ bytes } := by
  rw [process_snd]
  induction bytes generalizing modes with
  | nil => simp
  | cons byte bytes ih =>
      obtain ⟨hbyte, hbytes⟩ := List.forall_mem_cons.mp hbytes
      rw [List.length_cons] at hroom
      have hstep : modes.step byte = { modes with parameters := modes.parameters ++ [byte] } := by
        unfold step
        rw [hstate]
        dsimp only
        rw [if_pos hbyte, if_pos (by omega)]
      have hlength : (modes.parameters ++ [byte]).length + bytes.length ≤ 128 := by
        rw [List.length_append, List.length_singleton]
        omega
      rw [List.foldl_cons, hstep,
        ih { modes with parameters := modes.parameters ++ [byte] } hstate hbytes hlength]
      simp

/-- A sequence that has not ended can still change a mode, unless its parameters are almost full: to
forget it makes a difference. -/
theorem unfinished_matters (modes : TerminalModes) (hstate : modes.state ≠ .normal)
    (hroom : modes.state = .sequence → modes.parameters.length ≤ 123) :
    ∃ bytes, (modes.process bytes).2.focusReporting
      ≠ ({ modes with state := .normal }.process bytes).2.focusReporting := by
  obtain ⟨focus, colorScheme, state, parameters⟩ := modes
  cases state with
  | normal => exact absurd rfl hstate
  | escape =>
      refine ⟨[0x5b, 0x3f] ++ focusParameter ++ [if focus then 0x6c else 0x68], ?_⟩
      cases focus
      · exact Bool.false_ne_true.symm
      · exact Bool.false_ne_true
  | csi =>
      refine ⟨[0x3f] ++ focusParameter ++ [if focus then 0x6c else 0x68], ?_⟩
      cases focus
      · exact Bool.false_ne_true.symm
      · exact Bool.false_ne_true
  | sequence =>
      refine ⟨(0x3b :: focusParameter) ++ [if focus then 0x6c else 0x68], ?_⟩
      -- Forgotten, the bytes are text; otherwise they end the sequence with one more parameter.
      have htext : Quiet ((0x3b :: focusParameter) ++ [if focus then 0x6c else 0x68]) :=
        .text (by cases focus <;> simp [focusParameter])
      have hended := process_parameters ⟨focus, colorScheme, .sequence, parameters⟩ rfl
        (0x3b :: focusParameter)
        (List.all_eq_true.mp rfl) (Nat.add_le_add_right (hroom rfl) 5)
      rw [(htext ⟨focus, colorScheme, .normal, parameters⟩ rfl).focus, process_append, hended,
        process_snd]
      have hsplit : (parameters ++ 0x3b :: focusParameter).splitOn 0x3b
          = parameters.splitOn 0x3b ++ [focusParameter] := by
        rw [List.splitOn_eq_splitOnP, List.splitOn_eq_splitOnP,
          List.splitOnP_append_cons _ _ (by decide)]
        rfl
      have hlast (enabled : Bool) (modes : TerminalModes) :
          ((parameters.splitOn 0x3b ++ [focusParameter]).foldl
            (setMode enabled) modes).focusReporting = enabled := by
        rw [List.foldl_append]
        rfl
      cases focus
      · show ((List.splitOn 0x3b (parameters ++ 0x3b :: focusParameter)).foldl
            (setMode true) _).focusReporting ≠ false
        rw [hsplit, hlast]
        exact Bool.false_ne_true.symm
      · show ((List.splitOn 0x3b (parameters ++ 0x3b :: focusParameter)).foldl
            (setMode false) _).focusReporting ≠ true
        rw [hsplit, hlast]
        exact Bool.false_ne_true

end TerminalModes

namespace TerminalState

/-- The `vt100` crate for a terminal that draws nothing: its parser is its size. -/
def undrawn : Vt100 (Nat × Nat) (Nat × Nat) where
  new rows cols _ := (rows, cols)
  process parser _ := parser
  screen parser := parser
  withScreen _ screen := screen
  grid screen := ⟨List.replicate screen.1 ⟨List.replicate screen.2 .blank, false⟩, [], screen.2, 0⟩
  alternateScreen _ := false
  hideCursor _ := false
  cursorPosition _ := (0, 0)
  style _ := .plain
  contentsFormatted _ := escaped "[?25h" ++ escaped "[H"
  inputModeFormatted _ := escaped ">" ++ escaped "[?1l" ++ escaped "[?2004l"
  cursorStateFormatted _ := escaped "[H"
  attributesFormatted _ := escaped "[m"

theorem undrawn_documented : undrawn.Documented where
  contentsFormatted _ :=
    Quiet.private.2.2.append (show Quiet [0x1b, 0x5b, 0x48] from .csi (by decide) (by decide))
  inputModeFormatted _ := by
    have hkeypad : Quiet (escaped ">") := by
      rintro ⟨focus, colorScheme, state, parameters⟩ (rfl : state = .normal)
      exact .of_normal rfl rfl rfl rfl
    have hcursor : Quiet (escaped "[?1l") := by
      rintro ⟨focus, colorScheme, state, parameters⟩ (rfl : state = .normal)
      exact .of_normal rfl rfl rfl rfl
    have hpaste : Quiet (escaped "[?2004l") := by
      rintro ⟨focus, colorScheme, state, parameters⟩ (rfl : state = .normal)
      exact .of_normal rfl rfl rfl rfl
    exact (hkeypad.append hcursor).append hpaste

/-- The sequence that asks for reports of focus, with a resize between two of its reads. -/
def interrupted : List Call :=
  [.process [0x1b, 0x5b, 0x3f, 0x31, 0x30, 0x30, 0x34], .resize 3 5, .process [0x68]]

theorem interrupted_loses_focus :
    ∃ terminal, exec (call undrawn) (new undrawn 2 4) interrupted = some terminal
      ∧ terminal.terminalModes.focusReporting = false
      ∧ (TerminalModes.default.process (interrupted.flatMap Call.bytes)).2.focusReporting =
        true := by
  refine ⟨_, rfl, ?_, ?_⟩ <;> decide +kernel

/-- The sequence comes whole, and the resize after it. -/
def whole : List Call :=
  [.process [0x1b, 0x5b, 0x3f, 0x31, 0x30], .process [0x30, 0x34, 0x68], .resize 3 5]

theorem modes_of_whole :
    ∃ terminal, exec (call undrawn) (new undrawn 2 4) whole = some terminal
      ∧ terminal.terminalModes.focusReporting
        = (TerminalModes.default.process (whole.flatMap Call.bytes)).2.focusReporting
      ∧ terminal.terminalModes.colorSchemeReporting
        = (TerminalModes.default.process (whole.flatMap Call.bytes)).2.colorSchemeReporting
      ∧ terminal.terminalModes.restoreSequence
        = (TerminalModes.default.process (whole.flatMap Call.bytes)).2.restoreSequence := by
  have hok : Meets (call undrawn) (Settled undrawn) (new undrawn 2 4) whole := by
    refine fun u hu => ⟨trivial, fun v hv => ⟨trivial, fun w hw => ⟨Or.inr ?_, trivial⟩⟩⟩
    obtain rfl := Option.some.inj hu
    obtain rfl := Option.some.inj hv
    decide +kernel
  exact ⟨_, rfl, modes_of_calls undrawn_documented hok rfl⟩

end TerminalState

end Boomux.Terminal
