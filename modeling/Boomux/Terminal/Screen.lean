import Boomux.Basic.Bytes

/-!
# The screen of a terminal

What is read of the screen that the terminal parser keeps: the rows of the drawing area and those
scrolled off its top, each a row of cells with a flag that says that its text goes on in the next
row. A screen can be scrolled back, and then shows rows of the scrollback first.
-/

set_option autoImplicit false

namespace Boomux.Terminal

open Rust

/-! ## Cells and rows -/

/-- `TerminalColor`, which has the cases of `vt100::Color`. -/
inductive TerminalColor
  | default
  | indexed (index : UInt8)
  | rgb (red green blue : UInt8)
  deriving DecidableEq, Repr

/-- `TerminalStyle`, which has the fields of `CellStyle`. -/
structure TerminalStyle where
  foreground : TerminalColor
  background : TerminalColor
  bold : Bool
  dim : Bool
  italic : Bool
  underline : Bool
  inverse : Bool
  deriving DecidableEq, Repr

/-- `CellStyle::default`. -/
def TerminalStyle.plain : TerminalStyle := ⟨.default, .default, false, false, false, false, false⟩

/-- A cell of the screen. The parser draws no control character. -/
structure Cell where
  contents : List Char
  isWide : Bool
  isWideContinuation : Bool
  style : TerminalStyle
  drawn : ∀ c ∈ contents, isControl c = false
  deriving DecidableEq

def Cell.hasContents (cell : Cell) : Bool := !cell.contents.isEmpty

/-- A cell that was never drawn. -/
def Cell.blank : Cell := ⟨[], false, false, .plain, fun _ h => absurd h List.not_mem_nil⟩

structure Row where
  cells : List Cell
  wrapped : Bool
  deriving DecidableEq

/-! ## The screen -/

/-- The rows of the drawing area and of the scrollback, oldest first, and how far it is scrolled
back. -/
structure Screen where
  rows : List Row
  scrollbackRows : List Row
  cols : Nat
  offset : Nat
  deriving DecidableEq

namespace Screen

variable (screen : Screen)

/-- `size`. -/
def size : Nat × Nat := (screen.rows.length, screen.cols)

/-- `set_scrollback`. -/
def setScrollback (offset : Nat) : Screen :=
  { screen with offset := min offset screen.scrollbackRows.length }

/-- `scrollback`. -/
def scrollback : Nat := screen.offset

/-- The rows that are shown. -/
def visibleRows : List Row :=
  ((screen.scrollbackRows ++ screen.rows).drop (screen.scrollbackRows.length - screen.offset)).take
    screen.rows.length

/-- `cell`. -/
def cell (row col : Nat) : Option Cell := do
  let row ← screen.visibleRows[row]?
  row.cells[col]?

/-- `row_wrapped`. -/
def rowWrapped (row : Nat) : Bool := screen.visibleRows[row]?.any (·.wrapped)

end Screen

/-- The last column that is not blank, or all of a wrapped row. -/
def lastCol (screen : Screen) (row : Nat) : Option Nat :=
  if screen.rowWrapped row then if screen.cols = 0 then none else some (screen.cols - 1)
  else (List.range screen.cols).reverse.find? fun col =>
    (screen.cell row col).any fun cell => cell.hasContents || cell.style ≠ .plain

end Boomux.Terminal
