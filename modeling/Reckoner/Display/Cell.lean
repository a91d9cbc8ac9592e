import Reckoner.Display.Style

/-!
# Cells and rows

The screen consists of cells, each with a character and the style it has come to
have. Drawing starts from rows of equal cells; text is written over them, and what
does not fit into a row is cut off. A row keeps its length whatever is written
(`Reckoner.Display.length_writeAt`).
-/

namespace Reckoner

namespace Display

/-! ### Cells -/

/-- **A cell of the screen.** -/
structure Cell where
  /-- The character. -/
  char : Char := ' '
  /-- Its colour. -/
  fg : Colour := .reset
  /-- The colour behind it. -/
  bg : Colour := .reset
  /-- Whether it is bold. -/
  bold : Bool := false
deriving DecidableEq

namespace Cell

/-- A cell in a style. -/
def restyle (c : Cell) (s : Style) : Cell :=
  { c with fg := s.fg?.getD c.fg, bg := s.bg?.getD c.bg, bold := c.bold || s.bold }

/-- A character written into a cell. -/
def write (c : Cell) (g : Glyph) : Cell := { c.restyle g.2 with char := g.1 }

end Cell

/-! ### Rows -/

/-- A row of cells, from left to right. -/
abbrev Row : Type := List Cell

/-- Text written into a row from its first cell on. -/
def overlay : Row → List Glyph → Row
  | c :: cs, g :: gs => c.write g :: overlay cs gs
  | cs, [] => cs
  | [], _ :: _ => []

/-- Text written into a row from a given column on. -/
def writeAt (row : Row) (column : Nat) (gs : List Glyph) : Row :=
  row.take column ++ overlay (row.drop column) gs

/-- Characters in one style. -/
def styled (s : Style) (cs : List Char) : List Glyph := cs.map fun c => (c, s)

@[simp]
theorem length_overlay (row : Row) (gs : List Glyph) : (overlay row gs).length = row.length := by
  fun_induction overlay row gs <;> simp_all

@[simp]
theorem length_writeAt (row : Row) (column : Nat) (gs : List Glyph) :
    (writeAt row column gs).length = row.length := by
  simp only [writeAt, List.length_append, length_overlay, List.length_take, List.length_drop]
  omega

/-- **A run of cells** that differ in their characters only. -/
structure Run where
  /-- The characters. -/
  chars : List Char
  /-- A cell of the run; its character does not count. -/
  style : Cell
deriving DecidableEq

/-- The runs of a row, each as long as can be. -/
def runs : Row → List Run
  | [] => []
  | c :: cs =>
    match runs cs with
    | [] => [⟨[c.char], { c with char := ' ' }⟩]
    | r :: rs =>
      if r.style = { c with char := ' ' } then ⟨c.char :: r.chars, r.style⟩ :: rs
      else ⟨[c.char], { c with char := ' ' }⟩ :: r :: rs

end Display

end Reckoner
