import Reckoner.Display.Widget

/-!
# A toolkit for the terminal

`Reckoner.Display.Toolkit.plain` puts every character into a cell of its own. What
does not fit into its area is cut off.

An area is divided from its beginning to its end. Each part gets what is asked for
it; what is left over goes to the first part that may be longer, or to the last one.
A widget is painted row by row over the cells of its area, which keep what nothing is
written over.
-/

namespace Reckoner

namespace Display

/-! ### Areas divided -/

/-- The length that is asked for a part of a given whole. -/
def Constraint.length (whole : Nat) : Constraint → Nat
  | atLeast n => n
  | exactly n => n
  | percentage share => whole * share / 100

/-- The lengths of the parts of a whole, with something left over. -/
def partLengths (whole left : Nat) : List Constraint → List Nat
  | [] => []
  | [c] => [c.length whole + left]
  | .atLeast n :: cs => (n + left) :: cs.map (·.length whole)
  | c :: cs => c.length whole :: partLengths whole left cs

theorem length_partLengths (whole left : Nat) (cs : List Constraint) :
    (partLengths whole left cs).length = cs.length := by
  fun_induction partLengths whole left cs <;> simp_all

namespace Area

/-- The length of an area in a direction. -/
def length (a : Area) : Direction → Nat
  | .vertical => a.height
  | .horizontal => a.width

/-- The part of an area with a given length, behind so many of its rows or columns. -/
def part (a : Area) (start length : Nat) : Direction → Area
  | .vertical => { a with y := a.y + start, height := length }
  | .horizontal => { a with x := a.x + start, width := length }

/-- Parts of given lengths, one behind the other. -/
def parts (a : Area) (d : Direction) (start : Nat) : List Nat → List Area
  | [] => []
  | n :: ns => a.part start n d :: a.parts d (start + n) ns

theorem length_parts (a : Area) (d : Direction) (start : Nat) (ns : List Nat) :
    (a.parts d start ns).length = ns.length := by
  fun_induction parts a d start ns <;> simp_all

/-- **An area divided.** -/
def divide (d : Direction) (cs : List Constraint) (a : Area) : Vector Area cs.length :=
  let whole := a.length d
  let left := cs.foldl (fun left c => left - c.length whole) whole
  ⟨(a.parts d 0 (partLengths whole left cs)).toArray,
    (a.length_parts d 0 _).trans (length_partLengths whole left cs)⟩

end Area

/-! ### Widgets painted -/

/-- The upper side of a block, with its title in it. -/
def topBorder (inner : Nat) (title : String) : List Char :=
  '┌' :: (title.toList ++ List.replicate (inner - title.length) '─').take inner ++ ['┐']

/-- The lower side of a block. -/
def bottomBorder (inner : Nat) : List Char := '└' :: List.replicate inner '─' ++ ['┘']

/-- Text between the left and the right side of a block, over the cells of a row. -/
def Block.paintRow (b : Block) (cells : Row) (text : List Glyph) : Row :=
  let row := writeAt cells 0 [('│', b.border)]
  let row := writeAt row (1 + b.padding) (text.take (cells.length - 2 - b.padding))
  writeAt row (cells.length - 1) [('│', b.border)]

/-- Text at one end of the cells of a row. -/
def Alignment.paintRow (alignment : Alignment) (cells : Row) (text : List Glyph) : Row :=
  match alignment with
  | left => writeAt cells 0 text
  | right => writeAt cells (cells.length - text.length) text

/-- **A row of a widget**, painted over the cells that its area of a given height has
there. -/
def Widget.paintRow (w : Widget) (height i : Nat) (cells : Row) : Row :=
  let base := cells.map (·.restyle w.style)
  match w.block? with
  | none => w.alignment.paintRow base (glyphs (w.lines.getD i []))
  | some b =>
    if i = 0 then writeAt base 0 (styled b.border (topBorder (cells.length - 2) b.title))
    else if i + 1 = height then writeAt base 0 (styled b.border (bottomBorder (cells.length - 2)))
    else b.paintRow base (glyphs (w.lines.getD (i - 1) []))

/-- Cells written over a row, from a given column on. -/
def overwrite (row : Row) (start : Nat) (cells : Row) : Row :=
  row.mapIdx fun x c => if start ≤ x then cells[x - start]?.getD c else c

/-- **A widget painted** in an area of the screen. -/
def Widget.paint (w : Widget) (a : Area) (rows : List Row) : List Row :=
  rows.mapIdx fun y row =>
    if a.y ≤ y ∧ y < a.y + a.height then
      overwrite row a.x (w.paintRow a.height (y - a.y) ((row.drop a.x).take a.width))
    else row

/-- **The toolkit of the program.** -/
def Toolkit.plain : Toolkit where
  split := Area.divide
  render := Widget.paint

end Display

end Reckoner
