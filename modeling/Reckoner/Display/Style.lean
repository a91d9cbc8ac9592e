/-!
# Styled text

Text on the screen has a style: the colour of the characters, the colour behind
them, and whether they are bold. A style need not settle all three. What it leaves
open stays as it is where the text is written, and bold is only ever switched on.

A line is a list of spans, each of them text in one style. The colours by which
the parts of a calculation are told apart are those of `Reckoner.Display.Palette`.
-/

namespace Reckoner

namespace Display

/-! ### Colours -/

/-- **A colour**: the terminal's own, black, or one mixed from red, green and blue. -/
inductive Colour
  | reset
  | black
  | rgb (red green blue : UInt8)
deriving DecidableEq

namespace Palette

/-- Plain text. -/
def plain : Colour := .rgb 205 214 244

/-- Postfix notation, prompts, and the mark of ordinary notation. -/
def primary : Colour := .rgb 137 180 250

/-- The mark of postfix notation. -/
def secondary : Colour := .rgb 250 179 135

/-- What stands around the text proper. -/
def comment : Colour := .rgb 108 112 134

/-- Values of lines. -/
def success : Colour := .rgb 166 227 161

/-- Failures. -/
def error : Colour := .rgb 243 139 168

/-- Values of variables. -/
def number : Colour := .rgb 250 179 135

/-- Names of variables. -/
def variableName : Colour := .rgb 148 226 213

/-- The border of the pane that has the focus. -/
def focusedBorder : Colour := .rgb 249 226 175

/-- The border of the other panes. -/
def border : Colour := .rgb 108 112 134

/-- Behind the status bar. -/
def bar : Colour := .rgb 50 50 70

/-- Entries that are not in their home slot. -/
def displaced : Colour := .rgb 245 194 231

end Palette

/-! ### Styles, spans and lines -/

/-- **A style.** -/
structure Style where
  /-- The colour of the characters, if it is settled. -/
  fg? : Option Colour := none
  /-- The colour behind them, if it is settled. -/
  bg? : Option Colour := none
  /-- Whether they are bold for certain. -/
  bold : Bool := false
deriving DecidableEq

/-- The style that settles the colour of the characters. -/
def Style.ofColour (c : Colour) : Style := { fg? := some c }

/-- **A span**: text in one style. -/
structure Span where
  /-- The text. -/
  text : String
  /-- Its style. -/
  style : Style
deriving DecidableEq

/-- A line of the screen. -/
abbrev Line : Type := List Span

/-- A character with the style of its span. -/
abbrev Glyph : Type := Char × Style

/-- The characters of a line. -/
def glyphs (l : Line) : List Glyph := l.flatMap fun s => s.text.toList.map fun c => (c, s.style)

/-- Blanks. -/
def blanks (n : Nat) : String := .ofList (List.replicate n ' ')

end Display

end Reckoner
