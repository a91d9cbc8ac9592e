import Reckoner.Display.Style
import Reckoner.Transcript

/-!
# The lines of a transcript

An entry of a transcript is shown by its number and the line itself, by its
expression in postfix notation if it has one, and by its value or its failure. In
front of everything but the number stands a gutter, so that what belongs to one
entry is aligned; where a failure has a place, a caret points up at it. The gutter
is as wide as a number of four digits in its brackets. A greater number pushes its
own line to the right, and no other.
-/

namespace Reckoner

namespace Display

/-- The width of the gutter, which holds the number of an entry. -/
def gutter : Nat := 6

/-- The number of an entry, filled up to the width of the gutter. -/
def label (number : Nat) : String :=
  let l := s!"[{number}]"
  l ++ blanks (gutter - l.length)

/-- The lines that show what came of an entry. -/
def outcomeLines : Outcome → List Line
  | .value v =>
    [[⟨blanks gutter, .ofColour Palette.comment⟩, ⟨"=   ", .ofColour Palette.comment⟩,
      ⟨v.text, { fg? := some Palette.success, bold := true }⟩]]
  | .failure message position? =>
    (position?.map fun p =>
      [⟨blanks (gutter + p) ++ "^", { fg? := some Palette.error, bold := true }⟩]).toList ++
    [[⟨blanks gutter, .ofColour Palette.comment⟩, ⟨message, .ofColour Palette.error⟩]]

/-- The lines of one entry. -/
def entryLines (number : Nat) (e : Entry) : List Line :=
  [⟨label number, .ofColour Palette.comment⟩, ⟨e.input, .ofColour Palette.plain⟩] ::
  (e.expression?.map fun x =>
    [⟨blanks gutter, .ofColour Palette.comment⟩, ⟨"rpn ", .ofColour Palette.comment⟩,
      ⟨x, .ofColour Palette.primary⟩]).toList ++
  outcomeLines e.outcome

/-- **The lines of a transcript**, entry by entry. -/
def historyLines (t : Transcript) : List Line :=
  (t.entries.zipIdx t.firstNumber).flatMap fun (e, number) => entryLines number e

end Display

end Reckoner
