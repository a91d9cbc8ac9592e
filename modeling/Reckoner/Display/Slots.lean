import Reckoner.Display.Style
import Reckoner.SymbolTable

/-!
# The lines of a table

A table of variables is shown slot by slot, the empty ones included, so that it can
be seen how it fills and grows. An entry that is not in its home slot says where
that is and how far it has got from there.
-/

namespace Reckoner

namespace Display

/-- What is shown of an entry away from home. -/
def displacementSpans (s : Columns.Slot String Value) (capacity : Nat) : List Span :=
  match s.home?, s.displacement? capacity with
  | some home, some (d + 1) =>
    [⟨s!"  (home {home}, +{d + 1})", .ofColour Palette.displaced⟩]
  | _, _ => []

/-- The line of a slot, with room for the numbers of all slots. -/
def slotLine (capacity width : Nat) (s : Columns.Slot String Value) : Line :=
  let number := toString s.index
  let index : Span := ⟨blanks (width - number.length) ++ number ++ " ", .ofColour Palette.comment⟩
  match s.entry? with
  | none => [index, ⟨"·", .ofColour Palette.comment⟩]
  | some (x, v) =>
    [index, ⟨x, .ofColour Palette.variableName⟩, ⟨" = ", .ofColour Palette.comment⟩,
      ⟨v.text, .ofColour Palette.number⟩] ++ displacementSpans s capacity

/-- **The lines of a table**, slot by slot. -/
def symbolLines {hash : String → UInt64} (t : SymbolTable hash) : List Line :=
  t.slotList.map (slotLine t.capacity (toString (t.capacity - 1)).length)

end Display

end Reckoner
