import Reckoner.Display.Cell

/-!
# Widgets and toolkits

What is to be drawn is said by a `Reckoner.Display.Widget`: lines of text for an area
of the screen, with a block around them or without one. How an area is divided and
which cells a widget comes to be is the matter of a `Reckoner.Display.Toolkit`, which
whoever draws is given. A frame is what widgets drawn one after the other leave on
an empty screen (`Reckoner.Display.Toolkit.drawAll`).
-/

namespace Reckoner

namespace Display

/-! ### Areas -/

/-- **An area** of the screen. -/
@[ext]
structure Area where
  /-- The column of its left side. -/
  x : Nat
  /-- The row of its upper side. -/
  y : Nat
  /-- The number of its columns. -/
  width : Nat
  /-- The number of its rows. -/
  height : Nat
deriving DecidableEq

/-- The direction in which an area is divided. -/
inductive Direction
  /-- Into parts below each other. -/
  | vertical
  /-- Into parts beside each other. -/
  | horizontal
deriving DecidableEq

/-- What is asked of the length of a part. -/
inductive Constraint
  /-- It has this length or a greater one. -/
  | atLeast (length : Nat)
  /-- It has this length. -/
  | exactly (length : Nat)
  /-- It has so many hundredths of the whole. -/
  | percentage (share : Nat)
deriving DecidableEq

/-! ### Widgets -/

/-- **A block**: a border at all four sides of an area. -/
structure Block where
  /-- The style of the border. -/
  border : Style
  /-- The title, which is written over the upper side. -/
  title : String := ""
  /-- The number of columns that are left free behind the left side. -/
  padding : Nat := 0
deriving DecidableEq

/-- The side of an area at which lines are aligned. -/
inductive Alignment
  | left
  | right
deriving DecidableEq

/-- **A widget.** -/
structure Widget where
  /-- Its lines, which are not broken. -/
  lines : List Line
  /-- Whether the lines are the items of a list. Otherwise they make a paragraph. -/
  isList : Bool := false
  /-- The block around the lines, if there is one. -/
  block? : Option Block := none
  /-- The style of the whole area. -/
  style : Style := {}
  /-- Where the lines are aligned. -/
  alignment : Alignment := .left
deriving DecidableEq

/-! ### Toolkits -/

/-- **A toolkit** for drawing. -/
structure Toolkit where
  /-- The parts of an area, one for each constraint. -/
  split : Direction → (constraints : List Constraint) → Area → Vector Area constraints.length
  /-- The rows of the screen after a widget has been drawn in an area. -/
  render : Widget → Area → List Row → List Row

/-- The rows of the screen after some widgets have been drawn one after the other. -/
def Toolkit.drawAll (kit : Toolkit) (placed : List (Widget × Area)) (rows : List Row) : List Row :=
  placed.foldl (fun rows (widget, area) => kit.render widget area rows) rows

/-- The rows of an empty screen. -/
def emptyScreen (width height : Nat) : List Row := List.replicate height (List.replicate width {})

end Display

end Reckoner
