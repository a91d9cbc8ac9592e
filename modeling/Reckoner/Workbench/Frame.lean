import Reckoner.Display.History
import Reckoner.Display.Painter
import Reckoner.Display.Slots
import Reckoner.Workbench

/-!
# Drawing the workbench

A frame is what is on the screen at one time. From top to bottom it shows the
history pane with the symbols pane at its right, the box of the input line, and
the status bar. A frame is at least six rows high; the input box takes three of
them and the bar one.

What is in the panes is said by widgets. The toolkit with which they are drawn is a
parameter: it divides the screen (`Reckoner.Workbench.layout`) and makes the widgets
cells (`Reckoner.Workbench.frame`).

Drawing puts the scroll offsets right: an offset beyond the last page of a pane
becomes that of the last page (`Reckoner.Workbench.clampScroll`). Nothing else of
the workbench changes by being drawn.

The input line is shown from its first character as long as the cursor has room in
the box behind the prompt, and from a later one otherwise.
-/

namespace Reckoner

open Display

/-- **A frame**: its rows, and the place of the cursor if it is shown. -/
structure Frame where
  /-- The rows from top to bottom. -/
  rows : List Row
  /-- The column and the row of the cursor. -/
  cursor? : Option (Nat × Nat)
deriving DecidableEq

/-- **The areas of a frame.** -/
structure Layout where
  /-- The area of the history pane. -/
  history : Area
  /-- The area of the symbols pane. -/
  symbols : Area
  /-- The area of the input box. -/
  input : Area
  /-- The left half of the status bar. -/
  message : Area
  /-- The right half of the status bar. -/
  help : Area
deriving DecidableEq

namespace Workbench

variable {hash : String → UInt64}

/-! ### Areas -/

/-- **How a screen is divided.** -/
def layout (kit : Toolkit) (width height : Nat) : Layout :=
  let rows := kit.split .vertical [.atLeast 0, .exactly 3, .exactly 1] ⟨0, 0, width, height⟩
  let panes := kit.split .horizontal [.percentage 65, .percentage 35] rows[0]
  let bar := kit.split .horizontal [.percentage 50, .percentage 50] rows[2]
  { history := panes[0], symbols := panes[1], input := rows[1], message := bar[0], help := bar[1] }

/-! ### Panes -/

/-- The border of a pane. -/
def borderStyle (focused : Bool) : Style :=
  if focused then { fg? := some Palette.focusedBorder, bold := true }
  else .ofColour Palette.border

/-- The number of lines of content that a pane is taken to show: at least one. -/
def visibleLines (height : Nat) : Nat := max (height - 2) 1

/-- An offset not beyond the last page of `total` lines. -/
def clampScroll (offset total visible : Nat) : Nat := min offset (total - visible)

/-- **The window of the history pane**, of as many lines as are visible. -/
def historyWindow (w : Workbench hash) (visible : Nat) : List Line :=
  ((historyLines w.session.transcript).drop w.historyScroll).take visible

/-- **The window of the symbols pane.** -/
def symbolsWindow (w : Workbench hash) (visible : Nat) : List Line :=
  ((symbolLines w.session.symbols).drop w.symbolsScroll).take visible

/-- What the history pane shows while there is no history. -/
def hint : Line := [⟨"(type an expression and press Enter)", {}⟩]

/-- The history pane, in an area of a given height. -/
def historyPane (w : Workbench hash) (height : Nat) : Widget :=
  let border := borderStyle (w.focus = .history)
  let title := s!" History ({w.session.transcript.total}) "
  if w.session.transcript.isEmpty then
    { lines := [hint], block? := some { border, title }, style := .ofColour Palette.comment }
  else
    { lines := w.historyWindow (visibleLines height)
      isList := true
      block? := some { border, title, padding := 1 } }

/-- The symbols pane, in an area of a given height. -/
def symbolsPane (w : Workbench hash) (height : Nat) : Widget :=
  let t := w.session.symbols
  { lines := w.symbolsWindow (visibleLines height)
    isList := true
    block? := some
      { border := borderStyle (w.focus = .symbols), title := s!" Symbols {t.size}/{t.capacity} " } }

/-! ### The input box -/

/-- The prompt in front of the input line. -/
def prompt : Reading → String
  | .ordinary => "Expression: "
  | .postfixed => "Postfix: "

/-- The room for the cursor behind the prompt, in a box of a given width. -/
def inputRoom (r : Reading) (width : Nat) : Nat := max (width - 2 - ((prompt r).length + 1)) 1

/-- The number of characters of the input line that are not shown at its left. -/
def inputSkip (w : Workbench hash) (width : Nat) : Nat :=
  w.editor.cursor - inputRoom w.reading width

/-- The line in the input box: the prompt, and what is shown of the input line. -/
def inputLine (w : Workbench hash) (width : Nat) : Line :=
  [⟨prompt w.reading, .ofColour Palette.primary⟩,
    ⟨.ofList (w.editor.chars.drop (w.inputSkip width)), .ofColour Palette.plain⟩]

/-- The input box, of a given width. -/
def inputBox (w : Workbench hash) (width : Nat) : Widget where
  lines := [w.inputLine width]
  block? := some { border := borderStyle (w.focus = .input) }

/-- The column of the cursor in the input box. -/
def cursorColumn (w : Workbench hash) (width : Nat) : Nat :=
  1 + ((prompt w.reading).length + w.editor.cursor - w.inputSkip width)

/-! ### The status bar -/

/-- The way of reading lines, and the message. -/
def statusLine (w : Workbench hash) : Line :=
  let mode := match w.reading with
    | .ordinary => (" INFIX ", Palette.primary)
    | .postfixed => (" POSTFIX ", Palette.secondary)
  let mark := if w.status.isError then Palette.error else mode.2
  let message := if w.status.isError then Palette.error else Palette.plain
  [⟨mode.1, { fg? := some .black, bg? := some mark, bold := true }⟩,
    ⟨" | ", { fg? := some Palette.comment, bg? := some Palette.bar }⟩,
    ⟨s!" {w.status.message} ", { fg? := some message, bg? := some Palette.bar }⟩]

/-- A key and what it does. -/
def keyHelp (key action : String) : Line :=
  [⟨key, { fg? := some .black, bg? := some Palette.comment }⟩,
    ⟨action, { fg? := some Palette.plain, bg? := some Palette.bar }⟩]

/-- What stands between two keys. -/
def keySeparator : Line :=
  [⟨"│", { fg? := some Palette.comment, bg? := some Palette.bar }⟩,
    ⟨" ", { fg? := some Palette.plain, bg? := some Palette.bar }⟩]

/-- The keys. -/
def helpLine : Line :=
  keySeparator.intercalate
    [keyHelp " ↵ " " evaluate ", keyHelp " ⇥ " " focus ", keyHelp " ↑/↓ " " scroll ",
      keyHelp " ^R " " mode ", keyHelp " esc " " quit "]

/-- The left half of the status bar. -/
def messageBar (w : Workbench hash) : Widget where
  lines := [w.statusLine]
  style := { bg? := some Palette.bar }

/-- The right half of the status bar. -/
def helpBar : Widget where
  lines := [helpLine]
  style := { bg? := some Palette.bar }
  alignment := .right

/-! ### The frame -/

/-- The workbench with its scroll offsets put right, where so many lines of the
history and of the symbols are visible. -/
def settle (w : Workbench hash) (historyVisible symbolsVisible : Nat) : Workbench hash :=
  let transcript := w.session.transcript
  { w with
    historyScroll :=
      if transcript.isEmpty then w.historyScroll
      else clampScroll w.historyScroll (historyLines transcript).length historyVisible
    symbolsScroll :=
      clampScroll w.symbolsScroll (symbolLines w.session.symbols).length symbolsVisible }

/-- What is drawn in which area, in order. -/
def placed (w : Workbench hash) (l : Layout) : List (Widget × Area) :=
  [(w.historyPane l.history.height, l.history), (w.symbolsPane l.symbols.height, l.symbols),
    (w.inputBox l.input.width, l.input), (w.messageBar, l.message), (helpBar, l.help)]

/-- The frame of a workbench with its offsets put right. -/
def frame (w : Workbench hash) (kit : Toolkit) (width height : Nat) : Frame :=
  let l := layout kit width height
  { rows := kit.drawAll (w.placed l) (emptyScreen width height)
    cursor? :=
      if w.focus = .input then some (l.input.x + w.cursorColumn l.input.width, l.input.y + 1)
      else none }

/-- **Drawing**: the frame, and the workbench with its scroll offsets put right. -/
def draw (w : Workbench hash) (width height : Nat) (kit : Toolkit := .plain) :
    Frame × Workbench hash :=
  let l := layout kit width height
  let settled := w.settle (visibleLines l.history.height) (visibleLines l.symbols.height)
  (settled.frame kit width height, settled)

end Workbench

end Reckoner
