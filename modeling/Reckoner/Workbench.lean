import Reckoner.LineEditor
import Reckoner.Session

/-!
# The workbench

The workbench is a session as it is used at a screen with a keyboard: an input
line that is edited and submitted, a history pane and a symbols pane that can be
scrolled, and a status message. One of the three has the focus, which decides what
the arrows up and down mean.

With the focus on the input line the arrows recall earlier lines. What is recalled
is an index into the transcript and not a copy of it, so it can be walked on from
(`Reckoner.Workbench.recallPrevious`, `Reckoner.Workbench.recallNext`).

A line is submitted only if there is something in it besides white space. Then the
session runs it as it stands, and nothing else ever runs a line.
-/

namespace Reckoner

/-! ### Keys -/

/-- **The keys** that mean something. -/
inductive Key
  | enter
  | escape
  | tab
  | up
  | down
  | left
  | right
  | lineStart
  | lineEnd
  | backspace
  | delete
  | char (c : Char)
  | other
deriving DecidableEq

/-- **A key press.** -/
structure Press where
  /-- The key. -/
  key : Key
  /-- Whether the control key is held. -/
  control : Bool := false
deriving DecidableEq

/-! ### The state -/

/-- What has the focus. -/
inductive Focus
  | input
  | history
  | symbols
deriving DecidableEq

/-- Where the focus goes next. -/
def Focus.next : Focus → Focus
  | input => history
  | history => symbols
  | symbols => input

/-- **A status message.** -/
structure Status where
  /-- The message. -/
  message : String
  /-- Whether it is about a failure. -/
  isError : Bool := false
deriving DecidableEq

/-- What is reported of a line that has been run. -/
def Status.ofResult (line : String) : Except LineError Value → Status
  | .ok v => { message := .ofList (Text.trim line.toList ++ " = ".toList ++ v.digits) }
  | .error err =>
    match err.position? with
    | some p => { message := s!"Error at position {p}", isError := true }
    | none => { message := "Error", isError := true }

/-- The greatest scroll offset, `2 ^ 64 - 1`. It stands for the last page, however long
the content is. -/
def maxScroll : Nat := 0xffffffffffffffff

/-- **The workbench.** -/
structure Workbench (hash : String → UInt64 := Text.hash) where
  /-- The session. -/
  session : Session hash
  /-- How lines are read. -/
  reading : Reading := .ordinary
  /-- The input line. -/
  editor : LineEditor := {}
  /-- The index of the entry recalled, while one is. -/
  recalled? : Option Nat := none
  /-- What has the focus. -/
  focus : Focus := .input
  /-- The number of lines above those shown of the history. -/
  historyScroll : Nat := 0
  /-- The number of lines above those shown of the symbols. -/
  symbolsScroll : Nat := 0
  /-- The status message. -/
  status : Status := { message := "Ready!" }
  /-- Whether the workbench is to be left. -/
  quit : Bool := false

namespace Workbench

variable {hash : String → UInt64}

/-! ### Recalling -/

/-- An entry put into the input line, if there is one at the index. -/
def load (w : Workbench hash) (i : Nat) : Workbench hash :=
  match w.session.transcript.get? i with
  | some e => { w with editor := .ofText e.input, recalled? := some i }
  | none => w

/-- **The entry before the one recalled**, or the latest one at first. -/
def recallPrevious (w : Workbench hash) : Workbench hash :=
  match w.session.transcript.length, w.recalled? with
  | 0, _ => w
  | _, some i => w.load (i - 1)
  | n + 1, none => w.load n

/-- **The entry behind the one recalled**. Behind the latest one is an empty line. -/
def recallNext (w : Workbench hash) : Workbench hash :=
  match w.recalled? with
  | none => w
  | some i =>
    if i + 1 < w.session.transcript.length then w.load (i + 1)
    else { w with editor := {}, recalled? := none }

/-! ### Submitting -/

/-- **Submitting the input line**, unless it is blank. -/
def submit (w : Workbench hash) : Workbench hash :=
  if w.editor.chars.all Text.isSpace then w
  else
    let line := w.editor.text
    let (result, session) := w.session.run w.reading line
    { w with
      session := session
      editor := {}
      recalled? := none
      status := Status.ofResult line result
      historyScroll := maxScroll }

/-! ### Keys pressed -/

/-- The other way of reading lines. -/
def toggleReading (w : Workbench hash) : Workbench hash :=
  match w.reading with
  | .ordinary => { w with reading := .postfixed, status := { message := "Postfix input" } }
  | .postfixed => { w with reading := .ordinary, status := { message := "Infix input" } }

/-- One line up. -/
def goUp (w : Workbench hash) : Workbench hash :=
  match w.focus with
  | .input => w.recallPrevious
  | .history => { w with historyScroll := w.historyScroll - 1 }
  | .symbols => { w with symbolsScroll := w.symbolsScroll - 1 }

/-- One line down. -/
def goDown (w : Workbench hash) : Workbench hash :=
  match w.focus with
  | .input => w.recallNext
  | .history => { w with historyScroll := min (w.historyScroll + 1) maxScroll }
  | .symbols => { w with symbolsScroll := min (w.symbolsScroll + 1) maxScroll }

/-- A character typed. With the control key held, `c` leaves the workbench, `r`
switches between the two ways of reading lines, and the others mean nothing. -/
def typeChar (w : Workbench hash) (c : Char) (control : Bool) : Workbench hash :=
  if control then
    if c = 'c' then { w with quit := true }
    else if c = 'r' then w.toggleReading
    else w
  else { w with editor := w.editor.insert c, focus := .input }

/-- **A key pressed.** Apart from characters, keys mean the same with the control key
held. -/
def press (w : Workbench hash) (p : Press) : Workbench hash :=
  match p.key with
  | .escape => { w with quit := true }
  | .enter => w.submit
  | .tab => { w with focus := w.focus.next }
  | .up => w.goUp
  | .down => w.goDown
  | .left => { w with editor := w.editor.left }
  | .right => { w with editor := w.editor.right }
  | .lineStart => { w with editor := w.editor.toStart }
  | .lineEnd => { w with editor := w.editor.toEnd }
  | .backspace => { w with editor := w.editor.backspace }
  | .delete => { w with editor := w.editor.delete }
  | .char c => w.typeChar c p.control
  | .other => w

end Workbench

end Reckoner
