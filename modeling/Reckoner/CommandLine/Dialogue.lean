import Reckoner.Console
import Reckoner.Session
import Reckoner.Token.Scanner

/-!
# Dialogues

A dialogue is a program that reads its input line by line and answers each line
before it reads the next. It is given by its prompt and by one function, from the
state and a line to the answer and the next state, if it goes on. What a dialogue
prints for a whole input, `Reckoner.CommandLine.Dialogue.output`, is a fold of that
function; a program that talks to someone runs the same function line by line.
-/

namespace Reckoner

namespace CommandLine

/-! ### Lines -/

/-- The lines of a text. A line ends at a line feed, which may have a carriage return
in front of it; behind the last line feed is a line only if there is something. -/
def linesOf : List Char → List (List Char)
  | [] => []
  | '\n' :: cs => [] :: linesOf cs
  | '\r' :: '\n' :: cs => [] :: linesOf cs
  | c :: cs =>
    match linesOf cs with
    | [] => [[c]]
    | l :: ls => (c :: l) :: ls

/-! ### Dialogues -/

/-- **A dialogue** with states in `σ`. -/
structure Dialogue (σ : Type) where
  /-- What is printed in front of every line to be read. -/
  prompt : String
  /-- The answer to a line, and the state behind it unless the dialogue ends. -/
  respond : σ → String → String × Option σ

/-- **What a dialogue prints** for given lines, the end of the input being behind the
last one. -/
def Dialogue.output {σ : Type} (d : Dialogue σ) (s : σ) : List String → String
  | [] => d.prompt
  | line :: lines =>
    match d.respond s line with
    | (answer, none) => d.prompt ++ answer
    | (answer, some t) => d.prompt ++ answer ++ d.output t lines

/-- Lines as they are printed. -/
def printed (lines : List String) : String := String.join (lines.map (· ++ "\n"))

/-! ### The dialogues of the calculator -/

/-- The report of a result. -/
def report : Except LineError Value → String
  | .ok v => v.text
  | .error (.parse (.malformed f p)) => s!"Error at position {p}: {f.message}"
  | .error err => s!"Error: {err.message}"

/-- **Lines evaluated** one after the other, up to an empty line. -/
def calculation {hash : String → UInt64} (r : Reading) : Dialogue (Session hash) where
  prompt := "Expression: "
  respond s line :=
    if line.isEmpty then ("", none)
    else
      let (result, t) := s.run r line
      (printed [report result], some t)

/-- The tokens of a line, as they are shown. -/
def tokenReport (line : String) : String := printed ((tokenize line).map Token.describe)

/-- **The tokens of lines**, up to an empty line. -/
def tokenListing : Dialogue Unit where
  prompt := ""
  respond _ line := if line.isEmpty then ("", none) else (tokenReport line, some ())

/-- **The table console**, up to the command that leaves it. -/
def tableConsole {hash : String → UInt64} : Dialogue (StringTable hash) where
  prompt := "Command: "
  respond t line :=
    match Command.ofLine line with
    | .ok .exit => ("", none)
    | .ok c =>
      let (lines, u) := c.apply t
      (printed lines, some u)
    | .error err => (printed [err.message], some t)

end CommandLine

end Reckoner
