import Reckoner.CommandLine.Task

/-!
# The program

The outer layer of the calculator: it reads standard input line by line and writes
what the task of the command line has to say. Nothing is decided here.
-/

namespace Reckoner

namespace CommandLine

/-- Text printed at once. -/
def say (text : String) : IO Unit := do
  let stdout ← IO.getStdout
  stdout.putStr text
  stdout.flush

/-- The next line of standard input, without its end. -/
def readLine? : IO (Option String) := do
  let line ← (← IO.getStdin).getLine
  return (linesOf line.toList).head?.map String.ofList

/-- A dialogue held with standard input and output. -/
partial def Dialogue.hold {σ : Type} (d : Dialogue σ) (s : σ) : IO Unit := do
  say d.prompt
  match ← readLine? with
  | none => return
  | some line =>
    let (answer, next?) := d.respond s line
    say answer
    match next? with
    | some t => d.hold t
    | none => return

/-- A task carried out. -/
def Task.perform : Task → IO UInt32
  | .print text exitCode => do
    say text
    return exitCode.toUInt32
  | .talk d start => do
    d.hold start
    return 0
  | .workbench => do
    IO.eprintln "the workbench needs a terminal"
    return 1

end CommandLine

end Reckoner

/-- The program. -/
def main (args : List String) : IO UInt32 :=
  (Reckoner.CommandLine.Task.ofArguments args Reckoner.CommandLine.Arguments.parser).perform
