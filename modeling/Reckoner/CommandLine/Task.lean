import Reckoner.CommandLine.Arguments
import Reckoner.CommandLine.Dialogue

/-!
# Tasks

What the command line asks for is one of few things: to print something and be
done, to hold a dialogue, or to open the workbench, which takes a terminal. Where
it asks for several of them at once, the table goes before the tokens, these
before a single line, and that before lines from standard input.

`Reckoner.CommandLine.Task.outcome` says what a task prints and with which exit code
it ends, for a given standard input.
-/

namespace Reckoner

namespace CommandLine

/-- **A task.** -/
inductive Task : Type 1
  /-- Print a text and end with an exit code. -/
  | print (text : String) (exitCode : Nat)
  /-- Hold a dialogue. -/
  | talk {σ : Type} (d : Dialogue σ) (start : σ)
  /-- Open the workbench. -/
  | workbench

/-- A single line evaluated in a new session. -/
def Task.single {hash : String → UInt64} (s : Session hash) (r : Reading) (line : String) : Task :=
  let result := (s.run r line).1
  match result with
  | .ok _ => .print (printed [report result]) 0
  | .error _ => .print (printed [report result]) 1

/-- **The task that given arguments ask for**, with a hash for the tables it works on. -/
def Arguments.task (a : Arguments) (hash : String → UInt64 := Text.hash) : Task :=
  let r : Reading := if a.rpn then .postfixed else .ordinary
  let s := Session.new a.options a.history hash
  if a.table then .talk tableConsole (∅ : StringTable hash)
  else
    match a.tokens, a.expr?, a.plain with
    | true, some line, _ => .print (tokenReport line) 0
    | true, none, _ => .talk tokenListing ()
    | false, some line, _ => .single s r line
    | false, none, true => .talk (calculation r) s
    | false, none, false => .workbench

/-- **The task of a command line**, with a parser of arguments. Where the parser refuses them, it
says what to print and with which exit code to end. -/
def Task.ofArguments (args : List String) (parser : ArgumentParser := Arguments.parser)
    (hash : String → UInt64 := Text.hash) : Task :=
  match parser args with
  | .ok a => a.task hash
  | .error refusal => .print refusal.text refusal.exitCode

/-- **What a task prints**, and its exit code, for a given standard input. Without a
terminal the workbench cannot be opened. -/
def Task.outcome (t : Task) (stdin : String) : String × Nat :=
  match t with
  | .print text exitCode => (text, exitCode)
  | .talk d start => (d.output start ((linesOf stdin.toList).map String.ofList), 0)
  | .workbench => ("", 1)

end CommandLine

end Reckoner
