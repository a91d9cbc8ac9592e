import Reckoner.Parse.Basic
import Reckoner.Transcript

/-!
# Arguments

What the words on a command line ask for is a `Reckoner.CommandLine.Arguments`. How they are written
is the matter of an `Reckoner.CommandLine.ArgumentParser`, which the program takes as it is: nothing
that is said of the program depends on which one it is.

The parser that it runs with, `Reckoner.CommandLine.Arguments.parser`, knows flags and settings. A
setting takes a value: behind an equals sign, in the next argument, or, for a setting of one letter,
directly behind the letter. Several flags of one letter can share a dash. Flags and settings are
given once at the most, `-v` excepted. The next argument is not taken as a value if it begins with a
dash, unless the dash is all there is to it.

Reading happens in two steps. `Reckoner.CommandLine.items?` tells flags from
settings and finds the values; `Reckoner.CommandLine.Arguments.ofItems?` looks at
what has been given.
-/

namespace Reckoner

namespace CommandLine

/-! ### Arguments and their parsers -/

/-- **The arguments.** -/
structure Arguments where
  /-- A line to evaluate. -/
  expr? : Option String
  /-- Whether lines are read from standard input. -/
  plain : Bool
  /-- Whether lines are in postfix notation. -/
  rpn : Bool
  /-- Whether the tokens of lines are shown. -/
  tokens : Bool
  /-- Whether a table of strings is worked on. -/
  table : Bool
  /-- The options of a parse. -/
  options : ParseOptions
  /-- The limit of the transcript. -/
  history : Nat
deriving DecidableEq

/-- **A refusal** of the words on a command line. -/
structure Refusal where
  /-- What is printed. -/
  text : String
  /-- The exit code. -/
  exitCode : Nat
deriving DecidableEq

/-- **A parser of arguments**: what it makes of the words on a command line. -/
abbrev ArgumentParser : Type := List String → Except Refusal Arguments

/-! ### Flags and settings -/

/-- The flags. -/
inductive Flag
  /-- Read lines from standard input. -/
  | plain
  /-- Lines are in postfix notation. -/
  | rpn
  /-- Show the tokens of lines. -/
  | tokens
  /-- Work on a table of strings. -/
  | table
deriving DecidableEq

/-- The settings. -/
inductive Setting
  /-- A line to evaluate. -/
  | expr
  /-- What a step behind its operand does. -/
  | trailing
  /-- The depth limit. -/
  | maxDepth
  /-- The limit of the transcript. -/
  | history
deriving DecidableEq

/-- A flag, or a setting with its value. -/
inductive Item
  | flag (f : Flag)
  | setting (s : Setting) (value : String)
  | verbose
deriving DecidableEq

/-- The flag of a long name. -/
def Flag.ofName? : String → Option Flag
  | "plain" => some plain
  | "rpn" => some rpn
  | "tokens" => some tokens
  | "table" => some table
  | _ => none

/-- The setting of a long name. -/
def Setting.ofName? : String → Option Setting
  | "expr" => some expr
  | "postfix" => some trailing
  | "max-depth" => some maxDepth
  | "history" => some history
  | _ => none

/-! ### Single arguments -/

/-- What one argument amounts to: items, or a setting whose value is still to come. -/
inductive Argument
  | complete (items : List Item)
  | awaiting (items : List Item) (s : Setting)

/-- An argument with two dashes, without them. -/
def longArgument? (cs : List Char) : Option Argument :=
  let name := String.ofList (cs.takeWhile (· ≠ '='))
  match cs.dropWhile (· ≠ '=') with
  | [] =>
    match Flag.ofName? name, Setting.ofName? name with
    | some f, _ => some (.complete [.flag f])
    | none, some s => some (.awaiting [] s)
    | none, none => if name = "verbose" then some (.complete [.verbose]) else none
  | _ :: value => (Setting.ofName? name).map fun s => .complete [.setting s (.ofList value)]

/-- An argument with one dash, without it. -/
def shortArgument? : List Char → Option Argument
  | [] => some (.complete [])
  | 'v' :: cs =>
    match shortArgument? cs with
    | some (.complete items) => some (.complete (.verbose :: items))
    | some (.awaiting items s) => some (.awaiting (.verbose :: items) s)
    | none => none
  | ['e'] => some (.awaiting [] .expr)
  | 'e' :: '=' :: value => some (.complete [.setting .expr (.ofList value)])
  | 'e' :: value => some (.complete [.setting .expr (.ofList value)])
  | _ => none

/-- An argument. One that does not begin with a dash, and a dash by itself, have no
place but as values. -/
def argument? (a : String) : Option Argument :=
  match a.toList with
  | ['-'] => none
  | '-' :: '-' :: cs => longArgument? cs
  | '-' :: cs => shortArgument? cs
  | _ => none

/-- Whether an argument can be the value of the setting in front of it. -/
def isValue (a : String) : Bool :=
  match a.toList with
  | ['-'] => true
  | '-' :: _ => false
  | _ => true

/-! ### All arguments -/

/-- **The items given by all arguments.** Two dashes by themselves may come last. -/
def items? : List String → Option (List Item)
  | [] => some []
  | ["--"] => some []
  | a :: as =>
    match argument? a, as with
    | some (.complete items), as => (items? as).map (items ++ ·)
    | some (.awaiting items s), value :: as =>
      if isValue value then (items? as).map (items ++ .setting s value :: ·) else none
    | _, _ => none

/-- Whether an item is the value of a given setting, and which value. -/
def Item.valueOf? (s : Setting) : Item → Option String
  | .setting t value => if t = s then some value else none
  | _ => none

/-- The value of a setting, which is given once at the most. -/
def value? (items : List Item) (s : Setting) : Option (Option String) :=
  match items.filterMap (Item.valueOf? s) with
  | [] => some none
  | [value] => some (some value)
  | _ => none

/-- Whether a flag is given, which it is once at the most. -/
def isSet? (items : List Item) (f : Flag) : Option Bool :=
  match items.count (.flag f) with
  | 0 => some false
  | 1 => some true
  | _ => none

/-- A count: ASCII digits, perhaps after a plus sign, that fit 64 bits. -/
def count? (value : String) : Option Nat :=
  let digits := match value.toList with
    | '+' :: cs => cs
    | cs => cs
  match Value.natOfDigits? digits with
  | some n => if n ≤ 0xffffffffffffffff then some n else none
  | none => none

/-- What a step behind its operand does. -/
def trailing? : String → Option TrailingStep
  | "discard" => some .discard
  | "apply" => some .apply
  | _ => none

/-- A value read if there is one, and the default if there is none. -/
def readOr {α : Type} (default : α) (read : String → Option α) : Option String → Option α
  | none => some default
  | some value => read value

/-- The arguments that some items make. Tokens are shown neither in postfix notation
nor of a table. -/
def Arguments.ofItems? (items : List Item) : Option Arguments := do
  let expr ← value? items .expr
  let plain ← isSet? items .plain
  let rpn ← isSet? items .rpn
  let tokens ← isSet? items .tokens
  let table ← isSet? items .table
  let trailing ← value? items .trailing >>= readOr .discard trailing?
  let maxDepth ← value? items .maxDepth >>= readOr defaultMaxDepth count?
  let history ← value? items .history >>= readOr Transcript.defaultLimit count?
  if tokens && (rpn || table) then none
  else some ⟨expr, plain, rpn, tokens, table, ⟨trailing, maxDepth⟩, history⟩

/-- The arguments on a command line, if they make sense. -/
def Arguments.ofList? (args : List String) : Option Arguments :=
  items? args >>= Arguments.ofItems?

/-- **The parser of the program.** It says nothing of arguments that make no sense, and ends with
exit code two. -/
def Arguments.parser : ArgumentParser := fun args =>
  match Arguments.ofList? args with
  | some a => .ok a
  | none => .error ⟨"", 2⟩

end CommandLine

end Reckoner
