import Reckoner.ProbeTable
import Reckoner.Text.Hash
import Reckoner.Text.Words

/-!
# The table console

A table from strings to strings can be worked on by commands, one on a line. The
first word of a line is the command and the words behind it are its arguments. A
missing argument is the empty string, and words too many are passed over.
-/

namespace Reckoner

/-- **A table of strings**, with a hash of its keys. -/
abbrev StringTable (hash : String → UInt64 := Text.hash) : Type := ProbeTable String String hash

/-- **The commands.** -/
inductive Command
  /-- Show the hash of a key. -/
  | hash (key : String)
  /-- Show the home of a key. -/
  | index (key : String)
  /-- Show the number of entries. -/
  | size
  /-- Show the number of slots. -/
  | capacity
  /-- Show whether the table has a key. -/
  | contains (key : String)
  /-- Show the value of a key. -/
  | find (key : String)
  /-- Add an entry. -/
  | add (key value : String)
  /-- Remove a key. -/
  | remove (key : String)
  /-- Show all slots. -/
  | print
  /-- Begin anew with a table of the default capacity. -/
  | clear
  /-- Leave the console. -/
  | exit
deriving DecidableEq

/-- The failure of a line that is no command, with its first word. -/
structure InvalidCommand where
  /-- The first word of the line. -/
  word : String
deriving DecidableEq

/-- What is reported of a line that is no command. -/
def InvalidCommand.message (err : InvalidCommand) : String := s!"Invalid command: {err.word}"

namespace Command

/-- **The command on a line.** -/
def ofLine (line : String) : Except InvalidCommand Command :=
  let words := (Text.words line.toList).map String.ofList
  let first := words.getD 1 ""
  let second := words.getD 2 ""
  match words.getD 0 "" with
  | "hash" => .ok (hash first)
  | "index" => .ok (index first)
  | "size" => .ok size
  | "capacity" => .ok capacity
  | "contains" => .ok (contains first)
  | "find" => .ok (find first)
  | "add" | "insert" => .ok (add first second)
  | "remove" | "delete" => .ok (remove first)
  | "print" => .ok print
  | "clear" => .ok clear
  | "exit" | "quit" | "end" => .ok exit
  | w => .error ⟨w⟩

/-- How a slot is printed. -/
def slotText (s : Columns.Slot String String) : String :=
  match s.entry? with
  | some (k, v) => s!"{s.index}: {k} = {v}"
  | none => s!"{s.index}: "

/-- **A command carried out**: the lines it shows, and the table it leaves. -/
def apply {hash : String → UInt64} (c : Command) (t : StringTable hash) :
    List String × StringTable hash :=
  match c with
  | .hash k => ([toString (hash k)], t)
  | index k => ([toString (t.home k)], t)
  | size => ([toString t.size], t)
  | capacity => ([toString t.capacity], t)
  | contains k => ([if t.contains k then "true" else "false"], t)
  | find k => ([(t.find? k).getD "null"], t)
  | add k v => ([], (t.add k v).2)
  | remove k => ([], (t.remove k).2)
  | print => (t.slotList.map slotText, t)
  | clear => ([], ∅)
  | exit => ([], t)

end Command

end Reckoner
