import Reckoner.Line

/-!
# Transcripts

A transcript keeps the latest lines of a calculation with what has come of them.
It holds no more than a given number of lines and lets go of the oldest ones; how
many have been let go of is counted, so that every line keeps the number it got
when it was recorded. A transcript that may hold no line at all still counts.
-/

namespace Reckoner

/-- **What came of a line.** -/
inductive Outcome
  /-- It has a value. -/
  | value (v : Value)
  /-- It failed, perhaps at a place that can be pointed at. -/
  | failure (message : String) (position? : Option Nat)
deriving DecidableEq

namespace Outcome

/-- Whether a line failed. -/
def isFailure : Outcome → Bool
  | value _ => false
  | failure _ _ => true

/-- The outcome of a line with a given result. -/
def ofResult : Except LineError Value → Outcome
  | .ok v => value v
  | .error err => failure err.message err.position?

end Outcome

/-- **A recorded line.** -/
structure Entry where
  /-- The line as it was given. -/
  input : String
  /-- Its expression in postfix notation, if there was an expression. -/
  expression? : Option String
  /-- What came of it. -/
  outcome : Outcome
deriving DecidableEq

/-- **A transcript**: the latest entries, the oldest of them first. -/
structure Transcript where
  /-- The number of entries it may hold. -/
  limit : Nat
  /-- The entries it holds. -/
  entries : List Entry := []
  /-- The number of entries let go of. -/
  dropped : Nat := 0
deriving DecidableEq

namespace Transcript

/-- The number of entries a transcript may hold where none is given. -/
def defaultLimit : Nat := 500

/-- The number of entries held. -/
def length (t : Transcript) : Nat := t.entries.length

/-- Whether no entry is held. -/
def isEmpty (t : Transcript) : Bool := t.entries.isEmpty

/-- The entry at an index, the oldest one held having index zero. -/
def get? (t : Transcript) (i : Nat) : Option Entry := t.entries[i]?

/-- The latest entry. -/
def last? (t : Transcript) : Option Entry := t.entries.getLast?

/-- The number of the oldest entry held, counted from one. -/
def firstNumber (t : Transcript) : Nat := t.dropped + 1

/-- The number of entries ever recorded. -/
def total (t : Transcript) : Nat := t.dropped + t.length

/-- **Recording an entry**, and letting go of as many of the oldest ones as are too
many then. -/
def push (t : Transcript) (e : Entry) : Transcript :=
  let excess := t.length + 1 - t.limit
  { t with entries := (t.entries ++ [e]).drop excess, dropped := t.dropped + excess }

/-- Letting go of all entries. -/
def clear (t : Transcript) : Transcript :=
  { t with entries := [], dropped := t.dropped + t.length }

end Transcript

end Reckoner
