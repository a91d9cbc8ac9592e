import Reckoner.Transcript

/-!
# Sessions

A session runs one line after the other. The lines share a table of variables, and
every line is recorded in the transcript, whether it has a value or fails. A line
that fails keeps the assignments it made before it did.
-/

namespace Reckoner

/-- **A session.** -/
structure Session (hash : String → UInt64 := Text.hash) where
  /-- The variables. -/
  symbols : SymbolTable hash
  /-- The options with which lines are read. -/
  options : ParseOptions
  /-- The lines run so far. -/
  transcript : Transcript

namespace Session

variable {hash : String → UInt64}

/-- A session in which nothing has been run. -/
def new (options : ParseOptions := {}) (limit : Nat := Transcript.defaultLimit)
    (hash : String → UInt64 := Text.hash) : Session hash where
  symbols := ∅
  options := options
  transcript := { limit := limit }

/-- A line recorded with its expression and its result. -/
def record (s : Session hash) (line : String) (e? : Option Expr)
    (result : Except LineError Value) : Session hash :=
  { s with
    transcript := s.transcript.push ⟨line, e?.map Expr.postfixText, .ofResult result⟩ }

/-- **Running a line.** -/
def run (s : Session hash) (r : Reading) (line : String) :
    Except LineError Value × Session hash :=
  match r.expr s.options line with
  | .error err => (.error err, s.record line none (.error err))
  | .ok e =>
    let (value, t) := e.evaluate s.symbols
    let result := value.mapError LineError.eval
    (result, { s with symbols := t }.record line (some e) result)

/-- The value of a variable, if it has one. -/
def valueOf? (s : Session hash) (x : String) : Option Value := s.symbols.find? x

/-- Forgetting all variables. The transcript is kept. -/
def reset (s : Session hash) : Session hash := { s with symbols := s.symbols.clear }

end Session

end Reckoner
