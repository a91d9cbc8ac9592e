import Reckoner.Eval
import Reckoner.Parse.Line
import Reckoner.Postfix.Build

/-!
# Lines of input

A line of input is an expression in one of two notations. Whatever the notation, a
line goes through the same two stages: an expression is made of it, and the
expression is evaluated. A failure tells the stage it comes from by its
constructor, and only a failure of the grammar has a place in the line.
-/

namespace Reckoner

/-- **How a line is read**: operators between their operands, or behind them. -/
inductive Reading
  | ordinary
  | postfixed
deriving DecidableEq

/-- **The failures of a line.** -/
inductive LineError
  /-- The line could not be read in ordinary notation. -/
  | parse (err : ParseError)
  /-- The line could not be read in postfix notation. -/
  | build (err : Postfix.BuildError)
  /-- The expression could not be evaluated. -/
  | eval (err : EvalError)
deriving DecidableEq

namespace LineError

/-- The place of a failure in the line, if it has one. -/
def position? : LineError → Option Nat
  | parse err => err.position?
  | build _ => none
  | eval _ => none

/-- What is reported of a failure. -/
def message : LineError → String
  | parse err => err.message
  | build err => err.message
  | eval err => err.message

end LineError

namespace Reading

/-- **The expression on a line.** In postfix notation the depth limit is the only
option that matters. -/
def expr (r : Reading) (options : ParseOptions) (line : String) : Except LineError Expr :=
  match r with
  | ordinary => (Reckoner.parse line options).mapError .parse
  | postfixed => (Postfix.build line options.maxDepth).mapError .build

/-- **The result of a line** in a table of variables, and the table it leaves. A line
without an expression leaves the table alone. -/
def evaluate {hash : String → UInt64} (r : Reading) (options : ParseOptions) (line : String)
    (t : SymbolTable hash) : Except LineError Value × SymbolTable hash :=
  match r.expr options line with
  | .error err => (.error err, t)
  | .ok e =>
    let (result, u) := e.evaluate t
    (result.mapError .eval, u)

end Reading

end Reckoner
