import Reckoner.Parse.Levels
import Reckoner.Token.Scanner

/-!
# Parsing a line

A line holds one expression and nothing else: whatever is left behind the
expression is a fault, so that `1 2` is refused instead of being read as `1`.

A `Reckoner.LineParser` can be asked for an expression more than once. Each time
it goes on from the token at which it stopped before, be that behind an expression
or in the middle of a faulty one, and the number of parentheses that may be opened
starts afresh.
-/

namespace Reckoner

/-- **A parser in the middle of a line.** -/
structure LineParser where
  /-- The options. -/
  options : ParseOptions
  /-- The number of characters of the line. -/
  finish : Nat
  /-- The tokens that are left. -/
  rest : List Located
deriving DecidableEq

namespace LineParser

/-- A parser at the beginning of a line. -/
def ofLine (line : String) (options : ParseOptions) : LineParser where
  options := options
  finish := line.length
  rest := (Scanner.ofLine line).tokens

/-- The place at which the parser stands. -/
def position (p : LineParser) : Nat := Parse.place p.finish p.rest

/-- **One expression, up to the end of the line**, and the parser behind it or at
the token that is wrong. -/
def next (p : LineParser) : Except ParseError Expr × LineParser :=
  let reply := Parse.expression p.options p.finish p.options.maxDepth p.rest
  let behind := { p with rest := reply.rest }
  match reply.result, reply.rest with
  | .error e, _ => (.error e, behind)
  | .ok m, [] => (.ok m.expr, behind)
  | .ok _, t :: _ => (.error (.malformed (.trailing t.token) t.position), behind)

end LineParser

/-- **The expression on a line.** -/
def parse (line : String) (options : ParseOptions := {}) : Except ParseError Expr :=
  (LineParser.ofLine line options).next.1

end Reckoner
