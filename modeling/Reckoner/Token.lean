import Reckoner.Operator
import Reckoner.Value

/-!
# The tokens of a line

A line of input is read as a sequence of tokens. What cannot be read as a token
is one as well: `Reckoner.Token.unrecognized` holds it, up to the end of the line,
so that reading never fails and every message about a line can name the token it
is about. The end of the line is a token for the same reason.
-/

namespace Reckoner

/-- **The tokens of a line.** -/
inductive Token
  /-- A number without a sign. -/
  | number (value : Value)
  /-- The name of a variable. -/
  | identifier (name : String)
  /-- An operator. -/
  | operator (op : Operator)
  /-- An opening parenthesis. -/
  | openParen
  /-- A closing parenthesis. -/
  | closeParen
  /-- The end of the line. -/
  | finish
  /-- The rest of a line that does not begin with a token. -/
  | unrecognized (rest : String)
deriving DecidableEq

/-- How a token is named in a message. -/
def Token.describe : Token → String
  | number v => s!"number {v.text}"
  | identifier x => s!"identifier '{x}'"
  | operator op => s!"'{op.text}'"
  | openParen => "'('"
  | closeParen => "')'"
  | finish => "end of input"
  | unrecognized rest => s!"unrecognized input '{rest}'"

/-- A token together with its place: the number of characters of the line in front
of it. -/
structure Located where
  /-- The token. -/
  token : Token
  /-- The number of characters in front of it. -/
  position : Nat
deriving DecidableEq

end Reckoner
