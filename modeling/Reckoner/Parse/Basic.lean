import Reckoner.Expr.Measured
import Reckoner.Postfix.Token
import Reckoner.Token

/-!
# Parsers of located tokens

What the levels of the grammar have in common: the options of a parse, the ways in
which it fails, and the form of its answers.

A parser is given the tokens that are left of a line. It answers with a result and
with the tokens that are left then, and it says so for a failure too: whoever asks
again goes on from there. A `Reckoner.Parse.Reply` carries the proof that these
are a suffix of the tokens given, which is all that the loops of the grammar need
in order to end.
-/

namespace Reckoner

/-! ### Options -/

/-- What a `++` or `--` behind its operand does. -/
inductive TrailingStep
  /-- The operand must be a variable, and that is all. -/
  | discard
  /-- The variable is updated after it has been read. -/
  | apply
deriving DecidableEq

/-- **The options of a parse.** -/
structure ParseOptions where
  /-- What a step behind its operand does. -/
  trailing : TrailingStep := .discard
  /-- The limit on the number of parentheses around a place of the line, and on the
  height of the expression. -/
  maxDepth : Nat := defaultMaxDepth
deriving DecidableEq

/-! ### Failures -/

/-- What can be wrong at one place of a line. -/
inductive Fault
  /-- An operand has to begin here. -/
  | operandExpected (found : Token)
  /-- The closing parenthesis has to be here. -/
  | closingExpected
  /-- The expression is complete, yet here is another token. -/
  | trailing (found : Token)
  /-- One parenthesis too many is opened. -/
  | parenthesesTooDeep (limit : Nat)
  /-- The operator makes an expression that is too high. -/
  | expressionTooDeep (limit : Nat)
deriving DecidableEq

/-- What is reported of a fault. -/
def Fault.message : Fault → String
  | operandExpected t => s!"expected a number, identifier or '(', found {t.describe}"
  | closingExpected => "expected ')'"
  | trailing t => s!"unexpected {t.describe} after expression"
  | parenthesesTooDeep d => s!"parentheses nested deeper than {d}"
  | expressionTooDeep d => s!"expression nested deeper than {d}"

/-- Whether a fault comes from the depth limit alone. -/
def Fault.isDepth : Fault → Bool
  | parenthesesTooDeep _ => true
  | expressionTooDeep _ => true
  | _ => false

/-- **The failures of a parse.** -/
inductive ParseError
  /-- The line is no sentence of the grammar. -/
  | malformed (fault : Fault) (position : Nat)
  /-- Something other than a variable is updated or assigned to. -/
  | notAVariable (err : NotAVariable)
deriving DecidableEq

namespace ParseError

/-- The place of a failure, if it has one. -/
def position? : ParseError → Option Nat
  | malformed _ p => some p
  | notAVariable _ => none

/-- What is reported of a failure. -/
def message : ParseError → String
  | malformed f p => s!"Syntax error at position {p}: {f.message}"
  | notAVariable err => err.message

end ParseError

namespace Parse

/-! ### Replies -/

/-- **The answer of a parser** to the tokens `ts`. -/
structure Reply (α : Type) (ts : List Located) where
  /-- What has been read, or why it could not be. -/
  result : Except ParseError α
  /-- The tokens that are left. -/
  rest : List Located
  /-- They are the last ones of those given. -/
  suffix : rest <:+ ts

namespace Reply

variable {α : Type} {ts us : List Located}

/-- Something has been read, and some tokens with it. -/
def ok (a : α) (h : us <:+ ts) : Reply α ts := ⟨.ok a, us, h⟩

/-- Reading fails in front of some token. -/
def error (e : ParseError) (h : us <:+ ts) : Reply α ts := ⟨.error e, us, h⟩

/-- The answer to a suffix of the tokens is an answer to all of them. -/
def widen (r : Reply α us) (h : us <:+ ts) : Reply α ts := ⟨r.result, r.rest, r.suffix.trans h⟩

end Reply

/-- **A parser** of expressions. -/
abbrev Parser : Type := (ts : List Located) → Reply Measured ts

/-- The first of the tokens left, where a line without tokens is at its end. -/
def current : List Located → Token
  | [] => .finish
  | t :: _ => t.token

/-- The place of the first of the tokens left, in a line of `finish` characters. -/
def place (finish : Nat) : List Located → Nat
  | [] => finish
  | t :: _ => t.position

end Parse

end Reckoner
