import Reckoner.Expr.Measured
import Reckoner.Postfix.Token

/-!
# Expressions from postfix notation

Postfix notation is read with a stack of expressions. An operand goes onto it; an
operator takes its operands from it, the right one first, and puts the expression
it makes of them back. In the end there has to be one expression on the stack.

Reading fails at the first token that cannot be dealt with, and the failure says
which one that is: tokens are numbered from zero. Where an operator both has the
wrong target and makes the expression too high, it is the target that is reported.
-/

namespace Reckoner

namespace Postfix

/-- **The failures of reading postfix notation.** -/
inductive BuildError
  /-- There are no tokens. -/
  | empty
  /-- An operator lacks an operand. -/
  | missingOperand (operator : Token) (index : Nat)
  /-- Several expressions are left. -/
  | unbalanced (remaining : Nat)
  /-- An operator makes an expression that is too high. -/
  | tooDeep (limit index : Nat)
  /-- Something other than a variable is updated or assigned to. -/
  | notAVariable (err : NotAVariable)
deriving DecidableEq

/-- What is reported of a failure. -/
def BuildError.message : BuildError → String
  | empty => "Empty postfix expression"
  | missingOperand t k => s!"Operator '{t.text}' at token {k} is missing an operand"
  | unbalanced n => s!"Postfix expression left {n} operands on the stack"
  | tooDeep d k => s!"Operator at token {k} nests the expression deeper than {d}"
  | notAVariable err => err.message

section Stack

variable (limit : Nat)

/-- An expression put onto the stack, if it is not too high. -/
def push (k : Nat) (st : List Measured) (m : Measured) : Except BuildError (List Measured) :=
  if m.height ≤ limit then .ok (m :: st) else .error (.tooDeep limit k)

/-- **One token**, the one with index `k`. -/
def step (k : Nat) : Token → List Measured → Except BuildError (List Measured)
  | .num v, st => .ok (.num v :: st)
  | .var x, st => .ok (.var x :: st)
  | .neg, m :: st => push limit k st m.neg
  | .update op, m :: st => (m.mkUpdate op).mapError .notAVariable >>= push limit k st
  | .bin op, r :: l :: st => push limit k st (.bin op l r)
  | .assign op, r :: l :: st =>
    (Measured.mkAssign op l r).mapError .notAVariable >>= push limit k st
  | t, _ => .error (.missingOperand t k)

/-- All tokens, from the one with index `k` on. -/
def run : (k : Nat) → List Token → List Measured → Except BuildError (List Measured)
  | _, [], st => .ok st
  | k, t :: ts, st => step limit k t st >>= run (k + 1) ts

/-- The one expression that has to be left in the end. -/
def root : List Measured → Except BuildError Expr
  | [] => .error .empty
  | [m] => .ok m.expr
  | st => .error (.unbalanced st.length)

end Stack

/-- The tokens of a text. -/
def tokens (text : String) : List Token := (Text.words text.toList).map Token.ofWord

/-- **The expression written by a text in postfix notation.** -/
def build (text : String) (limit : Nat := defaultMaxDepth) : Except BuildError Expr :=
  run limit 0 (tokens text) [] >>= root

end Postfix

end Reckoner
