import Reckoner.Expr
import Reckoner.SymbolTable

/-!
# Evaluation

An expression is evaluated in a table of variables, which it may write to, and
evaluation may fail. A failure does not undo what has been written before it: it
comes with the table as it was when evaluation stopped. This is the state of
`Reckoner.Eval`, the monad in which `Reckoner.Expr.eval` is written.

Arithmetic is that of the integers. `Reckoner.fit` turns a result that is out of
range into a failure, and division, which rounds toward zero, refuses a divisor
that is zero; the remainder has the sign of the dividend.
-/

namespace Reckoner

/-! ### Failures -/

/-- An operation on values that can fail. -/
inductive Operation
  | binary (op : BinOp) (left right : Value)
  | negation (operand : Value)
  | update (op : UpdateOp) (target : String)
deriving DecidableEq

/-- How an operation is written in a message. -/
def Operation.text : Operation → String
  | binary op l r => .ofList (l.digits ++ [' ', op.sign, ' '] ++ r.digits)
  | negation v => s!"-({v.text})"
  | update op x => s!"{x} {op.text}"

/-- **The failures of an evaluation.** -/
inductive EvalError
  /-- A variable is read that has no value. -/
  | undefinedVariable (name : String)
  /-- The divisor is zero. -/
  | divisionByZero (operation : Operation)
  /-- The result is out of range. -/
  | overflow (operation : Operation)
deriving DecidableEq

/-- What is reported of a failure. -/
def EvalError.message : EvalError → String
  | undefinedVariable x => s!"Undefined variable: {x}"
  | divisionByZero o => s!"Division by zero in operation: {o.text}"
  | overflow o => s!"Integer overflow in operation: {o.text}"

/-! ### Arithmetic -/

/-- The result of an operation, if it is in range. -/
def fit (o : Operation) (n : Int) : Except EvalError Value :=
  match Value.ofInt? n with
  | some v => .ok v
  | none => .error (.overflow o)

namespace BinOp

/-- The operator on integers. -/
def exact : BinOp → Int → Int → Int
  | add, m, n => m + n
  | sub, m, n => m - n
  | mul, m, n => m * n
  | div, m, n => m.tdiv n
  | mod, m, n => m.tmod n

/-- Whether the operator divides. -/
def divides : BinOp → Bool
  | div => true
  | mod => true
  | _ => false

/-- **The operator on values.** -/
def apply (op : BinOp) (l r : Value) : Except EvalError Value :=
  if op.divides ∧ r.toInt = 0 then .error (.divisionByZero (.binary op l r))
  else fit (.binary op l r) (op.exact l.toInt r.toInt)

end BinOp

/-! ### Evaluation -/

/-- A computation that works on a table of variables and may fail. -/
abbrev Eval (hash : String → UInt64 := Text.hash) : Type → Type :=
  EStateM EvalError (SymbolTable hash)

variable {hash : String → UInt64}

namespace Eval

/-- The value of a variable. -/
def read (x : String) : Eval hash Value := do
  match (← get).find? x with
  | some v => return v
  | none => throw (.undefinedVariable x)

/-- A value stored in a variable. -/
def store (x : String) (v : Value) : Eval hash Unit := modify fun t => (t.add x v).2

/-- A result that may be a failure. -/
def result (r : Except EvalError Value) : Eval hash Value := MonadExcept.ofExcept r

end Eval

namespace Expr

/-- **The evaluation of an expression.** Operands are evaluated from left to right.
An assignment that combines reads its target before it evaluates its operand. -/
def eval : Expr → Eval hash Value
  | num v => return v
  | var x => Eval.read x
  | neg e => do
    let v ← e.eval
    Eval.result (fit (.negation v) (-v.toInt))
  | update op x => do
    let old ← Eval.read x
    let new ← Eval.result (fit (.update op x) (old.toInt + op.step.delta))
    Eval.store x new
    return if op.yieldsOld then old else new
  | bin op l r => do
    let a ← l.eval
    let b ← r.eval
    Eval.result (op.apply a b)
  | assign .plain x e => do
    let v ← e.eval
    Eval.store x v
    return v
  | assign (.compound op) x e => do
    let old ← Eval.read x
    let v ← e.eval
    let new ← Eval.result (op.apply old v)
    Eval.store x new
    return new

/-- The result of an evaluation and the table it leaves. -/
def evaluate (e : Expr) (t : SymbolTable hash) : Except EvalError Value × SymbolTable hash :=
  match e.eval.run t with
  | .ok v u => (.ok v, u)
  | .error err u => (.error err, u)

end Expr

end Reckoner
