/-!
# Operators

Three families of operators act on values: the five binary ones, the two steps
that move a variable up or down by one, and the assignments. A step can be taken
before or after the variable is read, and every binary operator has an assignment
that combines the old value with a new one, so the later families are built on
the earlier ones instead of being listed again. Their spelling is built the same
way, from one sign for each binary operator and each step.

Lines and postfix notation spell an operator alike, except where postfix notation
would be ambiguous: there an update that reads first repeats its sign once more
than one that steps first.
-/

namespace Reckoner

/-! ### The families -/

/-- The binary operators on values. -/
inductive BinOp
  | add
  | sub
  | mul
  | div
  | mod
deriving DecidableEq

/-- The sign of a binary operator. -/
def BinOp.sign : BinOp → Char
  | add => '+'
  | sub => '-'
  | mul => '*'
  | div => '/'
  | mod => '%'

/-- One step up or down. -/
inductive Step
  | up
  | down
deriving DecidableEq

namespace Step

/-- What a step adds. -/
def delta : Step → Int
  | up => 1
  | down => -1

/-- The sign of a step. -/
def sign : Step → Char
  | up => '+'
  | down => '-'

end Step

/-- **An update** of a variable by one step. `pre` yields the value after the step
and `post` the value before it. -/
inductive UpdateOp
  | pre (step : Step)
  | post (step : Step)
deriving DecidableEq

namespace UpdateOp

/-- The step an update takes. -/
def step : UpdateOp → Step
  | pre s => s
  | post s => s

/-- Whether an update yields the value the variable had before the step. -/
def yieldsOld : UpdateOp → Bool
  | pre _ => false
  | post _ => true

/-- An update in postfix notation. -/
def chars : UpdateOp → List Char
  | pre s => [s.sign, s.sign]
  | post s => [s.sign, s.sign, s.sign]

/-- An update in postfix notation, as a string. -/
def text (op : UpdateOp) : String := .ofList op.chars

end UpdateOp

/-- **An assignment**: `plain` stores a value, `compound op` stores the old value
combined with it. -/
inductive AssignOp
  | plain
  | compound (op : BinOp)
deriving DecidableEq

namespace AssignOp

/-- The operator that combines the old value with the new one, if there is one. -/
def combining? : AssignOp → Option BinOp
  | plain => none
  | compound op => some op

/-- How an assignment is written. -/
def chars : AssignOp → List Char
  | plain => ['=']
  | compound op => [op.sign, '=']

end AssignOp

/-! ### Operators in lines -/

/-- **The operators of a line**, as they are written. That is not yet what they do: a
plus may be a sum or a sign, and a step may stand before or after its variable. -/
inductive Operator
  | binary (op : BinOp)
  | step (s : Step)
  | assign (op : AssignOp)
deriving DecidableEq

namespace Operator

/-- How an operator is written. -/
def chars : Operator → List Char
  | binary op => [op.sign]
  | step s => [s.sign, s.sign]
  | assign op => op.chars

/-- An operator as a string. -/
def text (op : Operator) : String := .ofList op.chars

/-- The operator written by a single character. -/
def ofChar? : Char → Option Operator
  | '+' => some (binary .add)
  | '-' => some (binary .sub)
  | '*' => some (binary .mul)
  | '/' => some (binary .div)
  | '%' => some (binary .mod)
  | '=' => some (assign .plain)
  | _ => none

/-- The operator that one more character makes of an operator. -/
def extend? : Operator → Char → Option Operator
  | binary .add, '+' => some (step .up)
  | binary .sub, '-' => some (step .down)
  | binary op, '=' => some (assign (.compound op))
  | _, _ => none

theorem chars_of_ofChar? {c : Char} {s : Operator} (h : ofChar? c = some s) : s.chars = [c] := by
  unfold ofChar? at h
  split at h <;> simp_all <;> subst h <;> rfl

theorem chars_of_extend? {s t : Operator} {c : Char} (h : s.extend? c = some t) :
    t.chars = s.chars ++ [c] := by
  unfold extend? at h
  split at h <;> simp_all <;> subst h <;> rfl

end Operator

end Reckoner
