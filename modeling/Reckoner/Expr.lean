import Reckoner.Operator
import Reckoner.Value

/-!
# Expressions

The tree of an expression. Updates and assignments hold the *name* of the variable
they write to, so a tree in which a sum is assigned to cannot be built at all: the
question whether a target is a variable is settled once, by
`Reckoner.Expr.target`, when the node is made.

The depth of a tree is limited wherever trees are made.
`Reckoner.Expr.height` is the quantity that is limited: the number of nodes on the
longest path from the root, where the target of an update or an assignment counts
as a leaf below it.
-/

namespace Reckoner

/-- **An expression.** -/
inductive Expr
  /-- A number. -/
  | num (value : Value)
  /-- The value of a variable. -/
  | var (name : String)
  /-- The negative of an expression. -/
  | neg (operand : Expr)
  /-- A step of a variable. -/
  | update (op : UpdateOp) (target : String)
  /-- Two expressions combined. -/
  | bin (op : BinOp) (left right : Expr)
  /-- An expression stored in a variable. -/
  | assign (op : AssignOp) (target : String) (value : Expr)
deriving DecidableEq

/-- The limit on the height of an expression where none is given. -/
def defaultMaxDepth : Nat := 256

/-- The failure of an update or an assignment aimed at something other than a
variable, with what was found in its place. -/
structure NotAVariable where
  /-- The expression that should have been a variable. -/
  found : Expr
deriving DecidableEq

namespace Expr

/-- The number of nodes on the longest path down from the root. -/
def height : Expr → Nat
  | num _ => 1
  | var _ => 1
  | neg e => e.height + 1
  | update _ _ => 2
  | bin _ l r => max l.height r.height + 1
  | assign _ _ e => max 1 e.height + 1

/-- The name of the variable that an expression consists of. -/
def target : Expr → Except NotAVariable String
  | var x => .ok x
  | e => .error ⟨e⟩

/-- An update of what should be a variable. -/
def mkUpdate (op : UpdateOp) (e : Expr) : Except NotAVariable Expr :=
  e.target.map (update op)

/-- An assignment to what should be a variable. -/
def mkAssign (op : AssignOp) (l r : Expr) : Except NotAVariable Expr :=
  l.target.map (assign op · r)

theorem height_pos (e : Expr) : 0 < e.height := by
  cases e <;> simp [height]

end Expr

end Reckoner
