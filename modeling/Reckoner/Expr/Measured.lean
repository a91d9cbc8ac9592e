import Reckoner.Expr

/-!
# Expressions with their height

The height of an expression is asked for at every node that is built over it. A
`Reckoner.Measured` keeps the height next to the expression, and its constructors
keep the two in step, so asking costs nothing.
-/

namespace Reckoner

/-- **An expression with its height.** -/
structure Measured where
  /-- The expression. -/
  expr : Expr
  /-- Its height. -/
  height : Nat
  /-- The height is the expression's own. -/
  height_eq : height = expr.height
deriving DecidableEq

/-- **An expression, measured.** -/
def Expr.measured (e : Expr) : Measured := ⟨e, e.height, rfl⟩

namespace Measured

/-- The height is no more than a record: there is one way to measure an expression. -/
theorem ext_expr {a b : Measured} (h : a.expr = b.expr) : a = b := by
  obtain ⟨e, n, rfl⟩ := a
  obtain ⟨f, m, rfl⟩ := b
  obtain rfl : e = f := h
  rfl

theorem measured_expr (m : Measured) : m.expr.measured = m := ext_expr rfl

/-- A number. -/
def num (v : Value) : Measured := ⟨.num v, 1, rfl⟩

/-- The value of a variable. -/
def var (x : String) : Measured := ⟨.var x, 1, rfl⟩

/-- The negative of an expression. -/
def neg (m : Measured) : Measured :=
  ⟨.neg m.expr, m.height + 1, by rw [m.height_eq, Expr.height]⟩

/-- Two expressions combined. -/
def bin (op : BinOp) (l r : Measured) : Measured :=
  ⟨.bin op l.expr r.expr, max l.height r.height + 1, by
    rw [l.height_eq, r.height_eq, Expr.height]⟩

/-- An update of what should be a variable. -/
def mkUpdate (op : UpdateOp) (m : Measured) : Except NotAVariable Measured :=
  m.expr.target.map fun x => ⟨.update op x, 2, rfl⟩

/-- An assignment to what should be a variable. -/
def mkAssign (op : AssignOp) (l r : Measured) : Except NotAVariable Measured :=
  l.expr.target.map fun x =>
    ⟨.assign op x r.expr, max 1 r.height + 1, by rw [r.height_eq, Expr.height]⟩

end Measured

end Reckoner
