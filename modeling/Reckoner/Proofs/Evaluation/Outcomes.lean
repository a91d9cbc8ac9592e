import Reckoner.Eval

/-!
# One step of an evaluation

What `Reckoner.Expr.evaluate` makes of an expression, in terms of what it makes of the
operands: one equation for each form of an expression, in which the monad and its state do
not occur any more. They follow from what a bind does to a table
(`Reckoner.Eval.outcome_bind`), which is said with a function of its own,
`Reckoner.Eval.continued`, so that a continuation can be carried along without being
looked into.
-/

namespace Reckoner

namespace Eval

variable {α β : Type} {hash : String → UInt64}

/-- The result of a computation and the table it leaves. -/
def outcome (c : Eval hash α) (t : SymbolTable hash) : Except EvalError α × SymbolTable hash :=
  match c.run t with
  | .ok a u => (.ok a, u)
  | .error err u => (.error err, u)

/-- What a computation adds to an outcome: nothing to a failure. -/
def continued (f : α → Eval hash β) :
    Except EvalError α × SymbolTable hash → Except EvalError β × SymbolTable hash
  | (.ok a, u) => (f a).outcome u
  | (.error err, u) => (.error err, u)

theorem continued_ok (f : α → Eval hash β) (a : α) (u : SymbolTable hash) :
    continued f (.ok a, u) = (f a).outcome u := rfl

theorem outcome_pure (a : α) (t : SymbolTable hash) :
    (pure a : Eval hash α).outcome t = (.ok a, t) := rfl

/-- **One computation after another** starts where the first one has led. -/
theorem outcome_bind (c : Eval hash α) (f : α → Eval hash β) (t : SymbolTable hash) :
    (c >>= f).outcome t = continued f (c.outcome t) := by
  rw [outcome, outcome, EStateM.run_bind]
  cases c.run t <;> rfl

theorem outcome_read (x : String) (t : SymbolTable hash) :
    (read x).outcome t =
      match t.find? x with
      | some v => (.ok v, t)
      | none => (.error (.undefinedVariable x), t) := by
  have hget : (get : Eval hash (SymbolTable hash)).outcome t = (.ok t, t) := rfl
  rw [read, outcome_bind, hget, continued_ok]
  cases t.find? x <;> rfl

theorem outcome_result (r : Except EvalError Value) (t : SymbolTable hash) :
    (result r).outcome t = (r, t) := by
  cases r <;> rfl

/-- What is stored need not be what is yielded. -/
theorem outcome_store_pure (x : String) (v w : Value) (t : SymbolTable hash) :
    (do store x v; return w).outcome t = (.ok w, (t.add x v).2) := by
  have hstore : (store x v).outcome t = (.ok (), (t.add x v).2) := rfl
  rw [outcome_bind, hstore, continued_ok, outcome_pure]

end Eval

namespace Expr

variable {hash : String → UInt64} (t : SymbolTable hash)

theorem evaluate_eq_outcome (e : Expr) : e.evaluate t = e.eval.outcome t := by
  rw [evaluate, Eval.outcome]
  cases e.eval.run t <;> rfl

theorem evaluate_num (v : Value) : (num v).evaluate t = (.ok v, t) := rfl

theorem evaluate_var (x : String) :
    (var x).evaluate t =
      match t.find? x with
      | some v => (.ok v, t)
      | none => (.error (.undefinedVariable x), t) := by
  rw [evaluate_eq_outcome, eval, Eval.outcome_read]

theorem evaluate_neg (e : Expr) :
    (neg e).evaluate t =
      match e.evaluate t with
      | (.ok v, u) => (fit (.negation v) (-v.toInt), u)
      | (.error err, u) => (.error err, u) := by
  rw [evaluate_eq_outcome, eval, Eval.outcome_bind, ← evaluate_eq_outcome]
  rcases e.evaluate t with ⟨_ | v, u⟩
  · rfl
  · rw [Eval.continued_ok, Eval.outcome_result]

theorem evaluate_update (op : UpdateOp) (x : String) :
    (update op x).evaluate t =
      match t.find? x with
      | some old =>
        match fit (.update op x) (old.toInt + op.step.delta) with
        | .ok new => (.ok (if op.yieldsOld then old else new), (t.add x new).2)
        | .error err => (.error err, t)
      | none => (.error (.undefinedVariable x), t) := by
  rw [evaluate_eq_outcome, eval, Eval.outcome_bind, Eval.outcome_read]
  rcases t.find? x with _ | old
  · rfl
  · simp only [Eval.continued_ok, Eval.outcome_bind, Eval.outcome_result]
    rcases fit (.update op x) (old.toInt + op.step.delta) with _ | new
    · rfl
    · exact Eval.outcome_store_pure x new _ t

theorem evaluate_bin (op : BinOp) (l r : Expr) :
    (bin op l r).evaluate t =
      match l.evaluate t with
      | (.ok a, u) =>
        match r.evaluate u with
        | (.ok b, w) => (op.apply a b, w)
        | (.error err, w) => (.error err, w)
      | (.error err, u) => (.error err, u) := by
  rw [evaluate_eq_outcome, eval, Eval.outcome_bind, ← evaluate_eq_outcome]
  rcases l.evaluate t with ⟨_ | a, u⟩
  · rfl
  · simp only [Eval.continued_ok, Eval.outcome_bind, ← evaluate_eq_outcome]
    rcases r.evaluate u with ⟨_ | b, w⟩
    · rfl
    · rw [Eval.continued_ok, Eval.outcome_result]

theorem evaluate_assign (x : String) (e : Expr) :
    (assign .plain x e).evaluate t =
      match e.evaluate t with
      | (.ok v, u) => (.ok v, (u.add x v).2)
      | (.error err, u) => (.error err, u) := by
  rw [evaluate_eq_outcome, eval, Eval.outcome_bind, ← evaluate_eq_outcome]
  rcases e.evaluate t with ⟨_ | v, u⟩
  · rfl
  · exact Eval.outcome_store_pure x v v u

theorem evaluate_compound (op : BinOp) (x : String) (e : Expr) :
    (assign (.compound op) x e).evaluate t =
      match t.find? x with
      | some old =>
        match e.evaluate t with
        | (.ok v, u) =>
          match op.apply old v with
          | .ok new => (.ok new, (u.add x new).2)
          | .error err => (.error err, u)
        | (.error err, u) => (.error err, u)
      | none => (.error (.undefinedVariable x), t) := by
  rw [evaluate_eq_outcome, eval, Eval.outcome_bind, Eval.outcome_read]
  rcases t.find? x with _ | old
  · rfl
  · simp only [Eval.continued_ok, Eval.outcome_bind, ← evaluate_eq_outcome]
    rcases e.evaluate t with ⟨_ | v, u⟩
    · rfl
    · simp only [Eval.continued_ok, Eval.outcome_bind, Eval.outcome_result]
      rcases op.apply old v with _ | new
      · rfl
      · exact Eval.outcome_store_pure x new new u

end Expr

end Reckoner
