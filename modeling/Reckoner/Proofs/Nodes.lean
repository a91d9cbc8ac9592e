import Reckoner.Expr.Measured

/-!
# When a node can be made

Every way of building an expression makes its nodes with `Reckoner.Measured.mkUpdate` and
`Reckoner.Measured.mkAssign`, and passes their failure on in a form of its own. This file
says when they succeed, whatever becomes of the failure, and when they fail.
-/

/-! ### Success and failure -/

namespace Except

variable {ε ε' α β : Type}

theorem bind_eq_ok_iff {r : Except ε α} {f : α → Except ε β} {b : β} :
    r >>= f = .ok b ↔ ∃ a, r = .ok a ∧ f a = .ok b := by
  cases r <;> simp [Bind.bind, Except.bind]

theorem bind_eq_error_iff {r : Except ε α} {f : α → Except ε β} {e : ε} :
    r >>= f = .error e ↔ r = .error e ∨ ∃ a, r = .ok a ∧ f a = .error e := by
  cases r <;> simp [Bind.bind, Except.bind]

theorem map_eq_ok_iff {r : Except ε α} {f : α → β} {b : β} :
    r.map f = .ok b ↔ ∃ a, r = .ok a ∧ f a = b := by
  cases r <;> simp [Except.map]

theorem map_eq_error_iff {r : Except ε α} {f : α → β} {e : ε} :
    r.map f = .error e ↔ r = .error e := by
  cases r <;> simp [Except.map]

theorem mapError_eq_ok_iff {r : Except ε α} {f : ε → ε'} {a : α} :
    r.mapError f = .ok a ↔ r = .ok a := by
  rcases r with e | b
  · exact ⟨nofun, nofun⟩
  · exact ⟨fun h => congrArg Except.ok (Except.ok.inj h), fun h => congrArg _ h⟩

theorem mapError_eq_error_iff {r : Except ε α} {f : ε → ε'} {e' : ε'} :
    r.mapError f = .error e' ↔ ∃ e, r = .error e ∧ f e = e' := by
  rcases r with e | a
  · exact ⟨fun h => ⟨e, rfl, Except.error.inj h⟩, fun ⟨_, he, h⟩ =>
      congrArg _ (Except.error.inj he ▸ h)⟩
  · exact ⟨nofun, nofun⟩

end Except

namespace Reckoner

open Except (map_eq_ok_iff map_eq_error_iff)

/-! ### Targets -/

theorem Expr.target_eq_ok_iff {e : Expr} {x : String} : e.target = .ok x ↔ e = .var x := by
  cases e <;> simp [target]

theorem Expr.target_eq_error_iff {e : Expr} {err : NotAVariable} :
    e.target = .error err ↔ (∀ x, e ≠ .var x) ∧ err = ⟨e⟩ := by
  cases e <;> simp [target, eq_comm]

namespace Measured

/-- **An update** is made of a variable and of nothing else. -/
theorem mkUpdate_eq_ok_iff {op : UpdateOp} {a b : Measured} :
    mkUpdate op a = .ok b ↔ ∃ x, a.expr = .var x ∧ b.expr = .update op x := by
  rw [mkUpdate, map_eq_ok_iff]
  refine exists_congr fun x => and_congr Expr.target_eq_ok_iff ⟨?_, fun h => ext_expr h.symm⟩
  rintro rfl
  rfl

/-- **An assignment** is made to a variable and to nothing else. -/
theorem mkAssign_eq_ok_iff {op : AssignOp} {l r m : Measured} :
    mkAssign op l r = .ok m ↔ ∃ x, l.expr = .var x ∧ m.expr = .assign op x r.expr := by
  rw [mkAssign, map_eq_ok_iff]
  refine exists_congr fun x => and_congr Expr.target_eq_ok_iff ⟨?_, fun h => ext_expr h.symm⟩
  rintro rfl
  rfl

theorem mkUpdate_eq_error_iff {op : UpdateOp} {m : Measured} {err : NotAVariable} :
    mkUpdate op m = .error err ↔ (∀ x, m.expr ≠ .var x) ∧ err = ⟨m.expr⟩ :=
  map_eq_error_iff.trans Expr.target_eq_error_iff

theorem mkAssign_eq_error_iff {op : AssignOp} {l r : Measured} {err : NotAVariable} :
    mkAssign op l r = .error err ↔ (∀ x, l.expr ≠ .var x) ∧ err = ⟨l.expr⟩ :=
  map_eq_error_iff.trans Expr.target_eq_error_iff

end Measured

end Reckoner
