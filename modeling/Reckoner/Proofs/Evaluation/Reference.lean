import Reckoner.Eval
import Reckoner.Proofs.ProbeTable.FiniteMap

/-!
# What an expression should evaluate to

The rules of evaluation, on numbers of any size and without a table: variables have their
values in a finite map (`Reckoner.Valuation`), and a result that is out of range is a
failure at the place where it would have to be stored or yielded
(`Reckoner.Reference.checked`). Division is what its quotient and remainder satisfy
(`Reckoner.Reference.Divided`), so nothing here says how to divide.

`Reckoner.Reference.Evaluates` is a relation, with one rule for each way in which an
expression can end. That every expression ends in at most one of these ways is
`Reckoner.Reference.Evaluates.unique`.
-/

namespace Reckoner

/-- The variables that have a value, and their values. -/
abbrev Valuation : Type := FiniteMap String Int

namespace Reference

/-! ### Outcomes -/

/-- **What can go wrong.** -/
inductive Failure
  /-- A variable is read that has no value. -/
  | undefined (name : String)
  /-- The divisor is zero. -/
  | zeroDivisor
  /-- The result is out of range. -/
  | overflow

/-- **What an evaluation ends in.** -/
abbrev Outcome : Type := Except Failure Int

/-- An exact result, which is refused if it does not fit 32 bits. -/
def checked (k : Int) : Outcome :=
  if -2 ^ 31 ≤ k ∧ k ≤ 2 ^ 31 - 1 then .ok k else .error .overflow

/-! ### Arithmetic -/

/-- **The division of `m` by `n`**, with the quotient `q` and the remainder `r`. The
remainder has the sign of `m`, so the quotient is rounded toward zero. -/
structure Divided (m n q r : Int) : Prop where
  /-- The quotient and the remainder make up the dividend. -/
  eq : r + n * q = m
  /-- The remainder is smaller than the divisor. -/
  natAbs_lt : r.natAbs < n.natAbs
  /-- It is not negative unless the dividend is. -/
  nonneg : 0 ≤ m → 0 ≤ r
  /-- It is not positive unless the dividend is. -/
  nonpos : m ≤ 0 → r ≤ 0

/-- There is no division by zero. -/
theorem Divided.ne_zero {m n q r : Int} (h : Divided m n q r) : n ≠ 0 := by
  rintro rfl
  exact absurd h.natAbs_lt (Nat.not_lt_zero _)

/-- Quotient and remainder are those of the division that rounds toward zero. -/
theorem Divided.eq_tdiv_and_eq_tmod {m n q r : Int} (h : Divided m n q r) :
    m.tdiv n = q ∧ m.tmod n = r := by
  have hlt := h.natAbs_lt
  rcases Int.le_total 0 m with hm | hm
  · have hr := h.nonneg hm
    exact (Int.tdiv_tmod_unique hm h.ne_zero).mpr ⟨h.eq, hr, by omega⟩
  · have hr := h.nonpos hm
    exact (Int.tdiv_tmod_unique' hm h.ne_zero).mpr ⟨h.eq, by omega, hr⟩

/-- By any other number division is possible. -/
theorem divided_tdiv_tmod (m : Int) {n : Int} (hn : n ≠ 0) :
    Divided m n (m.tdiv n) (m.tmod n) where
  eq := Int.tmod_add_mul_tdiv m n
  natAbs_lt := by
    rw [Int.natAbs_tmod]
    exact Nat.mod_lt _ (Int.natAbs_pos.mpr hn)
  nonneg := Int.tmod_nonneg n
  nonpos hm := ((Int.tdiv_tmod_unique' hm hn).mp ⟨rfl, rfl⟩).2.2

/-- **The exact result** `k` of an operator, where there is one. -/
inductive Exact : BinOp → Int → Int → Int → Prop
  | add (m n : Int) : Exact .add m n (m + n)
  | sub (m n : Int) : Exact .sub m n (m - n)
  | mul (m n : Int) : Exact .mul m n (m * n)
  | div {m n q r : Int} (h : Divided m n q r) : Exact .div m n q
  | mod {m n q r : Int} (h : Divided m n q r) : Exact .mod m n r

/-- **What an operator makes of two numbers.** -/
inductive Combines : BinOp → Int → Int → Outcome → Prop
  /-- An exact result, if it is in range. -/
  | exact {op : BinOp} {m n k : Int} (h : Exact op m n k) : Combines op m n (checked k)
  /-- There is no quotient by zero. -/
  | divZero (m : Int) : Combines .div m 0 (.error .zeroDivisor)
  /-- There is no remainder either. -/
  | modZero (m : Int) : Combines .mod m 0 (.error .zeroDivisor)

theorem Exact.unique {op : BinOp} {m n k l : Int} (hk : Exact op m n k) (hl : Exact op m n l) :
    k = l := by
  cases hk with
  | add | sub | mul =>
    cases hl
    rfl
  | div h =>
    cases hl with
    | div h' => exact h.eq_tdiv_and_eq_tmod.1.symm.trans h'.eq_tdiv_and_eq_tmod.1
  | mod h =>
    cases hl with
    | mod h' => exact h.eq_tdiv_and_eq_tmod.2.symm.trans h'.eq_tdiv_and_eq_tmod.2

theorem Combines.unique {op : BinOp} {m n : Int} {r s : Outcome} (hr : Combines op m n r)
    (hs : Combines op m n s) : r = s := by
  cases hr with
  | exact hk =>
    cases hs with
    | exact hl => rw [hk.unique hl]
    | divZero =>
      cases hk with
      | div h => exact absurd rfl h.ne_zero
    | modZero =>
      cases hk with
      | mod h => exact absurd rfl h.ne_zero
  | divZero =>
    cases hs with
    | exact hl =>
      cases hl with
      | div h => exact absurd rfl h.ne_zero
    | divZero => rfl
  | modZero =>
    cases hs with
    | exact hl =>
      cases hl with
      | mod h => exact absurd rfl h.ne_zero
    | modZero => rfl

/-- What a step makes of a number. -/
def moved : Step → Int → Int
  | .up, k => k + 1
  | .down, k => k - 1

/-! ### Evaluation -/

/-- **The evaluation of an expression** where variables have the values of a map, what it
ends in and the map it leaves. -/
inductive Evaluates : Valuation → Expr → Outcome → Valuation → Prop
  /-- A number is its own value. -/
  | num (m : Valuation) (v : Value) : Evaluates m (.num v) (.ok v.toInt) m
  /-- A variable is read. -/
  | var {m : Valuation} {x : String} {k : Int} (hx : m.lookup x = some k) :
      Evaluates m (.var x) (.ok k) m
  /-- It may have no value. -/
  | varUndefined {m : Valuation} {x : String} (hx : m.lookup x = none) :
      Evaluates m (.var x) (.error (.undefined x)) m
  /-- The negative of a value. -/
  | neg {m m' : Valuation} {e : Expr} {k : Int} (he : Evaluates m e (.ok k) m') :
      Evaluates m (.neg e) (checked (-k)) m'
  /-- There may be no value to take the negative of. -/
  | negOperand {m m' : Valuation} {e : Expr} {f : Failure} (he : Evaluates m e (.error f) m') :
      Evaluates m (.neg e) (.error f) m'
  /-- A step before reading yields the new value. -/
  | updatePre {m : Valuation} {s : Step} {x : String} {old new : Int}
      (hx : m.lookup x = some old) (hnew : checked (moved s old) = .ok new) :
      Evaluates m (.update (.pre s) x) (.ok new) (m.insert x new)
  /-- A step after reading yields the old one. -/
  | updatePost {m : Valuation} {s : Step} {x : String} {old new : Int}
      (hx : m.lookup x = some old) (hnew : checked (moved s old) = .ok new) :
      Evaluates m (.update (.post s) x) (.ok old) (m.insert x new)
  /-- A step that leads out of range is not taken. -/
  | updateFails {m : Valuation} {op : UpdateOp} {x : String} {old : Int} {f : Failure}
      (hx : m.lookup x = some old) (hnew : checked (moved op.step old) = .error f) :
      Evaluates m (.update op x) (.error f) m
  /-- There may be no value to step from. -/
  | updateUndefined {m : Valuation} {op : UpdateOp} {x : String} (hx : m.lookup x = none) :
      Evaluates m (.update op x) (.error (.undefined x)) m
  /-- The left operand is evaluated first, and the right one where that has led. -/
  | bin {m m₁ m₂ : Valuation} {op : BinOp} {l r : Expr} {a b : Int} {o : Outcome}
      (hl : Evaluates m l (.ok a) m₁) (hr : Evaluates m₁ r (.ok b) m₂) (ho : Combines op a b o) :
      Evaluates m (.bin op l r) o m₂
  /-- The left operand may fail, and the right one is not evaluated then. -/
  | binLeft {m m₁ : Valuation} {op : BinOp} {l r : Expr} {f : Failure}
      (hl : Evaluates m l (.error f) m₁) : Evaluates m (.bin op l r) (.error f) m₁
  /-- The right operand may fail. -/
  | binRight {m m₁ m₂ : Valuation} {op : BinOp} {l r : Expr} {a : Int} {f : Failure}
      (hl : Evaluates m l (.ok a) m₁) (hr : Evaluates m₁ r (.error f) m₂) :
      Evaluates m (.bin op l r) (.error f) m₂
  /-- A value is stored and yielded. -/
  | assign {m m₁ : Valuation} {x : String} {e : Expr} {k : Int} (he : Evaluates m e (.ok k) m₁) :
      Evaluates m (.assign .plain x e) (.ok k) (m₁.insert x k)
  /-- There may be no value to store. -/
  | assignOperand {m m₁ : Valuation} {x : String} {e : Expr} {f : Failure}
      (he : Evaluates m e (.error f) m₁) : Evaluates m (.assign .plain x e) (.error f) m₁
  /-- The value that is combined is the one from before the operand is evaluated. -/
  | compound {m m₁ : Valuation} {op : BinOp} {x : String} {e : Expr} {a b k : Int}
      (hx : m.lookup x = some a) (he : Evaluates m e (.ok b) m₁) (ho : Combines op a b (.ok k)) :
      Evaluates m (.assign (.compound op) x e) (.ok k) (m₁.insert x k)
  /-- The two values may not go together, and nothing is stored then. -/
  | compoundFails {m m₁ : Valuation} {op : BinOp} {x : String} {e : Expr} {a b : Int} {f : Failure}
      (hx : m.lookup x = some a) (he : Evaluates m e (.ok b) m₁)
      (ho : Combines op a b (.error f)) :
      Evaluates m (.assign (.compound op) x e) (.error f) m₁
  /-- There may be no second value. -/
  | compoundOperand {m m₁ : Valuation} {op : BinOp} {x : String} {e : Expr} {a : Int} {f : Failure}
      (hx : m.lookup x = some a) (he : Evaluates m e (.error f) m₁) :
      Evaluates m (.assign (.compound op) x e) (.error f) m₁
  /-- There may be no first value, and the operand is not evaluated then. -/
  | compoundUndefined {m : Valuation} {op : BinOp} {x : String} {e : Expr}
      (hx : m.lookup x = none) :
      Evaluates m (.assign (.compound op) x e) (.error (.undefined x)) m

/-- **An expression ends in one way.** -/
theorem Evaluates.unique {m m₁ m₂ : Valuation} {e : Expr} {r₁ r₂ : Outcome}
    (h₁ : Evaluates m e r₁ m₁) (h₂ : Evaluates m e r₂ m₂) : r₁ = r₂ ∧ m₁ = m₂ := by
  induction h₁ generalizing r₂ m₂ with
  | num =>
    cases h₂
    exact ⟨rfl, rfl⟩
  | var hx | varUndefined hx => cases h₂ <;> grind
  | neg _ ih | negOperand _ ih => cases h₂ <;> grind
  | updatePre hx hnew | updatePost hx hnew | updateFails hx hnew =>
    cases h₂ <;> grind [UpdateOp.step]
  | updateUndefined hx => cases h₂ <;> grind
  | bin _ _ ho ihl ihr => cases h₂ <;> grind [Combines.unique]
  | binLeft _ ih => cases h₂ <;> grind
  | binRight _ _ ihl ihr => cases h₂ <;> grind
  | assign _ ih | assignOperand _ ih => cases h₂ <;> grind
  | compound hx _ ho ih | compoundFails hx _ ho ih => cases h₂ <;> grind [Combines.unique]
  | compoundOperand hx _ ih => cases h₂ <;> grind
  | compoundUndefined hx => cases h₂ <;> grind

end Reference

end Reckoner
