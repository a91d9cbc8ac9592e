import Reckoner.Proofs.Evaluation.Outcomes
import Reckoner.Proofs.Evaluation.Reference
import Reckoner.Proofs.ProbeTable.Reachable

/-!
# Evaluation is exact

An expression evaluated in a table ends as the rules of `Reckoner.Reference.Evaluates` say
for the map of that table, and leaves a table with the map they leave. The value is the
exact one, or the failure is of the same kind, and what has been stored before a failure is
still there.

The table may have grown in between: `Reckoner.SymbolTable.valuation_add` is all that is
used of it.
-/

namespace Reckoner

open Reference

/-! ### What is meant -/

/-- The kind of a failure. -/
def EvalError.kind : EvalError → Failure
  | undefinedVariable x => .undefined x
  | divisionByZero _ => .zeroDivisor
  | overflow _ => .overflow

/-- The number that a result stands for, or the kind of the failure. -/
def Reference.meaning : Except EvalError Value → Outcome
  | .ok v => .ok v.toInt
  | .error err => .error err.kind

namespace SymbolTable

variable {hash : String → UInt64}

/-- **The map of a table**: the numbers that the variables stand for. -/
def valuation (t : SymbolTable hash) : Valuation :=
  (t.toList.map fun e => (⟨e.1, e.2.toInt⟩ : (_ : String) × Int)).toFinmap

variable {t : SymbolTable hash}

/-- In a table in use every variable stands for the number that is found. -/
theorem lookup_valuation (ht : t.Sound) (x : String) :
    (valuation t).lookup x = (t.find? x).map Value.toInt := by
  have hkeys : (t.toList.map fun e => (⟨e.1, e.2.toInt⟩ : (_ : String) × Int)).NodupKeys := by
    rw [List.NodupKeys, List.keys, List.map_map]
    exact ht.nodup_keys
  refine Option.ext fun k => ?_
  rw [valuation, Finmap.dlookup_list_toFinmap, ← Option.mem_def, List.mem_dlookup_iff hkeys,
    List.mem_map, Option.map_eq_some_iff]
  constructor
  · rintro ⟨⟨y, v⟩, hv, heq⟩
    cases heq
    exact ⟨v, (ht.find?_eq_some_iff ht.room).mpr (ProbeTable.mem_toList_iff.mp hv), rfl⟩
  · rintro ⟨v, hv, rfl⟩
    exact ⟨(x, v), ProbeTable.mem_toList_iff.mpr ((ht.find?_eq_some_iff ht.room).mp hv), rfl⟩

/-- Storing a value in a table stores it in the map. -/
theorem valuation_add (ht : t.Sound) (x : String) (v : Value) :
    valuation (t.add x v).2 = (valuation t).insert x v.toInt := by
  refine Finmap.ext_lookup fun y => ?_
  rw [lookup_valuation (ht.add x v).1, ht.find?_add]
  rcases eq_or_ne y x with rfl | hyx
  · rw [Finmap.lookup_insert, if_pos rfl, Option.map_some]
  · rw [Finmap.lookup_insert_of_ne _ hyx, lookup_valuation ht, if_neg hyx]

end SymbolTable

open SymbolTable

variable {hash : String → UInt64}

/-! ### Operators -/

/-- A result that is fitted is the exact one, or refused. -/
theorem meaning_fit (o : Operation) (k : Int) : meaning (fit o k) = checked k := by
  have hrange : InRange k ↔ -2 ^ 31 ≤ k ∧ k ≤ 2 ^ 31 - 1 := Iff.rfl
  rw [fit, Value.ofInt?, checked]
  by_cases hk : InRange k
  · rw [dif_pos hk, if_pos (hrange.mp hk)]
    rfl
  · rw [dif_neg hk, if_neg fun h => hk (hrange.mpr h)]
    rfl

/-- The divisor of an operator that divides may be any number but zero. -/
theorem exact_of_divisor_ne_zero {op : BinOp} {m n : Int} (h : ¬(op.divides ∧ n = 0)) :
    Exact op m n (op.exact m n) := by
  cases op with
  | add => exact .add m n
  | sub => exact .sub m n
  | mul => exact .mul m n
  | div => exact .div (divided_tdiv_tmod m fun hn => h ⟨rfl, hn⟩)
  | mod => exact .mod (divided_tdiv_tmod m fun hn => h ⟨rfl, hn⟩)

/-- **An operator makes of two values** what it should make of their numbers. -/
theorem combines_apply (op : BinOp) (a b : Value) :
    Combines op a.toInt b.toInt (meaning (op.apply a b)) := by
  rw [BinOp.apply]
  split
  · next h =>
    rw [h.2]
    cases op with
    | div => exact .divZero a.toInt
    | mod => exact .modZero a.toInt
    | add | sub | mul => exact absurd h.1 Bool.false_ne_true
  · next h =>
    rw [meaning_fit]
    exact .exact (exact_of_divisor_ne_zero h)

theorem add_delta (s : Step) (k : Int) : k + s.delta = moved s k := by
  cases s <;> rfl

/-! ### Evaluation -/

/-- **An expression is evaluated exactly**: from a table in use its evaluation keeps to the
rules, and it leaves a table in use. -/
def IsExact (hash : String → UInt64) (e : Expr) : Prop :=
  ∀ ⦃t u : SymbolTable hash⦄ ⦃o : Except EvalError Value⦄, t.Sound → e.evaluate t = (o, u) →
    u.Sound ∧ Evaluates (valuation t) e (meaning o) (valuation u)

theorem isExact_num (v : Value) : IsExact hash (.num v) := by
  intro t u o ht h
  rw [Expr.evaluate_num] at h
  cases h
  exact ⟨ht, .num _ v⟩

theorem isExact_var (x : String) : IsExact hash (.var x) := by
  intro t u o ht h
  have hx := lookup_valuation ht x
  rw [Expr.evaluate_var] at h
  rcases hv : t.find? x with _ | v <;> rw [hv] at h hx <;> cases h
  · exact ⟨ht, .varUndefined hx⟩
  · exact ⟨ht, .var hx⟩

theorem isExact_neg {e : Expr} (ih : IsExact hash e) : IsExact hash (.neg e) := by
  intro t u o ht h
  rw [Expr.evaluate_neg] at h
  rcases he : e.evaluate t with ⟨err | v, w⟩ <;> obtain ⟨hw, hev⟩ := ih ht he <;>
    rw [he] at h <;> cases h
  · exact ⟨hw, .negOperand hev⟩
  · rw [meaning_fit]
    exact ⟨hw, .neg hev⟩

theorem isExact_update (op : UpdateOp) (x : String) : IsExact hash (.update op x) := by
  intro t u o ht h
  have hx := lookup_valuation ht x
  rw [Expr.evaluate_update] at h
  rcases hv : t.find? x with _ | old <;> rw [hv] at h hx
  · cases h
    exact ⟨ht, .updateUndefined hx⟩
  · have hnew := meaning_fit (.update op x) (old.toInt + op.step.delta)
    dsimp only at h
    rw [add_delta] at h hnew
    rcases hfit : fit (.update op x) (moved op.step old.toInt) with err | new <;>
      rw [hfit] at h hnew <;> cases h
    · exact ⟨ht, .updateFails hx hnew.symm⟩
    · refine ⟨(ht.add x new).1, ?_⟩
      rw [valuation_add ht]
      cases op with
      | pre s => exact .updatePre hx hnew.symm
      | post s => exact .updatePost hx hnew.symm

theorem isExact_bin (op : BinOp) {l r : Expr} (ihl : IsExact hash l) (ihr : IsExact hash r) :
    IsExact hash (.bin op l r) := by
  intro t u o ht h
  rw [Expr.evaluate_bin] at h
  rcases hl : l.evaluate t with ⟨err | a, w⟩ <;> obtain ⟨hw, hevl⟩ := ihl ht hl <;> rw [hl] at h
  · cases h
    exact ⟨hw, .binLeft hevl⟩
  · -- the right operand starts from the table that the left one leaves
    dsimp only at h
    rcases hr : r.evaluate w with ⟨err | b, w'⟩ <;> obtain ⟨hw', hevr⟩ := ihr hw hr <;>
      rw [hr] at h <;> cases h
    · exact ⟨hw', .binRight hevl hevr⟩
    · exact ⟨hw', .bin hevl hevr (combines_apply op a b)⟩

theorem isExact_assign (x : String) {e : Expr} (ih : IsExact hash e) :
    IsExact hash (.assign .plain x e) := by
  intro t u o ht h
  rw [Expr.evaluate_assign] at h
  rcases he : e.evaluate t with ⟨err | v, w⟩ <;> obtain ⟨hw, hev⟩ := ih ht he <;>
    rw [he] at h <;> cases h
  · exact ⟨hw, .assignOperand hev⟩
  · rw [valuation_add hw]
    exact ⟨(hw.add x v).1, .assign hev⟩

theorem isExact_compound (op : BinOp) (x : String) {e : Expr} (ih : IsExact hash e) :
    IsExact hash (.assign (.compound op) x e) := by
  intro t u o ht h
  have hx := lookup_valuation ht x
  rw [Expr.evaluate_compound] at h
  rcases hv : t.find? x with _ | old <;> rw [hv] at h hx
  · cases h
    exact ⟨ht, .compoundUndefined hx⟩
  · dsimp only at h
    rcases he : e.evaluate t with ⟨err | v, w⟩ <;> obtain ⟨hw, hev⟩ := ih ht he <;> rw [he] at h
    · cases h
      exact ⟨hw, .compoundOperand hx hev⟩
    · -- what is combined is the value from before the operand
      have ho := combines_apply op old v
      dsimp only at h
      rcases hop : op.apply old v with err | new <;> rw [hop] at h ho <;> cases h
      · exact ⟨hw, .compoundFails hx hev ho⟩
      · rw [valuation_add hw]
        exact ⟨(hw.add x new).1, .compound hx hev ho⟩

/-- **Every expression is evaluated exactly.** -/
theorem isExact (hash : String → UInt64) (e : Expr) : IsExact hash e := by
  induction e with
  | num v => exact isExact_num v
  | var x => exact isExact_var x
  | neg e ih => exact isExact_neg ih
  | update op x => exact isExact_update op x
  | bin op l r ihl ihr => exact isExact_bin op ihl ihr
  | assign op x e ih =>
    cases op with
    | plain => exact isExact_assign x ih
    | compound op => exact isExact_compound op x ih

/-- **Evaluation is exact.** In every table that calls can leave, an expression ends in one
way by the rules for the map of the table, and that is the way in which its evaluation
ends: with the same number, or with a failure of the same kind, and in a table that has the
values of the map that the rules leave. The remainder of the least number by `-1` is zero
and no failure. -/
theorem evaluates_iff (hash : String → UInt64) (c : Nat)
    (cs : List (ProbeTable.Call String Value)) (e : Expr) :
    let t : SymbolTable hash := (ProbeTable.ofCapacity c).callAll cs
    (∀ x, (valuation t).lookup x = (t.find? x).map Value.toInt) ∧
    (∀ x, (valuation (e.evaluate t).2).lookup x = ((e.evaluate t).2.find? x).map Value.toInt) ∧
    (∀ r m, Evaluates (valuation t) e r m ↔
      r = meaning (e.evaluate t).1 ∧ m = valuation (e.evaluate t).2) ∧
    (Expr.bin .mod (.num ⟨-2 ^ 31, by decide⟩) (.num ⟨-1, by decide⟩)).evaluate t =
      (.ok ⟨0, by decide⟩, t) := by
  intro t
  have ht : t.Sound := (ProbeTable.sound_ofCapacity c).callAll cs
  obtain ⟨hsound, he⟩ := isExact hash e ht rfl
  refine ⟨lookup_valuation ht, lookup_valuation hsound, fun r m => ⟨fun h => h.unique he, ?_⟩, ?_⟩
  · rintro ⟨rfl, rfl⟩
    exact he
  · rw [Expr.evaluate_bin]
    rfl

end Reckoner
