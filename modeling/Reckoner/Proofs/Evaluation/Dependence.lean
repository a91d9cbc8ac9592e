import Reckoner.Proofs.Evaluation.Outcomes
import Reckoner.Proofs.Postfix.Names
import Reckoner.Proofs.ProbeTable.Reachable

/-!
# What an evaluation depends on

An evaluation sees a table of variables through the names in its expression and in no other way.
Two tables that have the same values for these names may differ in everything else, in their
capacities, in the other variables and in the slots in which all of them are: the evaluation ends
alike in both, failures included, and the tables have the same values for these names again
(`Reckoner.evaluate_eq_of_agree`).

The relation between the two runs is carried through the monad of evaluation and not through the
expression. A computation that depends on some names only (`Reckoner.Eval.DependsOn`) is made of
others that do, and of three things that can be done to a table: a read of one of these names, a
result without any read, and a store, which may be of any name.
-/

namespace Reckoner

/-! ### Tables with the same values -/

namespace SymbolTable

variable {hash : String → UInt64}

/-- **Tables in use that have the same values** for some names. -/
structure Agree (xs : List String) (t u : SymbolTable hash) : Prop where
  /-- The first table is in use. -/
  sound_left : t.Sound
  /-- So is the second one. -/
  sound_right : u.Sound
  /-- The values are the same. -/
  find?_eq : ∀ x ∈ xs, t.find? x = u.find? x

/-- **Storing a value** in both tables keeps them alike, also if they have to grow for it at
different times. -/
theorem Agree.add {xs : List String} {t u : SymbolTable hash} (h : Agree xs t u) (x : String)
    (v : Value) : Agree xs (t.add x v).2 (u.add x v).2 where
  sound_left := (h.sound_left.add x v).1
  sound_right := (h.sound_right.add x v).1
  find?_eq y hy := by
    rw [h.sound_left.find?_add, h.sound_right.find?_add, h.find?_eq y hy]

end SymbolTable

open SymbolTable

/-! ### Computations -/

namespace Eval

variable {α β : Type} {hash : String → UInt64} {xs : List String}

/-- **A computation that depends on some names only**: from tables that have the same values for
them it ends alike, and in tables that have the same values for them. -/
def DependsOn (xs : List String) (c : Eval hash α) : Prop :=
  ∀ ⦃t u⦄, Agree xs t u →
    ∃ r t' u', c.outcome t = (r, t') ∧ c.outcome u = (r, u') ∧ Agree xs t' u'

namespace DependsOn

theorem pure (a : α) : DependsOn xs (pure a : Eval hash α) := fun t u h =>
  ⟨.ok a, t, u, outcome_pure a t, outcome_pure a u, h⟩

/-- One computation after another depends on no more than they do. -/
theorem bind {c : Eval hash α} {f : α → Eval hash β} (hc : DependsOn xs c)
    (hf : ∀ a, DependsOn xs (f a)) :
    DependsOn xs (c >>= f) := by
  intro t u h
  obtain ⟨r, t', u', ht, hu, hagree⟩ := hc h
  rw [outcome_bind, outcome_bind, ht, hu]
  cases r with
  | error err => exact ⟨.error err, t', u', rfl, rfl, hagree⟩
  | ok a => exact hf a hagree

theorem read {x : String} (hx : x ∈ xs) : DependsOn xs (read x : Eval hash Value) := by
  intro t u h
  rw [outcome_read, outcome_read, h.find?_eq x hx]
  cases u.find? x with
  | none => exact ⟨_, t, u, rfl, rfl, h⟩
  | some v => exact ⟨_, t, u, rfl, rfl, h⟩

theorem result (r : Except EvalError Value) :
    DependsOn xs (result r : Eval hash Value) := fun t u h =>
  ⟨r, t, u, outcome_result r t, outcome_result r u, h⟩

/-- A store needs no value that is there, so its name does not count. -/
theorem store (x : String) (v : Value) : DependsOn xs (store x v : Eval hash Unit) := fun _ _ h =>
  ⟨.ok (), _, _, rfl, rfl, h.add x v⟩

end DependsOn

end Eval

open Eval

/-! ### Expressions -/

/-- **An expression depends on its names.** -/
theorem Expr.dependsOn_eval {hash : String → UInt64} {xs : List String} (e : Expr)
    (h : e.names ⊆ xs) : DependsOn xs (e.eval : Eval hash Value) := by
  induction e with
  | num v => exact .pure v
  | var x => exact .read (h List.mem_cons_self)
  | neg e ih => exact (ih h).bind fun v => .result _
  | update op x =>
    refine (DependsOn.read (h List.mem_cons_self)).bind fun old => ?_
    exact (DependsOn.result _).bind fun new => (DependsOn.store x new).bind fun _ => .pure _
  | bin op l r ihl ihr =>
    obtain ⟨hl, hr⟩ := List.append_subset.mp h
    exact (ihl hl).bind fun a => (ihr hr).bind fun b => .result _
  | assign op x e ih =>
    obtain ⟨hx, he⟩ := List.cons_subset.mp h
    cases op with
    | plain => exact (ih he).bind fun v => (DependsOn.store x v).bind fun _ => .pure v
    | compound op =>
      refine (DependsOn.read hx).bind fun old => (ih he).bind fun v => ?_
      exact (DependsOn.result _).bind fun new => (DependsOn.store x new).bind fun _ => .pure new

/-- **An evaluation depends on the variables that its expression mentions.** Take any two tables
that calls can leave, whatever the hash, whatever capacities were asked for and whatever has been
added and removed. If they have the same values for the names in an expression, its evaluation
returns the same in both, the same value or the same failure with all that is reported of it, and
leaves tables that have the same values for these names. -/
theorem evaluate_eq_of_agree (hash : String → UInt64) (c c' : Nat)
    (cs cs' : List (ProbeTable.Call String Value)) (e : Expr) :
    let t : SymbolTable hash := (ProbeTable.ofCapacity c).callAll cs
    let u : SymbolTable hash := (ProbeTable.ofCapacity c').callAll cs'
    (∀ x ∈ e.names, t.find? x = u.find? x) →
      (e.evaluate t).1 = (e.evaluate u).1 ∧
        ∀ x ∈ e.names, (e.evaluate t).2.find? x = (e.evaluate u).2.find? x := by
  intro t u h
  have hagree : Agree e.names t u :=
    ⟨(ProbeTable.sound_ofCapacity c).callAll cs, (ProbeTable.sound_ofCapacity c').callAll cs', h⟩
  obtain ⟨r, t', u', ht, hu, hleft⟩ := e.dependsOn_eval (List.Subset.refl _) hagree
  rw [e.evaluate_eq_outcome, e.evaluate_eq_outcome, ht, hu]
  exact ⟨rfl, hleft.find?_eq⟩

/-- A table that grows while `x` is stored and one that does not, with other variables that come
and go. Both evaluations fail at the same name, and both have stored the same value by then. -/
theorem evaluate_eq_of_agree_grown :
    let two : Value := ⟨2, by decide⟩
    let e : Expr := .bin .add (.assign .plain "x" (.neg (.var "y"))) (.var "z")
    let t : SymbolTable := (ProbeTable.ofCapacity 1).callAll [.add "y" two]
    let u : SymbolTable := (ProbeTable.ofCapacity 16).callAll
      [.add "a" ⟨1, by decide⟩, .add "y" ⟨5, by decide⟩, .add "b" two, .remove "a", .add "y" two]
    (∀ x ∈ e.names, t.find? x = u.find? x) ∧
      (e.evaluate t).1 = .error (.undefinedVariable "z") ∧
      (e.evaluate u).1 = .error (.undefinedVariable "z") ∧
      ∀ x ∈ e.names, (e.evaluate t).2.find? x = (e.evaluate u).2.find? x := by
  intro two e t u
  have hnames : ∀ x ∈ e.names, t.find? x = u.find? x := by decide +kernel
  have hfails : (e.evaluate t).1 = .error (.undefinedVariable "z") := by decide +kernel
  obtain ⟨hresult, hleft⟩ := evaluate_eq_of_agree Text.hash 1 16 [.add "y" two]
    [.add "a" ⟨1, by decide⟩, .add "y" ⟨5, by decide⟩, .add "b" two, .remove "a", .add "y" two]
    e hnames
  exact ⟨hnames, hfails, hresult.symm.trans hfails, hleft⟩

end Reckoner
