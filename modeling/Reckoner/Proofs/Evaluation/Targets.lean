import Reckoner.Proofs.Evaluation.Schedule
import Reckoner.Proofs.Evaluation.Outcomes
import Reckoner.Proofs.ProbeTable.Crossings
import Reckoner.Proofs.ProbeTable.Doubling

/-!
# What an evaluation leaves alone

An evaluation writes to the targets of updates and assignments, and to nothing else. All other
variables keep their values, no variable is lost, and the new ones are targets of assignments, since
an update has to find a value before it writes one. All this does not depend on how the evaluation
ends, and not on the table either, which may grow on the way
(`Reckoner.evaluate_touches_targets`).

What is between the table at the start and the one that is left is said by a relation of the two
(`Reckoner.SymbolTable.Becomes`), which holds of a table and itself, goes through another table, and
holds of a single write. So it holds of a computation if it holds of its parts
(`Reckoner.Eval.WritesTo`).
-/

namespace Reckoner

/-! ### Targets -/

namespace Expr

/-- The variable that a node assigns to, if it does. -/
def assigned? : Expr → Option String
  | assign _ x _ => some x
  | _ => none

/-- **The targets of an expression**: what its updates and its assignments write to. -/
def targets (e : Expr) : List String := e.postorder.filterMap written?

/-- **The variables that an expression assigns to.** -/
def assigned (e : Expr) : List String := e.postorder.filterMap assigned?

theorem targets_neg (e : Expr) : (neg e).targets = e.targets := by
  simp [targets, postorder, written?]

theorem targets_bin (op : BinOp) (l r : Expr) :
    (bin op l r).targets = l.targets ++ r.targets := by
  simp [targets, postorder, written?]

theorem targets_assign (op : AssignOp) (x : String) (e : Expr) :
    (assign op x e).targets = e.targets ++ [x] := by
  simp [targets, postorder, written?, List.filterMap_cons]

theorem assigned_neg (e : Expr) : (neg e).assigned = e.assigned := by
  simp [assigned, postorder, assigned?]

theorem assigned_bin (op : BinOp) (l r : Expr) :
    (bin op l r).assigned = l.assigned ++ r.assigned := by
  simp [assigned, postorder, assigned?]

theorem assigned_assign (op : AssignOp) (x : String) (e : Expr) :
    (assign op x e).assigned = e.assigned ++ [x] := by
  simp [assigned, postorder, assigned?, List.filterMap_cons]

end Expr

/-! ### Tables before and after -/

namespace SymbolTable

variable {hash : String → UInt64} {ws as : List String} {t u w : SymbolTable hash}

/-- **What writes to some variables make of a table**, if those that are new are among `as`. -/
structure Becomes (ws as : List String) (t u : SymbolTable hash) : Prop where
  /-- The table is still in use. -/
  sound : u.Sound
  /-- No variable is lost. -/
  contains_of_contains : ∀ {x}, t.contains x → u.contains x
  /-- The new ones are among those that may be new. -/
  mem_of_new : ∀ {x}, t.contains x = false → u.contains x → x ∈ as
  /-- All other variables have the values they had. -/
  find?_eq : ∀ {x}, x ∉ ws → u.find? x = t.find? x
  /-- The table does not shrink. -/
  capacity_le : t.capacity ≤ u.capacity
  /-- Without any writes it is the same, slot for slot. -/
  eq_of_eq_nil : ws = [] → u = t

namespace Becomes

theorem refl (ht : t.Sound) : Becomes ws as t t where
  sound := ht
  contains_of_contains := id
  mem_of_new hnot h := by
    rw [h] at hnot
    cases hnot
  find?_eq _ := rfl
  capacity_le := Nat.le_refl _
  eq_of_eq_nil _ := rfl

theorem trans (h : Becomes ws as t u) (h' : Becomes ws as u w) : Becomes ws as t w where
  sound := h'.sound
  contains_of_contains hx := h'.contains_of_contains (h.contains_of_contains hx)
  mem_of_new {x} hnot hx := by
    -- it is new in the one table or in the other
    rcases hu : u.contains x with _ | _
    · exact h'.mem_of_new hu hx
    · exact h.mem_of_new hnot hu
  find?_eq hx := (h'.find?_eq hx).trans (h.find?_eq hx)
  capacity_le := Nat.le_trans h.capacity_le h'.capacity_le
  eq_of_eq_nil hws := (h'.eq_of_eq_nil hws).trans (h.eq_of_eq_nil hws)

/-- **One write.** -/
theorem add (ht : t.Sound) {x : String} (hx : x ∈ ws) (hnew : t.contains x = false → x ∈ as)
    (v : Value) : Becomes ws as t (t.add x v).2 where
  sound := (ht.add x v).1
  contains_of_contains hy := by
    rw [ht.contains_add, hy, Bool.or_true]
  mem_of_new {y} hnot hy := by
    rw [ht.contains_add, hnot, Bool.or_false, decide_eq_true_iff] at hy
    exact hy ▸ hnew (hy ▸ hnot)
  find?_eq {y} hy := by
    rw [ht.find?_add, if_neg (ne_of_mem_of_not_mem hx hy).symm]
  capacity_le := by
    rw [ht.capacity_add]
    split_ifs
    · exact Nat.le_refl _
    · exact Nat.le_mul_of_pos_left _ Nat.two_pos
  eq_of_eq_nil hws := by
    rw [hws] at hx
    cases hx

/-- **The size grows by the number of the new variables.** -/
theorem exists_new (h : Becomes ws as t u) (ht : t.Sound) :
    ∃ new : Finset String,
      (∀ x, x ∈ new ↔ t.contains x = false ∧ u.contains x) ∧ u.size = t.size + new.card := by
  have hsubset : t.keySet ⊆ u.keySet := fun x hx =>
    h.sound.mem_keySet_iff.mpr (h.contains_of_contains (ht.mem_keySet_iff.mp hx))
  refine ⟨u.keySet \ t.keySet, fun x => ?_, ?_⟩
  · rw [Finset.mem_sdiff, ht.mem_keySet_iff, h.sound.mem_keySet_iff, Bool.not_eq_true, and_comm]
  · rw [← h.sound.card_keySet, ← ht.card_keySet, Nat.add_comm]
    exact (Finset.card_sdiff_add_card_eq_card hsubset).symm

end Becomes

end SymbolTable

open SymbolTable

/-! ### Computations -/

namespace Eval

variable {α β : Type} {hash : String → UInt64} {ws as : List String}

/-- **A computation that writes to some variables only**, however it ends. -/
def WritesTo (ws as : List String) (c : Eval hash α) : Prop :=
  ∀ ⦃t⦄, t.Sound → ∃ r u, c.outcome t = (r, u) ∧ Becomes ws as t u

namespace WritesTo

theorem pure (a : α) : WritesTo ws as (pure a : Eval hash α) := fun t ht =>
  ⟨.ok a, t, outcome_pure a t, .refl ht⟩

/-- One computation after another. -/
theorem bind {c : Eval hash α} {f : α → Eval hash β} (hc : WritesTo ws as c)
    (hf : ∀ a, WritesTo ws as (f a)) : WritesTo ws as (c >>= f) := by
  intro t ht
  obtain ⟨r, u, houtcome, hu⟩ := hc ht
  rw [outcome_bind, houtcome]
  cases r with
  | error err => exact ⟨.error err, u, rfl, hu⟩
  | ok a =>
    obtain ⟨r, w, houtcome, hw⟩ := hf a hu.sound
    exact ⟨r, w, houtcome, hu.trans hw⟩

theorem read (x : String) : WritesTo ws as (read x : Eval hash Value) := by
  intro t ht
  rw [outcome_read]
  cases t.find? x with
  | none => exact ⟨_, t, rfl, .refl ht⟩
  | some v => exact ⟨_, t, rfl, .refl ht⟩

theorem result (r : Except EvalError Value) :
    WritesTo ws as (result r : Eval hash Value) := fun t ht =>
  ⟨r, t, outcome_result r t, .refl ht⟩

/-- A store, also to a variable that has no value. -/
theorem store {x : String} (hws : x ∈ ws) (has : x ∈ as) (v : Value) :
    WritesTo ws as (store x v : Eval hash Unit) := fun _ ht =>
  ⟨.ok (), _, rfl, .add ht hws (fun _ => has) v⟩

/-- **An update** has read its target, so that is not new. -/
theorem update (op : UpdateOp) {x : String} (hx : x ∈ ws) :
    WritesTo ws as ((Expr.update op x).eval : Eval hash Value) := by
  intro t ht
  rw [← Expr.evaluate_eq_outcome, Expr.evaluate_update]
  rcases hfind : t.find? x with _ | old
  · exact ⟨_, t, rfl, .refl ht⟩
  · dsimp only
    rcases fit (.update op x) (old.toInt + op.step.delta) with err | new
    · exact ⟨_, t, rfl, .refl ht⟩
    · refine ⟨_, _, rfl, .add ht hx (fun hnot => ?_) new⟩
      rw [ProbeTable.contains_eq_isSome, hfind] at hnot
      cases hnot

end WritesTo

end Eval

open Eval

/-! ### Expressions -/

/-- **An expression writes to its targets**, of which those of assignments may be new. -/
theorem Expr.writesTo_eval {hash : String → UInt64} {ws as : List String} (e : Expr)
    (hws : e.targets ⊆ ws) (has : e.assigned ⊆ as) :
    WritesTo ws as (e.eval : Eval hash Value) := by
  induction e with
  | num v => exact .pure v
  | var x => exact .read x
  | neg e ih =>
    rw [targets_neg] at hws
    rw [assigned_neg] at has
    exact (ih hws has).bind fun v => .result _
  | update op x => exact .update op (hws (List.mem_singleton_self x))
  | bin op l r ihl ihr =>
    rw [targets_bin, List.append_subset] at hws
    rw [assigned_bin, List.append_subset] at has
    exact (ihl hws.1 has.1).bind fun a => (ihr hws.2 has.2).bind fun b => .result _
  | assign op x e ih =>
    rw [targets_assign, List.append_subset] at hws
    rw [assigned_assign, List.append_subset] at has
    have hstore : ∀ v, WritesTo ws as (store x v : Eval hash Unit) :=
      .store (hws.2 (List.mem_singleton_self x)) (has.2 (List.mem_singleton_self x))
    cases op with
    | plain => exact (ih hws.1 has.1).bind fun v => (hstore v).bind fun _ => .pure v
    | compound op =>
      refine (WritesTo.read x).bind fun old => (ih hws.1 has.1).bind fun v => ?_
      exact (WritesTo.result _).bind fun new => (hstore new).bind fun _ => .pure new

/-- **An evaluation touches the targets of its expression and nothing else.** Take any table that
calls can leave, whatever the hash. Whether the evaluation succeeds or fails, no variable is lost; a
variable that is not the target of an update or an assignment has the value it had; the size has
grown by the number of the variables that are new, and all of these are targets of assignments; the
capacity has not become less; and without any targets the table is the same, slot for slot. -/
theorem evaluate_touches_targets (hash : String → UInt64) (c : Nat)
    (cs : List (ProbeTable.Call String Value)) (e : Expr) :
    let t : SymbolTable hash := (ProbeTable.ofCapacity c).callAll cs
    let u := (e.evaluate t).2
    (∀ x, t.contains x → u.contains x) ∧
      (∀ x, x ∉ e.targets → u.find? x = t.find? x) ∧
      (∃ new : Finset String,
        (∀ x, x ∈ new ↔ t.contains x = false ∧ u.contains x) ∧ u.size = t.size + new.card ∧
          ∀ x ∈ new, x ∈ e.assigned) ∧
      t.capacity ≤ u.capacity ∧ (e.targets = [] → u = t) := by
  intro t u
  have ht : t.Sound := (ProbeTable.sound_ofCapacity c).callAll cs
  obtain ⟨r, w, houtcome, h⟩ := e.writesTo_eval (List.Subset.refl _) (List.Subset.refl _) ht
  rw [← e.evaluate_eq_outcome] at houtcome
  obtain rfl : u = w := congrArg Prod.snd houtcome
  obtain ⟨new, hnew, hsize⟩ := h.exists_new ht
  exact ⟨fun x => h.contains_of_contains, fun x => h.find?_eq,
    ⟨new, hnew, hsize, fun x hx => h.mem_of_new ((hnew x).mp hx).1 ((hnew x).mp hx).2⟩,
    h.capacity_le, h.eq_of_eq_nil⟩

/-- In a table of two slots: the evaluation fails at `z` when it has stepped `a` and given `x` a
value, for which the table has grown. An expression without targets fails there, too, and has
changed nothing. -/
theorem evaluate_touches_targets_grown :
    let t : SymbolTable := (ProbeTable.ofCapacity 2).callAll [.add "a" ⟨1, by decide⟩]
    let e : Expr := .bin .add (.assign .plain "x" (.update (.pre .up) "a")) (.var "z")
    let u := (e.evaluate t).2
    ((e.evaluate t).1 = .error (.undefinedVariable "z") ∧ u.capacity = 4) ∧
      (t.contains "a" ∧ u.contains "a") ∧
      ("z" ∉ e.targets ∧ u.find? "z" = none) ∧
      (t.contains "x" = false ∧ u.contains "x" ∧ u.size = 2 ∧ "x" ∈ e.assigned) ∧
      (Expr.neg (.var "z")).targets = [] ∧ ((Expr.neg (.var "z")).evaluate t).2 = t := by
  intro t e u
  obtain ⟨hkept, hleft, ⟨new, hnew, hsize, hassigned⟩, -⟩ :=
    evaluate_touches_targets Text.hash 2 [.add "a" ⟨1, by decide⟩] e
  obtain ⟨-, -, -, -, hsame⟩ :=
    evaluate_touches_targets Text.hash 2 [.add "a" ⟨1, by decide⟩] (.neg (.var "z"))
  have ha : t.contains "a" := by decide +kernel
  have hz : "z" ∉ e.targets := by decide +kernel
  have hx : t.contains "x" = false ∧ u.contains "x" := by decide +kernel
  exact ⟨by decide +kernel, ⟨ha, hkept _ ha⟩, ⟨hz, (hleft _ hz).trans (by decide +kernel)⟩,
    ⟨hx.1, hx.2, by decide +kernel, hassigned _ ((hnew _).mpr hx)⟩, rfl, hsame rfl⟩

end Reckoner
