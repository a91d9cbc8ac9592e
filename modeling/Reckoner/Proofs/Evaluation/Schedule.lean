import Mathlib.Data.List.Nodup
import Reckoner.Eval
import Reckoner.Proofs.Postfix.RoundTrip

/-!
# The order of an evaluation

What an evaluation does, and in which order, can be read off the expression: it reads variables, it
computes, and it writes to variables, each time at some node of the expression
(`Reckoner.Expr.schedule`). The values decide only how far it gets, since whatever fails ends it.

A node is told from other nodes by where it is, not by what it is: the same step of the same
variable may occur twice. So nodes have paths (`Reckoner.Path`), and one node is above another one
if its path is a suffix of the other's.

Two things about the order are used later. The writes are scheduled in the order in which the
operators are written in postfix notation (`Reckoner.Expr.filterMap_written?_schedule`). And a write
is the last thing that is done at its node or below it
(`Reckoner.Expr.orderly_schedule`), so whatever fails later is not below it.
-/

namespace Reckoner

/-! ### Nodes -/

/-- **The place of a node in an expression**: which operand it is of the node above it, which
operand that one is of the node above it, and so on, up to the root. -/
abbrev Path : Type := List Nat

/-- **A node is another one or above it.** -/
def Path.Covers (p q : Path) : Prop := p <:+ q

namespace Path.Covers

variable {p q : Path} {i j : Nat}

theorem refl (p : Path) : Covers p p := List.suffix_rfl

/-- What is below an operand of a node is below the node. -/
theorem of_cons (h : Covers (i :: p) q) : Covers p q := (List.suffix_cons i p).trans h

/-- And it is not above it. -/
theorem not_of_cons (h : Covers (i :: p) q) : ¬Covers q p := by
  intro hq
  have hle := (h.trans hq).length_le
  rw [List.length_cons] at hle
  omega

/-- What is below different operands of a node is apart. -/
theorem eq_of_cons (hi : Covers (i :: p) q) (hj : Covers (j :: p) q) : i = j :=
  List.head_eq_of_cons_eq
    ((List.suffix_of_suffix_length_le hi hj (Nat.le_refl _)).eq_of_length rfl)

end Path.Covers

namespace Expr

/-- The subexpressions at a node and below it, each with its path, in the order in which their
tokens are written. The target of an update or an assignment is its first operand. -/
def nodesAt : Path → Expr → List (Path × Expr)
  | p, num v => [(p, num v)]
  | p, var x => [(p, var x)]
  | p, neg e => e.nodesAt (0 :: p) ++ [(p, neg e)]
  | p, update op x => [(0 :: p, var x), (p, update op x)]
  | p, bin op l r => l.nodesAt (0 :: p) ++ (r.nodesAt (1 :: p) ++ [(p, bin op l r)])
  | p, assign op x e => (0 :: p, var x) :: (e.nodesAt (1 :: p) ++ [(p, assign op x e)])

/-- **The nodes of an expression**, in the order in which their tokens are written. -/
def nodes (e : Expr) : List (Path × Expr) := e.nodesAt []

/-- The nodes are the subexpressions. -/
theorem map_snd_nodesAt (e : Expr) (p : Path) : (e.nodesAt p).map Prod.snd = e.postorder := by
  induction e generalizing p with
  | num v | var x | update op x => rfl
  | neg e ih => simp [nodesAt, postorder, ih]
  | bin op l r ihl ihr => simp [nodesAt, postorder, ihl, ihr]
  | assign op x e ih => simp [nodesAt, postorder, ih]

/-- **The postfix form of an expression** is the word of one node after the other. -/
theorem postfixText_eq_nodes (e : Expr) :
    e.postfixText = .ofList (Text.unwords (e.nodes.map fun n => n.2.token.chars)) := by
  rw [postfixText, ← map_token_postorder, ← map_snd_nodesAt e [], List.map_map, List.map_map]
  rfl

theorem covers_of_mem_nodesAt {e : Expr} {p : Path} {n : Path × Expr} (h : n ∈ e.nodesAt p) :
    p.Covers n.1 := by
  induction e generalizing p with
  | num v | var x =>
    rw [List.mem_singleton.mp h]
    exact .refl p
  | neg e ih =>
    simp only [nodesAt, List.mem_append, List.mem_singleton] at h
    rcases h with h | rfl
    · exact (ih h).of_cons
    · exact .refl p
  | update op x =>
    simp only [nodesAt, List.mem_cons, List.not_mem_nil, or_false] at h
    rcases h with rfl | rfl
    · exact (Path.Covers.refl _).of_cons
    · exact .refl p
  | bin op l r ihl ihr =>
    simp only [nodesAt, List.mem_append, List.mem_singleton] at h
    rcases h with h | h | rfl
    · exact (ihl h).of_cons
    · exact (ihr h).of_cons
    · exact .refl p
  | assign op x e ih =>
    simp only [nodesAt, List.mem_cons, List.mem_append, List.not_mem_nil, or_false] at h
    rcases h with rfl | h | rfl
    · exact (Path.Covers.refl _).of_cons
    · exact (ih h).of_cons
    · exact .refl p

/-- What is below an operand is not the node itself. -/
theorem not_mem_map_fst_nodesAt (e : Expr) (p : Path) (i : Nat) :
    p ∉ (e.nodesAt (i :: p)).map Prod.fst := by
  intro h
  obtain ⟨n, hn, rfl⟩ := List.mem_map.mp h
  exact (covers_of_mem_nodesAt hn).not_of_cons (.refl _)

/-- Nor is it below another operand. -/
theorem disjoint_map_fst_nodesAt (l r : Expr) (p : Path) :
    ((l.nodesAt (0 :: p)).map Prod.fst).Disjoint ((r.nodesAt (1 :: p)).map Prod.fst) := by
  intro q hl hr
  obtain ⟨n, hn, rfl⟩ := List.mem_map.mp hl
  obtain ⟨m, hm, hmn⟩ := List.mem_map.mp hr
  have hcovers := covers_of_mem_nodesAt hm
  rw [hmn] at hcovers
  exact absurd ((covers_of_mem_nodesAt hn).eq_of_cons hcovers) Nat.zero_ne_one

/-- The paths to a node with one operand. -/
theorem nodup_append_node {e : Expr} {p : Path} {i : Nat} (n : Expr)
    (h : ((e.nodesAt (i :: p)).map Prod.fst).Nodup) :
    ((e.nodesAt (i :: p) ++ [(p, n)]).map Prod.fst).Nodup := by
  rw [List.map_append, List.map_singleton, ← List.concat_eq_append]
  exact h.concat (not_mem_map_fst_nodesAt e p i)

/-- The paths to a node with two operands. -/
theorem nodup_append_append_node {l r : Expr} {p : Path} (n : Expr)
    (hl : ((l.nodesAt (0 :: p)).map Prod.fst).Nodup)
    (hr : ((r.nodesAt (1 :: p)).map Prod.fst).Nodup) :
    ((l.nodesAt (0 :: p) ++ (r.nodesAt (1 :: p) ++ [(p, n)])).map Prod.fst).Nodup := by
  rw [List.map_append]
  refine hl.append (nodup_append_node n hr) ?_
  rw [List.map_append, List.map_singleton]
  exact List.disjoint_append_right.mpr ⟨disjoint_map_fst_nodesAt l r p,
    List.disjoint_singleton.mpr (not_mem_map_fst_nodesAt l p 0)⟩

/-- **A path leads to one node only.** -/
theorem nodup_nodesAt (e : Expr) (p : Path) : ((e.nodesAt p).map Prod.fst).Nodup := by
  induction e generalizing p with
  | num v | var x => exact List.nodup_singleton p
  | neg e ih => exact nodup_append_node _ (ih _)
  | update op x => exact nodup_append_node (e := .var x) _ (List.nodup_singleton _)
  | bin op l r ihl ihr => exact nodup_append_append_node _ (ihl _) (ihr _)
  | assign op x e ih =>
    exact nodup_append_append_node (l := .var x) _ (List.nodup_singleton _) (ih _)

/-! ### Writes -/

/-- The variable that a node writes to, if it does. -/
def written? : Expr → Option String
  | update _ x => some x
  | assign _ x _ => some x
  | _ => none

/-- The nodes that write, with the variables they write to. -/
def writesAt (p : Path) (e : Expr) : List (Path × String) :=
  (e.nodesAt p).filterMap fun n => n.2.written?.map (n.1, ·)

/-- **The writes of an expression**, in the order in which their operators are written. -/
def writes (e : Expr) : List (Path × String) := e.writesAt []

end Expr

/-! ### What is done at a node -/

/-- **What can be done at a node.** -/
inductive Action
  /-- A variable is read. -/
  | read (name : String)
  /-- Values are combined. -/
  | compute
  /-- A variable is written to. -/
  | write (name : String)
deriving DecidableEq

/-- **Something done at a node.** -/
structure Deed where
  /-- The node. -/
  node : Path
  /-- What is done. -/
  action : Action
deriving DecidableEq

/-- The node and the variable, if a variable is written to. -/
def Deed.written? : Deed → Option (Path × String)
  | ⟨p, .write x⟩ => some (p, x)
  | _ => none

theorem Deed.fst_of_written? {d : Deed} {w : Path × String} (h : d.written? = some w) :
    w.1 = d.node := by
  obtain ⟨p, x | _ | x⟩ := d
  · cases h
  · cases h
  · cases h
    rfl

/-- **An order in which a write is the last thing** that is done at its node or below it. -/
def Orderly (ds : List Deed) : Prop :=
  ds.Pairwise fun d d' => d.written?.isSome → ¬d.node.Covers d'.node

namespace Expr

/-- **What there is to be done at a node and below it**, in the order in which it is done. -/
def schedule : Path → Expr → List Deed
  | _, num _ => []
  | p, var x => [⟨p, .read x⟩]
  | p, neg e => e.schedule (0 :: p) ++ [⟨p, .compute⟩]
  | p, update _ x => [⟨p, .read x⟩, ⟨p, .compute⟩, ⟨p, .write x⟩]
  | p, bin _ l r => l.schedule (0 :: p) ++ (r.schedule (1 :: p) ++ [⟨p, .compute⟩])
  | p, assign .plain x e => e.schedule (1 :: p) ++ [⟨p, .write x⟩]
  | p, assign (.compound _) x e =>
    ⟨p, .read x⟩ :: (e.schedule (1 :: p) ++ [⟨p, .compute⟩, ⟨p, .write x⟩])

/-- All of it is done at nodes. -/
theorem exists_mem_nodesAt {e : Expr} {p : Path} {d : Deed} (h : d ∈ e.schedule p) :
    ∃ n, (d.node, n) ∈ e.nodesAt p := by
  induction e generalizing p with
  | num v => cases h
  | var x | neg e ih | update op x | bin op l r ihl ihr => grind [schedule, nodesAt]
  | assign op x e ih => cases op <;> grind [schedule, nodesAt]

theorem covers_of_mem_schedule {e : Expr} {p : Path} {d : Deed} (h : d ∈ e.schedule p) :
    p.Covers d.node := by
  obtain ⟨n, hn⟩ := exists_mem_nodesAt h
  exact covers_of_mem_nodesAt hn

/-- **Writes come in the order of their operators.** -/
theorem filterMap_written?_schedule (e : Expr) (p : Path) :
    (e.schedule p).filterMap Deed.written? = e.writesAt p := by
  rw [writesAt]
  induction e generalizing p with
  | num v | var x | update op x => rfl
  | neg e ih => simp [schedule, nodesAt, ih, written?, Deed.written?]
  | bin op l r ihl ihr => simp [schedule, nodesAt, ihl, ihr, written?, Deed.written?]
  | assign op x e ih =>
    cases op <;> simp [schedule, nodesAt, ih, written?, Deed.written?, List.filterMap_cons]

/-- What is done at a node comes after what is done below it and is not below it. -/
theorem orderly_append_node {e : Expr} {p : Path} {i : Nat} {ds : List Deed}
    (h : Orderly (e.schedule (i :: p))) (hds : Orderly ds) (hnode : ∀ d ∈ ds, d.node = p) :
    Orderly (e.schedule (i :: p) ++ ds) := by
  refine List.pairwise_append.mpr ⟨h, hds, fun d hd d' hd' _ => ?_⟩
  rw [hnode d' hd']
  exact (covers_of_mem_schedule hd).not_of_cons

/-- **Nothing is done below a node that has written**, nor at the node itself. -/
theorem orderly_schedule (e : Expr) (p : Path) : Orderly (e.schedule p) := by
  induction e generalizing p with
  | num v => exact .nil
  | var x => exact List.pairwise_singleton _ _
  | neg e ih => exact orderly_append_node (ih _) (List.pairwise_singleton _ _) (by simp)
  | update op x => simp [schedule, Orderly, Deed.written?]
  | bin op l r ihl ihr =>
    have hr : Orderly (r.schedule (1 :: p) ++ [⟨p, .compute⟩]) :=
      orderly_append_node (ihr _) (List.pairwise_singleton _ _) (by simp)
    refine List.pairwise_append.mpr ⟨ihl _, hr, fun d hd d' hd' _ hcovers => ?_⟩
    have hleft : Path.Covers (0 :: p) d'.node := (covers_of_mem_schedule hd).trans hcovers
    rcases List.mem_append.mp hd' with hd' | hd'
    · exact absurd (hleft.eq_of_cons (covers_of_mem_schedule hd')) Nat.zero_ne_one
    · rw [List.mem_singleton.mp hd'] at hleft
      exact hleft.not_of_cons (.refl p)
  | assign op x e ih =>
    cases op with
    | plain => exact orderly_append_node (ih _) (List.pairwise_singleton _ _) (by simp)
    | compound op =>
      refine List.pairwise_cons.mpr ⟨fun d _ h => absurd h Bool.false_ne_true, ?_⟩
      exact orderly_append_node (ih _) (by simp [Orderly, Deed.written?]) (by simp)

end Expr

end Reckoner
