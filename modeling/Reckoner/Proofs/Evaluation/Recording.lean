import Reckoner.Proofs.Evaluation.Outcomes
import Reckoner.Proofs.Evaluation.Schedule

/-!
# Evaluations that are recorded

An evaluation that fails keeps what it has written before. To say what that is, and where the
failure was, an evaluation has to be watched, and `Reckoner.Expr.eval` yields nothing but a value
and a table.

So the text of the evaluation is written once more, for any monad
(`Reckoner.Expr.evalWith`): whatever it does to a table, it asks somebody else for
(`Reckoner.Effects`), and it says at which node. It has two readings. In the one, the effects are
those of `Reckoner.Eval`, nodes are ignored, and this is the evaluation itself
(`Reckoner.Expr.evalWith_plain`). In the other one, the same effects are carried out and recorded
(`Reckoner.Effects.recording`): each deed with its value, and a failure with its node.

The two are compared by a relation (`Reckoner.Recording.Follows`) that also says what is recorded,
namely a schedule, or what comes before one of its deeds if that is the one that fails. A record can
be replayed on the table from which the evaluation has started (`Reckoner.Replays`), and this leads
to the table that it leaves. The relation goes through binds, and what there is to know of effects
is said once for each of the three (`Reckoner.Recording.Follows.read`,
`Reckoner.Recording.Follows.result`, `Reckoner.Recording.Follows.store`).

What an evaluation writes follows from the schedule alone (`Reckoner.Expr.stores_report`).
-/

namespace Reckoner

/-! ### One text, two readings -/

/-- **What an evaluation does**, each time at a node. -/
structure Effects (m : Type → Type) where
  /-- The value of a variable. -/
  read : Path → String → m Value
  /-- A result that may be a failure. -/
  result : Path → Except EvalError Value → m Value
  /-- A value stored in a variable. -/
  store : Path → String → Value → m Unit

namespace Expr

/-- **The evaluation of an expression** at a node, with effects of any kind. -/
def evalWith {m : Type → Type} [Monad m] (fx : Effects m) : Path → Expr → m Value
  | _, num v => return v
  | p, var x => fx.read p x
  | p, neg e => do
    let v ← e.evalWith fx (0 :: p)
    fx.result p (fit (.negation v) (-v.toInt))
  | p, update op x => do
    let old ← fx.read p x
    let new ← fx.result p (fit (.update op x) (old.toInt + op.step.delta))
    fx.store p x new
    return if op.yieldsOld then old else new
  | p, bin op l r => do
    let a ← l.evalWith fx (0 :: p)
    let b ← r.evalWith fx (1 :: p)
    fx.result p (op.apply a b)
  | p, assign .plain x e => do
    let v ← e.evalWith fx (1 :: p)
    fx.store p x v
    return v
  | p, assign (.compound op) x e => do
    let old ← fx.read p x
    let v ← e.evalWith fx (1 :: p)
    let new ← fx.result p (op.apply old v)
    fx.store p x new
    return new

end Expr

variable {hash : String → UInt64}

/-- The effects of an evaluation, wherever they take place. -/
def Effects.plain : Effects (Eval hash) where
  read _ x := Eval.read x
  result _ r := Eval.result r
  store _ x v := Eval.store x v

/-- **The first reading is the evaluation.** -/
theorem Expr.evalWith_plain (e : Expr) (p : Path) :
    (e.evalWith .plain p : Eval hash Value) = e.eval := by
  induction e generalizing p with
  | num v | var x | update op x => rfl
  | neg e ih => rw [evalWith, eval, ih]; rfl
  | bin op l r ihl ihr => rw [evalWith, eval, ihl, ihr]; rfl
  | assign op x e ih => cases op <;> rw [evalWith, eval, ih] <;> rfl

/-- A table and what has been done. -/
structure Recorded (hash : String → UInt64) where
  /-- The table. -/
  table : SymbolTable hash
  /-- The deeds, each with the value that was read, computed or written. -/
  log : List (Deed × Value)

/-- A computation on a table that is recorded. A failure comes with the node that fails. -/
abbrev Recording (hash : String → UInt64) : Type → Type :=
  ExceptT (Path × EvalError) (StateM (Recorded hash))

/-- **A computation put on record** as something done, with the value that was read, computed or
written. If it fails, then it is the node that is put on record. -/
def Recording.record {α : Type} (d : Deed) (value : α → Value) (c : Eval hash α) :
    Recording hash α :=
  fun s =>
    match c.outcome s.table with
    | (.ok a, t) => (.ok a, ⟨t, s.log ++ [(d, value a)]⟩)
    | (.error err, t) => (.error (d.node, err), ⟨t, s.log⟩)

/-- **The effects of an evaluation, recorded.** -/
def Effects.recording : Effects (Recording hash) where
  read p x := Recording.record ⟨p, .read x⟩ id (Eval.read x)
  result p r := Recording.record ⟨p, .compute⟩ id (Eval.result r)
  store p x v := Recording.record ⟨p, .write x⟩ (fun _ => v) (Eval.store x v)

/-! ### Records -/

/-- **A record that can be replayed**: from one table it leads to another one, and what was read is
what was in the table at that time. -/
inductive Replays : SymbolTable hash → List (Deed × Value) → SymbolTable hash → Prop
  | nil (t : SymbolTable hash) : Replays t [] t
  | read {t u : SymbolTable hash} {p : Path} {x : String} {v : Value} {us : List (Deed × Value)}
      (hv : t.find? x = some v) (h : Replays t us u) : Replays t ((⟨p, .read x⟩, v) :: us) u
  | compute {t u : SymbolTable hash} {p : Path} {v : Value} {us : List (Deed × Value)}
      (h : Replays t us u) : Replays t ((⟨p, .compute⟩, v) :: us) u
  | write {t u : SymbolTable hash} {p : Path} {x : String} {v : Value} {us : List (Deed × Value)}
      (h : Replays (t.add x v).2 us u) : Replays t ((⟨p, .write x⟩, v) :: us) u

theorem Replays.append {t u w : SymbolTable hash} {us vs : List (Deed × Value)} (h : Replays t us u)
    (h' : Replays u vs w) : Replays t (us ++ vs) w := by
  induction h with
  | nil t => exact h'
  | read hv _ ih => exact .read hv (ih h')
  | compute _ ih => exact .compute (ih h')
  | write _ ih => exact .write (ih h')

/-- The writes of a record: the node, the variable and the value. -/
def storesOf (us : List (Deed × Value)) : List ((Path × String) × Value) :=
  us.filterMap fun u => u.1.written?.map (·, u.2)

/-- Values stored in their variables, one after the other. -/
def SymbolTable.storeAll (t : SymbolTable hash) (ss : List ((Path × String) × Value)) :
    SymbolTable hash :=
  ss.foldl (fun u s => (u.add s.1.2 s.2).2) t

/-- **Only writes change the table.** -/
theorem Replays.storeAll_eq {t u : SymbolTable hash} {us : List (Deed × Value)}
    (h : Replays t us u) :
    t.storeAll (storesOf us) = u := by
  induction h with
  | nil t => rfl
  | read _ _ ih => exact ih
  | compute _ ih => exact ih
  | write _ ih => exact ih

theorem map_fst_storesOf (us : List (Deed × Value)) :
    (storesOf us).map Prod.fst = (us.map Prod.fst).filterMap Deed.written? := by
  rw [storesOf, List.map_filterMap, List.filterMap_map]
  congr 1
  funext u
  cases h : u.1.written? <;> simp [h]

/-! ### Recorded and not -/

/-- **What can fail, and how**: a read, for want of a value, and a computation otherwise. -/
inductive Fails (t : SymbolTable hash) : Action → EvalError → Prop
  | read {x : String} (h : t.find? x = none) : Fails t (.read x) (.undefinedVariable x)
  | compute {err : EvalError} (h : ∀ x, err ≠ .undefinedVariable x) : Fails t .compute err

/-- **How a computation ends if it is recorded, and how otherwise**, when there are some deeds to be
done. -/
inductive Ends {α : Type} (s : Recorded hash) (ds : List Deed) :
    Except (Path × EvalError) α × Recorded hash → Except EvalError α × SymbolTable hash → Prop
  /-- Both yield a value when all deeds have been done. -/
  | ok {a : α} {us : List (Deed × Value)} {t : SymbolTable hash} (hds : us.map Prod.fst = ds)
      (h : Replays s.table us t) : Ends s ds (.ok a, ⟨t, s.log ++ us⟩) (.ok a, t)
  /-- Both fail at a deed when all those before it have been done. -/
  | error {us : List (Deed × Value)} {d : Deed} {rest : List Deed} {err : EvalError}
      {t : SymbolTable hash} (hds : us.map Prod.fst ++ d :: rest = ds) (h : Replays s.table us t)
      (hfails : Fails t d.action err) :
      Ends s ds (.error (d.node, err), ⟨t, s.log ++ us⟩) (.error err, t)

/-- What has been done before it ends is done first. -/
theorem Ends.after {α : Type} {s : Recorded hash} {ds ds' : List Deed} {us : List (Deed × Value)}
    {t : SymbolTable hash} {r : Except (Path × EvalError) α × Recorded hash}
    {r' : Except EvalError α × SymbolTable hash} (hds : us.map Prod.fst = ds)
    (h : Replays s.table us t) (hends : Ends ⟨t, s.log ++ us⟩ ds' r r') :
    Ends s (ds ++ ds') r r' := by
  cases hends with
  | ok hds' h' =>
    rw [List.append_assoc]
    exact .ok (by rw [List.map_append, hds, hds']) (h.append h')
  | error hds' h' hfails =>
    rw [List.append_assoc]
    exact .error (by rw [List.map_append, List.append_assoc, hds, hds']) (h.append h') hfails

namespace Recording

variable {α β : Type} {ds ds' : List Deed}

theorem run_bind (c : Recording hash α) (f : α → Recording hash β) (s : Recorded hash) :
    (c >>= f).run s =
      match c.run s with
      | (.ok a, s') => (f a).run s'
      | (.error err, s') => (.error err, s') := by
  rw [ExceptT.run_bind]
  simp only [bind, StateT.bind]
  rcases c.run s with ⟨_ | a, s'⟩ <;> rfl

/-- **A recorded computation follows another one** through some deeds. -/
def Follows (ds : List Deed) (c : Recording hash α) (c' : Eval hash α) : Prop :=
  ∀ s, Ends s ds (c.run s) (c'.outcome s.table)

namespace Follows

theorem pure (a : α) : Follows [] (pure a : Recording hash α) (pure a) := by
  intro s
  have hends : Ends s [] (.ok a, ⟨s.table, s.log ++ []⟩) (.ok a, s.table) := .ok rfl (.nil s.table)
  rwa [List.append_nil] at hends

/-- One computation after another goes through the deeds of both. -/
theorem bind {c : Recording hash α} {c' : Eval hash α} {f : α → Recording hash β}
    {f' : α → Eval hash β}
    (hc : Follows ds c c') (hf : ∀ a, Follows ds' (f a) (f' a)) :
    Follows (ds ++ ds') (c >>= f) (c' >>= f') := by
  intro s
  have hends := hc s
  rw [run_bind, Eval.outcome_bind]
  generalize c.run s = r, c'.outcome s.table = r' at hends
  cases hends with
  | ok hds h => exact (hf _ _).after hds h
  | error hds h hfails =>
    exact .error (by rw [← hds, List.append_assoc, List.cons_append]) h hfails

/-- One deed put on record. -/
theorem record {d : Deed} {value : α → Value} {c : Eval hash α}
    (h : ∀ t, (∃ a u, c.outcome t = (.ok a, u) ∧ Replays t [(d, value a)] u) ∨
      ∃ err, c.outcome t = (.error err, t) ∧ Fails t d.action err) :
    Follows [d] (record d value c) c := by
  intro s
  rw [ExceptT.run, Recording.record]
  obtain ⟨a, t, houtcome, hreplays⟩ | ⟨err, houtcome, hfails⟩ := h s.table
  · rw [houtcome]
    exact .ok rfl hreplays
  · rw [houtcome]
    have hends : Ends (α := α) s [d] (.error (d.node, err), ⟨s.table, s.log ++ []⟩)
        (.error err, s.table) := .error rfl (.nil s.table) hfails
    rwa [List.append_nil] at hends

/-- A variable is read if it has a value. -/
theorem read (p : Path) (x : String) :
    Follows [⟨p, .read x⟩] (Effects.recording.read p x) (Eval.read x : Eval hash Value) := by
  refine record fun t => ?_
  rw [Eval.outcome_read]
  cases hfind : t.find? x with
  | none => exact .inr ⟨_, rfl, .read hfind⟩
  | some v => exact .inl ⟨v, t, rfl, .read hfind (.nil t)⟩

/-- A result may be a failure, but not for want of a variable. -/
theorem result (p : Path) {r : Except EvalError Value}
    (hr : ∀ x, r ≠ .error (.undefinedVariable x)) :
    Follows [⟨p, .compute⟩] (Effects.recording.result p r) (Eval.result r : Eval hash Value) := by
  refine record fun t => ?_
  rw [Eval.outcome_result]
  cases r with
  | ok v => exact .inl ⟨v, t, rfl, .compute (.nil t)⟩
  | error err => exact .inr ⟨err, rfl, .compute fun x h => hr x (congrArg _ h)⟩

/-- A store does not fail. -/
theorem store (p : Path) (x : String) (v : Value) :
    Follows [⟨p, .write x⟩] (Effects.recording.store p x v) (Eval.store x v : Eval hash Unit) := by
  change Follows _ (Recording.record ⟨p, .write x⟩ (fun _ => v) (Eval.store x v)) _
  exact record fun t => .inl ⟨(), (t.add x v).2, rfl, .write (.nil _)⟩

end Follows

end Recording

open Recording

/-! ### Expressions -/

/-- What does not fit is an overflow. -/
theorem fit_ne_undefinedVariable (o : Operation) (n : Int) (x : String) :
    fit o n ≠ .error (.undefinedVariable x) := by
  rw [fit]
  split <;> simp

/-- Arithmetic fails for other reasons than evaluation. -/
theorem BinOp.apply_ne_undefinedVariable (op : BinOp) (l r : Value) (x : String) :
    op.apply l r ≠ .error (.undefinedVariable x) := by
  rw [BinOp.apply]
  split
  · simp
  · exact fit_ne_undefinedVariable _ _ x

namespace Expr

/-- **The recorded evaluation follows the other one** through the schedule. -/
theorem follows_schedule (e : Expr) (p : Path) :
    Follows (e.schedule p) (e.evalWith .recording p) (e.eval : Eval hash Value) := by
  induction e generalizing p with
  | num v => exact .pure v
  | var x => exact .read p x
  | neg e ih =>
    exact (ih _).bind fun v => .result p (fit_ne_undefinedVariable _ _)
  | update op x =>
    refine (Follows.read p x).bind fun old => ?_
    refine (Follows.result p (fit_ne_undefinedVariable _ _)).bind fun new => ?_
    exact (Follows.store p x new).bind fun _ => .pure _
  | bin op l r ihl ihr =>
    exact (ihl _).bind fun a => (ihr _).bind fun b =>
      .result p (op.apply_ne_undefinedVariable a b)
  | assign op x e ih =>
    cases op with
    | plain => exact (ih _).bind fun v => (Follows.store p x v).bind fun _ => .pure v
    | compound op =>
      refine (Follows.read p x).bind fun old => (ih _).bind fun v => ?_
      refine (Follows.result p (op.apply_ne_undefinedVariable old v)).bind fun new => ?_
      exact (Follows.store p x new).bind fun _ => .pure new

/-- **The report of an evaluation**: how it ends, the failing node included, the table it leaves
and what has been done. -/
def report (e : Expr) (t : SymbolTable hash) : Except (Path × EvalError) Value × Recorded hash :=
  (e.evalWith .recording []).run ⟨t, []⟩

theorem ends_report (e : Expr) (t : SymbolTable hash) :
    Ends ⟨t, []⟩ (e.schedule []) (e.report t) (e.evaluate t) := by
  rw [evaluate_eq_outcome]
  exact e.follows_schedule [] ⟨t, []⟩

/-- A record that is complete has all the writes. -/
theorem map_fst_storesOf_eq {e : Expr} {us : List (Deed × Value)}
    (hds : us.map Prod.fst = e.schedule []) : (storesOf us).map Prod.fst = e.writes := by
  rw [map_fst_storesOf, hds, filterMap_written?_schedule, writes]

/-- A record that is not has the first ones. -/
theorem map_fst_storesOf_prefix {e : Expr} {us : List (Deed × Value)} {ds : List Deed}
    (hds : us.map Prod.fst ++ ds = e.schedule []) :
    (storesOf us).map Prod.fst <+: e.writes := by
  rw [map_fst_storesOf, writes, ← filterMap_written?_schedule, ← hds, List.filterMap_append]
  exact List.prefix_append _ _

/-- And its writes are not at the node that comes next or above it. -/
theorem not_covers_of_mem_storesOf {e : Expr} {us : List (Deed × Value)} {d : Deed}
    {rest : List Deed} (hds : us.map Prod.fst ++ d :: rest = e.schedule [])
    {s : (Path × String) × Value} (hs : s ∈ storesOf us) : ¬s.1.1.Covers d.node := by
  obtain ⟨u, hu, hwritten⟩ := List.mem_filterMap.mp hs
  obtain ⟨w, hw, rfl⟩ := Option.map_eq_some_iff.mp hwritten
  have horder := e.orderly_schedule []
  rw [← hds, Orderly, List.pairwise_append] at horder
  have hnot := horder.2.2 u.1 (List.mem_map_of_mem hu) d List.mem_cons_self
    (Option.isSome_iff_exists.mpr ⟨w, hw⟩)
  rwa [← Deed.fst_of_written? hw] at hnot

/-- **An evaluation keeps what it has written before a failure and writes nothing else.** Its text,
with plain effects, is the evaluation; with recorded ones it yields the same value or failure and
leaves the same table. The nodes of the expression are told apart by their paths and listed as their
words are written in postfix notation, which puts the writes in that order too. The table that is
left is the one at the start with the recorded values stored in it, one after the other: at each
node that writes, once and in order, if there is no failure; and else at the first ones of these
nodes, none of which is the node that fails or above it. -/
theorem stores_report (e : Expr) (t : SymbolTable hash) :
    let r := e.report t
    let stores := storesOf r.2.log
    (e.evalWith .plain [] : Eval hash Value) = e.eval ∧
      e.evaluate t = (r.1.mapError Prod.snd, r.2.table) ∧
      e.postfixText = .ofList (Text.unwords (e.nodes.map fun n => n.2.token.chars)) ∧
      (e.nodes.map Prod.fst).Nodup ∧
      r.2.table = t.storeAll stores ∧
      match r.1 with
      | .ok _ => stores.map Prod.fst = e.writes
      | .error (p, _) =>
        p ∈ e.nodes.map Prod.fst ∧ stores.map Prod.fst <+: e.writes ∧
          ∀ s ∈ stores, ¬s.1.1.Covers p := by
  have hends := e.ends_report t
  generalize e.report t = r, e.evaluate t = r' at hends ⊢
  refine ⟨e.evalWith_plain [], ?_, e.postfixText_eq_nodes, e.nodup_nodesAt [], ?_⟩
  · cases hends <;> rfl
  · cases hends with
    | ok hds h => exact ⟨h.storeAll_eq.symm, map_fst_storesOf_eq hds⟩
    | @error us d rest err u hds h hfails =>
      have hd : d ∈ e.schedule [] := hds ▸ List.mem_append_right _ List.mem_cons_self
      obtain ⟨n, hn⟩ := exists_mem_nodesAt hd
      exact ⟨h.storeAll_eq.symm, List.mem_map_of_mem hn, map_fst_storesOf_prefix hds,
        fun s hs => not_covers_of_mem_storesOf hds hs⟩

/-- A division by zero keeps what has been assigned before and assigns nothing itself. -/
example :
    let one : Value := ⟨1, by decide⟩
    let zero : Value := ⟨0, by decide⟩
    let e := bin .add (assign .plain "x" (num one)) (assign (.compound .div) "x" (num zero))
    let r := e.report (ProbeTable.ofCapacity 4 : SymbolTable)
    e.writes = [([0], "x"), ([1], "x")] ∧ storesOf r.2.log = [(([0], "x"), one)] ∧
      r.1 = .error ([1], .divisionByZero (.binary .div one zero)) := by
  decide +kernel

end Expr

end Reckoner
