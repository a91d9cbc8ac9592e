import Reckoner.Proofs.Evaluation.Recording
import Reckoner.Proofs.ProbeTable.Reachable

/-!
# Variables without a value

Whether an evaluation can fail for want of a variable is decided before it starts. An expression has
no branches and nothing takes a variable away, so its reads and writes come in one order
(`Reckoner.Expr.accesses`), and whether a read finds something depends on two things only: on the
table at the start, and on the writes that come earlier (`Reckoner.Misses`).

An evaluation that gets past all reads has missed none of them, and one that fails at a read has
missed that one and none before (`Reckoner.evaluate_undefinedVariable`). Both are about a record of
what has been done (`Reckoner.Replays.not_misses`, `Reckoner.Replays.find?_eq_none_iff`), and go by
induction on it, one deed at a time from the front. The table changes with each write, and with it
what is missed in the rest of the record (`Reckoner.misses_write_succ`).
-/

namespace Reckoner

/-! ### Accesses -/

/-- **An access to a variable.** -/
inductive Access
  /-- Its value is asked for. -/
  | read (name : String)
  /-- It is given a value. -/
  | write (name : String)
deriving DecidableEq

/-- **The accesses of an expression**, in the order of its evaluation. An update reads and writes
its target. An assignment writes to it behind its operand, and one that combines also reads it
before. -/
def Expr.accesses : Expr → List Access
  | num _ => []
  | var x => [.read x]
  | neg e => e.accesses
  | update _ x => [.read x, .write x]
  | bin _ l r => l.accesses ++ r.accesses
  | assign .plain x e => e.accesses ++ [.write x]
  | assign (.compound _) x e => .read x :: (e.accesses ++ [.write x])

/-- The access that something done is. -/
def Deed.access? : Deed → Option Access
  | ⟨_, .read x⟩ => some (.read x)
  | ⟨_, .compute⟩ => none
  | ⟨_, .write x⟩ => some (.write x)

/-- The accesses among what is done. -/
def accessesOf (ds : List Deed) : List Access := ds.filterMap Deed.access?

theorem accessesOf_read_cons (p : Path) (x : String) (ds : List Deed) :
    accessesOf (⟨p, .read x⟩ :: ds) = .read x :: accessesOf ds := rfl

theorem accessesOf_write_cons (p : Path) (x : String) (ds : List Deed) :
    accessesOf (⟨p, .write x⟩ :: ds) = .write x :: accessesOf ds := rfl

/-- **Variables are accessed as scheduled.** -/
theorem Expr.accessesOf_schedule (e : Expr) (p : Path) :
    accessesOf (e.schedule p) = e.accesses := by
  rw [accessesOf]
  induction e generalizing p with
  | num v | var x | update op x => rfl
  | neg e ih => simp [schedule, accesses, ih, Deed.access?]
  | bin op l r ihl ihr => simp [schedule, accesses, ihl, ihr, Deed.access?]
  | assign op x e ih =>
    cases op <;> simp [schedule, accesses, ih, Deed.access?, List.filterMap_cons]

/-! ### Missing variables -/

/-- **An access that is missed**: it reads a name that is not in the table at the start and that no
earlier access writes to. -/
def Misses {hash : String → UInt64} (t : SymbolTable hash) (as : List Access) (i : Nat)
    (x : String) : Prop :=
  as[i]? = some (.read x) ∧ t.find? x = none ∧ .write x ∉ as.take i

instance {hash : String → UInt64} (t : SymbolTable hash) (as : List Access) (i : Nat) (x : String) :
    Decidable (Misses t as i x) :=
  inferInstanceAs (Decidable (_ ∧ _ ∧ _))

variable {hash : String → UInt64} {t u : SymbolTable hash} {as bs : List Access} {i : Nat}
  {x y : String}

theorem not_misses_nil : ¬Misses t [] i x := fun h => Option.some_ne_none _ h.1.symm

theorem misses_read_zero : Misses t (.read y :: as) 0 x ↔ y = x ∧ t.find? x = none := by
  simp [Misses]

theorem misses_read_succ : Misses t (.read y :: as) (i + 1) x ↔ Misses t as i x := by
  simp [Misses]

theorem not_misses_write_zero : ¬Misses t (.write y :: as) 0 x := by
  simp [Misses]

/-- A variable that is written to is not without a value any more. -/
theorem find?_add_eq_none_iff (ht : t.Sound) (v : Value) :
    (t.add y v).2.find? x = none ↔ t.find? x = none ∧ x ≠ y := by
  rw [ht.find?_add]
  split_ifs with h <;> simp [h]

/-- An access behind a write is missed in the table that has been written to. -/
theorem misses_write_succ (ht : t.Sound) (v : Value) :
    Misses t (.write y :: as) (i + 1) x ↔ Misses (t.add y v).2 as i x := by
  simp only [Misses, find?_add_eq_none_iff ht, List.getElem?_cons_succ, List.take_succ_cons,
    List.mem_cons, Access.write.injEq, not_or, and_assoc]

/-- A read is missed if its name has no value and was not written to. -/
theorem misses_length_iff :
    Misses t (as ++ .read x :: bs) as.length x ↔ t.find? x = none ∧ .write x ∉ as := by
  simp [Misses]

/-- What comes later does not count. -/
theorem Misses.of_append (h : Misses t (as ++ bs) i x) (hi : i < as.length) : Misses t as i x := by
  obtain ⟨hread, hnone, hwrite⟩ := h
  rw [List.getElem?_append_left hi] at hread
  rw [List.take_append_of_le_length hi.le] at hwrite
  exact ⟨hread, hnone, hwrite⟩

theorem write_mem_read_cons : .write x ∈ .read y :: as ↔ .write x ∈ as := by
  simp

/-! ### Records -/

/-- **A variable has no value at the end** if it had none at the start and has not been written
to. -/
theorem Replays.find?_eq_none_iff {us : List (Deed × Value)} (h : Replays t us u) (ht : t.Sound) :
    u.find? x = none ↔ t.find? x = none ∧ .write x ∉ accessesOf (us.map Prod.fst) := by
  induction h with
  | nil t => exact (and_iff_left List.not_mem_nil).symm
  | read _ _ ih => rw [ih ht, List.map_cons, accessesOf_read_cons, write_mem_read_cons]
  | compute _ ih => exact ih ht
  | @write t u p y v us _ ih =>
    rw [ih (ht.add y v).1, find?_add_eq_none_iff ht, List.map_cons, accessesOf_write_cons,
      List.mem_cons, Access.write.injEq, not_or, and_assoc]

/-- **What has been read has not been missed.** -/
theorem Replays.not_misses {us : List (Deed × Value)} (h : Replays t us u) (ht : t.Sound) (i : Nat)
    (x : String) : ¬Misses t (accessesOf (us.map Prod.fst)) i x := by
  induction h generalizing i with
  | nil t => exact not_misses_nil
  | @read t u p y v us hv _ ih =>
    rw [List.map_cons, accessesOf_read_cons]
    cases i with
    | zero =>
      intro hmisses
      obtain ⟨rfl, hnone⟩ := misses_read_zero.mp hmisses
      rw [hv] at hnone
      cases hnone
    | succ i => exact fun hmisses => ih ht i (misses_read_succ.mp hmisses)
  | compute _ ih => exact ih ht i
  | @write t u p y v us _ ih =>
    rw [List.map_cons, accessesOf_write_cons]
    cases i with
    | zero => exact not_misses_write_zero
    | succ i => exact fun hmisses => ih (ht.add y v).1 i ((misses_write_succ ht v).mp hmisses)

/-- **An evaluation that fails at a read** has missed it, and none before. -/
theorem Replays.misses_first {us : List (Deed × Value)} (h : Replays t us u) (ht : t.Sound)
    (hnone : u.find? x = none) (hbs : accessesOf (us.map Prod.fst) ++ .read x :: bs = as) :
    ∃ i, Misses t as i x ∧ ∀ j y, Misses t as j y → i ≤ j := by
  subst hbs
  refine ⟨_, misses_length_iff.mpr ((h.find?_eq_none_iff ht).mp hnone), fun j y hmisses => ?_⟩
  by_contra hlt
  exact h.not_misses ht j y (hmisses.of_append (Nat.lt_of_not_le hlt))

/-! ### Evaluations -/

/-- **Whether an evaluation fails for want of a variable is decided before it starts.** Take any
table that calls can leave, whatever the hash. If an access of an expression is missed, then its
evaluation does not yield a value, be it that something else fails before. If it fails for want of a
variable, this is the variable of the first access that is missed, and it has no value at the start
and none at the end. And if no access is missed, it does not fail in this way. -/
theorem evaluate_undefinedVariable (hash : String → UInt64) (c : Nat)
    (cs : List (ProbeTable.Call String Value)) (e : Expr) :
    let t : SymbolTable hash := (ProbeTable.ofCapacity c).callAll cs
    ((∃ i x, Misses t e.accesses i x) → ∀ v, (e.evaluate t).1 ≠ .ok v) ∧
      (∀ x, (e.evaluate t).1 = .error (.undefinedVariable x) →
        (∃ i, Misses t e.accesses i x ∧ ∀ j y, Misses t e.accesses j y → i ≤ j) ∧
          t.find? x = none ∧ (e.evaluate t).2.find? x = none) ∧
      ((∀ i x, ¬Misses t e.accesses i x) →
        ∀ x, (e.evaluate t).1 ≠ .error (.undefinedVariable x)) := by
  intro t
  have ht : t.Sound := (ProbeTable.sound_ofCapacity c).callAll cs
  have haccesses := e.accessesOf_schedule []
  have hends := e.ends_report t
  generalize e.report t = r, e.evaluate t = r' at hends ⊢
  cases hends with
  | ok hds h =>
    rw [← hds] at haccesses
    have hnot : ∀ i x, ¬Misses t e.accesses i x := haccesses ▸ h.not_misses ht
    refine ⟨fun ⟨i, x, hmisses⟩ => absurd hmisses (hnot i x), ?_, ?_⟩
    · rintro x ⟨⟩
    · rintro - x ⟨⟩
  | @error us d rest err u hds h hfails =>
    obtain ⟨p, a⟩ := d
    rw [← hds, accessesOf, List.filterMap_append] at haccesses
    refine ⟨by rintro - v ⟨⟩, ?_⟩
    cases hfails with
    | @read x hnone =>
      have hfirst := h.misses_first ht hnone haccesses
      have hstart := ((h.find?_eq_none_iff ht).mp hnone).1
      refine ⟨fun y hy => ?_, fun hnot y => ?_⟩
      · cases hy
        exact ⟨hfirst, hstart, hnone⟩
      · obtain ⟨i, hmisses, -⟩ := hfirst
        exact absurd hmisses (hnot i x)
    | compute herr =>
      exact ⟨fun y hy => absurd (Except.error.inj hy) (herr y),
        fun _ y hy => absurd (Except.error.inj hy) (herr y)⟩

/-- Both ways to go. In the first expression `y` is read before it is written to, and has no value
any more; in the second one it has been written to by then. -/
theorem evaluate_undefinedVariable_order :
    let two : Value := ⟨2, by decide⟩
    let cs : List (ProbeTable.Call String Value) := [.add "x" two, .add "y" two, .remove "y"]
    let t : SymbolTable := (ProbeTable.ofCapacity 4).callAll cs
    let e : Expr :=
      .bin .add (.assign .plain "x" (.num two)) (.assign (.compound .mul) "y" (.var "x"))
    let e' : Expr := .bin .add (.assign .plain "y" (.var "x")) (.var "y")
    (Misses t e.accesses 1 "y" ∧ ∀ v, (e.evaluate t).1 ≠ .ok v) ∧
      ((e.evaluate t).1 = .error (.undefinedVariable "y") ∧ (e.evaluate t).2.find? "y" = none) ∧
      (∀ i x, ¬Misses t e'.accesses i x) ∧
      ∀ x, (e'.evaluate t).1 ≠ .error (.undefinedVariable x) := by
  intro two cs t e e'
  have hmisses : Misses t e.accesses 1 "y" := by decide +kernel
  have hfails : (e.evaluate t).1 = .error (.undefinedVariable "y") := by decide +kernel
  have hfind : t.find? "x" = some two := by decide +kernel
  have hnot : ∀ i x, ¬Misses t e'.accesses i x := by
    have haccesses : e'.accesses = [.read "x", .write "y", .read "y"] := rfl
    intro i x
    rw [haccesses]
    rcases i with _ | _ | _ | i
    · rw [misses_read_zero]
      rintro ⟨rfl, hnone⟩
      rw [hfind] at hnone
      cases hnone
    · rw [misses_read_succ]
      exact not_misses_write_zero
    · rintro ⟨hread, -, hwrite⟩
      cases hread
      exact hwrite (by decide)
    · rintro ⟨hread, -⟩
      cases hread
  obtain ⟨hok, herror, -⟩ := evaluate_undefinedVariable Text.hash 4 cs e
  obtain ⟨-, -, hsafe⟩ := evaluate_undefinedVariable Text.hash 4 cs e'
  exact ⟨⟨hmisses, hok ⟨1, "y", hmisses⟩⟩, ⟨hfails, (herror "y" hfails).2.2⟩, hnot, hsafe hnot⟩

end Reckoner
