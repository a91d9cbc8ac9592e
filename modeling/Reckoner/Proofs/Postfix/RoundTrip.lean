import Reckoner.Proofs.Nodes
import Reckoner.Proofs.Postfix.Names

/-!
# Reading back what was written

An expression is read back from its postfix form, with the same limit on its height, if
its names are safe; and if one of them is not, then it never is
(`Reckoner.Postfix.build_postfixText`).

An expression that is too high is refused at the first operator that makes it so. To say
which one that is, the subexpressions are listed in the order of their tokens
(`Reckoner.Expr.postorder`), and the reader is compared with a search of that list
(`Reckoner.Postfix.checked`). The comparison is an induction on the expression, over any
stack and any number of tokens in front (`Reckoner.Postfix.run_postfixTokens`).

The other direction is about any text at all. Whatever the reader has on its stack holds
safe names only and is not too high (`Reckoner.Postfix.Readable`), one token after the
other, so that what is built from a text is itself fit to be written and read back
(`Reckoner.Postfix.readable_of_build`).
-/

namespace Reckoner

namespace Expr

/-! ### Subexpressions in the order of their tokens -/

/-- The token of the root. -/
def token : Expr → Postfix.Token
  | num v => .num v
  | var x => .var x
  | neg _ => .neg
  | update op _ => .update op
  | bin op _ _ => .bin op
  | assign op _ _ => .assign op

/-- **The subexpressions of an expression**, in the order in which their tokens are
written. The target of an update or an assignment is one of them. -/
def postorder : Expr → List Expr
  | num v => [num v]
  | var x => [var x]
  | neg e => e.postorder ++ [neg e]
  | update op x => [var x, update op x]
  | bin op l r => l.postorder ++ r.postorder ++ [bin op l r]
  | assign op x e => var x :: e.postorder ++ [assign op x e]

/-- Each subexpression stands where its token does. -/
theorem map_token_postorder (e : Expr) : e.postorder.map token = e.postfixTokens := by
  induction e with
  | num v => rfl
  | var x => rfl
  | neg e ih => simp [postorder, postfixTokens, token, ih]
  | update op x => rfl
  | bin op l r ihl ihr => simp [postorder, postfixTokens, token, ihl, ihr]
  | assign op x e ih => simp [postorder, postfixTokens, token, ih]

theorem length_postorder (e : Expr) : e.postorder.length = e.postfixTokens.length := by
  rw [← map_token_postorder, List.length_map]

theorem mem_postorder_self (e : Expr) : e ∈ e.postorder := by
  cases e <;> simp [postorder]

/-- No subexpression is higher than the whole. -/
theorem height_le_of_mem_postorder {e s : Expr} (h : s ∈ e.postorder) : s.height ≤ e.height := by
  induction e with
  | num v => simp_all [postorder]
  | var x => simp_all [postorder]
  | neg e ih => grind [postorder, height]
  | update op x => grind [postorder, height]
  | bin op l r ihl ihr => grind [postorder, height]
  | assign op x e ih => grind [postorder, height]

/-! ### Operators that are too high -/

/-- **An operator that is too high**: operands never are. -/
def exceeds (limit : Nat) (e : Expr) : Bool := 0 < e.token.arity && limit < e.height

/-- Operators are higher than one node, operands are not. -/
theorem arity_token_pos_iff {e : Expr} : 0 < e.token.arity ↔ 1 < e.height := by
  cases e with
  | num v => simp [height, token, Postfix.Token.arity]
  | var x => simp [height, token, Postfix.Token.arity]
  | neg e => simp [height, token, Postfix.Token.arity, height_pos]
  | update op x => simp [height, token, Postfix.Token.arity]
  | bin op l r =>
    have := l.height_pos
    simp only [height, token, Postfix.Token.arity]
    omega
  | assign op x e =>
    simp only [height, token, Postfix.Token.arity]
    omega

theorem exceeds_iff {limit : Nat} {e : Expr} : e.exceeds limit ↔ max 1 limit < e.height := by
  rw [exceeds, Bool.and_eq_true, decide_eq_true_iff, decide_eq_true_iff, arity_token_pos_iff,
    Nat.max_lt]

end Expr

namespace Postfix

open Except (bind_eq_ok_iff mapError_eq_ok_iff)

variable {limit : Nat}

/-! ### Refusing an expression -/

/-- **The subexpressions looked at one after the other**, where the first one has index
`k`: the first that is too high is refused. -/
def checked (limit k : Nat) (es : List Expr) : Except BuildError Unit :=
  match es.findIdx? (Expr.exceeds limit) with
  | none => .ok ()
  | some i => .error (.tooDeep limit (k + i))

theorem checked_append (k : Nat) (es fs : List Expr) :
    checked limit k (es ++ fs) =
      checked limit k es >>= fun _ => checked limit (k + es.length) fs := by
  rw [checked, checked, checked, List.findIdx?_append]
  rcases es.findIdx? (Expr.exceeds limit) with _ | i
  · rcases fs.findIdx? (Expr.exceeds limit) with _ | j
    · rfl
    · show Except.error (BuildError.tooDeep limit (k + (j + es.length))) =
        Except.error (BuildError.tooDeep limit (k + es.length + j))
      rw [Nat.add_comm j, Nat.add_assoc]
  · rfl

theorem checked_singleton (k : Nat) (e : Expr) :
    checked limit k [e] = if e.exceeds limit then .error (.tooDeep limit k) else .ok () := by
  rw [checked, List.findIdx?_singleton]
  split_ifs <;> rfl

/-- A variable is not refused, but it is counted. -/
theorem checked_var_cons (k : Nat) (x : String) (es : List Expr) :
    checked limit k (.var x :: es) = checked limit (k + 1) es :=
  checked_append k [.var x] es

/-- **An expression is refused if it is too high**, and then at the first of its
subexpressions that is. -/
theorem checked_postorder (e : Expr) :
    checked limit 0 e.postorder =
      if e.height ≤ max 1 limit then .ok ()
      else .error (.tooDeep limit (e.postorder.findIdx (Expr.exceeds limit))) := by
  rw [checked, List.findIdx_eq_getD_findIdx?]
  split_ifs with h
  -- nothing is higher than the whole, so nothing is found
  · have hnone : e.postorder.findIdx? (Expr.exceeds limit) = none := by
      refine List.findIdx?_eq_none_iff.mpr fun s hs => Bool.eq_false_iff.mpr fun hex => ?_
      have := Expr.height_le_of_mem_postorder hs
      have := Expr.exceeds_iff.mp hex
      omega
    rw [hnone]
  -- the whole is too high itself, and it is the last that is looked at
  · have hsome : (e.postorder.findIdx? (Expr.exceeds limit)).isSome := by
      refine List.findIdx?_isSome.trans (List.any_eq_true.mpr ⟨e, e.mem_postorder_self, ?_⟩)
      exact Expr.exceeds_iff.mpr (Nat.lt_of_not_le h)
    obtain ⟨i, hi⟩ := Option.isSome_iff_exists.mp hsome
    rw [hi]
    exact congrArg (fun n => Except.error (BuildError.tooDeep limit n)) (Nat.zero_add i)

/-! ### Reading what was written -/

theorem run_append (k : Nat) (ts us : List Token) (st : List Measured) :
    run limit k (ts ++ us) st = run limit k ts st >>= run limit (k + ts.length) us := by
  induction ts generalizing k st with
  | nil => rfl
  | cons t ts ih =>
    rw [List.cons_append, run, run, bind_assoc]
    refine congrArg _ (funext fun st' => ?_)
    rw [ih, List.length_cons, Nat.add_right_comm, Nat.add_assoc]

theorem run_singleton (k : Nat) (t : Token) (st : List Measured) :
    run limit k [t] st = step limit k t st := by
  rw [run]
  cases step limit k t st <;> rfl

theorem run_var_cons (k : Nat) (x : String) (ts : List Token) (st : List Measured) :
    run limit k (.var x :: ts) st = run limit (k + 1) ts (.var x :: st) := rfl

/-- An operator's expression goes onto the stack if it is not refused. -/
theorem push_eq {m : Measured} (h : 0 < m.expr.token.arity) (k : Nat) (st : List Measured) :
    push limit k st m = (checked limit k [m.expr]).map fun _ => m :: st := by
  have hexceeds : m.expr.exceeds limit ↔ ¬m.height ≤ limit := by
    rw [Expr.exceeds, ← m.height_eq, Bool.and_eq_true, decide_eq_true_iff, decide_eq_true_iff,
      Nat.not_le]
    exact and_iff_right h
  rw [push, checked_singleton]
  split_ifs <;> simp_all [Except.map]

/-- **Reading what was written** puts the expression onto the stack, unless one of its
subexpressions is refused. -/
theorem run_postfixTokens (e : Expr) (k : Nat) (st : List Measured) :
    run limit k e.postfixTokens st =
      (checked limit k e.postorder).map fun _ => e.measured :: st := by
  induction e generalizing k st with
  | num v => rfl
  | var x => rfl
  | neg e ih =>
    rw [Expr.postfixTokens, Expr.postorder, run_append, ih, checked_append, e.length_postorder]
    rcases checked limit k e.postorder with err | _
    · rfl
    · exact (run_singleton _ _ _).trans (push_eq (m := e.measured.neg) Nat.one_pos _ _)
  | update op x =>
    have hupdate : 0 < (Expr.update op x).measured.expr.token.arity := Nat.one_pos
    rw [Expr.postfixTokens, Expr.postorder, run_var_cons, checked_var_cons]
    exact (run_singleton _ _ _).trans (push_eq hupdate _ _)
  | bin op l r ihl ihr =>
    rw [Expr.postfixTokens, Expr.postorder, run_append, run_append, ihl, checked_append,
      checked_append, List.length_append, List.length_append, l.length_postorder,
      r.length_postorder]
    rcases checked limit k l.postorder with err | _
    · rfl
    -- the left operand is on the stack when the right one is read
    show (run limit _ r.postfixTokens _ >>= _) = _
    rw [ihr]
    rcases checked limit (k + l.postfixTokens.length) r.postorder with err | _
    · rfl
    · exact (run_singleton _ _ _).trans
        (push_eq (m := .bin op l.measured r.measured) Nat.two_pos _ _)
  | assign op x e ih =>
    have hassign : 0 < (Expr.assign op x e).measured.expr.token.arity := Nat.two_pos
    rw [Expr.postfixTokens, Expr.postorder, List.cons_append, List.cons_append, run_var_cons,
      checked_var_cons, run_append, ih, checked_append, e.length_postorder]
    rcases checked limit (k + 1) e.postorder with err | _
    · rfl
    · exact (run_singleton _ _ _).trans (push_eq hassign _ _)

/-! ### What can be on the stack -/

/-- **Fit to be written and read back**: all names are safe, and the height is allowed. -/
def Readable (limit : Nat) (e : Expr) : Prop :=
  (∀ x ∈ e.names, IsSafe x) ∧ e.height ≤ max 1 limit

theorem eq_cons_of_push {m : Measured} {k : Nat} {st st' : List Measured}
    (h : push limit k st m = .ok st') : m.height ≤ max 1 limit ∧ st' = m :: st := by
  rw [push] at h
  split_ifs at h with hh
  obtain rfl := Except.ok.inj h
  exact ⟨Nat.le_trans hh (Nat.le_max_right _ _), rfl⟩

/-- **What a token can do**: put an expression onto the stack that is not too high, and
that is made of the token and of what it takes off the stack. -/
theorem exists_of_step {k : Nat} {t : Token} {st st' : List Measured}
    (h : step limit k t st = .ok st') :
    ∃ m us, st' = m :: us ∧ us ⊆ st ∧ m.height ≤ max 1 limit ∧
      ∀ x ∈ m.expr.names, t = .var x ∨ ∃ l ∈ st, x ∈ l.expr.names := by
  unfold step at h
  split at h
  · next v st =>
    cases h
    exact ⟨_, _, rfl, List.Subset.refl _, Nat.le_max_left _ _, nofun⟩
  · next x st =>
    cases h
    refine ⟨_, _, rfl, List.Subset.refl _, Nat.le_max_left _ _, fun y hy => .inl ?_⟩
    rw [List.mem_singleton.mp hy]
  · next m st =>
    obtain ⟨hh, rfl⟩ := eq_cons_of_push h
    exact ⟨_, _, rfl, by simp, hh, fun x hx => .inr ⟨m, by simp, hx⟩⟩
  -- the target of an update or an assignment was on the stack, so its name is none of the token
  · next op m st =>
    obtain ⟨a, ha, h⟩ := bind_eq_ok_iff.mp h
    obtain ⟨x, hx, hexpr⟩ := Measured.mkUpdate_eq_ok_iff.mp (mapError_eq_ok_iff.mp ha)
    obtain ⟨hh, rfl⟩ := eq_cons_of_push h
    refine ⟨_, _, rfl, by simp, hh, fun y hy => .inr ⟨m, by simp, ?_⟩⟩
    rw [hexpr] at hy
    rw [hx]
    exact hy
  · next op r l st =>
    obtain ⟨hh, rfl⟩ := eq_cons_of_push h
    refine ⟨_, _, rfl, by simp, hh, fun x hx => .inr ?_⟩
    rcases List.mem_append.mp hx with hx | hx
    · exact ⟨l, by simp, hx⟩
    · exact ⟨r, by simp, hx⟩
  · next op r l st =>
    obtain ⟨a, ha, h⟩ := bind_eq_ok_iff.mp h
    obtain ⟨x, hx, hexpr⟩ := Measured.mkAssign_eq_ok_iff.mp (mapError_eq_ok_iff.mp ha)
    obtain ⟨hh, rfl⟩ := eq_cons_of_push h
    refine ⟨_, _, rfl, by simp, hh, fun y hy => .inr ?_⟩
    rw [hexpr] at hy
    rcases List.mem_cons.mp hy with rfl | hy
    · exact ⟨l, by simp, by simp [hx, Expr.names]⟩
    · exact ⟨r, by simp, hy⟩
  · cases h

/-- One token keeps everything on the stack readable. -/
theorem readable_of_step {k : Nat} {t : Token} {st st' : List Measured}
    (h : step limit k t st = .ok st') (ht : ∀ x, t = .var x → IsSafe x)
    (hst : ∀ m ∈ st, Readable limit m.expr) : ∀ m ∈ st', Readable limit m.expr := by
  obtain ⟨m, us, rfl, hus, hheight, hnames⟩ := exists_of_step h
  intro l hl
  rcases List.mem_cons.mp hl with rfl | hl
  · refine ⟨fun x hx => ?_, l.height_eq ▸ hheight⟩
    rcases hnames x hx with rfl | ⟨l', hl', hx⟩
    · exact ht x rfl
    · exact (hst l' hl').1 x hx
  · exact hst l (hus hl)

/-- So do all the tokens. -/
theorem readable_of_run {k : Nat} {ts : List Token} {st st' : List Measured}
    (h : run limit k ts st = .ok st') (hts : ∀ x, .var x ∈ ts → IsSafe x)
    (hst : ∀ m ∈ st, Readable limit m.expr) : ∀ m ∈ st', Readable limit m.expr := by
  induction ts generalizing k st with
  | nil =>
    cases h
    exact hst
  | cons t ts ih =>
    obtain ⟨us, hstep, hrun⟩ := bind_eq_ok_iff.mp h
    refine ih hrun (fun x hx => hts x (List.mem_cons_of_mem _ hx)) ?_
    refine readable_of_step hstep (fun x hx => hts x ?_) hst
    exact hx ▸ List.mem_cons_self

theorem root_eq_ok_iff {st : List Measured} {e : Expr} :
    root st = .ok e ↔ ∃ m, st = [m] ∧ m.expr = e := by
  unfold root
  split <;> simp_all

/-- **What is built from a text is fit to be written and read back.** -/
theorem readable_of_build {text : String} {e : Expr} (h : build text limit = .ok e) :
    Readable limit e := by
  obtain ⟨st, hrun, hroot⟩ := bind_eq_ok_iff.mp h
  obtain ⟨m, rfl, rfl⟩ := root_eq_ok_iff.mp hroot
  exact readable_of_run hrun (fun x => isSafe_of_mem_tokens) nofun m List.mem_cons_self

/-- **Reading back**, for an expression with safe names. -/
theorem build_postfixText_of_isSafe {e : Expr} (h : ∀ x ∈ e.names, IsSafe x) :
    build e.postfixText limit =
      if e.height ≤ max 1 limit then .ok e
      else .error (.tooDeep limit (e.postorder.findIdx (Expr.exceeds limit))) := by
  rw [build, tokens_postfixText h, run_postfixTokens, checked_postorder]
  split_ifs <;> rfl

theorem build_postfixText_of_readable {e : Expr} (h : Readable limit e) :
    build e.postfixText limit = .ok e := by
  rw [build_postfixText_of_isSafe h.1, if_pos h.2]

/-- **The builder reads back what the printer writes**, and only that. If all names in an
expression are safe, the words of its postfix form are the tokens of its subexpressions,
and building it gives the expression, or an error that points to the first operator that is
too high if the expression is. If a name is not safe, the expression is not what is built. -/
theorem build_postfixText (e : Expr) (limit : Nat) :
    ((∀ x ∈ e.names, IsSafe x) →
      tokens e.postfixText = e.postorder.map Expr.token ∧
        build e.postfixText limit =
          if e.height ≤ max 1 limit then .ok e
          else .error (.tooDeep limit (e.postorder.findIdx (Expr.exceeds limit)))) ∧
      ((∃ x ∈ e.names, ¬IsSafe x) → build e.postfixText limit ≠ .ok e) := by
  refine ⟨fun h => ⟨?_, build_postfixText_of_isSafe h⟩, fun ⟨x, hx, hunsafe⟩ h => ?_⟩
  · rw [tokens_postfixText h, Expr.map_token_postorder]
  · exact hunsafe ((readable_of_build h).1 x hx)

/-- The name `x` is safe, and negated twice it is too high by one; a name with a blank in it
is not safe. -/
theorem build_postfixText_neg :
    (∀ x ∈ (Expr.neg (.neg (.var "x"))).names, IsSafe x) ∧
      build (Expr.neg (.neg (.var "x"))).postfixText 2 = .error (.tooDeep 2 2) ∧
      (∃ x ∈ (Expr.neg (.var "x y")).names, ¬IsSafe x) ∧
      build (Expr.neg (.var "x y")).postfixText 2 ≠ .ok (.neg (.var "x y")) := by
  have hsafe : ∀ x ∈ (Expr.neg (.neg (.var "x"))).names, IsSafe x := by decide
  have hunsafe : ∃ x ∈ (Expr.neg (.var "x y")).names, ¬IsSafe x := by decide
  exact ⟨hsafe, ((build_postfixText _ 2).1 hsafe).2, hunsafe, (build_postfixText _ 2).2 hunsafe⟩

end Postfix

end Reckoner
