import Reckoner.Proofs.Postfix.Normal

/-!
# Which token of a postfix text is refused

Building an expression from a text fails at the first token that is *refused*. Whether a token
is refused, and why, is said here without a stack, by the tokens in front of it
(`Reckoner.Postfix.Refused`):

* it lacks an operand if there are too few expressions in front of it, which is a matter of
  counting: operands add one and binary operators take one away
  (`Reckoner.Postfix.surplus`);
* else it may be aimed at something other than a variable, or make an expression that is too
  high, and what it is aimed at and what it makes are read off the end of the tokens.

A list of tokens does not end with the tokens of two different expressions
(`Reckoner.Expr.postfixTokens_append_inj`), so there is no choice in reading them off, and
what is read off is what is on the stack. So the reader refuses the tokens that are refused
(`Reckoner.Postfix.Refused.step_eq`) and no others (`Reckoner.Postfix.refused_of_step`). If it
comes to the end, the count says what is built (`Reckoner.Postfix.build_of_refusals`).

An operand is never refused: the limit is on what operators make. So a limit of zero still
lets an operand pass, although an operand is one node high.
-/

namespace Reckoner

/-! ### What a list of tokens ends with -/

namespace Expr

/-- The tokens of an expression but for the last, which is the token of its root. -/
def operandTokens : Expr → List Postfix.Token
  | num _ => []
  | var _ => []
  | neg e => e.postfixTokens
  | update _ x => [.var x]
  | bin _ l r => l.postfixTokens ++ r.postfixTokens
  | assign _ x e => [.var x] ++ e.postfixTokens

theorem postfixTokens_eq (e : Expr) : e.postfixTokens = e.operandTokens ++ [e.token] := by
  cases e <;> rfl

/-- The last tokens of two expressions are the same if the lists that they end are. -/
theorem operandTokens_append_eq {ts us : List Postfix.Token} {e f : Expr}
    (h : ts ++ e.postfixTokens = us ++ f.postfixTokens) :
    ts ++ e.operandTokens = us ++ f.operandTokens ∧ e.token = f.token := by
  rw [postfixTokens_eq, postfixTokens_eq, ← List.append_assoc, ← List.append_assoc] at h
  exact (List.append_inj' h rfl).imp_right List.singleton_inj.mp

/-- **The end of a list of tokens** is the tokens of one expression at most. -/
theorem postfixTokens_append_inj {ts us : List Postfix.Token} {e f : Expr}
    (h : ts ++ e.postfixTokens = us ++ f.postfixTokens) : ts = us ∧ e = f := by
  induction e generalizing ts us f with
  | num | var =>
    obtain ⟨hops, htoken⟩ := operandTokens_append_eq h
    cases f <;> cases htoken
    exact ⟨by simpa [operandTokens] using hops, rfl⟩
  | neg e ih =>
    obtain ⟨hops, htoken⟩ := operandTokens_append_eq h
    cases f <;> cases htoken
    obtain ⟨rfl, rfl⟩ := ih hops
    exact ⟨rfl, rfl⟩
  | update op x =>
    obtain ⟨hops, htoken⟩ := operandTokens_append_eq h
    cases f <;> cases htoken
    obtain ⟨hts, hx⟩ := List.append_inj' hops rfl
    obtain rfl := Postfix.Token.var.inj (List.singleton_inj.mp hx)
    exact ⟨hts, rfl⟩
  | bin op l r ihl ihr =>
    obtain ⟨hops, htoken⟩ := operandTokens_append_eq h
    cases f <;> cases htoken
    rw [operandTokens, operandTokens, ← List.append_assoc, ← List.append_assoc] at hops
    obtain ⟨hl, rfl⟩ := ihr hops
    obtain ⟨rfl, rfl⟩ := ihl hl
    exact ⟨rfl, rfl⟩
  | assign op x e ih =>
    obtain ⟨hops, htoken⟩ := operandTokens_append_eq h
    cases f <;> cases htoken
    rw [operandTokens, operandTokens, ← List.append_assoc, ← List.append_assoc] at hops
    obtain ⟨hx, rfl⟩ := ih hops
    obtain ⟨hts, hx⟩ := List.append_inj' hx rfl
    obtain rfl := Postfix.Token.var.inj (List.singleton_inj.mp hx)
    exact ⟨hts, rfl⟩

end Expr

namespace Postfix

open Except (bind_eq_error_iff mapError_eq_error_iff mapError_eq_ok_iff)

variable {limit : Nat}

/-! ### Counting operands -/

/-- **Operands less binary operators**: how many expressions the tokens leave. -/
def surplus (ts : List Token) : Int :=
  (ts.countP (·.arity = 0) : Int) - (ts.countP (·.arity = 2) : Int)

theorem surplus_append (ts us : List Token) : surplus (ts ++ us) = surplus ts + surplus us := by
  simp only [surplus, List.countP_append]
  omega

/-- **An expression** is left by its tokens. -/
theorem surplus_postfixTokens (e : Expr) : surplus e.postfixTokens = 1 := by
  induction e with
  | num v => rfl
  | var x => rfl
  | neg e ih => rw [Expr.postfixTokens, surplus_append, ih]; rfl
  | update op x => rfl
  | bin op l r ihl ihr => rw [Expr.postfixTokens, surplus_append, surplus_append, ihl, ihr]; rfl
  | assign op x e ih =>
    rw [Expr.postfixTokens, ← List.singleton_append, surplus_append, surplus_append, ih]; rfl

/-- **A stack** is left by its tokens. -/
theorem surplus_written (st : List Measured) : surplus (written st) = st.length := by
  induction st with
  | nil => rfl
  | cons m st ih =>
    rw [written, surplus_append, ih, surplus_postfixTokens, List.length_cons]
    omega

/-! ### Tokens that are refused -/

/-- **A token that is refused**, behind the tokens `ts`, and the failure that is reported of it,
where its index is `k`. Its operands and its expression are what the tokens end with. -/
inductive Refused (limit k : Nat) (ts : List Token) : Token → BuildError → Prop
  /-- It lacks an operand: there are fewer expressions in front of it than it takes. -/
  | missingOperand {t : Token} (hcount : surplus ts < t.arity) :
      Refused limit k ts t (.missingOperand t k)
  /-- It is an update of something other than a variable. -/
  | update {op : UpdateOp} {e : Expr} (hcount : 1 ≤ surplus ts)
      (hend : e.postfixTokens <:+ ts) (hvar : ∀ x, e ≠ .var x) :
      Refused limit k ts (.update op) (.notAVariable ⟨e⟩)
  /-- It is an assignment to something other than a variable. -/
  | assign {op : AssignOp} {l r : Expr} (hcount : 2 ≤ surplus ts)
      (hend : l.postfixTokens ++ r.postfixTokens <:+ ts) (hvar : ∀ x, l ≠ .var x) :
      Refused limit k ts (.assign op) (.notAVariable ⟨l⟩)
  /-- It is an operator, and its expression is too high. -/
  | tooDeep {t : Token} {e : Expr} (hop : 0 < t.arity) (hcount : t.arity ≤ surplus ts)
      (hend : e.postfixTokens <:+ ts ++ [t]) (hheight : limit < e.height) :
      Refused limit k ts t (.tooDeep limit k)

/-! ### What the reader refuses -/

/-- An expression that the tokens of a stack end with is on top of the stack. -/
theorem exists_cons_of_append_eq {us : List Token} {e : Expr} {st : List Measured}
    (h : us ++ e.postfixTokens = written st) :
    ∃ m st', st = m :: st' ∧ m.expr = e ∧ us = written st' := by
  cases st with
  | nil => simp [written, Expr.postfixTokens_eq] at h
  | cons m st =>
    obtain ⟨hus, he⟩ := Expr.postfixTokens_append_inj h
    exact ⟨m, st, rfl, he.symm, hus⟩

/-- So are two. -/
theorem exists_cons_cons_of_append_eq {us : List Token} {l r : Expr} {st : List Measured}
    (h : us ++ (l.postfixTokens ++ r.postfixTokens) = written st) :
    ∃ a b st', st = b :: a :: st' ∧ a.expr = l ∧ b.expr = r := by
  rw [← List.append_assoc] at h
  obtain ⟨b, st', rfl, hb, h⟩ := exists_cons_of_append_eq h
  obtain ⟨a, st', rfl, ha, -⟩ := exists_cons_of_append_eq h
  exact ⟨a, b, st', rfl, ha, hb⟩

theorem push_eq_error_iff {k : Nat} {st : List Measured} {m : Measured} {err : BuildError} :
    push limit k st m = .error err ↔ limit < m.height ∧ err = .tooDeep limit k := by
  rw [push]
  split_ifs with h
  · refine ⟨fun he => ?_, fun hm => absurd hm.1 (Nat.not_lt.mpr h)⟩
    cases he
  · exact ⟨fun he => ⟨Nat.lt_of_not_le h, (Except.error.inj he).symm⟩, fun hm => hm.2 ▸ rfl⟩

/-- A token that takes more than there is on the stack lacks an operand. -/
theorem step_of_length_lt {k : Nat} {t : Token} {st : List Measured} (h : st.length < t.arity) :
    step limit k t st = .error (.missingOperand t k) := by
  cases t with
  | num | var => cases h
  | neg | update =>
    cases st with
    | nil => rfl
    | cons m st => simp [Token.arity] at h
  | bin | assign =>
    rcases st with _ | ⟨b, _ | ⟨a, st⟩⟩
    · rfl
    · rfl
    · exact absurd h (Nat.not_lt.mpr (Nat.le_add_left 2 st.length))

/-- **What is refused is refused by the reader.** -/
theorem Refused.step_eq {k : Nat} {t : Token} {st : List Measured} {err : BuildError}
    (h : Refused limit k (written st) t err) : step limit k t st = .error err := by
  cases h with
  | missingOperand hcount =>
    rw [surplus_written] at hcount
    exact step_of_length_lt (by exact_mod_cast hcount)
  | update hcount hend hvar =>
    obtain ⟨us, hus⟩ := hend
    obtain ⟨m, st, rfl, rfl, -⟩ := exists_cons_of_append_eq hus
    exact bind_eq_error_iff.mpr (.inl (mapError_eq_error_iff.mpr
      ⟨_, Measured.mkUpdate_eq_error_iff.mpr ⟨hvar, rfl⟩, rfl⟩))
  | assign hcount hend hvar =>
    obtain ⟨us, hus⟩ := hend
    obtain ⟨a, b, st, rfl, rfl, rfl⟩ := exists_cons_cons_of_append_eq hus
    exact bind_eq_error_iff.mpr (.inl (mapError_eq_error_iff.mpr
      ⟨_, Measured.mkAssign_eq_error_iff.mpr ⟨hvar, rfl⟩, rfl⟩))
  | @tooDeep _ e hop hcount hend hheight =>
    obtain ⟨us, hus⟩ := hend
    rw [Expr.postfixTokens_eq, ← List.append_assoc] at hus
    obtain ⟨hops, ht⟩ := List.append_inj' hus rfl
    obtain rfl := List.singleton_inj.mp ht
    -- the operands of the expression are on the stack, so it is made of them
    cases e with
    | num | var => cases hop
    | neg e =>
      obtain ⟨m, st, rfl, rfl, -⟩ := exists_cons_of_append_eq hops
      refine push_eq_error_iff.mpr ⟨?_, rfl⟩
      rwa [m.neg.height_eq]
    | update op x =>
      obtain ⟨m, st, rfl, hm, -⟩ := exists_cons_of_append_eq (e := .var x) hops
      have hmake : m.mkUpdate op = .ok (Expr.update op x).measured :=
        Measured.mkUpdate_eq_ok_iff.mpr ⟨x, hm, rfl⟩
      exact bind_eq_error_iff.mpr (.inr ⟨_, mapError_eq_ok_iff.mpr hmake,
        push_eq_error_iff.mpr ⟨hheight, rfl⟩⟩)
    | bin op l r =>
      obtain ⟨a, b, st, rfl, rfl, rfl⟩ := exists_cons_cons_of_append_eq hops
      refine push_eq_error_iff.mpr ⟨?_, rfl⟩
      rwa [(Measured.bin op a b).height_eq]
    | assign op x e =>
      obtain ⟨a, b, st, rfl, ha, rfl⟩ := exists_cons_cons_of_append_eq (l := .var x) hops
      have hmake : a.mkAssign op b = .ok (Expr.assign op x b.expr).measured :=
        Measured.mkAssign_eq_ok_iff.mpr ⟨x, ha, rfl⟩
      exact bind_eq_error_iff.mpr (.inr ⟨_, mapError_eq_ok_iff.mpr hmake,
        push_eq_error_iff.mpr ⟨hheight, rfl⟩⟩)

/-- **What the reader refuses is refused.** -/
theorem refused_of_step {k : Nat} {t : Token} {st : List Measured} {err : BuildError}
    (h : step limit k t st = .error err) : Refused limit k (written st) t err := by
  rcases Nat.lt_or_ge st.length t.arity with hlt | hge
  · rw [step_of_length_lt hlt] at h
    cases h
    refine .missingOperand ?_
    rw [surplus_written]
    exact_mod_cast hlt
  have hcount : (t.arity : Int) ≤ surplus (written st) := by
    rw [surplus_written]
    exact_mod_cast hge
  cases t with
  | num v => cases h
  | var x => cases h
  | neg =>
    obtain ⟨m, st, rfl⟩ := List.exists_cons_of_length_pos hge
    obtain ⟨hheight, rfl⟩ := push_eq_error_iff.mp h
    refine .tooDeep Nat.one_pos hcount (e := .neg m.expr) ⟨written st, ?_⟩ ?_
    · rw [Expr.postfixTokens, written, List.append_assoc]
    · rwa [m.neg.height_eq] at hheight
  | update op =>
    obtain ⟨m, st, rfl⟩ := List.exists_cons_of_length_pos hge
    rcases bind_eq_error_iff.mp h with hmake | ⟨a, hmake, hpush⟩
    · obtain ⟨e, he, rfl⟩ := mapError_eq_error_iff.mp hmake
      obtain ⟨hvar, rfl⟩ := Measured.mkUpdate_eq_error_iff.mp he
      exact .update hcount ⟨written st, rfl⟩ hvar
    · obtain ⟨x, hm, ha⟩ := Measured.mkUpdate_eq_ok_iff.mp (mapError_eq_ok_iff.mp hmake)
      obtain ⟨hheight, rfl⟩ := push_eq_error_iff.mp hpush
      refine .tooDeep Nat.one_pos hcount (e := a.expr) ⟨written st, ?_⟩ (a.height_eq ▸ hheight)
      rw [ha, written, hm, Expr.postfixTokens, Expr.postfixTokens, List.append_assoc]
      rfl
  | bin op =>
    obtain ⟨b, st, rfl⟩ := List.exists_cons_of_length_pos (Nat.zero_lt_of_lt hge)
    obtain ⟨a, st, rfl⟩ := List.exists_cons_of_length_pos (Nat.lt_of_succ_lt_succ hge)
    obtain ⟨hheight, rfl⟩ := push_eq_error_iff.mp h
    refine .tooDeep Nat.two_pos hcount (e := .bin op a.expr b.expr) ⟨written st, ?_⟩ ?_
    · simp [Expr.postfixTokens, written]
    · rwa [(Measured.bin op a b).height_eq] at hheight
  | assign op =>
    obtain ⟨b, st, rfl⟩ := List.exists_cons_of_length_pos (Nat.zero_lt_of_lt hge)
    obtain ⟨a, st, rfl⟩ := List.exists_cons_of_length_pos (Nat.lt_of_succ_lt_succ hge)
    rcases bind_eq_error_iff.mp h with hmake | ⟨m, hmake, hpush⟩
    · obtain ⟨e, he, rfl⟩ := mapError_eq_error_iff.mp hmake
      obtain ⟨hvar, rfl⟩ := Measured.mkAssign_eq_error_iff.mp he
      exact .assign hcount ⟨written st, (List.append_assoc _ _ _).symm⟩ hvar
    · obtain ⟨x, ha, hm⟩ := Measured.mkAssign_eq_ok_iff.mp (mapError_eq_ok_iff.mp hmake)
      obtain ⟨hheight, rfl⟩ := push_eq_error_iff.mp hpush
      refine .tooDeep Nat.two_pos hcount (e := m.expr) ⟨written st, ?_⟩ (m.height_eq ▸ hheight)
      simp [hm, ha, Expr.postfixTokens, written]

/-- An operand is not refused, unless operators in front of it lack operands. -/
theorem not_refused_operand {k : Nat} {ts : List Token} {t : Token} (ht : t.arity = 0)
    (hts : 0 ≤ surplus ts) (err : BuildError) : ¬Refused limit k ts t err := by
  intro h
  cases h with
  | missingOperand hcount => rw [ht] at hcount; exact absurd hcount (Int.not_lt.mpr hts)
  | update | assign => cases ht
  | tooDeep hop => exact Nat.ne_of_gt hop ht

/-! ### The first token that is refused -/

/-- **The token with index `k` is refused.** -/
def RefusedAt (limit : Nat) (ts : List Token) (k : Nat) (err : BuildError) : Prop :=
  ∃ t, ts[k]? = some t ∧ Refused limit k (ts.take k) t err

/-- The reader comes past all tokens that are not refused. -/
theorem exists_run_take {ts : List Token} {k : Nat}
    (h : ∀ j < k, ∀ err, ¬RefusedAt limit ts j err) :
    ∃ st, run limit 0 (ts.take k) [] = .ok st := by
  induction k with
  | zero => exact ⟨[], rfl⟩
  | succ k ih =>
    obtain ⟨st, hst⟩ := ih fun j hj => h j (Nat.lt_succ_of_lt hj)
    rw [List.take_add_one]
    cases ht : ts[k]? with
    | none => exact ⟨st, by rwa [Option.toList_none, List.append_nil]⟩
    | some t =>
      have hlen : (ts.take k).length = k :=
        List.length_take_of_le (Nat.le_of_lt (List.getElem?_eq_some_iff.mp ht).1)
      have hwritten : written st = ts.take k := written_of_run hst
      rw [Option.toList_some, run_append, hst, hlen, Nat.zero_add]
      show ∃ st', run limit k [t] st = .ok st'
      rw [run_singleton]
      cases hstep : step limit k t st with
      | ok st' => exact ⟨st', rfl⟩
      | error err =>
        exact absurd ⟨t, ht, hwritten ▸ refused_of_step hstep⟩ (h k (Nat.lt_succ_self k) err)

/-- **It fails at the first token that is refused.** -/
theorem run_of_refusedAt {ts : List Token} {k : Nat} {err : BuildError}
    (hbefore : ∀ j < k, ∀ err, ¬RefusedAt limit ts j err) (h : RefusedAt limit ts k err) :
    run limit 0 ts [] = .error err := by
  obtain ⟨st, hst⟩ := exists_run_take hbefore
  obtain ⟨t, ht, hrefused⟩ := h
  obtain ⟨hk, rfl⟩ := List.getElem?_eq_some_iff.mp ht
  have hwritten : written st = ts.take k := written_of_run hst
  have hsplit : ts = ts.take k ++ ts[k] :: ts.drop (k + 1) := by
    rw [← List.drop_eq_getElem_cons hk, List.take_append_drop]
  rw [← hwritten] at hrefused
  rw [hsplit, run_append, hst, List.length_take_of_le (Nat.le_of_lt hk), Nat.zero_add]
  show run limit k (ts[k] :: ts.drop (k + 1)) st = .error err
  rw [run, hrefused.step_eq]
  rfl

/-! ### What is left in the end -/

theorem written_eq_nil_iff {st : List Measured} : written st = [] ↔ st = [] := by
  cases st <;> simp [written, Expr.postfixTokens_eq]

theorem root_eq_empty_iff {st : List Measured} : root st = .error .empty ↔ st = [] := by
  unfold root
  split <;> simp_all

theorem root_eq_unbalanced_iff {st : List Measured} {n : Nat} :
    root st = .error (.unbalanced n) ↔ 2 ≤ st.length ∧ st.length = n := by
  match st with
  | [] => simp [root]
  | [m] => simp [root]
  | b :: a :: st => simp [root]

theorem exists_root_eq_ok_iff {st : List Measured} :
    (∃ e, root st = .ok e) ↔ st.length = 1 := by
  simp only [root_eq_ok_iff, List.length_eq_one_iff]
  exact ⟨fun ⟨_, m, hm, _⟩ => ⟨m, hm⟩, fun ⟨m, hm⟩ => ⟨m.expr, m, hm, rfl⟩⟩

/-- **Which text is built, and how building fails.** It fails as the first token that is
refused does. If none is refused, it fails if there are no tokens, and if two or more
expressions are left, whose number is then reported, and it succeeds in every other case. The
operator that is reported to lack an operand is the word with its index. -/
theorem build_of_refusals (text : String) (limit : Nat) :
    (∀ k err, RefusedAt limit (tokens text) k err →
      (∀ j < k, ∀ err', ¬RefusedAt limit (tokens text) j err') →
      build text limit = .error err) ∧
    ((∀ k err, ¬RefusedAt limit (tokens text) k err) →
      (build text limit = .error .empty ↔ tokens text = []) ∧
      (∀ n : Nat, build text limit = .error (.unbalanced n) ↔
        2 ≤ surplus (tokens text) ∧ surplus (tokens text) = n) ∧
      ((∃ e, build text limit = .ok e) ↔
        tokens text ≠ [] ∧ surplus (tokens text) < 2)) ∧
    ∀ (k : Nat) (t : Token), (tokens text)[k]? = some t → 0 < t.arity →
      (Text.words text.toList)[k]? = some t.chars := by
  refine ⟨fun k err h hbefore => ?_, fun hnone => ?_, fun k t ht hop => ?_⟩
  · rw [build, run_of_refusedAt hbefore h]
    rfl
  · obtain ⟨st, hst⟩ := exists_run_take (k := (tokens text).length) fun j _ => hnone j
    rw [List.take_length] at hst
    have hwritten : written st = tokens text := written_of_run hst
    have hbuild : build text limit = root st := by
      rw [build, hst]
      rfl
    rw [hbuild, ← hwritten, surplus_written, written_eq_nil_iff]
    refine ⟨root_eq_empty_iff, fun n => root_eq_unbalanced_iff.trans (by omega), ?_⟩
    rw [exists_root_eq_ok_iff, Ne, written_eq_nil_iff, ← List.length_eq_zero_iff]
    omega
  · rw [tokens, List.getElem?_map, Option.map_eq_some_iff] at ht
    obtain ⟨w, hw, rfl⟩ := ht
    rw [hw, Token.chars_ofWord_of_pos hop]

/-- The third word is the first that is refused: it updates a number, and what it would make is
too high besides. Of two operands, each is let pass, with a limit of zero too, and both are left. -/
theorem build_of_refusals_target :
    (RefusedAt 1 (tokens "1 2 ++ +") 2 (.notAVariable ⟨.num ⟨2, by decide⟩⟩) ∧
      (∀ j < 2, ∀ err, ¬RefusedAt 1 (tokens "1 2 ++ +") j err) ∧
      build "1 2 ++ +" 1 = .error (.notAVariable ⟨.num ⟨2, by decide⟩⟩)) ∧
    (∀ k err, ¬RefusedAt 0 (tokens "1 2") k err) ∧
      (2 ≤ surplus (tokens "1 2") ∧ surplus (tokens "1 2") = (2 : Nat)) ∧
      build "1 2" 0 = .error (.unbalanced 2) := by
  have htokens : tokens "1 2 ++ +" =
      [.num ⟨1, by decide⟩, .num ⟨2, by decide⟩, .update (.pre .up), .bin .add] := by
    decide +kernel
  have htokens' : tokens "1 2" = [.num ⟨1, by decide⟩, .num ⟨2, by decide⟩] := by
    decide +kernel
  have hrefused : RefusedAt 1 (tokens "1 2 ++ +") 2 (.notAVariable ⟨.num ⟨2, by decide⟩⟩) := by
    rw [htokens]
    exact ⟨_, rfl, .update (by decide) ⟨[.num ⟨1, by decide⟩], rfl⟩ nofun⟩
  have hbefore : ∀ j < 2, ∀ err, ¬RefusedAt 1 (tokens "1 2 ++ +") j err := by
    rw [htokens]
    rintro j hj err ⟨t, ht, h⟩
    obtain rfl | rfl : j = 0 ∨ j = 1 := by omega
    · cases ht
      exact not_refused_operand rfl (by decide) err h
    · cases ht
      exact not_refused_operand rfl (by decide) err h
  have hnone : ∀ k err, ¬RefusedAt 0 (tokens "1 2") k err := by
    rw [htokens']
    rintro k err ⟨t, ht, h⟩
    rcases k with _ | _ | k
    · cases ht
      exact not_refused_operand rfl (by decide) err h
    · cases ht
      exact not_refused_operand rfl (by decide) err h
    · cases ht
  have hcount : 2 ≤ surplus (tokens "1 2") ∧ surplus (tokens "1 2") = (2 : Nat) := by
    rw [htokens']
    decide +kernel
  exact ⟨⟨hrefused, hbefore, (build_of_refusals _ 1).1 2 _ hrefused hbefore⟩, hnone, hcount,
    (((build_of_refusals "1 2" 0).2.1 hnone).2.1 2).mpr hcount⟩

/-- **An operand is not refused for its height.** Not every token that makes an expression higher
than the limit is refused: the number five does, where the limit is zero, and it is built. -/
theorem not_forall_build_eq_tooDeep :
    ¬∀ (text : String) (limit k : Nat) (t : Token) (e : Expr),
      (∀ j < k, ∀ err, ¬RefusedAt limit (tokens text) j err) → (tokens text)[k]? = some t →
      t.arity ≤ surplus ((tokens text).take k) →
      (∀ op, t ≠ .update op) → (∀ op, t ≠ .assign op) →
      e.postfixTokens <:+ (tokens text).take (k + 1) → limit < e.height →
      build text limit = .error (.tooDeep limit k) := by
  intro h
  have htokens : tokens "5" = [.num ⟨5, by decide⟩] := by decide +kernel
  have hbuild : build "5" 0 = .ok (.num ⟨5, by decide⟩) := by decide +kernel
  have hdeep := h "5" 0 0 (.num ⟨5, by decide⟩) (.num ⟨5, by decide⟩) nofun (by rw [htokens]; rfl)
    (by decide) nofun nofun (by rw [htokens]; exact List.suffix_rfl) Nat.one_pos
  rw [hbuild] at hdeep
  cases hdeep

end Postfix

end Reckoner
