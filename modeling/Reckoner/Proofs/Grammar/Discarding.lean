import Reckoner.Proofs.Grammar.Image

/-!
# Discarding the steps behind operands

A step behind its operand is applied or discarded, as the options have it. Discarding asks for
less: the operand has to be a variable either way, but it stays one, and no node is built over
it that could be too high or that could be in the place of a variable later. So a line that is
accepted where steps are applied is accepted where they are discarded, and it stands for the
same expression, but that the updates that read first are the variables they update
(`Reckoner.Grammar.Derives.discardPost`).

The other direction fails: `x++ ++` is accepted only where steps are discarded.
-/

namespace Reckoner

namespace Expr

/-- **An expression without the updates that read first**: each of them is replaced by the
variable that it updates. -/
def discardPost : Expr → Expr
  | num v => num v
  | var x => var x
  | neg e => neg e.discardPost
  | update (.pre s) x => update (.pre s) x
  | update (.post _) x => var x
  | bin op l r => bin op l.discardPost r.discardPost
  | assign op x e => assign op x e.discardPost

/-- It is not higher than it was. -/
theorem height_discardPost_le (e : Expr) : e.discardPost.height ≤ e.height := by
  induction e with
  | num | var => exact Nat.le_refl 1
  | neg e ih => exact Nat.succ_le_succ ih
  | update op x =>
    cases op with
    | pre => exact Nat.le_refl 2
    | post => exact Nat.le_succ 1
  | bin op l r ihl ihr =>
    rw [discardPost, height, height]
    omega
  | assign op x e ih =>
    rw [discardPost, height, height]
    omega

/-- Where there is no such update, nothing is replaced. -/
theorem discardPost_eq_self {e : Expr} (h : ∀ s, .post s ∉ e.updates) : e.discardPost = e := by
  induction e with
  | num | var => rfl
  | neg e ih => rw [discardPost, ih h]
  | update op x =>
    cases op with
    | pre => rfl
    | post s => exact absurd List.mem_cons_self (h s)
  | bin op l r ihl ihr =>
    rw [discardPost, ihl fun s hs => h s (List.mem_append_left _ hs),
      ihr fun s hs => h s (List.mem_append_right _ hs)]
  | assign op x e ih => rw [discardPost, ih h]

end Expr

namespace Grammar

variable {opts : ParseOptions}

/-! ### Derivations where steps are discarded -/

theorem Signed.discardPost {o : Option Token} {a b : Expr} (h : Signed opts o a b) :
    Signed { opts with trailing := .discard } o a.discardPost b.discardPost := by
  cases h with
  | bare => exact .bare _
  | plus => exact .plus _
  | minus hh => exact .minus (Nat.le_trans (Expr.height_discardPost_le (.neg a)) hh)
  | step hh => exact .step hh

/-- **The steps behind an operand** are discarded one by one; what is in front of each of them
is the variable itself. -/
theorem Trailed.discardPost {a b : Expr} {ts : List Token} (h : Trailed opts a ts b) :
    Trailed { opts with trailing := .discard } a.discardPost ts b.discardPost := by
  induction h with
  | nil e => exact .nil e.discardPost
  | cons hs _ ih =>
    cases hs with
    | discarded x | applied => exact .cons (.discarded _ rfl) ih

/-- **What is derived where steps are applied** is derived where they are discarded, without the
updates they stand for. -/
theorem Derives.discardPost {k : Nonterminal} {d : Nat} {ts : List Token} {e : Expr}
    (h : Derives opts k d ts e) :
    Derives { opts with trailing := .discard } k d ts e.discardPost := by
  induction h with
  | number d v => exact .number d v
  | identifier d x => exact .identifier d x
  | parens hd _ ih => exact .parens hd ih
  | factor hsigns _ hs ht ih => exact .factor hsigns ih hs.discardPost ht.discardPost
  | ofFactor _ ih => exact .ofFactor ih
  | product hop _ _ hh ihl ihr =>
    exact .product hop ihl ihr (Nat.le_trans (Expr.height_discardPost_le (.bin _ _ _)) hh)
  | ofProduct _ ih => exact .ofProduct ih
  | sum hop _ _ hh ihl ihr =>
    exact .sum hop ihl ihr (Nat.le_trans (Expr.height_discardPost_le (.bin _ _ _)) hh)
  | ofSum _ ih => exact .ofSum ih
  | assign _ _ hh ihl ihr =>
    exact .assign ihl ihr (Nat.le_trans (Expr.height_discardPost_le (.assign _ _ _)) hh)

/-! ### Lines -/

/-- **Discarding steps accepts what applying them accepts.** An expression that a line stands for
where steps behind an operand are applied is what it stands for where they are discarded, but
that every update that reads first is replaced by its variable. So a line that is refused where
they are discarded is refused where they are applied; and where no step has been applied, the
two expressions are the same. -/
theorem parse_discard_of_parse_apply (line : String) (maxDepth : Nat) :
    (∀ e, parse line ⟨.apply, maxDepth⟩ = .ok e →
      parse line ⟨.discard, maxDepth⟩ = .ok e.discardPost) ∧
    (∀ err, parse line ⟨.discard, maxDepth⟩ = .error err →
      ∃ err', parse line ⟨.apply, maxDepth⟩ = .error err') ∧
    ∀ e, parse line ⟨.apply, maxDepth⟩ = .ok e → (∀ s, .post s ∉ e.updates) →
      parse line ⟨.discard, maxDepth⟩ = .ok e := by
  have hsimulate : ∀ e, parse line ⟨.apply, maxDepth⟩ = .ok e →
      parse line ⟨.discard, maxDepth⟩ = .ok e.discardPost := fun e h =>
    parse_eq_ok_iff.mpr (parse_eq_ok_iff.mp h).discardPost
  refine ⟨hsimulate, fun err h => ?_, fun e h hpost => ?_⟩
  · rcases happly : parse line ⟨.apply, maxDepth⟩ with err' | e
    · exact ⟨err', rfl⟩
    · rw [hsimulate e happly] at h
      cases h
  · rw [hsimulate e h, Expr.discardPost_eq_self hpost]

/-- A step that reads first next to one that does not, an assignment to a number, and a line
without a step behind an operand. -/
theorem parse_discard_of_parse_apply_steps :
    (parse "y = x++ - --z" ⟨.apply, 4⟩ = .ok (.assign .plain "y"
        (.bin .sub (.update (.post .up) "x") (.update (.pre .down) "z"))) ∧
      parse "y = x++ - --z" ⟨.discard, 4⟩ = .ok (.assign .plain "y"
        (.bin .sub (.var "x") (.update (.pre .down) "z")))) ∧
    (parse "1 = x++" ⟨.discard, 4⟩ = .error (.notAVariable ⟨.num ⟨1, by decide⟩⟩) ∧
      ∃ err, parse "1 = x++" ⟨.apply, 4⟩ = .error err) ∧
    (parse "y = --z" ⟨.apply, 4⟩ = .ok (.assign .plain "y" (.update (.pre .down) "z")) ∧
      (∀ s, .post s ∉ (Expr.assign .plain "y" (.update (.pre .down) "z")).updates) ∧
      parse "y = --z" ⟨.discard, 4⟩ = .ok (.assign .plain "y" (.update (.pre .down) "z"))) := by
  have hsteps : parse "y = x++ - --z" ⟨.apply, 4⟩ = .ok (.assign .plain "y"
      (.bin .sub (.update (.post .up) "x") (.update (.pre .down) "z"))) := by
    decide +kernel
  have hnumber : parse "1 = x++" ⟨.discard, 4⟩ =
      .error (.notAVariable ⟨.num ⟨1, by decide⟩⟩) := by
    decide +kernel
  have hplain : parse "y = --z" ⟨.apply, 4⟩ =
      .ok (.assign .plain "y" (.update (.pre .down) "z")) := by
    decide +kernel
  have hpost : ∀ s, .post s ∉ (Expr.assign .plain "y" (.update (.pre .down) "z")).updates := by
    intro s
    cases s <;> decide
  exact ⟨⟨hsteps, (parse_discard_of_parse_apply _ 4).1 _ hsteps⟩,
    ⟨hnumber, (parse_discard_of_parse_apply _ 4).2.1 _ hnumber⟩,
    hplain, hpost, (parse_discard_of_parse_apply _ 4).2.2 _ hplain hpost⟩

end Grammar

end Reckoner
