import Reckoner.Postfix.Build
import Reckoner.Proofs.Grammar.Lookahead

/-!
# Raising the depth limit

Lines and postfix notation are read with a limit on the depth. A greater limit makes room for
more, and that is all it does: whatever is not refused for its depth is read under the greater limit
as it was under the lesser one, with the same expression or the same failure
(`Reckoner.read_eq_of_limit_le`).

This takes an argument because the limit is looked at in the middle of reading, next to everything
else that can be wrong: of two things that are wrong the first one found is reported, and which of
them is found first must not depend on the limit. For lines, two ways of reading that differ in the
limit are compared in `Reckoner.Parse.Comparison`. For postfix notation it is a rule for each of the
few things that reading is made of, put together in `Reckoner.Postfix.run_keeps`.
-/

namespace Reckoner

/-! ### Lines -/

namespace Parse

/-- Where places correspond to themselves only, results that are alike are the same. -/
theorem Comparison.Alike.eq {c : Comparison} {x x' : Except ParseError Measured}
    (hnear : ∀ p q, c.Near p q → p = q) (h : c.Alike x x') : x = x' := by
  cases h with
  | ok m => rfl
  | malformed f hpq => rw [hnear _ _ hpq]
  | notAVariable err => rfl

/-- **A line that is not refused for its depth** is read alike under a greater limit. -/
theorem parse_eq_of_maxDepth_le {line : String} {opts opts' : ParseOptions}
    (htrailing : opts.trailing = opts'.trailing) (hle : opts.maxDepth ≤ opts'.maxDepth)
    (h : ∀ f p, parse line opts = .error (.malformed f p) → f.isDepth = false) :
    parse line opts' = parse line opts := by
  -- the line compared with itself, so the places are the same
  let c : Comparison :=
    { opts, opts', trailing_eq := htrailing, maxDepth_le := hle, finish := line.length,
      finish' := line.length, Near := Eq, near_finish := rfl }
  let ts := (Scanner.ofLine line).tokens
  have hagree : c.Agree ts ts (wholeLine opts line.length ts).rest
      (wholeLine opts line.length ts).rest :=
    .refl (fun _ _ => rfl) (wholeLine opts line.length ts).suffix
  have hcounted : c.Counted (wholeLine opts line.length ts).result := by
    intro f p hresult hf
    rw [h f p (parse_eq_error_iff.mpr hresult)] at hf
    cases hf
  obtain ⟨-, halike⟩ := Comparison.wholeLine_alongside ts ts hcounted _ hagree
  rw [parse_eq, parse_eq]
  exact congrArg _ (halike.eq fun _ _ hpq => hpq).symm

end Parse

/-! ### Postfix notation -/

namespace Postfix

/-- **A result that a greater limit keeps**: unless the first one comes from its limit, the second
one is the same. -/
def Keeps {α : Type} (x x' : Except BuildError α) : Prop :=
  (∀ limit k, x ≠ .error (.tooDeep limit k)) → x' = x

section Keeps

variable {α β : Type} {limit limit' : Nat}

theorem Keeps.refl (x : Except BuildError α) : Keeps x x := fun _ => rfl

/-- One after the other, results are kept if each of them is. -/
theorem Keeps.bind {x x' : Except BuildError α} {f f' : α → Except BuildError β} (hx : Keeps x x')
    (hf : ∀ a, Keeps (f a) (f' a)) : Keeps (x >>= f) (x' >>= f') := by
  intro h
  cases x with
  | error err =>
    rw [hx fun limit k he => h limit k (by rw [he]; rfl)]
    rfl
  | ok a =>
    rw [hx nofun]
    exact hf a h

theorem push_keeps (hle : limit ≤ limit') (k : Nat) (st : List Measured) (m : Measured) :
    Keeps (push limit k st m) (push limit' k st m) := by
  intro h
  by_cases hm : m.height ≤ limit
  · rw [push, push, if_pos hm, if_pos (Nat.le_trans hm hle)]
  · rw [push, if_neg hm] at h
    exact absurd rfl (h limit k)

/-- One token: its operands and its target do not depend on the limit. -/
theorem step_keeps (hle : limit ≤ limit') (k : Nat) (t : Token) (st : List Measured) :
    Keeps (step limit k t st) (step limit' k t st) := by
  unfold step
  split
  · exact .refl _
  · exact .refl _
  · exact push_keeps hle k _ _
  · exact .bind (.refl _) (push_keeps hle k _)
  · exact push_keeps hle k _ _
  · exact .bind (.refl _) (push_keeps hle k _)
  · exact .refl _

/-- All tokens. -/
theorem run_keeps (hle : limit ≤ limit') (k : Nat) (ts : List Token) (st : List Measured) :
    Keeps (run limit k ts st) (run limit' k ts st) := by
  induction ts generalizing k st with
  | nil => exact .refl _
  | cons t ts ih => exact (step_keeps hle k t st).bind fun us => ih (k + 1) us

theorem build_keeps (hle : limit ≤ limit') (text : String) :
    Keeps (build text limit) (build text limit') :=
  (run_keeps hle 0 (tokens text) []).bind fun _ => .refl _

end Keeps

end Postfix

/-! ### Both -/

/-- **Raising the depth limit takes depth errors away** and changes nothing else. Whatever reading a
line returns, if it is not one of the two faults of depth, reading it under a greater limit returns
the same: the expression, what is no variable, or the fault and its place. So it is with a text in
postfix notation, where there is one failure of depth. -/
theorem read_eq_of_limit_le (trailing : TrailingStep) {limit limit' : Nat}
    (hle : limit ≤ limit') :
    (∀ line, (∀ f p, parse line ⟨trailing, limit⟩ = .error (.malformed f p) → f.isDepth = false) →
      parse line ⟨trailing, limit'⟩ = parse line ⟨trailing, limit⟩) ∧
    ∀ text, (∀ d k, Postfix.build text limit ≠ .error (.tooDeep d k)) →
      Postfix.build text limit' = Postfix.build text limit :=
  ⟨fun _ h => Parse.parse_eq_of_maxDepth_le rfl hle h,
    fun text h => Postfix.build_keeps hle text h⟩

/-- A line that ends behind signs, an assignment to a number under a sign for which there would be
no room, and such an assignment in postfix notation for which there would be no room itself. -/
theorem read_eq_of_limit_le_target :
    2 ≤ 5 ∧
    (parse "1 = 2 + + +" ⟨.apply, 2⟩ = .error (.malformed (.operandExpected .finish) 11) ∧
      parse "1 = 2 + + +" ⟨.apply, 5⟩ = .error (.malformed (.operandExpected .finish) 11)) ∧
    (parse "-(1 = 2)" ⟨.apply, 2⟩ = .error (.notAVariable ⟨.num ⟨1, by decide⟩⟩) ∧
      parse "-(1 = 2)" ⟨.apply, 5⟩ = .error (.notAVariable ⟨.num ⟨1, by decide⟩⟩)) ∧
    (Postfix.build "1 x ~ =" 2 = .error (.notAVariable ⟨.num ⟨1, by decide⟩⟩) ∧
      Postfix.build "1 x ~ =" 5 = .error (.notAVariable ⟨.num ⟨1, by decide⟩⟩)) := by
  have hend : parse "1 = 2 + + +" ⟨.apply, 2⟩ =
      .error (.malformed (.operandExpected .finish) 11) := by
    decide +kernel
  have hnumber : parse "-(1 = 2)" ⟨.apply, 2⟩ = .error (.notAVariable ⟨.num ⟨1, by decide⟩⟩) := by
    decide +kernel
  have htext : Postfix.build "1 x ~ =" 2 = .error (.notAVariable ⟨.num ⟨1, by decide⟩⟩) := by
    decide +kernel
  have hle : 2 ≤ 5 := by decide
  refine ⟨hle, ⟨hend, ?_⟩, ⟨hnumber, ?_⟩, ⟨htext, ?_⟩⟩
  · rw [(read_eq_of_limit_le .apply hle).1 _ fun f p h => ?_, hend]
    rw [hend] at h
    cases h
    rfl
  · rw [(read_eq_of_limit_le .apply hle).1 _ fun f p h => ?_, hnumber]
    rw [hnumber] at h
    cases h
  · rw [(read_eq_of_limit_le .apply hle).2 _ fun d k h => ?_, htext]
    rw [htext] at h
    cases h

end Reckoner
