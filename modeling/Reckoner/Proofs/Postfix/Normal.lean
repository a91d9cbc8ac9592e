import Reckoner.Proofs.Postfix.RoundTrip

/-!
# Postfix text brought to its normal form

What is built from a text and written again need not be the text: the words may be set
apart by more white space than they need, and a number may have a plus sign or zeros in
front. That is all that can be different
(`Reckoner.Postfix.postfixText_of_build`). So the pass from text to expression and back
brings a text to a normal form, and every other word of it is kept as it is.

The reason is that the printer undoes the reader on any stack at all. The tokens that the
expressions on a stack are written with, from the bottom of the stack to its top, are the
tokens that have been read (`Reckoner.Postfix.written_of_run`), whatever they are. Of a
single word it then only has to be said what its token is written with
(`Reckoner.Postfix.Token.chars_ofWord`).
-/

namespace Reckoner

namespace Postfix

open Except (bind_eq_ok_iff mapError_eq_ok_iff)

variable {limit : Nat}

/-! ### The tokens of a stack -/

/-- **The tokens of the expressions on a stack**, those of the top last. -/
def written : List Measured → List Token
  | [] => []
  | m :: st => written st ++ m.expr.postfixTokens

/-- **A token is added at the end** of the tokens of the stack. -/
theorem written_of_step {k : Nat} {t : Token} {st st' : List Measured}
    (h : step limit k t st = .ok st') : written st' = written st ++ [t] := by
  unfold step at h
  split at h
  · cases h
    rfl
  · cases h
    rfl
  · obtain ⟨-, rfl⟩ := eq_cons_of_push h
    simp [written, Measured.neg, Expr.postfixTokens]
  -- the target of an update or an assignment is written first, as it was read first
  · obtain ⟨a, ha, h⟩ := bind_eq_ok_iff.mp h
    obtain ⟨x, hx, hexpr⟩ := Measured.mkUpdate_eq_ok_iff.mp (mapError_eq_ok_iff.mp ha)
    obtain ⟨-, rfl⟩ := eq_cons_of_push h
    simp [written, hx, hexpr, Expr.postfixTokens]
  · obtain ⟨-, rfl⟩ := eq_cons_of_push h
    simp [written, Measured.bin, Expr.postfixTokens]
  · obtain ⟨a, ha, h⟩ := bind_eq_ok_iff.mp h
    obtain ⟨x, hx, hexpr⟩ := Measured.mkAssign_eq_ok_iff.mp (mapError_eq_ok_iff.mp ha)
    obtain ⟨-, rfl⟩ := eq_cons_of_push h
    simp [written, hx, hexpr, Expr.postfixTokens]
  · cases h

/-- So are all tokens, in their order. -/
theorem written_of_run {k : Nat} {ts : List Token} {st st' : List Measured}
    (h : run limit k ts st = .ok st') : written st' = written st ++ ts := by
  induction ts generalizing k st with
  | nil =>
    cases h
    exact (List.append_nil _).symm
  | cons t ts ih =>
    obtain ⟨us, hstep, hrun⟩ := bind_eq_ok_iff.mp h
    rw [ih hrun, written_of_step hstep, List.append_assoc, List.singleton_append]

/-- **What is built from a text is written with the tokens of the text.** -/
theorem postfixTokens_of_build {text : String} {e : Expr} (h : build text limit = .ok e) :
    e.postfixTokens = tokens text := by
  obtain ⟨st, hrun, hroot⟩ := bind_eq_ok_iff.mp h
  obtain ⟨m, rfl, rfl⟩ := root_eq_ok_iff.mp hroot
  exact written_of_run hrun

/-! ### The words of a text -/

/-- **The normal form of a word**: the decimal form of its value, if it is a number, and else
the word itself. -/
def normal (w : List Char) : List Char :=
  match Value.ofDigits? w with
  | some v => v.digits
  | none => w

/-- **The token of a word is written as the normal form of the word.** -/
theorem Token.chars_ofWord (w : List Char) : (ofWord w).chars = normal w := by
  rw [ofWord]
  split
  · next t ht =>
    -- an operator is written as the word it was found by, which is no number
    have hop := ofDigits?_operator (List.mem_of_find?_eq_some ht)
    obtain rfl : t.chars = w := by simpa using List.find?_some ht
    rw [normal, hop]
  · rw [normal]
    cases Value.ofDigits? w with
    | some v => rfl
    | none => exact String.toList_ofList

/-- So an operator is written as its word. -/
theorem Token.chars_ofWord_of_pos {w : List Char} (h : 0 < (ofWord w).arity) :
    (ofWord w).chars = w := by
  have hop := ofDigits?_operator (mem_operators_iff.mpr h)
  rw [chars_ofWord] at hop ⊢
  cases hw : Value.ofDigits? w with
  | none => rw [normal, hw]
  | some v =>
    rw [normal, hw, Value.ofDigits?_digits] at hop
    cases hop

/-- **One pass brings a text to its normal form.** If an expression can be built from a text,
it is written as the words of the text with single spaces between them, where every word that
is a number has been put in its decimal form and every other word is the same. Building that
gives the expression again, with the same limit on its height. -/
theorem postfixText_of_build {text : String} {limit : Nat} {e : Expr}
    (h : build text limit = .ok e) :
    e.postfixText = .ofList (Text.unwords ((Text.words text.toList).map normal)) ∧
      build e.postfixText limit = .ok e := by
  refine ⟨?_, build_postfixText_of_readable (readable_of_build h)⟩
  rw [Expr.postfixText, postfixTokens_of_build h, tokens, List.map_map]
  exact congrArg (fun ws => String.ofList (Text.unwords ws))
    (List.map_congr_left fun w _ => Token.chars_ofWord w)

/-- Two blanks and a tab, a plus sign with zeros, and the minus sign of a zero, which is not the
minus sign of the difference behind it. -/
theorem postfixText_of_build_signs :
    let e : Expr :=
      .assign .plain "x" (.bin .sub (.num ⟨5, by decide⟩) (.num ⟨0, by decide⟩))
    build "x  +005\t-0 - =" 3 = .ok e ∧
      .ofList (Text.unwords ((Text.words "x  +005\t-0 - =".toList).map normal)) = "x 5 0 - =" ∧
      e.postfixText = "x 5 0 - =" ∧ build e.postfixText 3 = .ok e := by
  intro e
  have hbuild : build "x  +005\t-0 - =" 3 = .ok e := by decide +kernel
  have hnormal : String.ofList
      (Text.unwords ((Text.words "x  +005\t-0 - =".toList).map normal)) = "x 5 0 - =" := by
    decide +kernel
  obtain ⟨htext, hagain⟩ := postfixText_of_build hbuild
  exact ⟨hbuild, hnormal, htext.trans hnormal, hagain⟩

end Postfix

end Reckoner
