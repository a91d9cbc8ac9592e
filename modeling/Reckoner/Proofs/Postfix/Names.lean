import Mathlib.Data.List.Basic
import Reckoner.Postfix.Build
import Reckoner.Proofs.Scanning.Letters

/-!
# Names that survive postfix notation

The words of postfix notation are told apart by what they look like, so a name is read
back as a name only if it looks like nothing else: it must be one word, no operator and no
number. Such a name is *safe* (`Reckoner.Postfix.IsSafe`).

Safety is what decides whether an expression can be read back. If all its names are safe,
the words of its postfix form are the words of its tokens
(`Reckoner.Postfix.tokens_postfixText`). And a text has no other names than safe ones
(`Reckoner.Postfix.isSafe_of_mem_tokens`), so whatever is built from a text has none either.
-/

namespace Reckoner

/-! ### The names in an expression -/

/-- **The names in an expression**, from left to right, the targets included. -/
def Expr.names : Expr → List String
  | num _ => []
  | var x => [x]
  | neg e => e.names
  | update _ x => [x]
  | bin _ l r => l.names ++ r.names
  | assign _ x e => x :: e.names

/-! ### Words -/

namespace Text

/-- There is no white space in the pieces between white space. -/
theorem isSpace_eq_false_of_mem_pieces {cs w : List Char} (hw : w ∈ pieces cs) {c : Char}
    (hc : c ∈ w) : isSpace c = false := by
  induction cs generalizing w with
  | nil => simp_all [pieces]
  | cons a cs ih =>
    rw [pieces] at hw
    obtain ⟨p, ps, hp⟩ := List.exists_cons_of_ne_nil (pieces_ne_nil cs)
    split at hw
    · rcases List.mem_cons.mp hw with rfl | hw
      · exact absurd hc List.not_mem_nil
      · exact ih hw hc
    · next ha =>
      rw [hp, List.modifyHead_cons] at hw
      rcases List.mem_cons.mp hw with rfl | hw
      · rcases List.mem_cons.mp hc with rfl | hc
        · exact Bool.eq_false_iff.mpr ha
        · exact ih (hp ▸ List.mem_cons_self) hc
      · exact ih (hp ▸ List.mem_cons_of_mem _ hw) hc

/-- **The words of a text are words.** -/
theorem isWord_of_mem_words {cs w : List Char} (h : w ∈ words cs) : IsWord w := by
  obtain ⟨hmem, hne⟩ := List.mem_filter.mp h
  exact ⟨by simpa using hne, fun c hc => isSpace_eq_false_of_mem_pieces hmem hc⟩

instance (w : List Char) : Decidable (IsWord w) :=
  decidable_of_iff (w ≠ [] ∧ w.all (!isSpace ·)) (by simp [IsWord])

end Text

namespace Postfix

/-! ### Safe names -/

instance (x : String) : Decidable (Token.IsPlain x) := inferInstanceAs (Decidable (_ ∧ _))

/-- **A safe name**: it is one word, and reads as itself. -/
def IsSafe (x : String) : Prop := Text.IsWord x.toList ∧ Token.IsPlain x

instance (x : String) : Decidable (IsSafe x) := inferInstanceAs (Decidable (_ ∧ _))

/-- **Only a safe name is read as a name.** -/
theorem isSafe_of_ofWord_eq_var {w : List Char} (hw : Text.IsWord w) {x : String}
    (h : Token.ofWord w = .var x) : IsSafe x := by
  rw [Token.ofWord] at h
  split at h
  · next t ht =>
    -- an operator is found among the operators only, where there are no names
    subst h
    exact absurd (Token.mem_operators_iff.mp (List.mem_of_find?_eq_some ht)) (Nat.lt_irrefl 0)
  · next hop =>
    split at h
    · cases h
    · next hnum =>
      obtain rfl : .ofList w = x := Token.var.inj h
      rw [IsSafe, Token.IsPlain, String.toList_ofList]
      exact ⟨hw, fun t ht he => List.find?_eq_none.mp hop t ht (by simp [he]), hnum⟩

/-- **The names in a text are safe.** -/
theorem isSafe_of_mem_tokens {text x : String} (h : .var x ∈ tokens text) : IsSafe x := by
  obtain ⟨w, hw, hx⟩ := List.mem_map.mp h
  exact isSafe_of_ofWord_eq_var (Text.isWord_of_mem_words hw) hx

/-! ### Writing and reading tokens -/

namespace Token

theorem isWord_digits (v : Value) : Text.IsWord v.digits := by
  have hdigit : ∀ n, ∀ c ∈ Nat.toDigits 10 n, Text.isSpace c = false := fun _ _ hc =>
    Text.isSpace_eq_false_of_isDigit (Value.isDigit_of_mem_toDigits hc)
  rw [Value.digits]
  split
  · exact ⟨Nat.toDigits_ne_nil, hdigit _⟩
  · refine ⟨List.cons_ne_nil _ _, fun c hc => ?_⟩
    rcases List.mem_cons.mp hc with rfl | hc
    · decide
    · exact hdigit _ c hc

theorem isWord_operator {t : Token} (h : t ∈ operators) : Text.IsWord t.chars := by
  revert t
  decide

/-- **A token is written as one word**, if it is no name or a safe one. -/
theorem isWord_chars {t : Token} (h : ∀ x, t = var x → IsSafe x) : Text.IsWord t.chars := by
  cases t with
  | num v => exact isWord_digits v
  | var x => exact (h x rfl).1
  | _ => exact isWord_operator (mem_operators_iff.mpr (by simp [arity]))

end Token

/-- The names among the tokens of an expression are the names in it. -/
theorem var_mem_postfixTokens_iff {e : Expr} {x : String} :
    .var x ∈ e.postfixTokens ↔ x ∈ e.names := by
  induction e with
  | num v => simp [Expr.postfixTokens, Expr.names]
  | var y => simp [Expr.postfixTokens, Expr.names]
  | neg e ih => simp [Expr.postfixTokens, Expr.names, ih]
  | update op y => simp [Expr.postfixTokens, Expr.names]
  | bin op l r ihl ihr => simp [Expr.postfixTokens, Expr.names, ihl, ihr]
  | assign op y e ih => simp [Expr.postfixTokens, Expr.names, ih]

/-- **The tokens of what is written are the tokens that were written**, if all names in the
expression are safe. -/
theorem tokens_postfixText {e : Expr} (h : ∀ x ∈ e.names, IsSafe x) :
    tokens e.postfixText = e.postfixTokens := by
  have hsafe : ∀ t ∈ e.postfixTokens, ∀ x, t = .var x → IsSafe x := by
    rintro t ht x rfl
    exact h x (var_mem_postfixTokens_iff.mp ht)
  rw [tokens, Expr.postfixText, String.toList_ofList, Text.words_unwords]
  · rw [List.map_map]
    conv_rhs => rw [← List.map_id e.postfixTokens]
    exact List.map_congr_left fun t ht => Token.ofWord_chars fun x hx => (hsafe t ht x hx).2
  · intro w hw
    obtain ⟨t, ht, rfl⟩ := List.mem_map.mp hw
    exact Token.isWord_chars (hsafe t ht)

end Postfix

end Reckoner
