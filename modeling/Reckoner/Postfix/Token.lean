import Reckoner.Expr
import Reckoner.Text.Words

/-!
# Postfix notation

An expression is written in postfix notation as a list of tokens, operands before
operators, and the tokens as words with single spaces between them. Negation has
a sign of its own, `~`, so that the minus sign is always a difference.

`Reckoner.Postfix.Token.ofWord` reads any word at all: a word that is no operator
is a number if it can be read as a value, and the name of a variable otherwise.
Reading a token's own word gives the token back unless it is a name that reads as
something else (`Reckoner.Postfix.Token.ofWord_chars`).
-/

namespace Reckoner

namespace Postfix

/-! ### Tokens and their words -/

/-- **The tokens of postfix notation.** -/
inductive Token
  | num (value : Value)
  | var (name : String)
  | neg
  | update (op : UpdateOp)
  | bin (op : BinOp)
  | assign (op : AssignOp)
deriving DecidableEq

namespace Token

/-- The word that writes a token. -/
def chars : Token → List Char
  | num v => v.digits
  | var x => x.toList
  | neg => ['~']
  | update op => op.chars
  | bin op => [op.sign]
  | assign op => op.chars

/-- The word that writes a token, as a string. -/
def text (t : Token) : String := .ofList t.chars

/-- The number of operands a token takes. -/
def arity : Token → Nat
  | num _ => 0
  | var _ => 0
  | neg => 1
  | update _ => 1
  | bin _ => 2
  | assign _ => 2

/-- The tokens that are operators. -/
def operators : List Token :=
  [neg, update (.pre .up), update (.pre .down), update (.post .up), update (.post .down),
    bin .add, bin .sub, bin .mul, bin .div, bin .mod,
    assign .plain, assign (.compound .add), assign (.compound .sub), assign (.compound .mul),
    assign (.compound .div), assign (.compound .mod)]

/-- **Reading a word**: an operator, else a number, else a name. -/
def ofWord (w : List Char) : Token :=
  match operators.find? (·.chars == w) with
  | some t => t
  | none =>
    match Value.ofDigits? w with
    | some v => num v
    | none => var (.ofList w)

/-- A name that reads as itself: not the word of an operator, and no number. -/
def IsPlain (x : String) : Prop :=
  (∀ t ∈ operators, t.chars ≠ x.toList) ∧ Value.ofDigits? x.toList = none

theorem mem_operators_iff {t : Token} : t ∈ operators ↔ 0 < t.arity := by
  rcases t with _ | _ | _ | ⟨s | s⟩ | op | ⟨_ | op⟩ <;>
    first
    | cases s <;> decide
    | cases op <;> decide
    | simp [operators, arity]

/-- No operator is written like a number. -/
theorem ofDigits?_operator {t : Token} (h : t ∈ operators) :
    Value.ofDigits? t.chars = none := by
  have hall : operators.all (fun u => (Value.ofDigits? u.chars).isNone) = true := by rfl
  simpa using List.all_eq_true.1 hall t h

/-- Operators are written differently. -/
theorem find?_operators {t : Token} (h : t ∈ operators) :
    operators.find? (·.chars == t.chars) = some t := by
  have hall : operators.all (fun u => operators.find? (·.chars == u.chars) == some u) = true := by
    rfl
  simpa using List.all_eq_true.1 hall t h

theorem ofWord_operator {t : Token} (h : t ∈ operators) : ofWord t.chars = t := by
  rw [ofWord, find?_operators h]

/-- A word that is not an operator's is read as a number or as a name. -/
theorem ofWord_of_ne {w : List Char} (h : ∀ t ∈ operators, t.chars ≠ w) :
    ofWord w = match Value.ofDigits? w with
      | some v => num v
      | none => var (.ofList w) := by
  have hf : operators.find? (·.chars == w) = none :=
    List.find?_eq_none.2 fun t ht => by simpa using h t ht
  rw [ofWord, hf]

/-- **Reading undoes writing**, but for names that read as something else. -/
theorem ofWord_chars {t : Token} (h : ∀ x, t = var x → IsPlain x) : ofWord t.chars = t := by
  by_cases ho : t ∈ operators
  · exact ofWord_operator ho
  · rcases t with v | x | _ | op | op | op
    · have hv : ∀ t ∈ operators, t.chars ≠ (num v).chars := fun t ht he => by
        have hn := ofDigits?_operator ht
        rw [he, chars, Value.ofDigits?_digits] at hn
        cases hn
      rw [ofWord_of_ne hv, chars, Value.ofDigits?_digits]
    · obtain ⟨hne, hnum⟩ := h x rfl
      rw [chars, ofWord_of_ne hne, hnum, String.ofList_toList]
    all_goals exact absurd (mem_operators_iff.2 (by simp [arity])) ho

end Token

end Postfix

/-! ### Expressions in postfix notation -/

namespace Expr

/-- **The tokens of an expression**: the target of an update or an assignment is
written before anything else, then the operands in order, then the operator. -/
def postfixTokens : Expr → List Postfix.Token
  | num v => [.num v]
  | var x => [.var x]
  | neg e => e.postfixTokens ++ [.neg]
  | update op x => [.var x, .update op]
  | bin op l r => l.postfixTokens ++ r.postfixTokens ++ [.bin op]
  | assign op x e => .var x :: e.postfixTokens ++ [.assign op]

/-- An expression in postfix notation. -/
def postfixText (e : Expr) : String :=
  .ofList (Text.unwords (e.postfixTokens.map (·.chars)))

end Expr

/-- What is reported when something other than a variable is aimed at. -/
def NotAVariable.message (err : NotAVariable) : String :=
  "Variable expected, found: " ++ err.found.postfixText

end Reckoner
