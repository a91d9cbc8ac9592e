import Mathlib.Data.List.Forall2
import Mathlib.Tactic.IntervalCases
import Reckoner.CommandLine.Dialogue

/-!
# What is said of a result

A result is shown by a text: a value by its decimal form, and a failure by what is wrong, in words.
What the texts are is said here by relations (`Reckoner.CommandLine.Shows`), with the words of every
message, the signs of all operators and the ten digits written out, and without the functions that
make the texts when the program runs. For every result there is exactly one text, and it is the one
that is reported (`Reckoner.CommandLine.shows_iff`).

An expression that should have been a variable is shown in postfix notation, and so are numbers and
names in any message as they are in a line.
-/

namespace Reckoner

/-! ### Numbers -/

/-- **The numerals**: each of the ten digits, and a digit behind a numeral that is not zero. -/
inductive Numeral : Nat → List Char → Prop
  /-- A digit. -/
  | digit {d : Nat} {c : Char} (hd : "0123456789".toList[d]? = some c) : Numeral d [c]
  /-- A digit behind a numeral. -/
  | snoc {n d : Nat} {cs : List Char} {c : Char} (hpos : 0 < n) (hn : Numeral n cs)
      (hd : "0123456789".toList[d]? = some c) : Numeral (10 * n + d) (cs ++ [c])

theorem lt_ten_of_digit {d : Nat} {c : Char} (h : "0123456789".toList[d]? = some c) : d < 10 :=
  (List.getElem?_eq_some_iff.mp h).1

theorem getElem?_digits {d : Nat} (h : d < 10) :
    "0123456789".toList[d]? = some (Nat.digitChar d) := by
  interval_cases d <;> rfl

theorem eq_digitChar {d : Nat} {c : Char} (h : "0123456789".toList[d]? = some c) :
    c = Nat.digitChar d :=
  Option.some.inj (h.symm.trans (getElem?_digits (lt_ten_of_digit h)))

/-- **A number has one numeral.** -/
theorem numeral_iff {n : Nat} {cs : List Char} : Numeral n cs ↔ cs = Nat.toDigits 10 n := by
  constructor
  · intro h
    induction h with
    | digit hd => rw [eq_digitChar hd, Nat.toDigits_of_lt_base (lt_ten_of_digit hd)]
    | snoc hpos hn hd ih =>
      rw [ih, eq_digitChar hd, ← Nat.toDigits_of_lt_base (lt_ten_of_digit hd),
        Nat.toDigits_append_toDigits (by decide) hpos (lt_ten_of_digit hd)]
  · rintro rfl
    induction n using Nat.strongRecOn with
    | ind n ih =>
      have hlast := getElem?_digits (Nat.mod_lt n (by decide : 0 < 10))
      rcases Nat.lt_or_ge n 10 with hlt | hge
      · rw [Nat.toDigits_of_lt_base hlt]
        exact .digit (getElem?_digits hlt)
      · have hfront : Numeral (n / 10) (Nat.toDigits 10 (n / 10)) := ih _ (by omega)
        have hsnoc := hfront.snoc (by omega) hlast
        rwa [Nat.div_add_mod, ← Nat.toDigits_of_base_le (by decide) hge] at hsnoc

/-- **The decimal form of an integer**: a numeral, behind a minus sign for a negative one. -/
inductive Decimal : Int → String → Prop
  /-- Zero or a positive integer. -/
  | ofNat {n : Nat} {cs : List Char} (h : Numeral n cs) : Decimal n (String.ofList cs)
  /-- A negative integer. -/
  | neg {n : Nat} {cs : List Char} (hpos : 0 < n) (h : Numeral n cs) :
      Decimal (-n) ("-" ++ String.ofList cs)

theorem decimal_ofNat_iff {n : Nat} {t : String} : Decimal n t ↔ t = toString n := by
  constructor
  · intro h
    generalize hi : (n : Int) = i at h
    cases h with
    | ofNat h =>
      obtain rfl := Int.ofNat.inj hi
      rw [numeral_iff.mp h]
      rfl
    | neg hpos h => omega
  · rintro rfl
    exact .ofNat (numeral_iff.mpr rfl)

theorem decimal_negSucc_iff {n : Nat} {t : String} :
    Decimal (.negSucc n) t ↔ t = "-" ++ toString (n + 1) := by
  constructor
  · intro h
    generalize hi : Int.negSucc n = i at h
    cases h with
    | ofNat h => cases hi
    | @neg m _ hpos h =>
      obtain rfl : m = n + 1 := by omega
      rw [numeral_iff.mp h]
      rfl
  · rintro rfl
    exact .neg (Nat.succ_pos n) (numeral_iff.mpr rfl)

/-- **A value has one decimal form**, which is its text. -/
theorem decimal_iff {v : Value} {t : String} : Decimal v.toInt t ↔ t = v.text := by
  obtain ⟨i, hi⟩ := v
  cases i with
  | ofNat n => exact decimal_ofNat_iff
  | negSucc n =>
    refine decimal_negSucc_iff.trans ?_
    have htext : (Value.mk (.negSucc n) hi).text = "-" ++ toString (n + 1) :=
      String.toList_inj.mp (by simp [Value.text, Value.digits, Nat.repr])
    rw [htext]

/-! ### Operators -/

/-- The word for a binary operator. -/
def BinOp.word : BinOp → String
  | add => "+"
  | sub => "-"
  | mul => "*"
  | div => "/"
  | mod => "%"

/-- The word for an update, which has its sign twice if it steps first, and three times if not. -/
def UpdateOp.word : UpdateOp → String
  | pre .up => "++"
  | pre .down => "--"
  | post .up => "+++"
  | post .down => "---"

/-- The word for an assignment. -/
def AssignOp.word : AssignOp → String
  | plain => "="
  | compound .add => "+="
  | compound .sub => "-="
  | compound .mul => "*="
  | compound .div => "/="
  | compound .mod => "%="

/-- The word for an operator of a line. -/
def Operator.word : Operator → String
  | binary op => op.word
  | step .up => "++"
  | step .down => "--"
  | assign op => op.word

theorem BinOp.word_eq (op : BinOp) : op.word = String.ofList [op.sign] := by cases op <;> rfl

theorem UpdateOp.word_eq (op : UpdateOp) : op.word = op.text := by
  rcases op with s | s <;> cases s <;> rfl

theorem AssignOp.word_eq (op : AssignOp) : op.word = String.ofList op.chars := by
  rcases op with _ | op
  · rfl
  · cases op <;> rfl

theorem Operator.word_eq (op : Operator) : op.word = op.text := by
  rcases op with op | s | op
  · exact op.word_eq
  · cases s <;> rfl
  · exact op.word_eq

/-! ### Expressions -/

/-- **An expression in postfix notation**: operands in front of operators, with a blank between two
words. -/
inductive Expr.Reads : Expr → String → Prop
  | num {v : Value} {t : String} (h : Decimal v.toInt t) : Reads (.num v) t
  | var (x : String) : Reads (.var x) x
  | neg {e : Expr} {t : String} (h : Reads e t) : Reads (.neg e) (t ++ " ~")
  | update (op : UpdateOp) (x : String) : Reads (.update op x) (x ++ " " ++ op.word)
  | bin {op : BinOp} {l r : Expr} {t u : String} (hl : Reads l t) (hr : Reads r u) :
      Reads (.bin op l r) (t ++ " " ++ u ++ " " ++ op.word)
  | assign {op : AssignOp} {x : String} {e : Expr} {t : String} (h : Reads e t) :
      Reads (.assign op x e) (x ++ " " ++ t ++ " " ++ op.word)

namespace Text

/-- Words in front of others. -/
theorem unwords_append {ws vs : List (List Char)} (hws : ws ≠ []) (hvs : vs ≠ []) :
    unwords (ws ++ vs) = unwords ws ++ ' ' :: unwords vs := by
  induction ws with
  | nil => exact absurd rfl hws
  | cons w ws ih =>
    cases ws with
    | nil =>
      obtain ⟨v, vs, rfl⟩ := List.exists_cons_of_ne_nil hvs
      simp [unwords, List.intercalate_cons_cons]
    | cons w' ws =>
      have hrest := ih (List.cons_ne_nil _ _)
      rw [unwords, unwords, List.cons_append, List.cons_append, List.intercalate_cons_cons,
        List.intercalate_cons_cons, List.append_assoc (w ++ [' '])]
      exact congrArg (w ++ [' '] ++ ·) hrest

theorem unwords_singleton (w : List Char) : unwords [w] = w := by
  simp [unwords]

end Text

namespace Expr

theorem postfixTokens_ne_nil (e : Expr) : e.postfixTokens ≠ [] := by
  cases e <;> simp [postfixTokens]

/-- The text of some tokens. -/
def tokensText (ts : List Postfix.Token) : String := .ofList (Text.unwords (ts.map (·.chars)))

theorem tokensText_append {ts us : List Postfix.Token} (hts : ts ≠ []) (hus : us ≠ []) :
    tokensText (ts ++ us) = tokensText ts ++ " " ++ tokensText us := by
  refine String.toList_inj.mp ?_
  simp only [tokensText, List.map_append, String.toList_ofList, String.toList_append,
    Text.unwords_append (mt List.map_eq_nil_iff.mp hts) (mt List.map_eq_nil_iff.mp hus)]
  simp

theorem tokensText_singleton (t : Postfix.Token) : tokensText [t] = t.text := by
  rw [tokensText, List.map_singleton, Text.unwords_singleton, Postfix.Token.text]

theorem postfixText_num (v : Value) : (num v).postfixText = v.text := tokensText_singleton _

theorem postfixText_var (x : String) : (var x).postfixText = x :=
  (tokensText_singleton _).trans String.ofList_toList

theorem postfixText_neg (e : Expr) : (neg e).postfixText = e.postfixText ++ " ~" := by
  refine (tokensText_append e.postfixTokens_ne_nil (List.cons_ne_nil _ _)).trans ?_
  rw [tokensText_singleton, String.append_assoc]
  rfl

theorem postfixText_update (op : UpdateOp) (x : String) :
    (update op x).postfixText = x ++ " " ++ op.word := by
  refine (tokensText_append (List.cons_ne_nil (.var x) []) (List.cons_ne_nil _ _)).trans ?_
  rw [tokensText_singleton, tokensText_singleton, op.word_eq, Postfix.Token.text,
    Postfix.Token.chars, String.ofList_toList]
  rfl

theorem postfixText_bin (op : BinOp) (l r : Expr) :
    (bin op l r).postfixText = l.postfixText ++ " " ++ r.postfixText ++ " " ++ op.word := by
  refine (tokensText_append (List.append_ne_nil_of_left_ne_nil l.postfixTokens_ne_nil _)
    (List.cons_ne_nil _ _)).trans ?_
  rw [tokensText_append l.postfixTokens_ne_nil r.postfixTokens_ne_nil, tokensText_singleton,
    op.word_eq]
  rfl

theorem postfixText_assign (op : AssignOp) (x : String) (e : Expr) :
    (assign op x e).postfixText = x ++ " " ++ e.postfixText ++ " " ++ op.word := by
  have hfront : tokensText (.var x :: e.postfixTokens) = x ++ " " ++ e.postfixText := by
    refine (tokensText_append (List.cons_ne_nil (.var x) []) e.postfixTokens_ne_nil).trans ?_
    rw [tokensText_singleton, Postfix.Token.text, Postfix.Token.chars, String.ofList_toList]
    rfl
  refine (tokensText_append (List.cons_ne_nil _ _) (List.cons_ne_nil _ _)).trans ?_
  rw [hfront, tokensText_singleton, op.word_eq]
  rfl

/-- **An expression has one text in postfix notation.** -/
theorem reads_iff {e : Expr} {t : String} : e.Reads t ↔ t = e.postfixText := by
  constructor
  · intro h
    induction h with
    | num h => rw [postfixText_num, decimal_iff.mp h]
    | var x => rw [postfixText_var]
    | neg h ih => rw [postfixText_neg, ih]
    | update op x => rw [postfixText_update]
    | bin hl hr ihl ihr => rw [postfixText_bin, ihl, ihr]
    | assign h ih => rw [postfixText_assign, ih]
  · rintro rfl
    induction e with
    | num v =>
      rw [postfixText_num]
      exact .num (decimal_iff.mpr rfl)
    | var x =>
      rw [postfixText_var]
      exact .var x
    | neg e ih =>
      rw [postfixText_neg]
      exact ih.neg
    | update op x =>
      rw [postfixText_update]
      exact .update op x
    | bin op l r ihl ihr =>
      rw [postfixText_bin]
      exact ihl.bin ihr
    | assign op x e ih =>
      rw [postfixText_assign]
      exact ih.assign

end Expr

/-! ### What is wrong with a line -/

/-- **A token in a message.** -/
inductive Token.Reads : Token → String → Prop
  | number {v : Value} {t : String} (h : Decimal v.toInt t) : Reads (.number v) ("number " ++ t)
  | identifier (x : String) : Reads (.identifier x) ("identifier '" ++ x ++ "'")
  | operator (op : Operator) : Reads (.operator op) ("'" ++ op.word ++ "'")
  | openParen : Reads .openParen "'('"
  | closeParen : Reads .closeParen "')'"
  | finish : Reads .finish "end of input"
  | unrecognized (rest : String) :
      Reads (.unrecognized rest) ("unrecognized input '" ++ rest ++ "'")

/-- **A fault in a message.** -/
inductive Fault.Reads : Fault → String → Prop
  | operandExpected {found : Token} {t : String} (h : found.Reads t) :
      Reads (.operandExpected found) ("expected a number, identifier or '(', found " ++ t)
  | closingExpected : Reads .closingExpected "expected ')'"
  | trailing {found : Token} {t : String} (h : found.Reads t) :
      Reads (.trailing found) ("unexpected " ++ t ++ " after expression")
  | parenthesesTooDeep {limit : Nat} {t : String} (h : Decimal limit t) :
      Reads (.parenthesesTooDeep limit) ("parentheses nested deeper than " ++ t)
  | expressionTooDeep {limit : Nat} {t : String} (h : Decimal limit t) :
      Reads (.expressionTooDeep limit) ("expression nested deeper than " ++ t)

/-- **What is said of something that is not a variable.** -/
inductive NotAVariable.Reads : NotAVariable → String → Prop
  | found {e : Expr} {t : String} (h : e.Reads t) : Reads ⟨e⟩ ("Variable expected, found: " ++ t)

/-- **A token of postfix notation.** -/
inductive Postfix.Token.Reads : Postfix.Token → String → Prop
  | num {v : Value} {t : String} (h : Decimal v.toInt t) : Reads (.num v) t
  | var (x : String) : Reads (.var x) x
  | neg : Reads .neg "~"
  | update (op : UpdateOp) : Reads (.update op) op.word
  | bin (op : BinOp) : Reads (.bin op) op.word
  | assign (op : AssignOp) : Reads (.assign op) op.word

/-- **What is said of a text that is not in postfix notation.** -/
inductive Postfix.BuildError.Reads : Postfix.BuildError → String → Prop
  | empty : Reads .empty "Empty postfix expression"
  | missingOperand {operator : Postfix.Token} {index : Nat} {t u : String} (h : operator.Reads t)
      (hindex : Decimal index u) : Reads (.missingOperand operator index)
        ("Operator '" ++ t ++ "' at token " ++ u ++ " is missing an operand")
  | unbalanced {remaining : Nat} {t : String} (h : Decimal remaining t) :
      Reads (.unbalanced remaining) ("Postfix expression left " ++ t ++ " operands on the stack")
  | tooDeep {limit index : Nat} {t u : String} (hlimit : Decimal limit t)
      (hindex : Decimal index u) : Reads (.tooDeep limit index)
        ("Operator at token " ++ u ++ " nests the expression deeper than " ++ t)
  | notAVariable {err : NotAVariable} {t : String} (h : err.Reads t) : Reads (.notAVariable err) t

/-- **An operation in a message.** -/
inductive Operation.Reads : Operation → String → Prop
  | binary {op : BinOp} {l r : Value} {t u : String} (hl : Decimal l.toInt t)
      (hr : Decimal r.toInt u) : Reads (.binary op l r) (t ++ " " ++ op.word ++ " " ++ u)
  | negation {v : Value} {t : String} (h : Decimal v.toInt t) :
      Reads (.negation v) ("-(" ++ t ++ ")")
  | update (op : UpdateOp) (x : String) : Reads (.update op x) (x ++ " " ++ op.word)

/-- **What is said of an expression that has no value.** -/
inductive EvalError.Reads : EvalError → String → Prop
  | undefinedVariable (x : String) : Reads (.undefinedVariable x) ("Undefined variable: " ++ x)
  | divisionByZero {o : Operation} {t : String} (h : o.Reads t) :
      Reads (.divisionByZero o) ("Division by zero in operation: " ++ t)
  | overflow {o : Operation} {t : String} (h : o.Reads t) :
      Reads (.overflow o) ("Integer overflow in operation: " ++ t)

theorem Token.reads_iff {x : Token} {t : String} : x.Reads t ↔ t = x.describe := by
  constructor
  · rintro (h | x | op | _ | _ | _ | rest)
    · rw [decimal_iff.mp h]
      rfl
    · rfl
    · rw [op.word_eq]
      rfl
    all_goals rfl
  · rintro rfl
    cases x with
    | number v => exact .number (decimal_iff.mpr rfl)
    | identifier x => exact .identifier x
    | operator op =>
      have hdescribe : describe (.operator op) = "'" ++ op.word ++ "'" := by
        rw [op.word_eq]
        rfl
      rw [hdescribe]
      exact .operator op
    | openParen => exact .openParen
    | closeParen => exact .closeParen
    | finish => exact .finish
    | unrecognized rest => exact .unrecognized rest

/-- A fault has one message. -/
theorem Fault.reads_iff {f : Fault} {t : String} : f.Reads t ↔ t = f.message := by
  constructor
  · rintro (h | _ | h | h | h)
    · rw [Token.reads_iff.mp h]
      rfl
    · rfl
    · rw [Token.reads_iff.mp h]
      rfl
    · rw [decimal_ofNat_iff.mp h]
      rfl
    · rw [decimal_ofNat_iff.mp h]
      rfl
  · rintro rfl
    cases f with
    | operandExpected found => exact .operandExpected (Token.reads_iff.mpr rfl)
    | closingExpected => exact .closingExpected
    | trailing found => exact .trailing (Token.reads_iff.mpr rfl)
    | parenthesesTooDeep limit => exact .parenthesesTooDeep (decimal_ofNat_iff.mpr rfl)
    | expressionTooDeep limit => exact .expressionTooDeep (decimal_ofNat_iff.mpr rfl)

theorem NotAVariable.reads_iff {err : NotAVariable} {t : String} :
    err.Reads t ↔ t = err.message := by
  constructor
  · rintro ⟨h⟩
    rw [Expr.reads_iff.mp h]
    rfl
  · rintro rfl
    exact .found (Expr.reads_iff.mpr rfl)

theorem Postfix.Token.reads_iff {x : Postfix.Token} {t : String} : x.Reads t ↔ t = x.text := by
  constructor
  · rintro (h | x | _ | op | op | op)
    · exact decimal_iff.mp h
    · exact String.ofList_toList.symm
    · rfl
    · exact op.word_eq
    · exact op.word_eq
    · exact op.word_eq
  · rintro rfl
    cases x with
    | num v => exact .num (decimal_iff.mpr rfl)
    | var x =>
      rw [text, chars, String.ofList_toList]
      exact .var x
    | neg => exact .neg
    | update op =>
      have hword : (Postfix.Token.update op).text = op.word := op.word_eq.symm
      rw [hword]
      exact .update op
    | bin op =>
      have hword : (Postfix.Token.bin op).text = op.word := op.word_eq.symm
      rw [hword]
      exact .bin op
    | assign op =>
      have hword : (Postfix.Token.assign op).text = op.word := op.word_eq.symm
      rw [hword]
      exact .assign op

/-- A failure of reading postfix notation has one message. -/
theorem Postfix.BuildError.reads_iff {err : Postfix.BuildError} {t : String} :
    err.Reads t ↔ t = err.message := by
  constructor
  · rintro (_ | ⟨h, hindex⟩ | h | ⟨hlimit, hindex⟩ | h)
    · rfl
    · rw [Postfix.Token.reads_iff.mp h, decimal_ofNat_iff.mp hindex]
      rfl
    · rw [decimal_ofNat_iff.mp h]
      rfl
    · rw [decimal_ofNat_iff.mp hlimit, decimal_ofNat_iff.mp hindex]
      rfl
    · exact NotAVariable.reads_iff.mp h
  · rintro rfl
    cases err with
    | empty => exact .empty
    | missingOperand operator index =>
      exact .missingOperand (Postfix.Token.reads_iff.mpr rfl) (decimal_ofNat_iff.mpr rfl)
    | unbalanced remaining => exact .unbalanced (decimal_ofNat_iff.mpr rfl)
    | tooDeep limit index => exact .tooDeep (decimal_ofNat_iff.mpr rfl) (decimal_ofNat_iff.mpr rfl)
    | notAVariable err => exact .notAVariable (NotAVariable.reads_iff.mpr rfl)

/-- How an operation is written, with its sign between blanks. -/
theorem Operation.text_binary (op : BinOp) (l r : Value) :
    (binary op l r).text = l.text ++ " " ++ op.word ++ " " ++ r.text := by
  refine String.toList_inj.mp ?_
  simp [text, Value.text, op.word_eq]

theorem Operation.reads_iff {o : Operation} {t : String} : o.Reads t ↔ t = o.text := by
  constructor
  · rintro (⟨hl, hr⟩ | h | ⟨op, x⟩)
    · rw [decimal_iff.mp hl, decimal_iff.mp hr, text_binary]
    · rw [decimal_iff.mp h]
      rfl
    · rw [op.word_eq]
      rfl
  · rintro rfl
    cases o with
    | binary op l r =>
      rw [text_binary]
      exact .binary (decimal_iff.mpr rfl) (decimal_iff.mpr rfl)
    | negation v => exact .negation (decimal_iff.mpr rfl)
    | update op x =>
      rw [text, ← op.word_eq]
      exact .update op x

/-- A failure of an evaluation has one message. -/
theorem EvalError.reads_iff {err : EvalError} {t : String} : err.Reads t ↔ t = err.message := by
  constructor
  · rintro (x | h | h)
    · rfl
    · rw [Operation.reads_iff.mp h]
      rfl
    · rw [Operation.reads_iff.mp h]
      rfl
  · rintro rfl
    cases err with
    | undefinedVariable x => exact .undefinedVariable x
    | divisionByZero o => exact .divisionByZero (Operation.reads_iff.mpr rfl)
    | overflow o => exact .overflow (Operation.reads_iff.mpr rfl)

/-! ### What is shown of a result -/

namespace CommandLine

/-- **What is shown of a result**: a value in decimal digits, a failure of the grammar with its
place in the line and what is wrong there, and any other failure with what is wrong. -/
inductive Shows : Except LineError Value → String → Prop
  /-- A value. -/
  | value {v : Value} {t : String} (h : Decimal v.toInt t) : Shows (.ok v) t
  /-- A failure that has a place. -/
  | place {f : Fault} {p : Nat} {t u : String} (hp : Decimal p t) (hf : f.Reads u) :
      Shows (.error (.parse (.malformed f p))) ("Error at position " ++ t ++ ": " ++ u)
  /-- Something other than a variable is updated or assigned to. -/
  | target {err : NotAVariable} {t : String} (h : err.Reads t) :
      Shows (.error (.parse (.notAVariable err))) ("Error: " ++ t)
  /-- A text that is not in postfix notation. -/
  | build {err : Postfix.BuildError} {t : String} (h : err.Reads t) :
      Shows (.error (.build err)) ("Error: " ++ t)
  /-- An expression that has no value. -/
  | eval {err : EvalError} {t : String} (h : err.Reads t) :
      Shows (.error (.eval err)) ("Error: " ++ t)

/-- **What is shown of a result is its report**, and nothing else is. -/
theorem shows_iff {x : Except LineError Value} {t : String} : Shows x t ↔ t = report x := by
  constructor
  · rintro (h | ⟨hp, hf⟩ | h | h | h)
    · exact decimal_iff.mp h
    · rw [decimal_ofNat_iff.mp hp, Fault.reads_iff.mp hf]
      rfl
    · rw [NotAVariable.reads_iff.mp h]
      rfl
    · rw [Postfix.BuildError.reads_iff.mp h]
      rfl
    · rw [EvalError.reads_iff.mp h]
      rfl
  · rintro rfl
    match x with
    | .ok v => exact .value (decimal_iff.mpr rfl)
    | .error (.parse (.malformed f p)) =>
      exact .place (decimal_ofNat_iff.mpr rfl) (Fault.reads_iff.mpr rfl)
    | .error (.parse (.notAVariable err)) => exact .target (NotAVariable.reads_iff.mpr rfl)
    | .error (.build err) => exact .build (Postfix.BuildError.reads_iff.mpr rfl)
    | .error (.eval err) => exact .eval (EvalError.reads_iff.mpr rfl)

/-- What is shown of results, one by one. -/
theorem forall₂_shows_iff {xs : List (Except LineError Value)} {ts : List String} :
    List.Forall₂ Shows xs ts ↔ ts = xs.map report := by
  constructor
  · intro h
    induction h with
    | nil => rfl
    | cons h hrest ih => rw [List.map_cons, shows_iff.mp h, ih]
  · rintro rfl
    exact List.forall₂_map_right_iff.mpr (List.forall₂_same.mpr fun _ _ => shows_iff.mpr rfl)

end CommandLine

end Reckoner
