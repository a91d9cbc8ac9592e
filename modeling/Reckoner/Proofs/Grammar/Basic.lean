import Mathlib.Data.Set.Subsingleton
import Reckoner.Parse.Line

/-!
# The grammar of lines

The language of lines, said without a parser. A derivation relates a list of tokens to
the expression it stands for, so the grammar and its attributes are one relation,
`Reckoner.Grammar.Derives`:

| nonterminal | sentence |
|---|---|
| expression | a sum, or an expression, an assignment operator and a sum |
| sum | a product, or a sum, `+` or `-`, and a product |
| product | a factor, or a product, `*`, `/` or `%`, and a factor |
| factor | any number of signs, an atom, any number of steps |
| atom | a number, a name, or an expression in parentheses |

The first three are sequences of operands with operators between them; written with the
sequence on the left, the rule shows how they are folded. An attribute of every
derivation is the number of parentheses open around it, which is limited, and every
operator that is derived has an expression of limited height.

The relation does not say how to find a derivation. That there is one at most is a
theorem about it.
-/

namespace Reckoner

namespace Grammar

variable (opts : ParseOptions)

/-! ### Signs and steps -/

/-- **The tokens that may stand in front of an atom.** -/
def IsSign (t : Token) : Prop :=
  t = .operator (.binary .add) ∨ t = .operator (.binary .sub) ∨ ∃ s, t = .operator (.step s)

/-- **An atom under its signs**, given the last of them: the others do nothing. A step
in front of an atom updates the variable that it must be. -/
inductive Signed : Option Token → Expr → Expr → Prop
  /-- Without a sign the atom stays as it is. -/
  | bare (e : Expr) : Signed none e e
  /-- A plus leaves it as it is. -/
  | plus (e : Expr) : Signed (some (.operator (.binary .add))) e e
  /-- A minus negates it. -/
  | minus {e : Expr} (h : (Expr.neg e).height ≤ opts.maxDepth) :
      Signed (some (.operator (.binary .sub))) e (.neg e)
  /-- A step updates it first. -/
  | step {s : Step} {x : String} (h : (Expr.update (.pre s) x).height ≤ opts.maxDepth) :
      Signed (some (.operator (.step s))) (.var x) (.update (.pre s) x)

/-- **A step behind an operand**, which must be a variable. -/
inductive Stepped (s : Step) : Expr → Expr → Prop
  /-- It may be discarded. -/
  | discarded (x : String) (h : opts.trailing = .discard) : Stepped s (.var x) (.var x)
  /-- It may be applied, and updates the variable after it has been read. -/
  | applied {x : String} (h : opts.trailing = .apply)
      (hh : (Expr.update (.post s) x).height ≤ opts.maxDepth) :
      Stepped s (.var x) (.update (.post s) x)

/-- **An operand with the steps behind it**, one after the other. -/
inductive Trailed : Expr → List Token → Expr → Prop
  /-- There may be none. -/
  | nil (e : Expr) : Trailed e [] e
  /-- Each is taken of what the steps before it have made of the operand. -/
  | cons {s : Step} {a b c : Expr} {ts : List Token} (hs : Stepped opts s a b)
      (h : Trailed b ts c) : Trailed a (.operator (.step s) :: ts) c

/-! ### Derivations -/

/-- **The nonterminals.** -/
inductive Nonterminal
  | expression
  | sum
  | product
  | factor
  | atom

/-- **Derivations.** `Derives opts n d ts e` says that inside of `d` parentheses the
nonterminal `n` yields the tokens `ts`, which stand for the expression `e`. -/
inductive Derives : Nonterminal → Nat → List Token → Expr → Prop
  /-- A number is an atom. -/
  | number (d : Nat) (v : Value) : Derives .atom d [.number v] (.num v)
  /-- So is a name. -/
  | identifier (d : Nat) (x : String) : Derives .atom d [.identifier x] (.var x)
  /-- So is an expression in parentheses, if one more may be opened. -/
  | parens {d : Nat} {ts : List Token} {e : Expr} (hd : d < opts.maxDepth)
      (h : Derives .expression (d + 1) ts e) :
      Derives .atom d (.openParen :: (ts ++ [.closeParen])) e
  /-- A factor is an atom with signs before and steps behind it. -/
  | factor {d : Nat} {signs ts steps : List Token} {a b c : Expr}
      (hsigns : ∀ t ∈ signs, IsSign t) (h : Derives .atom d ts a)
      (hs : Signed opts signs.getLast? a b) (ht : Trailed opts b steps c) :
      Derives .factor d (signs ++ (ts ++ steps)) c
  /-- A factor is a product. -/
  | ofFactor {d : Nat} {ts : List Token} {e : Expr} (h : Derives .factor d ts e) :
      Derives .product d ts e
  /-- A product may be multiplied or divided by a factor. -/
  | product {d : Nat} {ts us : List Token} {op : BinOp} {l r : Expr}
      (hop : op = .mul ∨ op = .div ∨ op = .mod) (hl : Derives .product d ts l)
      (hr : Derives .factor d us r) (hh : (Expr.bin op l r).height ≤ opts.maxDepth) :
      Derives .product d (ts ++ .operator (.binary op) :: us) (.bin op l r)
  /-- A product is a sum. -/
  | ofProduct {d : Nat} {ts : List Token} {e : Expr} (h : Derives .product d ts e) :
      Derives .sum d ts e
  /-- A product may be added to a sum or subtracted from it. -/
  | sum {d : Nat} {ts us : List Token} {op : BinOp} {l r : Expr}
      (hop : op = .add ∨ op = .sub) (hl : Derives .sum d ts l)
      (hr : Derives .product d us r) (hh : (Expr.bin op l r).height ≤ opts.maxDepth) :
      Derives .sum d (ts ++ .operator (.binary op) :: us) (.bin op l r)
  /-- A sum is an expression. -/
  | ofSum {d : Nat} {ts : List Token} {e : Expr} (h : Derives .sum d ts e) :
      Derives .expression d ts e
  /-- A sum may be assigned to an expression that is a variable. -/
  | assign {d : Nat} {ts us : List Token} {op : AssignOp} {x : String} {r : Expr}
      (hl : Derives .expression d ts (.var x)) (hr : Derives .sum d us r)
      (hh : (Expr.assign op x r).height ≤ opts.maxDepth) :
      Derives .expression d (ts ++ .operator (.assign op) :: us) (.assign op x r)

/-- **The sentences of the grammar**, each with the expression it stands for. -/
def Sentence (ts : List Token) (e : Expr) : Prop := Derives opts .expression 0 ts e

variable {opts}

/-! ### Tokens of derivations -/

theorem IsSign.ne_unrecognized {t : Token} (h : IsSign t) (rest : String) :
    t ≠ .unrecognized rest := by
  rcases h with rfl | rfl | ⟨s, rfl⟩ <;> simp

theorem Trailed.unrecognized_notMem {a b : Expr} {ts : List Token} (h : Trailed opts a ts b)
    (rest : String) : Token.unrecognized rest ∉ ts := by
  induction h with
  | nil => simp
  | cons _ _ ih => simpa using ih

/-- **What cannot be read as a token is in no sentence.** -/
theorem Derives.unrecognized_notMem {n : Nonterminal} {d : Nat} {ts : List Token} {e : Expr}
    (h : Derives opts n d ts e) (rest : String) : Token.unrecognized rest ∉ ts := by
  induction h with
  | number => simp
  | identifier => simp
  | parens _ _ ih => simpa using ih
  | factor hsigns _ _ ht ih =>
    simp only [List.mem_append, not_or]
    exact ⟨fun hm => (hsigns _ hm).ne_unrecognized rest rfl, ih, ht.unrecognized_notMem rest⟩
  | ofFactor _ ih | ofProduct _ ih | ofSum _ ih => exact ih
  | product _ _ _ _ ihl ihr | sum _ _ _ _ ihl ihr | assign _ _ _ ihl ihr => simp [ihl, ihr]

/-- An atom does not begin with a sign. -/
theorem Derives.exists_cons_of_atom {d : Nat} {ts : List Token} {e : Expr}
    (h : Derives opts .atom d ts e) : ∃ t us, ts = t :: us ∧ Parse.sign? t = none := by
  cases h with
  | number v => exact ⟨_, _, rfl, rfl⟩
  | identifier x => exact ⟨_, _, rfl, rfl⟩
  | parens hd h => exact ⟨_, _, rfl, rfl⟩

end Grammar

end Reckoner
