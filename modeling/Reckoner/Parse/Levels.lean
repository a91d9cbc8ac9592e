import Reckoner.Parse.Basic

/-!
# The levels of the grammar

An expression is made of four levels of operators around its atoms:

| level | sentence |
|---|---|
| expression | a sum, then assignment operators, each with a sum |
| sum | a product, then `+` or `-`, each with a product |
| product | a factor, then `*`, `/` or `%`, each with a factor |
| factor | signs and steps, then an atom, then steps |
| atom | a number, a name, or an expression in parentheses |

The first three are *chains* and differ in their operators only, so there is one
parser for them, `Reckoner.Parse.chain`. A chain is folded to the left, assignment
included; `a = b = 3` therefore assigns to `a = b`, which is no variable.

Of the signs in front of an atom only the last one counts. The steps behind an
atom are aimed at the whole of what is in front of them, signs included.

A parenthesis leads back to the first level. Along with the expression in it goes
the number of parentheses that may still be opened, one less than before: that is
the argument on which `Reckoner.Parse.expression` recurs.
-/

namespace Reckoner

namespace Parse

/-! ### The operators of each level -/

/-- The assignments. -/
def assignOp? : Token → Option AssignOp
  | .operator (.assign op) => some op
  | _ => none

/-- The operators of a sum. -/
def sumOp? : Token → Option BinOp
  | .operator (.binary .add) => some .add
  | .operator (.binary .sub) => some .sub
  | _ => none

/-- The operators of a product. -/
def productOp? : Token → Option BinOp
  | .operator (.binary .mul) => some .mul
  | .operator (.binary .div) => some .div
  | .operator (.binary .mod) => some .mod
  | _ => none

/-- A step. -/
def step? : Token → Option Step
  | .operator (.step s) => some s
  | _ => none

/-- What may stand in front of an atom. -/
inductive Sign
  | plus
  | minus
  | step (s : Step)
deriving DecidableEq

/-- The signs. -/
def sign? : Token → Option Sign
  | .operator (.binary .add) => some .plus
  | .operator (.binary .sub) => some .minus
  | .operator (.step s) => some (.step s)
  | _ => none

section Nodes

variable (opts : ParseOptions)

/-! ### Nodes within the depth limit -/

/-- A node of the given height is refused if that is above the limit. -/
def checkHeight (height pos : Nat) : Except ParseError Unit :=
  if height ≤ opts.maxDepth then .ok ()
  else .error (.malformed (.expressionTooDeep opts.maxDepth) pos)

/-- Two operands combined. -/
def joinBin (op : BinOp) (pos : Nat) (l r : Measured) : Except ParseError Measured := do
  checkHeight opts (max l.height r.height + 1) pos
  return .bin op l r

/-- An assignment. Its height is looked at before its target. -/
def joinAssign (op : AssignOp) (pos : Nat) (l r : Measured) : Except ParseError Measured := do
  checkHeight opts (max l.height r.height + 1) pos
  (Measured.mkAssign op l r).mapError .notAVariable

/-- An atom under its sign. -/
def applySign (pos : Nat) (m : Measured) : Option Sign → Except ParseError Measured
  | none => .ok m
  | some .plus => .ok m
  | some .minus => do
    checkHeight opts (m.height + 1) pos
    return m.neg
  | some (.step s) => do
    checkHeight opts (m.height + 1) pos
    (Measured.mkUpdate (.pre s) m).mapError .notAVariable

/-- A step behind an operand. Discarding it takes a variable all the same. -/
def applyStep (s : Step) (pos : Nat) (m : Measured) : Except ParseError Measured :=
  match opts.trailing with
  | .apply => do
    checkHeight opts (m.height + 1) pos
    (Measured.mkUpdate (.post s) m).mapError .notAVariable
  | .discard => (m.expr.target.map Measured.var).mapError .notAVariable

end Nodes

/-! ### Chains -/

section Chains

variable {ω : Type} (op? : Token → Option ω)
  (join : ω → Nat → Measured → Measured → Except ParseError Measured) (operand : Parser)

/-- The operators and operands behind a left operand. -/
def chainFrom (left : Measured) : Parser
  | [] => .ok left List.suffix_rfl
  | t :: ts =>
    match op? t.token with
    | none => .ok left List.suffix_rfl
    | some op =>
      match operand ts with
      | ⟨.error e, _, h⟩ => .error e (h.trans (List.suffix_cons t ts))
      | ⟨.ok right, us, h⟩ =>
        match join op t.position left right with
        | .error e => .error e (h.trans (List.suffix_cons t ts))
        | .ok node => (chainFrom node us).widen (h.trans (List.suffix_cons t ts))
termination_by ts => ts.length
decreasing_by
  have := h.length_le
  simp only [List.length_cons]
  omega

/-- **A chain**: an operand, then operators, each with an operand. -/
def chain : Parser := fun ts =>
  match operand ts with
  | ⟨.error e, _, h⟩ => .error e h
  | ⟨.ok left, us, h⟩ => (chainFrom op? join operand left us).widen h

end Chains

/-! ### Factors and atoms -/

section Factors

variable (opts : ParseOptions) (finish : Nat)

/-- The steps behind an operand. -/
def stepsFrom (m : Measured) : Parser
  | [] => .ok m List.suffix_rfl
  | t :: ts =>
    match step? t.token with
    | none => .ok m List.suffix_rfl
    | some s =>
      match applyStep opts s t.position m with
      | .error e => .error e (List.suffix_cons t ts)
      | .ok node => (stepsFrom node ts).widen (List.suffix_cons t ts)

/-- Whether a token is a sign. -/
def isSign (t : Located) : Bool := (sign? t.token).isSome

/-- The sign that counts in front of an atom: the last one. -/
def lastSign? (ts : List Located) : Option Sign :=
  (ts.takeWhile isSign).getLast? >>= fun t => sign? t.token

/-- **A factor**: signs, an atom, steps. -/
def factor (atom : Parser) : Parser := fun ts =>
  have hs : ts.dropWhile isSign <:+ ts := List.dropWhile_suffix isSign
  match atom (ts.dropWhile isSign) with
  | ⟨.error e, _, h⟩ => .error e (h.trans hs)
  | ⟨.ok m, us, h⟩ =>
    match applySign opts (place finish ts) m (lastSign? ts) with
    | .error e => .error e (h.trans hs)
    | .ok node => (stepsFrom opts node us).widen (h.trans hs)

/-- **An atom.** The parser of the expression in parentheses is missing where no
parenthesis may be opened any more. -/
def atom (inner : Option Parser) : Parser
  | ⟨.number v, _⟩ :: ts => .ok (.num v) (List.suffix_cons _ ts)
  | ⟨.identifier x, _⟩ :: ts => .ok (.var x) (List.suffix_cons _ ts)
  | ⟨.openParen, pos⟩ :: ts =>
    match inner with
    | none => .error (.malformed (.parenthesesTooDeep opts.maxDepth) pos) List.suffix_rfl
    | some expression =>
      match expression ts with
      | ⟨.error e, _, h⟩ => .error e (h.trans (List.suffix_cons _ ts))
      | ⟨.ok m, ⟨.closeParen, _⟩ :: us, h⟩ =>
        .ok m (((List.suffix_cons _ us).trans h).trans (List.suffix_cons _ ts))
      | ⟨.ok _, us, h⟩ =>
        .error (.malformed .closingExpected (place finish us)) (h.trans (List.suffix_cons _ ts))
  | ts => .error (.malformed (.operandExpected (current ts)) (place finish ts)) List.suffix_rfl

end Factors

/-! ### The whole grammar -/

section Grammar

variable (opts : ParseOptions) (finish : Nat)

/-- The levels of the grammar above its atoms. -/
def levels (atom : Parser) : Parser :=
  chain assignOp? (joinAssign opts)
    (chain sumOp? (joinBin opts)
      (chain productOp? (joinBin opts)
        (factor opts finish atom)))

/-- **An expression**, in which so many parentheses may be opened inside one
another. -/
def expression : Nat → Parser
  | 0, ts => levels opts finish (atom opts finish none) ts
  | n + 1, ts => levels opts finish (atom opts finish (some fun us => expression n us)) ts

end Grammar

end Parse

end Reckoner
