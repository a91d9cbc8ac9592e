import Reckoner.Proofs.Grammar.Levels

/-!
# Parsing is derivation

The parser of lines accepts the sentences of the grammar and nothing else, and it makes
of each the expression that the sentence stands for
(`Reckoner.Grammar.parse_eq_ok_iff`,
`Reckoner.Grammar.Sentence.unique`). The parser that runs takes the levels from the
atoms up; named one by one they are `Reckoner.Parse.parserOf`.

That the parser reads only derivations is a matter of putting the levels together. The
other direction is an induction on the derivation, and what it says of a nonterminal has
to speak of the rest of the line too: a sum is a chain *that may go on*. So each
nonterminal has a parser of its rest (`Reckoner.Parse.restOf`), the statement is that
reading what is derived and the rest is the same as reading the rest
(`Reckoner.Grammar.Derives.outcome_parserOf`), and it holds wherever the levels *below*
are at their end (`Reckoner.Grammar.Ended`). The level itself need not be: that is what
makes a derivation with the sequence on the left and a loop over operands agree.
-/

namespace Reckoner

namespace Parse

open Grammar

/-! ### The operators of each level -/

theorem productOp?_eq_some {t : Token} {op : BinOp} :
    productOp? t = some op ↔
      t = .operator (.binary op) ∧ (op = .mul ∨ op = .div ∨ op = .mod) := by
  unfold productOp?
  grind

theorem sumOp?_eq_some {t : Token} {op : BinOp} :
    sumOp? t = some op ↔ t = .operator (.binary op) ∧ (op = .add ∨ op = .sub) := by
  unfold sumOp?
  grind

theorem assignOp?_eq_some {t : Token} {op : AssignOp} :
    assignOp? t = some op ↔ t = .operator (.assign op) := by
  unfold assignOp?
  grind

section Levels

variable (opts : ParseOptions) (finish n : Nat)

/-! ### A parser for each nonterminal

In all of them `n` parentheses may be opened inside one another. -/

/-- The parser of atoms. -/
def atomOf : Nat → Parser
  | 0 => atom opts finish none
  | n + 1 => atom opts finish (some (expression opts finish n))

/-- The parser of factors. -/
def factorOf : Parser := factor opts finish (atomOf opts finish n)

/-- The parser of products. -/
def productOf : Parser := chain productOp? (joinBin opts) (factorOf opts finish n)

/-- The parser of sums. -/
def sumOf : Parser := chain sumOp? (joinBin opts) (productOf opts finish n)

theorem expression_eq :
    expression opts finish n = chain assignOp? (joinAssign opts) (sumOf opts finish n) := by
  cases n <;> rfl

/-- **The parser of a nonterminal.** -/
def parserOf : Nonterminal → Parser
  | .expression => expression opts finish n
  | .sum => sumOf opts finish n
  | .product => productOf opts finish n
  | .factor => factorOf opts finish n
  | .atom => atomOf opts finish n

/-- **The parser of the rest** of what a nonterminal may yield, behind a part of which the
expression has been read. An atom has no rest. -/
def restOf (m : Measured) : Nonterminal → Parser
  | .expression => chainFrom assignOp? (joinAssign opts) (sumOf opts finish n) m
  | .sum => chainFrom sumOp? (joinBin opts) (productOf opts finish n) m
  | .product => chainFrom productOp? (joinBin opts) (factorOf opts finish n) m
  | .factor => stepsFrom opts m
  | .atom => fun _ => .ok m List.suffix_rfl

end Levels

/-! ### Only derivations are read -/

section Soundness

variable {opts : ParseOptions} {finish n d : Nat}

/-- Each level reads derivations only, if the level of the atoms does. -/
theorem parserOf_readsOnly_of_atom
    (h : ReadsOnly (atomOf opts finish n) (Derives opts .atom d)) (k : Nonterminal) :
    ReadsOnly (parserOf opts finish n k) (Derives opts k d) := by
  have hfactor : ReadsOnly (factorOf opts finish n) (Derives opts .factor d) :=
    factor_readsOnly h fun _ _ _ _ _ _ hsigns ha hs ht => .factor hsigns ha hs ht
  have hproduct : ReadsOnly (productOf opts finish n) (Derives opts .product d) := by
    refine chain_readsOnly hfactor (fun _ _ => .ofFactor) ?_
    intro cs bs t op pos l r m hl hr hop hm
    obtain ⟨rfl, hlevel⟩ := productOp?_eq_some.mp hop
    obtain ⟨hexpr, hh⟩ := joinBin_eq_ok_iff.mp hm
    rw [hexpr]
    exact .product hlevel hl hr hh
  have hsum : ReadsOnly (sumOf opts finish n) (Derives opts .sum d) := by
    refine chain_readsOnly hproduct (fun _ _ => .ofProduct) ?_
    intro cs bs t op pos l r m hl hr hop hm
    obtain ⟨rfl, hlevel⟩ := sumOp?_eq_some.mp hop
    obtain ⟨hexpr, hh⟩ := joinBin_eq_ok_iff.mp hm
    rw [hexpr]
    exact .sum hlevel hl hr hh
  cases k with
  | expression =>
    rw [parserOf, expression_eq]
    refine chain_readsOnly hsum (fun _ _ => .ofSum) ?_
    intro cs bs t op pos l r m hl hr hop hm
    obtain rfl := assignOp?_eq_some.mp hop
    obtain ⟨x, hx, hexpr, hh⟩ := joinAssign_eq_ok_iff.mp hm
    rw [hx] at hl
    rw [hexpr]
    exact .assign hl hr hh
  | sum => exact hsum
  | product => exact hproduct
  | factor => exact hfactor
  | atom => exact h

/-- **Only derivations are read**: what the parser of a nonterminal takes off a line is
derived from it, and stands for the expression that the parser returns. The parentheses
still allowed and those already open make up the limit. -/
theorem parserOf_readsOnly (h : n + d = opts.maxDepth) (k : Nonterminal) :
    ReadsOnly (parserOf opts finish n k) (Derives opts k d) := by
  refine parserOf_readsOnly_of_atom ?_ k
  induction n generalizing d with
  | zero =>
    exact atom_readsOnly (E := fun _ _ => False) (by simp) (.number d) (.identifier d) (by simp)
  | succ n ih =>
    have hinner : ReadsOnly (expression opts finish n) (Derives opts .expression (d + 1)) :=
      parserOf_readsOnly_of_atom (ih (by omega)) .expression
    refine atom_readsOnly (E := Derives opts .expression (d + 1)) ?_ (.number d) (.identifier d) ?_
    · rintro p ⟨⟩
      exact hinner
    · exact fun _ _ _ he => .parens (by omega) he

end Soundness

end Parse

namespace Grammar

open Parse

/-! ### Every derivation is read -/

/-- **The levels below a nonterminal are at their end** in front of a token: it does not
continue what has been read of any of them. -/
def Ended : Nonterminal → Token → Prop
  | .expression, t => step? t = none ∧ productOp? t = none ∧ sumOp? t = none
  | .sum, t => step? t = none ∧ productOp? t = none
  | .product, t => step? t = none
  | .factor, _ => True
  | .atom, _ => True

section Completeness

variable {opts : ParseOptions} {n d : Nat}

/-- Tokens around one in the middle come from located tokens around a located one. -/
theorem exists_of_words_eq_append_cons {cs : List Located} {ts us : List Token} {t : Token}
    (h : words cs = ts ++ t :: us) :
    ∃ bs pos as, cs = bs ++ ⟨t, pos⟩ :: as ∧ words bs = ts ∧ words as = us := by
  obtain ⟨bs, rest, rfl, hbs, hrest⟩ := words_eq_append_iff.mp h
  obtain ⟨pos, as, rfl, has⟩ := words_eq_cons_iff.mp hrest
  exact ⟨bs, pos, as, rfl, hbs, has⟩

/-- **Every derivation is read.** The tokens that a nonterminal yields are read by its
parser up to the last one, and then it is in front of the rest with the expression that
they stand for. -/
theorem Derives.outcome_parserOf {k : Nonterminal} {ts : List Token} {e : Expr}
    (h : Derives opts k d ts e) (finish : Nat) {cs us : List Located}
    (hn : n + d = opts.maxDepth) (hcs : words cs = ts) (hus : Ended k (current us)) :
    (parserOf opts finish n k (cs ++ us)).outcome =
      (restOf opts finish n e.measured k us).outcome := by
  induction h generalizing n cs us with
  | number d v =>
    obtain ⟨pos, rest, rfl, hrest⟩ := words_eq_cons_iff.mp hcs
    rw [words_eq_nil_iff.mp hrest]
    cases n <;> rfl
  | identifier d x =>
    obtain ⟨pos, rest, rfl, hrest⟩ := words_eq_cons_iff.mp hcs
    rw [words_eq_nil_iff.mp hrest]
    cases n <;> rfl
  | parens hd h ih =>
    obtain ⟨pos, rest, rfl, hrest⟩ := words_eq_cons_iff.mp hcs
    obtain ⟨bs, pos', as, rfl, hbs, has⟩ := exists_of_words_eq_append_cons hrest
    rw [words_eq_nil_iff.mp has, List.cons_append, List.append_assoc]
    -- one more parenthesis is open inside, so one more was allowed outside
    obtain ⟨n, rfl⟩ := Nat.exists_eq_succ_of_ne_zero (n := n) (by omega)
    have hinner := (@ih n bs (⟨.closeParen, pos'⟩ :: us) (by omega) hbs ⟨rfl, rfl, rfl⟩).trans
      (chainFrom_of_none rfl)
    change (atom opts finish (some (expression opts finish n)) _).outcome = _
    exact atom_parens hinner
  | @factor _ _ _ _ _ b _ hsigns h hs ht ih =>
    obtain ⟨ss, rest, rfl, rfl, hrest⟩ := words_eq_append_iff.mp hcs
    obtain ⟨as, ps, rfl, rfl, rfl⟩ := words_eq_append_iff.mp hrest
    rw [List.append_assoc, List.append_assoc]
    have hfirst : sign? (current (as ++ (ps ++ us))) = none := by
      obtain ⟨t, ts, hts, hsign⟩ := h.exists_cons_of_atom
      obtain ⟨pos, rest, rfl, -⟩ := words_eq_cons_iff.mp hts
      exact hsign
    have hatom := @ih n as (ps ++ us) hn rfl trivial
    exact (factor_of_ok (b := b.measured) hsigns hfirst hatom hs).trans (stepsFrom_of_trailed ht)
  | ofFactor h ih =>
    exact chain_of_ok ((ih hn hcs trivial).trans (stepsFrom_of_none hus))
  | product hop hl hr hh ihl ihr =>
    -- the operator ends what is in front of it, so the loop is left with the operator to take
    obtain ⟨bs, pos, as, rfl, hbs, has⟩ := exists_of_words_eq_append_cons hcs
    rw [List.append_assoc, List.cons_append]
    have hright := (ihr hn has trivial).trans (stepsFrom_of_none hus)
    refine (ihl hn hbs ?_).trans (chainFrom_of_some (productOp?_eq_some.mpr ⟨rfl, hop⟩) hright ?_)
    · rfl
    · exact joinBin_eq_ok_iff.mpr ⟨rfl, hh⟩
  | ofProduct h ih =>
    exact chain_of_ok ((ih hn hcs hus.1).trans (chainFrom_of_none hus.2))
  | sum hop hl hr hh ihl ihr =>
    obtain ⟨bs, pos, as, rfl, hbs, has⟩ := exists_of_words_eq_append_cons hcs
    rw [List.append_assoc, List.cons_append]
    have hright := (ihr hn has hus.1).trans (chainFrom_of_none hus.2)
    refine (ihl hn hbs ?_).trans (chainFrom_of_some (sumOp?_eq_some.mpr ⟨rfl, hop⟩) hright ?_)
    · rcases hop with rfl | rfl <;> exact ⟨rfl, rfl⟩
    · exact joinBin_eq_ok_iff.mpr ⟨rfl, hh⟩
  | ofSum h ih =>
    rw [parserOf, expression_eq]
    exact chain_of_ok ((ih hn hcs ⟨hus.1, hus.2.1⟩).trans (chainFrom_of_none hus.2.2))
  | assign hl hr hh ihl ihr =>
    obtain ⟨bs, pos, as, rfl, hbs, has⟩ := exists_of_words_eq_append_cons hcs
    rw [List.append_assoc, List.cons_append]
    have hright := (ihr hn has ⟨hus.1, hus.2.1⟩).trans (chainFrom_of_none hus.2.2)
    refine (ihl hn hbs ?_).trans (chainFrom_of_some (assignOp?_eq_some.mpr rfl) hright ?_)
    · exact ⟨rfl, rfl, rfl⟩
    · exact joinAssign_eq_ok_iff.mpr ⟨_, rfl, rfl, hh⟩

end Completeness

/-! ### Lines -/

section Lines

variable {opts : ParseOptions}

/-- **The sentences of the grammar** are what is read up to the last token. -/
theorem outcome_expression_iff (finish : Nat) {cs : List Located} {m : Measured} :
    (expression opts finish opts.maxDepth cs).outcome = (.ok m, []) ↔
      Sentence opts (words cs) m.expr := by
  constructor
  -- nothing is left, so all of the tokens have been taken
  · intro h
    obtain ⟨bs, hbs, hD⟩ := parserOf_readsOnly (Nat.add_zero _) .expression _ _ _ h
    rw [hbs, List.append_nil]
    exact hD
  · intro h
    have hread : (expression opts finish opts.maxDepth (cs ++ [])).outcome = _ :=
      h.outcome_parserOf finish (Nat.add_zero _) rfl ⟨rfl, rfl, rfl⟩
    rw [List.append_nil, Measured.measured_expr] at hread
    exact hread.trans (chainFrom_of_none rfl)

/-- **A sentence stands for one expression**: it can be read in one way only. -/
theorem Sentence.unique {ts : List Token} {e f : Expr} (he : Sentence opts ts e)
    (hf : Sentence opts ts f) : e = f := by
  -- the parser is a function, whatever the places of the tokens may be
  obtain ⟨cs, rfl⟩ : ∃ cs, words cs = ts := by
    refine ⟨ts.map (⟨·, 0⟩), ?_⟩
    rw [words, List.map_map]
    exact List.map_id ts
  have hread := (outcome_expression_iff 0 (m := e.measured)).mpr he
  rw [(outcome_expression_iff 0 (m := f.measured)).mpr hf] at hread
  cases hread
  rfl

/-- What a parser of a line accepts, it has read up to the last token. -/
theorem next_fst_eq_ok_iff {p : LineParser} {e : Expr} :
    p.next.1 = .ok e ↔
      (expression p.options p.finish p.options.maxDepth p.rest).outcome =
        (.ok e.measured, []) := by
  have hresult : p.next.1 = (wholeLine p.options p.finish p.rest).result.map (·.expr) :=
    congrArg Prod.fst (next_eq p)
  rw [hresult, Except.map_eq_ok_iff]
  constructor
  · rintro ⟨m, hm, rfl⟩
    obtain ⟨a, us, ha, hend⟩ := Reply.outcome_andThen_eq_ok_iff.mp (Prod.ext hm rfl)
    have hread : (endOfLine a us).result = .ok m := congrArg Prod.fst hend
    cases us with
    | nil =>
      obtain rfl := Except.ok.inj hread
      rwa [Measured.measured_expr]
    | cons t us => cases hread
  · intro h
    exact ⟨e.measured, congrArg Prod.fst (Reply.outcome_andThen h endOfLine), rfl⟩

/-- A line is accepted if its tokens are a sentence. -/
theorem parse_eq_ok_iff {line : String} {e : Expr} :
    parse line opts = .ok e ↔ Sentence opts (words (Scanner.ofLine line).tokens) e :=
  next_fst_eq_ok_iff.trans (outcome_expression_iff line.length)

/-- **The parser accepts exactly the sentences of the grammar.** A line is accepted with an
expression if all of it can be read as tokens and these are a sentence that stands for the
expression; and under given options a list of tokens stands for one expression at most. -/
theorem parse_accepts_sentences (line : String) (opts : ParseOptions) :
    (∀ e, parse line opts = .ok e ↔
      (∀ rest, .unrecognized rest ∉ words (Scanner.ofLine line).tokens) ∧
        Sentence opts (words (Scanner.ofLine line).tokens) e) ∧
      ∀ ts, {e | Sentence opts ts e}.Subsingleton := by
  refine ⟨fun e => ?_, fun ts e he f hf => Sentence.unique he hf⟩
  rw [parse_eq_ok_iff]
  exact ⟨fun h => ⟨h.unrecognized_notMem, h⟩, And.right⟩

end Lines

end Grammar

end Reckoner
