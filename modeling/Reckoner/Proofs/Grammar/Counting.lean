import Reckoner.Proofs.Grammar.Parsing

/-!
# Counting the parentheses that are open

There are two ways to keep to the limit on parentheses. `Reckoner.Parse.expression` hands down the
number of those that may still be opened, so that number is as it was as soon as the expression in
the parentheses has been dealt with, and each call of `Reckoner.LineParser.next` begins with the
whole of it. The other way is one counter for the whole line, of the parentheses that are open. It
goes up behind one that is opened, and has to come down again on every way out, in the middle of a
fault as well as behind an expression (`Reckoner.Parse.countingAtom`).

Both come to the same (`Reckoner.LineParser.nextCounting_run`): what is read with the counter is
what is read without it, and the counter is left as it was found. The levels of the grammar have
nothing to do with the counter but pass it on, each parser the one that the last one has left, and
this is said of them one by one (`Reckoner.Parse.Counts`).
-/

namespace Reckoner

namespace Parse

/-! ### Parsers with a counter -/

/-- **A parser with a counter.** -/
abbrev Counting : Type := (ts : List Located) → StateM Nat (Reply Measured ts)

section Chains

variable {ω : Type} (op? : Token → Option ω)
  (join : ω → Nat → Measured → Measured → Except ParseError Measured) (operand : Counting)

/-- The operators and operands behind a left operand. -/
def countingChainFrom (left : Measured) : Counting
  | [] => return .ok left List.suffix_rfl
  | t :: ts =>
    match op? t.token with
    | none => return .ok left List.suffix_rfl
    | some op => do
      match ← operand ts with
      | ⟨.error e, _, h⟩ => return .error e (h.trans (List.suffix_cons t ts))
      | ⟨.ok right, us, h⟩ =>
        match join op t.position left right with
        | .error e => return .error e (h.trans (List.suffix_cons t ts))
        | .ok node => return (← countingChainFrom node us).widen (h.trans (List.suffix_cons t ts))
termination_by ts => ts.length
decreasing_by
  have := h.length_le
  simp only [List.length_cons]
  omega

/-- A chain. -/
def countingChain : Counting := fun ts => do
  match ← operand ts with
  | ⟨.error e, _, h⟩ => return .error e h
  | ⟨.ok left, us, h⟩ => return (← countingChainFrom op? join operand left us).widen h

end Chains

section Factors

variable (opts : ParseOptions) (finish : Nat)

/-- A factor. Behind its atom there are steps at most, and they do not see the counter. -/
def countingFactor (atom : Counting) : Counting := fun ts => do
  let reply ← atom (ts.dropWhile isSign)
  return (reply.widen (List.dropWhile_suffix isSign)).andThen fun m us =>
    (Reply.stay (applySign opts (place finish ts) m (lastSign? ts)) us).andThen (stepsFrom opts)

/-- **An atom.** A parenthesis is refused if as many as may be are open. Behind it, the counter is
one higher until the expression has been read, or could not be. -/
def countingAtom (expression : Counting) : Counting
  | ⟨.openParen, pos⟩ :: ts => do
    if opts.maxDepth ≤ (← get) then
      return .stay (.error (.malformed (.parenthesesTooDeep opts.maxDepth) pos)) _
    else
      modify (· + 1)
      let reply ← expression ts
      modify (· - 1)
      return (reply.andThen (close finish)).widen (List.suffix_cons _ ts)
  | ts => return atom opts finish none ts

/-- The levels of the grammar above its atoms. -/
def countingLevels (atom : Counting) : Counting :=
  countingChain assignOp? (joinAssign opts)
    (countingChain sumOp? (joinBin opts)
      (countingChain productOp? (joinBin opts)
        (countingFactor opts finish atom)))

/-- **An expression**, in which the grammar is run through so many times at most, one time inside
another. If that is more often than parentheses may be open, the counter refuses one before the
grammar runs out. -/
def countingExpression : Nat → Counting
  | 0, ts => return .stay (.error (.malformed (.operandExpected (current ts)) (place finish ts))) ts
  | n + 1, ts =>
    countingLevels opts finish (countingAtom opts finish fun us => countingExpression n us) ts

end Factors

/-! ### The counter is as it was -/

/-- One computation after another begins with the counter that the first one has left. -/
theorem run_bind_of_run {α β : Type} {c : StateM Nat α} {a : α} {d d' : Nat}
    (h : c.run d = (a, d')) (f : α → StateM Nat β) : (c >>= f).run d = (f a).run d' := by
  rw [StateT.run_bind, h]
  rfl

/-- **A parser that does without the counter** what another one does with it, when so many
parentheses are open, and as many are when it is done. -/
def Counts (d : Nat) (c : Counting) (p : Parser) : Prop := ∀ ts, (c ts).run d = (p ts, d)

variable {c : Counting} {p : Parser} {opts : ParseOptions} {finish d n : Nat}

section Chains

variable {ω : Type} {op? : Token → Option ω}
  {join : ω → Nat → Measured → Measured → Except ParseError Measured}

theorem chainFrom_counts (h : Counts d c p) (l : Measured) :
    Counts d (countingChainFrom op? join c l) (chainFrom op? join p l) := by
  intro ts
  fun_induction chainFrom op? join p l ts with
  | case1 l =>
    rw [countingChainFrom]
    rfl
  | case2 l t ts hop =>
    rw [countingChainFrom, hop]
    rfl
  | case3 l t ts op hop e us hus hp =>
    simp only [countingChainFrom, hop, run_bind_of_run (h ts), hp]
    rfl
  | case4 l t ts op hop r us hus hp e hjoin =>
    simp only [countingChainFrom, hop, run_bind_of_run (h ts), hp, hjoin]
    rfl
  | case5 l t ts op hop r us hus hp node hjoin ih =>
    simp only [countingChainFrom, hop, run_bind_of_run (h ts), hp, hjoin, run_bind_of_run ih]
    rfl

theorem chain_counts (h : Counts d c p) :
    Counts d (countingChain op? join c) (chain op? join p) := by
  intro ts
  rw [countingChain, chain, run_bind_of_run (h ts)]
  rcases p ts with ⟨e | l, us, hus⟩
  · rfl
  · exact run_bind_of_run (chainFrom_counts h l us) _

end Chains

theorem factor_counts (h : Counts d c p) :
    Counts d (countingFactor opts finish c) (factor opts finish p) := by
  intro ts
  rw [countingFactor, factor_eq, run_bind_of_run (h _)]
  rfl

theorem levels_counts (h : Counts d c p) :
    Counts d (countingLevels opts finish c) (levels opts finish p) :=
  chain_counts (chain_counts (chain_counts (factor_counts h)))

/-- Where as many parentheses are open as may be, no other one can be opened. -/
theorem atom_counts_none (c : Counting) :
    Counts opts.maxDepth (countingAtom opts finish c) (atom opts finish none) := by
  intro ts
  rcases ts with _ | ⟨⟨t, pos⟩, ts⟩
  · rfl
  · cases t with
    | openParen =>
      have hget : (get : StateM Nat Nat).run opts.maxDepth = (opts.maxDepth, opts.maxDepth) := rfl
      rw [countingAtom, run_bind_of_run hget, if_pos (Nat.le_refl _)]
      rfl
    | _ => rfl

/-- **A parenthesis goes up and down again**, whatever has become of the expression in it. -/
theorem atom_counts_some (hd : d < opts.maxDepth) (h : Counts (d + 1) c p) :
    Counts d (countingAtom opts finish c) (atom opts finish (some p)) := by
  intro ts
  rcases ts with _ | ⟨⟨t, pos⟩, ts⟩
  · rfl
  · cases t with
    | openParen =>
      have hget : (get : StateM Nat Nat).run d = (d, d) := rfl
      have hup : (modify (· + 1) : StateM Nat Unit).run d = ((), d + 1) := rfl
      rw [countingAtom, atom_openParen, run_bind_of_run hget, if_neg (Nat.not_le_of_lt hd),
        run_bind_of_run hup, run_bind_of_run (h ts)]
      rfl
    | _ => rfl

/-- **The counter and what is left of the limit** come to the same. -/
theorem expression_counts (h : d + n = opts.maxDepth) :
    Counts d (countingExpression opts finish (n + 1)) (expression opts finish n) := by
  induction n generalizing d with
  | zero =>
    obtain rfl : d = opts.maxDepth := h
    exact levels_counts (atom_counts_none _)
  | succ n ih => exact levels_counts (atom_counts_some (by omega) (ih (by omega)))

end Parse

namespace LineParser

open Parse

/-- **One expression, up to the end of the line**, with the counter. -/
def nextCounting (p : LineParser) : StateM Nat (Except ParseError Expr × LineParser) := do
  let reply ← countingExpression p.options p.finish (p.options.maxDepth + 1) p.rest
  let behind := { p with rest := reply.rest }
  match reply.result, reply.rest with
  | .error e, _ => return (.error e, behind)
  | .ok m, [] => return (.ok m.expr, behind)
  | .ok _, t :: _ => return (.error (.malformed (.trailing t.token) t.position), behind)

/-- **No parenthesis is counted as open when a call is over**, if none was when it began, and the
call has done what it does without the counter. -/
theorem nextCounting_run (p : LineParser) : p.nextCounting.run 0 = (p.next, 0) := by
  have hcounts : (countingExpression p.options p.finish (p.options.maxDepth + 1) p.rest).run 0 =
      (expression p.options p.finish p.options.maxDepth p.rest, 0) :=
    expression_counts (Nat.zero_add _) p.rest
  rw [nextCounting, run_bind_of_run hcounts, next]
  rcases expression p.options p.finish p.options.maxDepth p.rest with
    ⟨e | m, _ | ⟨t, us⟩, hus⟩ <;> rfl

end LineParser

end Reckoner
