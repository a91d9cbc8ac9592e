import Reckoner.Proofs.Grammar.Basic

/-!
# Beginnings of sentences

The grammar of lines without its attributes: which tokens are a sentence at all, whatever they
stand for and however high that is (`Reckoner.Grammar.Yields`).

The levels of the grammar decide how a sentence is read, but not whether it is one. For that it
is enough to know whether an operand has to come next or has been read, and how many parentheses
are open (`Reckoner.Grammar.Stage`). A token leads from one stage to the next or cannot be there.
So the sentences are the tokens that lead from the first stage to the last
(`Reckoner.Grammar.yields_expression_iff`), and tokens can be completed to a sentence if they lead
anywhere (`Reckoner.Grammar.exists_yields_append_iff`).

One direction is an induction over derivations. For the other one the tokens read so far have to
be understood in every stage: inside of every parenthesis they are an expression, or what lacks
one more factor to be one (`Reckoner.Grammar.Lacking`). An operator of any level may follow an
expression, since an expression ends in the last operand of each of its levels
(`Reckoner.Grammar.Yields.append_operator`).
-/

namespace Reckoner

namespace Grammar

variable {d : Nat} {t : Token} {ts us : List Token}

/-! ### Sentences without attributes -/

/-- **The tokens that may stand behind an atom.** -/
def IsStep (t : Token) : Prop := ∃ s, t = .operator (.step s)

/-- **What a nonterminal yields**, if nothing is asked about what it stands for. -/
inductive Yields : Nonterminal → List Token → Prop
  /-- A number is an atom. -/
  | number (v : Value) : Yields .atom [.number v]
  /-- So is a name. -/
  | identifier (x : String) : Yields .atom [.identifier x]
  /-- So is an expression in parentheses. -/
  | parens {ts : List Token} (h : Yields .expression ts) :
      Yields .atom (.openParen :: (ts ++ [.closeParen]))
  /-- A factor is an atom with signs before and steps behind it. -/
  | factor {signs ts steps : List Token} (hsigns : ∀ t ∈ signs, IsSign t) (h : Yields .atom ts)
      (hsteps : ∀ t ∈ steps, IsStep t) : Yields .factor (signs ++ (ts ++ steps))
  /-- A factor is a product. -/
  | ofFactor {ts : List Token} (h : Yields .factor ts) : Yields .product ts
  /-- A product may be multiplied or divided by a factor. -/
  | product {ts us : List Token} {op : BinOp} (hop : op = .mul ∨ op = .div ∨ op = .mod)
      (hl : Yields .product ts) (hr : Yields .factor us) :
      Yields .product (ts ++ .operator (.binary op) :: us)
  /-- A product is a sum. -/
  | ofProduct {ts : List Token} (h : Yields .product ts) : Yields .sum ts
  /-- A product may be added to a sum or subtracted from it. -/
  | sum {ts us : List Token} {op : BinOp} (hop : op = .add ∨ op = .sub)
      (hl : Yields .sum ts) (hr : Yields .product us) :
      Yields .sum (ts ++ .operator (.binary op) :: us)
  /-- A sum is an expression. -/
  | ofSum {ts : List Token} (h : Yields .sum ts) : Yields .expression ts
  /-- A sum may be assigned to an expression. -/
  | assign {ts us : List Token} {op : AssignOp} (hl : Yields .expression ts)
      (hr : Yields .sum us) : Yields .expression (ts ++ .operator (.assign op) :: us)

namespace Yields

/-! ### Sentences that go on -/

/-- An atom is a factor. -/
theorem ofAtom (h : Yields .atom ts) : Yields .factor ts := by
  have hfactor := Yields.factor (List.forall_mem_nil _) h (List.forall_mem_nil _)
  rwa [List.nil_append, List.append_nil] at hfactor

/-- A factor is an expression. -/
theorem expression_of_factor (h : Yields .factor ts) : Yields .expression ts :=
  .ofSum (.ofProduct (.ofFactor h))

/-- **A sign may stand in front of a factor.** -/
theorem cons_sign (h : Yields .factor ts) (ht : IsSign t) : Yields .factor (t :: ts) := by
  cases h with
  | factor hsigns ha hsteps => exact .factor (List.forall_mem_cons.mpr ⟨ht, hsigns⟩) ha hsteps

/-- **A step may stand behind anything but an atom**: it is one more step of the last factor. -/
theorem append_step {k : Nonterminal} (h : Yields k ts) (ht : IsStep t) (hk : k ≠ .atom) :
    Yields k (ts ++ [t]) := by
  induction h with
  | number | identifier | parens => exact absurd rfl hk
  | factor hsigns ha hsteps =>
    rw [List.append_assoc, List.append_assoc]
    exact .factor hsigns ha (List.forall_mem_append.mpr ⟨hsteps, List.forall_mem_singleton.mpr ht⟩)
  | ofFactor _ ih => exact .ofFactor (ih nofun)
  | product hop hl _ _ ihr =>
    rw [List.append_assoc]
    exact .product hop hl (ihr nofun)
  | ofProduct _ ih => exact .ofProduct (ih nofun)
  | sum hop hl _ _ ihr =>
    rw [List.append_assoc]
    exact .sum hop hl (ihr nofun)
  | ofSum _ ih => exact .ofSum (ih nofun)
  | assign hl _ _ ihr =>
    rw [List.append_assoc]
    exact .assign hl (ihr nofun)

/-- An operator of a product goes on with the last product of a sum. -/
theorem sum_append_product {op : BinOp} (h : Yields .sum ts)
    (hop : op = .mul ∨ op = .div ∨ op = .mod) (hr : Yields .factor us) :
    Yields .sum (ts ++ .operator (.binary op) :: us) := by
  cases h with
  | ofProduct h => exact .ofProduct (.product hop h hr)
  | sum hsum hl h =>
    rw [List.append_assoc]
    exact .sum hsum hl (.product hop h hr)

/-- **An operator of any level may stand behind an expression** if a factor follows: it goes on
with the last operand of its level. -/
theorem append_operator {op : Operator} (h : Yields .expression ts)
    (hop : ¬IsStep (.operator op)) (hr : Yields .factor us) :
    Yields .expression (ts ++ .operator op :: us) := by
  have hproduct := Yields.ofFactor hr
  cases op with
  | step s => exact absurd ⟨s, rfl⟩ hop
  | assign op => exact .assign h (.ofProduct hproduct)
  | binary op =>
    -- what is behind the last assignment is a sum, and the operator belongs there
    have hlast : ∀ ts, Yields .sum ts → Yields .sum (ts ++ .operator (.binary op) :: us) := by
      intro ts hsum
      cases op with
      | add => exact .sum (.inl rfl) hsum hproduct
      | sub => exact .sum (.inr rfl) hsum hproduct
      | mul => exact hsum.sum_append_product (.inl rfl) hr
      | div => exact hsum.sum_append_product (.inr (.inl rfl)) hr
      | mod => exact hsum.sum_append_product (.inr (.inr rfl)) hr
    cases h with
    | ofSum h => exact .ofSum (hlast _ h)
    | assign hl h =>
      rw [List.append_assoc]
      exact .assign hl (hlast _ h)

end Yields

/-! ### Stages -/

/-- **How far a line has been read**, as far as it matters to what may come next. -/
inductive Stage
  /-- An operand has to come, inside of so many parentheses. -/
  | before (depth : Nat)
  /-- An operand has been read, inside of so many parentheses. -/
  | behind (depth : Nat)
deriving DecidableEq

namespace Stage

/-- **The next stage**, unless the token cannot be there. -/
def step : Stage → Token → Option Stage
  | before d, .number _ => some (behind d)
  | before d, .identifier _ => some (behind d)
  | before d, .openParen => some (before (d + 1))
  | before d, .operator (.binary .add) => some (before d)
  | before d, .operator (.binary .sub) => some (before d)
  | before d, .operator (.step _) => some (before d)
  | behind d, .operator (.step _) => some (behind d)
  | behind d, .operator (.binary _) => some (before d)
  | behind d, .operator (.assign _) => some (before d)
  | behind (d + 1), .closeParen => some (behind d)
  | _, _ => none

/-- The stage that some tokens lead to. -/
def run (s : Stage) (ts : List Token) : Option Stage := ts.foldlM step s

theorem run_cons (s : Stage) (t : Token) (ts : List Token) :
    s.run (t :: ts) = (s.step t).bind (·.run ts) := List.foldlM_cons

theorem run_append (s : Stage) (ts us : List Token) :
    s.run (ts ++ us) = (s.run ts).bind (·.run us) := List.foldlM_append

theorem run_singleton (s : Stage) (t : Token) : s.run [t] = s.step t := by
  rw [run_cons]
  exact Option.bind_fun_some (s.step t)

theorem step_sign (d : Nat) (ht : IsSign t) : (before d).step t = some (before d) := by
  rcases ht with rfl | rfl | ⟨s, rfl⟩ <;> rfl

theorem step_step (d : Nat) (ht : IsStep t) : (behind d).step t = some (behind d) := by
  obtain ⟨s, rfl⟩ := ht
  rfl

theorem step_operator (d : Nat) {op : Operator} (hop : ¬IsStep (.operator op)) :
    (behind d).step (.operator op) = some (before d) := by
  cases op with
  | step s => exact absurd ⟨s, rfl⟩ hop
  | binary | assign => rfl

/-- Tokens that lead from a stage back to it can be repeated. -/
theorem run_of_forall {s : Stage} (h : ∀ t ∈ ts, s.step t = some s) : s.run ts = some s := by
  induction ts with
  | nil => rfl
  | cons t ts ih =>
    obtain ⟨ht, hts⟩ := List.forall_mem_cons.mp h
    rw [run_cons, ht, Option.bind_some, ih hts]

/-- An operand, an operator and another operand lead behind an operand again. -/
theorem run_operands {op : Operator} (hop : ¬IsStep (.operator op))
    (hts : (before d).run ts = some (behind d)) (hus : (before d).run us = some (behind d)) :
    (before d).run (ts ++ .operator op :: us) = some (behind d) := by
  rw [run_append, hts, Option.bind_some, run_cons, step_operator d hop, Option.bind_some, hus]

end Stage

open Stage

/-- **What a nonterminal yields leads past an operand**, inside of any parentheses. -/
theorem Yields.run {k : Nonterminal} (h : Yields k ts) (d : Nat) :
    (before d).run ts = some (behind d) := by
  induction h generalizing d with
  | number | identifier => rfl
  | parens _ ih =>
    rw [run_cons, step, Option.bind_some, run_append, ih, Option.bind_some, run_singleton, step]
  | factor hsigns _ hsteps ih =>
    rw [run_append, run_of_forall fun t ht => step_sign d (hsigns t ht), Option.bind_some,
      run_append, ih, Option.bind_some, run_of_forall fun t ht => step_step d (hsteps t ht)]
  | ofFactor _ ih | ofProduct _ ih | ofSum _ ih => exact ih d
  | product _ _ _ ihl ihr | sum _ _ _ ihl ihr | assign _ _ ihl ihr =>
    exact run_operands nofun (ihl d) (ihr d)

/-! ### What has been read in each stage -/

/-- **Tokens that lack a factor** to be an expression. -/
def Lacking (ts : List Token) : Prop := ∀ us, Yields .factor us → Yields .expression (ts ++ us)

theorem Lacking.nil : Lacking [] := fun _ h => h.expression_of_factor

theorem Lacking.append_sign (h : Lacking ts) (ht : IsSign t) : Lacking (ts ++ [t]) := by
  intro us hus
  rw [List.append_assoc]
  exact h _ (hus.cons_sign ht)

/-- **What stands in front of an operand** inside of so many parentheses. -/
inductive InFront : Nat → List Token → Prop
  /-- Outside of all parentheses, what lacks a factor. -/
  | outside {ts : List Token} (h : Lacking ts) : InFront 0 ts
  /-- Inside of one more, the same behind the parenthesis, which is an operand itself. -/
  | inside {d : Nat} {cs ts : List Token} (hcs : InFront d cs) (h : Lacking ts) :
      InFront (d + 1) (cs ++ .openParen :: ts)

/-- **What ends in an operand** inside of so many parentheses. -/
inductive EndsIn : Nat → List Token → Prop
  /-- Outside of all parentheses, an expression. -/
  | outside {ts : List Token} (h : Yields .expression ts) : EndsIn 0 ts
  /-- Inside of one more, the same behind the parenthesis. -/
  | inside {d : Nat} {cs ts : List Token} (hcs : InFront d cs) (h : Yields .expression ts) :
      EndsIn (d + 1) (cs ++ .openParen :: ts)

namespace InFront

theorem append_sign (h : InFront d ts) (ht : IsSign t) : InFront d (ts ++ [t]) := by
  cases h with
  | outside h => exact .outside (h.append_sign ht)
  | inside hcs h =>
    rw [List.append_assoc]
    exact .inside hcs (h.append_sign ht)

theorem append_factor (h : InFront d ts) (hus : Yields .factor us) : EndsIn d (ts ++ us) := by
  cases h with
  | outside h => exact .outside (h _ hus)
  | inside hcs h =>
    rw [List.append_assoc]
    exact .inside hcs (h _ hus)

end InFront

namespace EndsIn

theorem append_step (h : EndsIn d ts) (ht : IsStep t) : EndsIn d (ts ++ [t]) := by
  cases h with
  | outside h => exact .outside (h.append_step ht nofun)
  | inside hcs h =>
    rw [List.append_assoc]
    exact .inside hcs (h.append_step ht nofun)

theorem append_operator {op : Operator} (h : EndsIn d ts) (hop : ¬IsStep (.operator op)) :
    InFront d (ts ++ [.operator op]) := by
  have hlacking : ∀ {ts}, Yields .expression ts → Lacking (ts ++ [.operator op]) := by
    intro ts h us hus
    rw [List.append_assoc]
    exact h.append_operator hop hus
  cases h with
  | outside h => exact .outside (hlacking h)
  | inside hcs h =>
    rw [List.append_assoc]
    exact .inside hcs (hlacking h)

/-- A parenthesis that is closed has been an operand all along. -/
theorem append_closeParen (h : EndsIn (d + 1) ts) : EndsIn d (ts ++ [.closeParen]) := by
  cases h with
  | inside hcs h =>
    rw [List.append_assoc]
    exact hcs.append_factor h.parens.ofAtom

end EndsIn

/-- **What has been read** when a stage is reached. -/
def Stage.HasRead : Stage → List Token → Prop
  | before d, ts => InFront d ts
  | behind d, ts => EndsIn d ts

/-- **One token** leads from what has been read in one stage to what has been read in the next. -/
theorem Stage.HasRead.step {s s' : Stage} (h : s.HasRead ts) (hs : s.step t = some s') :
    s'.HasRead (ts ++ [t]) := by
  unfold Stage.step at hs
  -- one case for each row of the table
  split at hs <;> cases hs
  · exact InFront.append_factor h (Yields.number _).ofAtom
  · exact InFront.append_factor h (Yields.identifier _).ofAtom
  · exact InFront.inside h .nil
  · exact InFront.append_sign h (.inl rfl)
  · exact InFront.append_sign h (.inr (.inl rfl))
  · exact InFront.append_sign h (.inr (.inr ⟨_, rfl⟩))
  · exact EndsIn.append_step h ⟨_, rfl⟩
  · exact EndsIn.append_operator h nofun
  · exact EndsIn.append_operator h nofun
  · exact EndsIn.append_closeParen h

/-- So do many. -/
theorem Stage.HasRead.run {s s' : Stage} (h : s.HasRead ts) (hs : s.run us = some s') :
    s'.HasRead (ts ++ us) := by
  induction us generalizing s ts with
  | nil =>
    obtain rfl := Option.some.inj hs
    rwa [List.append_nil]
  | cons t us ih =>
    rw [run_cons] at hs
    obtain ⟨s'', ht, hus⟩ := Option.bind_eq_some_iff.mp hs
    have hread := ih (h.step ht) hus
    rwa [List.append_assoc] at hread

/-! ### Sentences and their beginnings -/

/-- **The sentences** are the tokens that lead from the first stage to the last. -/
theorem yields_expression_iff :
    Yields .expression ts ↔ (before 0).run ts = some (behind 0) := by
  refine ⟨fun h => h.run 0, fun h => ?_⟩
  have hfirst : (before 0).HasRead [] := InFront.outside .nil
  have hlast : EndsIn 0 ts := hfirst.run h
  cases hlast with
  | outside h => exact h

/-- Every stage leads to the last one. -/
theorem Stage.exists_run_eq (s : Stage) : ∃ us, s.run us = some (behind 0) := by
  have hbehind : ∀ d, ∃ us, (behind d).run us = some (behind 0) := by
    intro d
    induction d with
    | zero => exact ⟨[], rfl⟩
    | succ d ih =>
      obtain ⟨us, hus⟩ := ih
      exact ⟨.closeParen :: us, hus⟩
  cases s with
  | before d =>
    obtain ⟨us, hus⟩ := hbehind d
    exact ⟨.identifier "" :: us, hus⟩
  | behind d => exact hbehind d

/-- **The beginnings of sentences** are the tokens that lead from the first stage anywhere. -/
theorem exists_yields_append_iff :
    (∃ us, Yields .expression (ts ++ us)) ↔ ∃ s, (before 0).run ts = some s := by
  constructor
  · rintro ⟨us, h⟩
    have hrun := h.run 0
    rw [run_append] at hrun
    obtain ⟨s, hs, -⟩ := Option.bind_eq_some_iff.mp hrun
    exact ⟨s, hs⟩
  · rintro ⟨s, hs⟩
    obtain ⟨us, hus⟩ := s.exists_run_eq
    exact ⟨us, yields_expression_iff.mpr (by rw [run_append, hs, Option.bind_some, hus])⟩

end Grammar

end Reckoner
