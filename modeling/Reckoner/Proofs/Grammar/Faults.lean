import Reckoner.Proofs.Grammar.Lookahead
import Reckoner.Proofs.Grammar.Prefixes

/-!
# Faults and the first impossible token

A parser that finds a fault other than one of depth is at the first token that no sentence could
have there (`Reckoner.Grammar.exists_failsAt`): the tokens in front of it are the beginning of
some sentence, and with it they are the beginning of none.

What the parser has read is known from the stages of `Reckoner.Grammar.Stage`. A reply *leads*
from one stage to another (`Reckoner.Parse.Leads`): if it has read something, then the tokens that
it took off lead to the other stage; and if it has found a fault, then they lead to a stage in
which the token it has stopped at cannot be (`Reckoner.Parse.Blames`). Each level of the grammar
leads from before an operand to behind it. It also has to be known of a level that it stops only
at what it cannot go on with, since a token is impossible only if every level has refused it.
-/

namespace Reckoner

namespace Parse

open Grammar Stage

variable {finish : Nat} {s s' s'' : Stage} {E E' : Token → Prop} {ts us : List Located}

/-! ### What a fault says -/

/-- **A fault that is due to the first of the tokens left**, in the stage that has been
reached. -/
inductive Blames : Stage → List Located → Fault → Prop
  /-- An operand has to come, and none begins here. -/
  | operand {d : Nat} {us : List Located} (h : (before d).step (current us) = none) :
      Blames (before d) us (.operandExpected (current us))
  /-- Inside of a parenthesis, what is here neither goes on with the operand nor closes it. -/
  | closing {d : Nat} {us : List Located} (h : (behind (d + 1)).step (current us) = none) :
      Blames (behind (d + 1)) us .closingExpected
  /-- Outside of all parentheses, what is here does not go on with the operand. -/
  | trailing {t : Located} {us : List Located} (h : (behind 0).step t.token = none) :
      Blames (behind 0) (t :: us) (.trailing t.token)

/-- The token that is blamed cannot be there. -/
theorem Blames.step_eq_none {t : Located} {f : Fault} (h : Blames s (t :: us) f) :
    s.step t.token = none := by
  cases h with
  | operand h | closing h | trailing h => exact h

/-- If the end of the line is blamed, no sentence could end there. -/
theorem Blames.ne_behind {f : Fault} (h : Blames s [] f) : s ≠ behind 0 := by
  cases h <;> nofun

/-- **What a result says** when some tokens have led to a stage, and some are left: something has
been read up to the stage `s'`, and what is left begins with a token that `E` allows; or a fault
is due to that token. -/
def Judged (finish : Nat) (s' : Stage) (E : Token → Prop) (reached : Option Stage)
    (us : List Located) : Except ParseError Measured → Prop
  | .ok _ => reached = some s' ∧ E (current us)
  | .error (.malformed f p) =>
    f.isDepth = false → p = place finish us ∧ ∃ s'', reached = some s'' ∧ Blames s'' us f
  | .error (.notAVariable _) => True

variable {reached : Option Stage}

/-- A failure says the same whatever was to be read. -/
theorem Judged.of_error {e : ParseError} (h : Judged finish s' E reached us (.error e))
    (s'' : Stage) (E' : Token → Prop) : Judged finish s'' E' reached us (.error e) := by
  cases e <;> exact h

theorem Judged.mono {x : Except ParseError Measured} (h : Judged finish s' E reached us x)
    (hE : ∀ t, E t → E' t) : Judged finish s' E' reached us x := by
  cases x with
  | error e => exact h.of_error s' E'
  | ok m => exact ⟨h.1, hE _ h.2⟩

/-- **A reply that leads** from the stage `s` to the stage `s'`, in front of a token that `E`
allows. -/
def Leads (finish : Nat) (s s' : Stage) (E : Token → Prop) (r : Reply Measured ts) : Prop :=
  ∃ cs, ts = cs ++ r.rest ∧ Judged finish s' E (s.run (words cs)) r.rest r.result

/-! ### Nodes -/

/-- **The making of a node** finds no fault but one of depth. -/
def OnlyDepth (x : Except ParseError Measured) : Prop :=
  ∀ f p, x = .error (.malformed f p) → f.isDepth

section Nodes

variable {opts : ParseOptions}

theorem OnlyDepth.ok (m : Measured) : OnlyDepth (.ok m) := fun _ _ h => by cases h

theorem OnlyDepth.fault {f : Fault} (hf : f.isDepth) (p : Nat) :
    OnlyDepth (.error (.malformed f p)) := by
  intro g q h
  cases h
  exact hf

theorem OnlyDepth.mapError (r : Except NotAVariable Measured) :
    OnlyDepth (r.mapError .notAVariable) := by
  intro f p h
  cases r <;> cases h

theorem OnlyDepth.checkHeight {x : Except ParseError Measured} (hx : OnlyDepth x) (k pos : Nat) :
    OnlyDepth (checkHeight opts k pos >>= fun _ => x) := by
  intro f p h
  rw [Parse.checkHeight] at h
  split_ifs at h
  · exact hx f p h
  · exact OnlyDepth.fault rfl pos f p h

theorem joinBin_onlyDepth (op : BinOp) (pos : Nat) (l r : Measured) :
    OnlyDepth (joinBin opts op pos l r) :=
  (OnlyDepth.ok _).checkHeight _ pos

theorem joinAssign_onlyDepth (op : AssignOp) (pos : Nat) (l r : Measured) :
    OnlyDepth (joinAssign opts op pos l r) :=
  (OnlyDepth.mapError _).checkHeight _ pos

theorem applySign_onlyDepth (pos : Nat) (m : Measured) (s : Option Sign) :
    OnlyDepth (applySign opts pos m s) := by
  rcases s with _ | _ | _ | s
  · exact .ok m
  · exact .ok m
  · exact (OnlyDepth.ok _).checkHeight _ pos
  · exact (OnlyDepth.mapError _).checkHeight _ pos

theorem applyStep_onlyDepth (s : Step) (pos : Nat) (m : Measured) :
    OnlyDepth (applyStep opts s pos m) := by
  rw [applyStep]
  split
  · exact (OnlyDepth.mapError _).checkHeight _ pos
  · exact OnlyDepth.mapError _

end Nodes

/-! ### Replies put together -/

namespace Leads

variable {r : Reply Measured ts}

/-- What reads nothing stays in its stage. -/
theorem stay {x : Except ParseError Measured} (hx : OnlyDepth x) (hE : E (current ts)) :
    Leads finish s s E (.stay x ts) := by
  refine ⟨[], rfl, ?_⟩
  rcases x with (⟨f, p⟩ | err) | m
  · intro hf
    rw [hx f p rfl] at hf
    cases hf
  · exact trivial
  · exact ⟨rfl, hE⟩

theorem ok {m : Measured} (hE : E (current ts)) : Leads finish s s E (.stay (.ok m) ts) :=
  stay (.ok m) hE

/-- A fault may be found where it is due to the first token. -/
theorem fail {f : Fault} (h : Blames s ts f) :
    Leads finish s s' E (.stay (.error (.malformed f (place finish ts))) ts) :=
  ⟨[], rfl, fun _ => ⟨rfl, s, rfl, h⟩⟩

theorem mono (h : Leads finish s s' E r) (hE : ∀ t, E t → E' t) : Leads finish s s' E' r := by
  obtain ⟨cs, hcs, hr⟩ := h
  exact ⟨cs, hcs, hr.mono hE⟩

/-- **A token or several in front** lead to the stage that a reply goes on from. -/
theorem widen {ws cs : List Located} {h : ts <:+ ws} (hr : Leads finish s' s'' E r)
    (hws : ws = cs ++ ts) (hcs : s.run (words cs) = some s') :
    Leads finish s s'' E (r.widen h) := by
  obtain ⟨bs, hbs, hjudged⟩ := hr
  refine ⟨cs ++ bs, ?_, ?_⟩
  · exact hws.trans (by rw [List.append_assoc]; exact congrArg _ hbs)
  · rwa [words_append, run_append, hcs]

theorem cons (t : Located) (ht : s.step t.token = some s') (hr : Leads finish s' s'' E r) :
    Leads finish s s'' E (r.widen (List.suffix_cons t ts)) :=
  hr.widen (show t :: ts = [t] ++ ts from rfl) ((run_singleton _ _).trans ht)

/-- **One parser and then another** lead from stage to stage. -/
theorem andThen {next : Measured → Parser} (h : Leads finish s s' E r)
    (hnext : ∀ m, E (current r.rest) → Leads finish s' s'' E' (next m r.rest)) :
    Leads finish s s'' E' (r.andThen next) := by
  obtain ⟨cs, hcs, hjudged⟩ := h
  rcases hr : r.result with e | m
  · rw [Reply.andThen_of_error hr]
    rw [hr] at hjudged
    exact ⟨cs, hcs, hr ▸ hjudged.of_error s'' E'⟩
  · rw [Reply.andThen_of_ok hr]
    rw [hr] at hjudged
    exact (hnext m hjudged.2).widen hcs hjudged.1

end Leads

/-! ### The levels of the grammar -/

section Levels

variable {opts : ParseOptions} {d : Nat}

/-- **The rest of a chain** leads from behind an operand to behind the last one, and stops only in
front of what is no operator of the chain. -/
theorem chainFrom_leads {ω : Type} {op? : Token → Option ω}
    {join : ω → Nat → Measured → Measured → Except ParseError Measured} {operand : Parser}
    (hfinish : op? .finish = none)
    (hop : ∀ t op, op? t = some op → (behind d).step t = some (before d))
    (hjoin : ∀ op pos l r, OnlyDepth (join op pos l r))
    (hoperand : ∀ ts, Leads finish (before d) (behind d) E (operand ts))
    (l : Measured) (hts : E (current ts)) :
    Leads finish (behind d) (behind d) (fun t => E t ∧ op? t = none)
      (chainFrom op? join operand l ts) := by
  induction hn : ts.length using Nat.strong_induction_on generalizing l ts with
  | h n ih =>
    rcases hcurrent : op? (current ts) with _ | op
    · rw [chainFrom_eq_stay hcurrent]
      exact .ok ⟨hts, hcurrent⟩
    cases ts with
    | nil => exact absurd hcurrent (by simp [current, hfinish])
    | cons t ts =>
      rw [chainFrom_cons hcurrent]
      refine .cons t (hop _ _ hcurrent) ((hoperand ts).andThen fun r hrest => ?_)
      refine (Leads.stay (hjoin op _ l r) hrest).andThen fun m _ => ?_
      have hle := (operand ts).suffix.length_le
      rw [List.length_cons] at hn
      exact ih _ (by simp only [Reply.stay]; omega) m hrest rfl

theorem chain_leads {ω : Type} {op? : Token → Option ω}
    {join : ω → Nat → Measured → Measured → Except ParseError Measured} {operand : Parser}
    (hfinish : op? .finish = none)
    (hop : ∀ t op, op? t = some op → (behind d).step t = some (before d))
    (hjoin : ∀ op pos l r, OnlyDepth (join op pos l r))
    (hoperand : ∀ ts, Leads finish (before d) (behind d) E (operand ts)) (ts : List Located) :
    Leads finish (before d) (behind d) (fun t => E t ∧ op? t = none)
      (chain op? join operand ts) := by
  rw [chain_eq]
  exact (hoperand ts).andThen fun l hrest => chainFrom_leads hfinish hop hjoin hoperand l hrest

theorem stepsFrom_leads (m : Measured) (ts : List Located) :
    Leads finish (behind d) (behind d) (step? · = none) (stepsFrom opts m ts) := by
  induction ts generalizing m with
  | nil => exact .ok rfl
  | cons t ts ih =>
    rcases hstep : step? (current (t :: ts)) with _ | s
    · rw [stepsFrom_eq_stay hstep]
      exact .ok hstep
    · rw [stepsFrom_cons hstep]
      refine .cons t (step_step d ⟨s, step?_eq_some.mp hstep⟩) ?_
      exact (Leads.stay (E := fun _ => True) (applyStep_onlyDepth s _ m) trivial).andThen
        fun a _ => ih a

/-- **A factor** leads past an operand, if its atom does so wherever no sign is left. -/
theorem factor_leads {atom : Parser} (hatom : ∀ ts, sign? (current ts) = none →
      Leads finish (before d) (behind d) (fun _ => True) (atom ts)) (ts : List Located) :
    Leads finish (before d) (behind d) (step? · = none) (factor opts finish atom ts) := by
  have hsigns : (before d).run (words (ts.takeWhile isSign)) = some (before d) := by
    refine run_of_forall fun t ht => step_sign d ?_
    exact forall_isSign_iff.mpr (List.all_eq_true.mp List.all_takeWhile) t ht
  have hcurrent : sign? (current (ts.dropWhile isSign)) = none := by
    have hhead := List.head?_dropWhile_not isSign ts
    rcases hdrop : ts.dropWhile isSign with _ | ⟨t, us⟩
    · rfl
    · rw [hdrop] at hhead
      exact Option.isNone_iff_eq_none.mp (Option.isSome_eq_false_iff.mp hhead)
  rw [factor_eq]
  refine .andThen (.widen (hatom _ hcurrent) List.takeWhile_append_dropWhile.symm hsigns) ?_
  intro m _
  exact (Leads.stay (E := fun _ => True) (applySign_onlyDepth _ m _) trivial).andThen fun a _ =>
    stepsFrom_leads a _

/-- **A token that is no operator.** -/
def NoOperator (t : Token) : Prop := ∀ op, t ≠ .operator op

theorem NoOperator.of_levels {t : Token}
    (h : ((step? t = none ∧ productOp? t = none) ∧ sumOp? t = none) ∧ assignOp? t = none) :
    NoOperator t := by
  rintro op rfl
  cases op with
  | binary op => cases op <;> simp [productOp?, sumOp?] at h
  | step s => cases h.1.1.1
  | assign op => cases h.2

theorem NoOperator.step_behind {t : Token} (h : NoOperator t) : (behind 0).step t = none := by
  cases t with
  | operator op => exact absurd rfl (h op)
  | _ => rfl

theorem NoOperator.step_behind_succ {t : Token} (h : NoOperator t) (ht : t ≠ .closeParen) :
    (behind (d + 1)).step t = none := by
  cases t with
  | operator op => exact absurd rfl (h op)
  | closeParen => exact absurd rfl ht
  | _ => rfl

theorem step_before_of_sign?_eq_none {op : Operator} (h : sign? (.operator op) = none) :
    (before d).step (.operator op) = none := by
  cases op with
  | binary op => cases op <;> first | rfl | cases h
  | step s => cases h
  | assign op => rfl

theorem close_leads (m : Measured) (ts : List Located) (hts : NoOperator (current ts)) :
    Leads finish (behind (d + 1)) (behind d) (fun _ => True) (close finish m ts) := by
  rcases ts with _ | ⟨⟨t, pos⟩, ts⟩
  · exact .fail (.closing rfl)
  cases t with
  | closeParen => exact .cons _ rfl (.ok trivial)
  | _ => exact .fail (.closing (hts.step_behind_succ nofun))

/-- **An atom** leads past an operand, if the expression in its parentheses does so. -/
theorem atom_leads {inner : Option Parser} (hinner : ∀ p ∈ inner, ∀ ts,
      Leads finish (before (d + 1)) (behind (d + 1)) NoOperator (p ts))
    (ts : List Located) (hts : sign? (current ts) = none) :
    Leads finish (before d) (behind d) (fun _ => True) (atom opts finish inner ts) := by
  rcases ts with _ | ⟨⟨t, pos⟩, ts⟩
  · exact .fail (.operand rfl)
  cases t with
  | number v => exact .cons _ rfl (.ok trivial)
  | identifier x => exact .cons _ rfl (.ok trivial)
  | openParen =>
    rcases inner with _ | p
    · exact Leads.stay (E := fun _ => True) (.fault rfl pos) trivial
    · rw [atom_openParen]
      exact .cons _ rfl ((hinner p rfl ts).andThen fun m hrest => close_leads m _ hrest)
  | operator op => exact .fail (.operand (step_before_of_sign?_eq_none hts))
  | _ => exact .fail (.operand rfl)

end Levels

/-- **An expression** leads past an operand, and stops only in front of what is no operator. -/
theorem expression_leads (opts : ParseOptions) (n d : Nat) (ts : List Located) :
    Leads finish (before d) (behind d) NoOperator (expression opts finish n ts) := by
  have hlevels : ∀ {n} {d}, (∀ ts, sign? (current ts) = none →
        Leads finish (before d) (behind d) (fun _ => True) (atomOf opts finish n ts)) →
      ∀ ts, Leads finish (before d) (behind d) NoOperator (expression opts finish n ts) := by
    intro n d hatom ts
    rw [expression_eq]
    refine (chain_leads rfl ?_ joinAssign_onlyDepth (chain_leads rfl ?_ joinBin_onlyDepth
      (chain_leads rfl ?_ joinBin_onlyDepth (factor_leads hatom))) ts).mono
        fun t => NoOperator.of_levels
    · intro t op hop
      rw [assignOp?_eq_some.mp hop, step]
    · intro t op hop
      rw [(sumOp?_eq_some.mp hop).1, step]
    · intro t op hop
      rw [(productOp?_eq_some.mp hop).1, step]
  induction n generalizing d ts with
  | zero => exact hlevels (atom_leads fun p hp => by cases hp) ts
  | succ n ih =>
    refine hlevels (atom_leads ?_) ts
    rintro p ⟨⟩ us
    exact ih (d + 1) us

/-- **A whole line** leads from the first stage to the last. -/
theorem wholeLine_leads (opts : ParseOptions) (ts : List Located) :
    Leads finish (before 0) (behind 0) (fun _ => True) (wholeLine opts finish ts) := by
  refine (expression_leads opts opts.maxDepth 0 ts).andThen fun m hrest => ?_
  generalize (expression opts finish opts.maxDepth ts).rest = us at hrest
  cases us with
  | nil => exact .ok trivial
  | cons t us => exact .fail (.trailing hrest.step_behind)

/-- **A fault of a whole line** other than one of depth is due to the first of the tokens that are
left. -/
theorem exists_blames_of_wholeLine {opts : ParseOptions} {f : Fault} {p : Nat}
    (h : (wholeLine opts finish ts).result = .error (.malformed f p)) (hf : f.isDepth = false) :
    ∃ cs s, ts = cs ++ (wholeLine opts finish ts).rest ∧
      p = place finish (wholeLine opts finish ts).rest ∧
      (before 0).run (words cs) = some s ∧ Blames s (wholeLine opts finish ts).rest f := by
  obtain ⟨cs, hcs, hjudged⟩ : Leads finish _ _ _ (wholeLine opts finish ts) :=
    wholeLine_leads opts ts
  rw [h] at hjudged
  obtain ⟨hp, s, hs, hblames⟩ := hjudged hf
  exact ⟨cs, s, hcs, hp, hs, hblames⟩

end Parse

namespace Grammar

open Parse Stage

/-! ### The first impossible token -/

/-- **A place where a list of tokens stops being the beginning of a sentence.** The end of the
list counts as one. -/
structure FirstImpossible (ts : List Token) (k : Nat) : Prop where
  /-- The tokens in front of it are the beginning of a sentence. -/
  begins : ∃ us, Yields .expression (ts.take k ++ us)
  /-- With the token that is there they are the beginning of none. -/
  stops : ∀ t, ts[k]? = some t → ∀ us, ¬Yields .expression (ts.take k ++ t :: us)
  /-- If no token is there, they are not a sentence themselves. -/
  ends : ts[k]? = none → ¬Yields .expression (ts.take k)

/-- A token that is blamed is impossible. -/
theorem FirstImpossible.of_blames {cs us : List Located} {s : Stage} {f : Fault}
    (hcs : (before 0).run (words cs) = some s) (h : Blames s us f) :
    FirstImpossible (words (cs ++ us)) cs.length := by
  have hlength : cs.length = (words cs).length := (List.length_map _).symm
  have htake : (words (cs ++ us)).take cs.length = words cs := by
    rw [words_append, hlength, List.take_left]
  have hget : (words (cs ++ us))[cs.length]? = (words us).head? := by
    rw [words_append, hlength, List.getElem?_append_right (Nat.le_refl _), Nat.sub_self,
      List.head?_eq_getElem?]
  refine ⟨?_, ?_, ?_⟩
  · rw [htake]
    exact exists_yields_append_iff.mpr ⟨s, hcs⟩
  · intro t ht vs hvs
    rw [hget] at ht
    rw [htake, yields_expression_iff, run_append, hcs, Option.bind_some, run_cons] at hvs
    cases us with
    | nil => cases ht
    | cons u us =>
      obtain rfl := Option.some.inj ht
      rw [h.step_eq_none] at hvs
      cases hvs
  · intro ht hyields
    rw [hget] at ht
    rw [htake, yields_expression_iff, hcs] at hyields
    obtain rfl : us = [] := words_eq_nil_iff.mp (List.head?_eq_none_iff.mp ht)
    exact h.ne_behind (Option.some.inj hyields)

/-- **A line fails at its `k`-th token**, or at its end if that is behind the last one. -/
def FailsAt (line : String) (opts : ParseOptions) (k : Nat) (f : Fault) : Prop :=
  k ≤ (Scanner.ofLine line).tokens.length ∧
    parse line opts =
      .error (.malformed f (place line.length ((Scanner.ofLine line).tokens.drop k)))

/-- The end of a line is none of its tokens. -/
theorem finish_notMem_words_tokens (line : String) :
    Token.finish ∉ words (Scanner.ofLine line).tokens := by
  intro h
  obtain ⟨t, ht, htoken⟩ := List.mem_map.mp h
  exact Scanner.ne_finish_of_mem_tokens ht htoken

/-- **How a line is read depends on the tokens up to the one at which reading stops**: where that is
the one behind `cs`, every line that agrees so far is read alike, under any relation that holds of
the places so far. -/
theorem alike_of_take_eq {line : String} {opts : ParseOptions} {cs : List Located} (line' : String)
    (Near : Nat → Nat → Prop) (hfinish : Near line.length line'.length)
    (hcs : cs ++ (wholeLine opts line.length (Scanner.ofLine line).tokens).rest =
      (Scanner.ofLine line).tokens)
    (hnear : ∀ j ≤ cs.length, Near (place line.length ((Scanner.ofLine line).tokens.drop j))
      (place line'.length ((Scanner.ofLine line').tokens.drop j)))
    (htake : (tokenize line').take (cs.length + 1) = (tokenize line).take (cs.length + 1)) :
    cs.length ≤ (Scanner.ofLine line').tokens.length ∧
      (wholeLine opts line'.length (Scanner.ofLine line').tokens).rest =
        (Scanner.ofLine line').tokens.drop cs.length ∧
      (Comparison.sameOptions opts line.length line'.length Near hfinish).Alike
        (wholeLine opts line.length (Scanner.ofLine line).tokens).result
        (wholeLine opts line'.length (Scanner.ofLine line').tokens).result := by
  have hdrop := congrArg (List.drop cs.length) hcs
  rw [List.drop_left] at hdrop
  have hle : cs.length ≤ (Scanner.ofLine line).tokens.length :=
    List.IsPrefix.length_le ⟨_, hcs⟩
  let c := Comparison.sameOptions opts line.length line'.length Near hfinish
  obtain ⟨hle', hagree⟩ := Comparison.Agree.of_take_eq (c := c) hle hnear
    (finish_notMem_words_tokens line) (finish_notMem_words_tokens line') htake.symm
  rw [← hdrop] at hagree
  exact ⟨hle', Comparison.wholeLine_of_agree hfinish hagree⟩

/-- **A fault depends on the tokens up to the one that is wrong**: where that is the one behind
`cs`, every line that agrees so far fails there too. -/
theorem failsAt_of_take_eq {line : String} {opts : ParseOptions} {cs : List Located} {f : Fault}
    {p : Nat}
    (hresult : (wholeLine opts line.length (Scanner.ofLine line).tokens).result =
      .error (.malformed f p)) (hf : f.isDepth = false)
    (hcs : (Scanner.ofLine line).tokens =
      cs ++ (wholeLine opts line.length (Scanner.ofLine line).tokens).rest)
    (line' : String)
    (htake : (tokenize line').take (cs.length + 1) = (tokenize line).take (cs.length + 1)) :
    FailsAt line' opts cs.length f := by
  -- the tokens alone are known to agree, so any places correspond
  obtain ⟨hle', hrest, halike⟩ := alike_of_take_eq line' (fun _ _ => True) trivial hcs.symm
    (fun _ _ => trivial) htake
  rw [hresult] at halike
  obtain ⟨q, hq, -⟩ := halike.exists_eq_malformed
  obtain ⟨-, -, -, hplace, -⟩ := exists_blames_of_wholeLine hq hf
  rw [hrest] at hplace
  exact ⟨hle', parse_eq_error_iff.mpr (hplace ▸ hq)⟩

/-- **A fault other than one of depth is at the first impossible token** of the line, or at its end
if the tokens could go on but cannot end there. The place of the fault is the place of that token,
so the tokens at lesser places are those in front of it; and a line that has the same tokens up to
that one fails at the same token with the same fault. -/
theorem exists_failsAt {line : String} {opts : ParseOptions} {f : Fault} {p : Nat}
    (h : parse line opts = .error (.malformed f p)) (hf : f.isDepth = false) :
    ∃ k, FailsAt line opts k f ∧
      p = place line.length ((Scanner.ofLine line).tokens.drop k) ∧
      (Scanner.ofLine line).tokens.filter (·.position < p) =
        (Scanner.ofLine line).tokens.take k ∧
      FirstImpossible (words (Scanner.ofLine line).tokens) k ∧
      ∀ line', (tokenize line').take (k + 1) = (tokenize line).take (k + 1) →
        FailsAt line' opts k f := by
  have hresult := parse_eq_error_iff.mp h
  obtain ⟨cs, s, hcs, hp, hs, hblames⟩ := exists_blames_of_wholeLine hresult hf
  have hfails := failsAt_of_take_eq hresult hf hcs
  have hfilter := Scanner.filter_tokens_eq hcs
  have hfirst := FirstImpossible.of_blames hs hblames
  have hdrop := congrArg (List.drop cs.length) hcs
  have htake := congrArg (List.take cs.length) hcs
  rw [List.drop_left] at hdrop
  rw [List.take_left] at htake
  rw [← hcs] at hfirst
  exact ⟨cs.length, hfails line rfl, by rw [hdrop, hp], by rw [htake, hp, hfilter], hfirst, hfails⟩

/-- A parenthesis that is closed in front of an operand, and another line that is the same up to
that parenthesis. -/
theorem exists_failsAt_closeParen :
    parse "(1 + ) 2" = .error (.malformed (.operandExpected .closeParen) 5) ∧
      (Fault.operandExpected .closeParen).isDepth = false ∧
      FailsAt "(1 + ) 2" {} 3 (.operandExpected .closeParen) ∧
      FirstImpossible (words (Scanner.ofLine "(1 + ) 2").tokens) 3 ∧
      FailsAt "(1+)*(x" {} 3 (.operandExpected .closeParen) := by
  have h : parse "(1 + ) 2" = .error (.malformed (.operandExpected .closeParen) 5) := by
    decide +kernel
  obtain ⟨k, hfails, -, hfilter, hfirst, hlike⟩ := exists_failsAt h rfl
  have hlength : ((Scanner.ofLine "(1 + ) 2").tokens.filter (·.position < 5)).length = 3 := by
    decide +kernel
  obtain rfl : k = 3 := by
    rwa [hfilter, List.length_take, Nat.min_eq_left hfails.1] at hlength
  exact ⟨h, rfl, hfails, hfirst, hlike "(1+)*(x" (by decide +kernel)⟩

end Grammar

end Reckoner
