import Reckoner.Proofs.Grammar.Basic
import Reckoner.Proofs.Grammar.Sequencing
import Reckoner.Proofs.Nodes

/-!
# What the levels read

The parsers of `Reckoner.Parse`, one level at a time, against the grammar. Two facts are
wanted of each level, and neither mentions the levels below it other than through the
parser of its operands:

* *it reads only* what the grammar derives (`Reckoner.Parse.ReadsOnly`), if its operands do;
* *it goes on* behind what the grammar derives: a left operand that is followed by an
  operator and by what the operand parser reads becomes the left operand of what comes next.

The second one is stated as an equation between what is read from two places of a line,
so that nothing has to be said about the rest of the line; the rest may be faulty.
-/

namespace Reckoner

namespace Parse

open Grammar Reply

open Except (map_eq_ok_iff mapError_eq_ok_iff)

variable {opts : ParseOptions}

/-! ### Nodes within the limit -/

/-- A node is made if its height is allowed and whatever else it takes is there. -/
theorem checkHeight_bind_eq_ok_iff {h pos : Nat} {r : Except ParseError Measured}
    {m : Measured} :
    (checkHeight opts h pos >>= fun _ => r) = .ok m ↔ h ≤ opts.maxDepth ∧ r = .ok m := by
  rw [checkHeight]
  split_ifs with hh
  · exact ⟨fun hr => ⟨hh, hr⟩, And.right⟩
  · exact ⟨nofun, fun hr => absurd hr.1 hh⟩

theorem joinBin_eq_ok_iff {op : BinOp} {pos : Nat} {l r m : Measured} :
    joinBin opts op pos l r = .ok m ↔
      m.expr = .bin op l.expr r.expr ∧ (Expr.bin op l.expr r.expr).height ≤ opts.maxDepth := by
  rw [joinBin, checkHeight_bind_eq_ok_iff, l.height_eq, r.height_eq, and_comm]
  refine and_congr_left fun _ => ⟨fun h => ?_, fun h => ?_⟩
  · cases h
    rfl
  · exact congrArg Except.ok (Measured.ext_expr h.symm)

theorem joinAssign_eq_ok_iff {op : AssignOp} {pos : Nat} {l r m : Measured} :
    joinAssign opts op pos l r = .ok m ↔
      ∃ x, l.expr = .var x ∧ m.expr = .assign op x r.expr ∧
        (Expr.assign op x r.expr).height ≤ opts.maxDepth := by
  rw [joinAssign, checkHeight_bind_eq_ok_iff, mapError_eq_ok_iff, Measured.mkAssign_eq_ok_iff,
    l.height_eq, r.height_eq]
  constructor
  · rintro ⟨hh, x, hx, hm⟩
    rw [hx] at hh
    exact ⟨x, hx, hm, hh⟩
  · rintro ⟨x, hx, hm, hh⟩
    rw [hx]
    exact ⟨hh, x, rfl, hm⟩

/-- **An atom under its signs**: the parser makes of it what the grammar says. -/
theorem applySign_eq_ok_iff {pos : Nat} {a b : Measured} {o : Option Token}
    (ho : ∀ t ∈ o, IsSign t) :
    applySign opts pos a (o >>= sign?) = .ok b ↔ Signed opts o a.expr b.expr := by
  obtain ⟨e, _, rfl⟩ := a
  obtain ⟨f, _, rfl⟩ := b
  constructor
  -- one case for each form of the last sign; the signs before it are nowhere looked at
  · intro h
    rcases o with _ | t
    · cases h
      exact .bare _
    rcases ho t rfl with rfl | rfl | ⟨s, rfl⟩
    · cases h
      exact .plus _
    · obtain ⟨hh, hm⟩ := checkHeight_bind_eq_ok_iff.mp h
      cases hm
      exact .minus hh
    · obtain ⟨hh, hm⟩ := checkHeight_bind_eq_ok_iff.mp h
      obtain ⟨x, rfl, rfl⟩ := Measured.mkUpdate_eq_ok_iff.mp (mapError_eq_ok_iff.mp hm)
      exact .step hh
  · intro h
    cases h with
    | bare => rfl
    | plus => rfl
    | minus hh => exact checkHeight_bind_eq_ok_iff.mpr ⟨hh, rfl⟩
    | step hh => exact checkHeight_bind_eq_ok_iff.mpr ⟨hh, rfl⟩

/-- **A step behind an operand**: the parser makes of it what the grammar says. -/
theorem applyStep_eq_ok_iff {s : Step} {pos : Nat} {a b : Measured} :
    applyStep opts s pos a = .ok b ↔ Stepped opts s a.expr b.expr := by
  obtain ⟨e, _, rfl⟩ := a
  obtain ⟨f, _, rfl⟩ := b
  rw [applyStep]
  constructor
  · intro h
    split at h
    · next htrailing =>
      obtain ⟨hh, hm⟩ := checkHeight_bind_eq_ok_iff.mp h
      obtain ⟨x, rfl, rfl⟩ := Measured.mkUpdate_eq_ok_iff.mp (mapError_eq_ok_iff.mp hm)
      exact .applied htrailing hh
    · next htrailing =>
      obtain ⟨x, hx, hvar⟩ := map_eq_ok_iff.mp (mapError_eq_ok_iff.mp h)
      obtain rfl := Expr.target_eq_ok_iff.mp hx
      cases hvar
      exact .discarded x htrailing
  · intro h
    cases h with
    | discarded x htrailing => rw [htrailing]; rfl
    | applied htrailing hh =>
      rw [htrailing]
      exact checkHeight_bind_eq_ok_iff.mpr ⟨hh, rfl⟩

/-! ### What a parser reads -/

/-- The tokens without their places. -/
def words (ts : List Located) : List Token := ts.map (·.token)

theorem words_append (cs bs : List Located) : words (cs ++ bs) = words cs ++ words bs :=
  List.map_append

theorem words_cons (c : Located) (cs : List Located) : words (c :: cs) = c.token :: words cs := rfl

theorem words_eq_nil_iff {cs : List Located} : words cs = [] ↔ cs = [] := List.map_eq_nil_iff

theorem words_eq_cons_iff {cs : List Located} {t : Token} {ts : List Token} :
    words cs = t :: ts ↔ ∃ pos us, cs = ⟨t, pos⟩ :: us ∧ words us = ts := by
  cases cs with
  | nil => simp [words]
  | cons c cs =>
    obtain ⟨u, pos⟩ := c
    constructor
    · intro h
      obtain ⟨rfl, rfl⟩ := List.cons_eq_cons.mp h
      exact ⟨pos, cs, rfl, rfl⟩
    · rintro ⟨_, _, h, rfl⟩
      cases h
      rfl

theorem words_eq_append_iff {cs : List Located} {ts us : List Token} :
    words cs = ts ++ us ↔ ∃ bs as, cs = bs ++ as ∧ words bs = ts ∧ words as = us :=
  List.map_eq_append_iff

/-- **A parser reads only** what a relation between tokens and expressions holds of:
whatever it takes off the tokens and whatever it makes of that are so related. -/
def ReadsOnly (p : Parser) (D : List Token → Expr → Prop) : Prop :=
  ∀ ts us m, (p ts).outcome = (.ok m, us) → ∃ cs, ts = cs ++ us ∧ D (words cs) m.expr

/-! ### Chains -/

section Chains

variable {ω : Type} {op? : Token → Option ω}
  {join : ω → Nat → Measured → Measured → Except ParseError Measured} {operand : Parser}

/-- A chain ends where there is no operator. -/
theorem chainFrom_of_none {l : Measured} {ts : List Located} (h : op? (current ts) = none) :
    (chainFrom op? join operand l ts).outcome = (.ok l, ts) :=
  congrArg outcome (chainFrom_eq_stay h)

/-- Where there is one, the chain goes on with the node that is made. -/
theorem chainFrom_of_some {l r m : Measured} {t : Located} {ts us : List Located} {op : ω}
    (hop : op? t.token = some op) (hr : (operand ts).outcome = (.ok r, us))
    (hm : join op t.position l r = .ok m) :
    (chainFrom op? join operand l (t :: ts)).outcome =
      (chainFrom op? join operand m us).outcome := by
  rw [chainFrom_cons hop, outcome_widen, outcome_andThen hr, hm, stay_ok_andThen]

/-- **What a chain can do**: end at once, or read an operator and an operand. -/
theorem chainFrom_cases {l m : Measured} {ts us : List Located}
    (h : (chainFrom op? join operand l ts).outcome = (.ok m, us)) :
    (m = l ∧ us = ts) ∨
      ∃ t ts' op r vs l', ts = t :: ts' ∧ op? t.token = some op ∧
        (operand ts').outcome = (.ok r, vs) ∧ join op t.position l r = .ok l' ∧
        (chainFrom op? join operand l' vs).outcome = (.ok m, us) := by
  cases ts with
  | nil =>
    rw [chainFrom] at h
    cases h
    exact .inl ⟨rfl, rfl⟩
  | cons t ts =>
    rcases hop : op? (current (t :: ts)) with _ | op
    · rw [chainFrom_of_none hop] at h
      cases h
      exact .inl ⟨rfl, rfl⟩
    · rw [chainFrom_cons hop, outcome_widen] at h
      obtain ⟨r, vs, hr, h⟩ := outcome_andThen_eq_ok_iff.mp h
      obtain ⟨l', hm, hrest⟩ := outcome_stay_andThen_eq_ok_iff.mp h
      exact .inr ⟨t, ts, op, r, vs, l', rfl, hop, hr, hm, hrest⟩

/-- The operands behind the first one, given what has been read in front of them. -/
theorem chainFrom_readsOnly {D O : List Token → Expr → Prop} (hoperand : ReadsOnly operand O)
    (hjoin : ∀ cs bs t op pos l r m, D cs l.expr → O bs r.expr → op? t = some op →
      join op pos l r = .ok m → D (cs ++ t :: bs) m.expr)
    {cs : List Located} {l : Measured} (hl : D (words cs) l.expr) {ts us : List Located}
    {m : Measured} (h : (chainFrom op? join operand l ts).outcome = (.ok m, us)) :
    ∃ bs, ts = bs ++ us ∧ D (words (cs ++ bs)) m.expr := by
  -- by the number of tokens left; what has been read so far grows with each round
  induction hn : ts.length using Nat.strong_induction_on generalizing cs l ts with
  | h n ih =>
    rcases chainFrom_cases h with ⟨rfl, rfl⟩ | ⟨t, ts, op, r, vs, l', rfl, hop, hr, hm, hrest⟩
    · exact ⟨[], rfl, by rwa [List.append_nil]⟩
    · obtain ⟨rs, rfl, hO⟩ := hoperand _ _ _ hr
      have hD : D (words (cs ++ t :: rs)) l'.expr := by
        rw [words_append, words_cons]
        exact hjoin _ _ _ _ _ _ _ _ hl hO hop hm
      simp only [List.length_cons, List.length_append] at hn
      obtain ⟨bs, rfl, hres⟩ := ih vs.length (by omega) hD hrest rfl
      exact ⟨t :: (rs ++ bs), by simp, by simpa using hres⟩

theorem chain_of_ok {l : Measured} {ts us : List Located}
    (h : (operand ts).outcome = (.ok l, us)) :
    (chain op? join operand ts).outcome = (chainFrom op? join operand l us).outcome := by
  rw [chain_eq, outcome_andThen h]

/-- What a chain reads, it reads from its first operand on. -/
theorem chain_cases {m : Measured} {ts us : List Located}
    (h : (chain op? join operand ts).outcome = (.ok m, us)) :
    ∃ l vs, (operand ts).outcome = (.ok l, vs) ∧
      (chainFrom op? join operand l vs).outcome = (.ok m, us) := by
  rw [chain_eq] at h
  exact outcome_andThen_eq_ok_iff.mp h

/-- **A chain reads only** what its operands and its operators allow. -/
theorem chain_readsOnly {D O : List Token → Expr → Prop} (hoperand : ReadsOnly operand O)
    (hfirst : ∀ cs e, O cs e → D cs e)
    (hjoin : ∀ cs bs t op pos l r m, D cs l.expr → O bs r.expr → op? t = some op →
      join op pos l r = .ok m → D (cs ++ t :: bs) m.expr) :
    ReadsOnly (chain op? join operand) D := by
  intro ts us m h
  obtain ⟨l, vs, hl, hrest⟩ := chain_cases h
  obtain ⟨cs, rfl, hO⟩ := hoperand _ _ _ hl
  obtain ⟨bs, rfl, hD⟩ := chainFrom_readsOnly hoperand hjoin (hfirst _ _ hO) hrest
  exact ⟨cs ++ bs, by rw [List.append_assoc], hD⟩

end Chains

/-! ### Factors -/

section Factors

variable {finish : Nat} {atom : Parser}

/-- The sign that counts is the last one. -/
theorem lastSign?_eq (ts : List Located) :
    lastSign? ts = (words (ts.takeWhile isSign)).getLast? >>= sign? := by
  rw [lastSign?, words, List.getLast?_map]
  cases (ts.takeWhile isSign).getLast? <;> rfl

theorem isSome_sign?_iff {t : Token} : (sign? t).isSome ↔ IsSign t := by
  unfold sign? IsSign
  split <;> simp_all

theorem forall_isSign_iff {ts : List Located} :
    (∀ t ∈ words ts, IsSign t) ↔ ∀ t ∈ ts, isSign t := by
  rw [words, List.forall_mem_map]
  exact forall₂_congr fun t _ => isSome_sign?_iff.symm

/-- The steps behind an operand end where there is no step. -/
theorem stepsFrom_of_none {a : Measured} {ts : List Located} (h : step? (current ts) = none) :
    (stepsFrom opts a ts).outcome = (.ok a, ts) :=
  congrArg outcome (stepsFrom_eq_stay h)

/-- Where there is one, it is taken of the operand. -/
theorem stepsFrom_of_some {a b : Measured} {s : Step} {pos : Nat} {ts : List Located}
    (h : Stepped opts s a.expr b.expr) :
    (stepsFrom opts a (⟨.operator (.step s), pos⟩ :: ts)).outcome =
      (stepsFrom opts b ts).outcome := by
  rw [stepsFrom_cons (t := ⟨.operator (.step s), pos⟩) rfl, outcome_widen,
    applyStep_eq_ok_iff.mpr h, stay_ok_andThen]

/-- **The steps of the grammar** are read one after the other. -/
theorem stepsFrom_of_trailed {e f : Expr} {steps us : List Located}
    (h : Trailed opts e (words steps) f) :
    (stepsFrom opts e.measured (steps ++ us)).outcome =
      (stepsFrom opts f.measured us).outcome := by
  generalize hts : words steps = ts at h
  induction h generalizing steps with
  | nil => rw [words_eq_nil_iff.mp hts, List.nil_append]
  | cons hs _ ih =>
    obtain ⟨pos, rest, rfl, hrest⟩ := words_eq_cons_iff.mp hts
    exact (stepsFrom_of_some hs).trans (ih hrest)

theorem step?_eq_some {t : Token} {s : Step} : step? t = some s ↔ t = .operator (.step s) := by
  unfold step?
  split <;> simp_all

/-- **Only steps of the grammar are read** behind an operand. -/
theorem exists_trailed_of_stepsFrom {a m : Measured} {ts us : List Located}
    (h : (stepsFrom opts a ts).outcome = (.ok m, us)) :
    ∃ cs, ts = cs ++ us ∧ Trailed opts a.expr (words cs) m.expr := by
  induction ts generalizing a with
  | nil =>
    cases h
    exact ⟨[], rfl, .nil _⟩
  | cons t ts ih =>
    rcases hstep : step? (current (t :: ts)) with _ | s
    · rw [stepsFrom_of_none hstep] at h
      cases h
      exact ⟨[], rfl, .nil _⟩
    · rw [stepsFrom_cons hstep, outcome_widen] at h
      obtain ⟨b, hb, hrest⟩ := outcome_stay_andThen_eq_ok_iff.mp h
      obtain ⟨cs, rfl, hcs⟩ := ih hrest
      have htoken : t.token = .operator (.step s) := step?_eq_some.mp hstep
      refine ⟨t :: cs, rfl, ?_⟩
      rw [words_cons, htoken]
      exact .cons (applyStep_eq_ok_iff.mp hb) hcs

theorem takeWhile_isSign_append {signs us : List Located} (hsigns : ∀ t ∈ signs, isSign t)
    (hus : sign? (current us) = none) :
    (signs ++ us).takeWhile isSign = signs ∧ (signs ++ us).dropWhile isSign = us := by
  rw [List.takeWhile_append_of_pos hsigns, List.dropWhile_append_of_pos hsigns]
  cases us with
  | nil => exact ⟨by simp, rfl⟩
  | cons t us =>
    have h : isSign t = false := congrArg Option.isSome hus
    rw [List.takeWhile_cons_of_neg (by simp [h]), List.dropWhile_cons_of_neg (by simp [h])]
    exact ⟨List.append_nil _, rfl⟩

/-- Behind signs and an atom a factor goes on with the steps. -/
theorem factor_of_ok {signs us vs : List Located} {a b : Measured}
    (hsigns : ∀ t ∈ words signs, IsSign t) (hus : sign? (current us) = none)
    (ha : (atom us).outcome = (.ok a, vs))
    (hs : Signed opts (words signs).getLast? a.expr b.expr) :
    (factor opts finish atom (signs ++ us)).outcome = (stepsFrom opts b vs).outcome := by
  obtain ⟨htake, hdrop⟩ := takeWhile_isSign_append (forall_isSign_iff.mp hsigns) hus
  have hb : applySign opts (place finish (signs ++ us)) a (lastSign? (signs ++ us)) = .ok b := by
    rw [lastSign?_eq, htake]
    exact (applySign_eq_ok_iff fun t ht => hsigns t (List.mem_of_getLast? ht)).mpr hs
  rw [← hdrop] at ha
  have hread := (outcome_widen _ (List.dropWhile_suffix isSign)).trans ha
  rw [factor_eq, outcome_andThen hread, hb, stay_ok_andThen]

/-- **A factor reads only** what its atom and the grammar allow. -/
theorem factor_readsOnly {A D : List Token → Expr → Prop} (hatom : ReadsOnly atom A)
    (hfactor : ∀ signs ts steps a b c, (∀ t ∈ signs, IsSign t) → A ts a →
      Signed opts signs.getLast? a b → Trailed opts b steps c → D (signs ++ (ts ++ steps)) c) :
    ReadsOnly (factor opts finish atom) D := by
  intro ts us m h
  have hsigns : ∀ t ∈ words (ts.takeWhile isSign), IsSign t :=
    forall_isSign_iff.mpr (List.all_eq_true.mp List.all_takeWhile)
  rw [factor_eq] at h
  -- both the atom and its signs have to be read, or nothing is
  obtain ⟨a, vs, ha, h⟩ := outcome_andThen_eq_ok_iff.mp h
  obtain ⟨b, hb, hsteps⟩ := outcome_stay_andThen_eq_ok_iff.mp h
  rw [outcome_widen] at ha
  obtain ⟨cs, hcs, hA⟩ := hatom _ vs a ha
  obtain ⟨steps, rfl, ht⟩ := exists_trailed_of_stepsFrom hsteps
  rw [lastSign?_eq] at hb
  refine ⟨ts.takeWhile isSign ++ (cs ++ steps), ?_, ?_⟩
  · rw [List.append_assoc, List.append_assoc, ← hcs, List.takeWhile_append_dropWhile]
  · rw [words_append, words_append]
    exact hfactor _ _ _ _ _ _ hsigns hA
      ((applySign_eq_ok_iff fun t ht => hsigns t (List.mem_of_getLast? ht)).mp hb) ht

end Factors

/-! ### Atoms -/

section Atoms

variable {finish : Nat}

/-- Parentheses are taken off what is read between them. -/
theorem atom_parens {inner : Parser} {m : Measured} {ts us : List Located} {pos pos' : Nat}
    (h : (inner ts).outcome = (.ok m, ⟨.closeParen, pos'⟩ :: us)) :
    (atom opts finish (some inner) (⟨.openParen, pos⟩ :: ts)).outcome = (.ok m, us) := by
  rw [atom_openParen, outcome_widen, outcome_andThen h]
  rfl

/-- **An atom reads only** a number, a name, or what the grammar allows in parentheses. -/
theorem atom_readsOnly {inner : Option Parser} {E D : List Token → Expr → Prop}
    (hinner : ∀ p ∈ inner, ReadsOnly p E) (hnum : ∀ v, D [.number v] (.num v))
    (hvar : ∀ x, D [.identifier x] (.var x))
    (hparens : inner.isSome → ∀ ts e, E ts e → D (.openParen :: (ts ++ [.closeParen])) e) :
    ReadsOnly (atom opts finish inner) D := by
  intro ts us m h
  rcases ts with _ | ⟨⟨t, pos⟩, ts⟩
  · cases h
  cases t with
  | number v =>
    cases h
    exact ⟨[⟨.number v, pos⟩], rfl, hnum v⟩
  | identifier x =>
    cases h
    exact ⟨[⟨.identifier x, pos⟩], rfl, hvar x⟩
  | openParen =>
    rcases inner with _ | p
    · cases h
    rw [atom_openParen, outcome_widen] at h
    obtain ⟨a, vs, ha, h⟩ := outcome_andThen_eq_ok_iff.mp h
    -- whether the parenthesis is closed is settled by the token behind the expression
    rcases vs with _ | ⟨⟨t, pos'⟩, vs⟩
    · cases h
    · cases t with
      | closeParen =>
        obtain ⟨rfl, rfl⟩ : a = m ∧ vs = us := by
          cases h
          exact ⟨rfl, rfl⟩
        obtain ⟨cs, hcs, hE⟩ := hinner p rfl _ _ a ha
        refine ⟨⟨.openParen, pos⟩ :: (cs ++ [⟨.closeParen, pos'⟩]), by simp [hcs], ?_⟩
        rw [words_cons, words_append]
        exact hparens rfl _ _ hE
      | _ => cases h
  | _ => cases h

end Atoms

end Parse

end Reckoner
