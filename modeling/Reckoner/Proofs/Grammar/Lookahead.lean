import Reckoner.Proofs.Grammar.Parsing
import Reckoner.Proofs.Scanning.Places

/-!
# How far a parser looks

A parser reads its tokens from left to right and looks at no token behind the one at which it
stops. So two lines that agree up to that token are read alike
(`Reckoner.Parse.Comparison.wholeLine_alongside`), whatever is behind it.

The two lines need not have the same places, and the two parsers need not have the same limit on
the depth. What makes them comparable is a `Reckoner.Parse.Comparison`: a relation between the
places of the one and those of the other, and options of which only the limit differs, if at all.
Places never decide what is read; they come out of a parse as the place of its failure, and there
the relation holds of them. If the second limit is greater, the failures that come from the first
one are not compared (`Reckoner.Parse.Comparison.Counted`).

Comparing a line with itself says of the place of a failure what holds of all places of the line
(`Reckoner.Parse.position_le_of_wholeLine`).
-/

namespace Reckoner

namespace Parse

/-! ### Lines that are compared -/

/-- **Two ways of reading that can be compared.** -/
structure Comparison where
  /-- The options of the first one. -/
  opts : ParseOptions
  /-- The options of the second one. -/
  opts' : ParseOptions
  /-- They do the same with the steps behind an operand. -/
  trailing_eq : opts.trailing = opts'.trailing
  /-- What the first one has room for, the second one has room for. -/
  maxDepth_le : opts.maxDepth ≤ opts'.maxDepth
  /-- The length of the first line. -/
  finish : Nat
  /-- The length of the second line. -/
  finish' : Nat
  /-- Which places correspond to each other. -/
  Near : Nat → Nat → Prop
  /-- The ends of the lines do. -/
  near_finish : Near finish finish'

namespace Comparison

variable (c : Comparison)

/-- **Lines that begin alike**: both are at their end, or at the same token, the places of which
correspond. -/
inductive Front : List Located → List Located → Prop
  /-- Both are at their end. -/
  | finish : Front [] []
  /-- Both are at the same token. -/
  | token (t : Token) {p q : Nat} (ts ts' : List Located) (h : c.Near p q) :
      Front (⟨t, p⟩ :: ts) (⟨t, q⟩ :: ts')

/-- **Lines that agree** up to the points where `us` and `us'` are left of them, and in the first
token there. -/
inductive Agree : List Located → List Located → List Located → List Located → Prop
  /-- These points are reached. -/
  | here {us us' : List Located} (h : c.Front us us') : Agree us us' us us'
  /-- They are one token further behind. -/
  | there (t : Token) {p q : Nat} {ts ts' us us' : List Located} (hpq : c.Near p q)
      (h : Agree ts ts' us us') : Agree (⟨t, p⟩ :: ts) (⟨t, q⟩ :: ts') us us'

variable {c} {ts ts' us us' vs : List Located}

theorem Front.current_eq (h : c.Front ts ts') : current ts = current ts' := by
  cases h <;> rfl

theorem Front.near_place (h : c.Front ts ts') :
    c.Near (place c.finish ts) (place c.finish' ts') := by
  cases h with
  | finish => exact c.near_finish
  | token t ts ts' h => exact h

namespace Agree

theorem front (h : c.Agree ts ts' us us') : c.Front ts ts' := by
  cases h with
  | here h => exact h
  | there t hpq h => exact .token t _ _ hpq

theorem suffix (h : c.Agree ts ts' us us') : us <:+ ts := by
  induction h with
  | here => exact List.suffix_rfl
  | there _ _ _ ih => exact ih.trans (List.suffix_cons _ _)

/-- The point in the second line is as far behind as the one in the first line. -/
theorem eq_of_self (h : c.Agree ts ts' ts us') : us' = ts' := by
  generalize hus : ts = us at h
  cases h with
  | here h => rfl
  | there t hpq h =>
    have hle := h.suffix.length_le
    rw [List.length_cons] at hle
    omega

theorem tail {t t' : Located} (h : c.Agree (t :: ts) (t' :: ts') us us') (hus : us <:+ ts) :
    c.Agree ts ts' us us' := by
  cases h with
  | here h =>
    have hle := hus.length_le
    rw [List.length_cons] at hle
    omega
  | there t hpq h => exact h

/-- **Lines that agree up to a point agree up to every point before it**, and from there on. -/
theorem split (h : c.Agree ts ts' us us') (hus : us <:+ vs) (hvs : vs <:+ ts) :
    ∃ vs', c.Agree ts ts' vs vs' ∧ c.Agree vs vs' us us' := by
  induction h with
  | here h =>
    obtain rfl := hvs.eq_of_length (Nat.le_antisymm hvs.length_le hus.length_le)
    exact ⟨_, .here h, .here h⟩
  | @there t p q ts ts' us us' hpq h ih =>
    rcases List.suffix_cons_iff.mp hvs with rfl | hvs
    · exact ⟨_, .here (.token t ts ts' hpq), .there t hpq h⟩
    · obtain ⟨vs', hts, hvs'⟩ := ih hus hvs
      exact ⟨vs', .there t hpq hts, hvs'⟩

/-- A line whose places correspond to themselves agrees with itself. -/
theorem refl (h : ∀ t ∈ ts, c.Near t.position t.position)
    (hus : us <:+ ts) : c.Agree ts ts us us := by
  induction ts with
  | nil =>
    obtain rfl := List.suffix_nil.mp hus
    exact .here .finish
  | cons t ts ih =>
    obtain ⟨ht, hts⟩ := List.forall_mem_cons.mp h
    rcases List.suffix_cons_iff.mp hus with rfl | hus
    · exact .here (.token t.token ts ts ht)
    · exact .there t.token ht (ih hts hus)

/-- **Lines agree up to a token if they do so as lists of tokens**, the end of each line included,
and if the places of these tokens correspond. -/
theorem of_take_eq {k : Nat} (hk : k ≤ ts.length)
    (hnear : ∀ j ≤ k, c.Near (place c.finish (ts.drop j)) (place c.finish' (ts'.drop j)))
    (hts : Token.finish ∉ words ts) (hts' : Token.finish ∉ words ts')
    (h : (words ts ++ [Token.finish]).take (k + 1) = (words ts' ++ [Token.finish]).take (k + 1)) :
    k ≤ ts'.length ∧ c.Agree ts ts' (ts.drop k) (ts'.drop k) := by
  induction k generalizing ts ts' with
  | zero =>
    refine ⟨Nat.zero_le _, .here ?_⟩
    rcases ts with _ | ⟨⟨t, p⟩, ts⟩ <;> rcases ts' with _ | ⟨⟨t', q⟩, ts'⟩
    · exact .finish
    · exact absurd (List.cons_eq_cons.mp h).1 (List.ne_of_not_mem_cons hts')
    · exact absurd (List.cons_eq_cons.mp h).1.symm (List.ne_of_not_mem_cons hts)
    · obtain rfl : t = t' := (List.cons_eq_cons.mp h).1
      exact .token t ts ts' (hnear 0 (Nat.le_refl 0))
  | succ k ih =>
    rcases ts with _ | ⟨⟨t, p⟩, ts⟩
    · exact absurd hk (Nat.not_succ_le_zero k)
    rcases ts' with _ | ⟨⟨t', q⟩, ts'⟩
    · exact absurd (List.cons_eq_cons.mp h).1.symm (List.ne_of_not_mem_cons hts)
    · obtain ⟨rfl, htake⟩ : t = t' ∧ _ := List.cons_eq_cons.mp h
      obtain ⟨hk', hagree⟩ := ih (Nat.le_of_succ_le_succ hk)
        (fun j hj => hnear (j + 1) (Nat.succ_le_succ hj))
        (List.not_mem_of_not_mem_cons hts) (List.not_mem_of_not_mem_cons hts') htake
      exact ⟨Nat.succ_le_succ hk', .there t (hnear 0 (Nat.zero_le _)) hagree⟩

/-- If they agree behind the signs they begin with, these signs are the same. -/
theorem signs (h : c.Agree ts ts' us us') (hus : us <:+ ts.dropWhile isSign) :
    lastSign? ts = lastSign? ts' ∧
      c.Agree (ts.dropWhile isSign) (ts'.dropWhile isSign) us us' := by
  have hwords : words (ts.takeWhile isSign) = words (ts'.takeWhile isSign) ∧
      c.Agree (ts.dropWhile isSign) (ts'.dropWhile isSign) us us' := by
    -- along the signs; they end in both lines at once, since they agree beyond
    induction h with
    | here h =>
      cases h with
      | finish => exact ⟨rfl, .here .finish⟩
      | token t ts ts' hpq =>
        rcases hsign : (sign? t).isSome with _ | _
        · simp only [List.takeWhile_cons, List.dropWhile_cons, isSign, hsign]
          exact ⟨rfl, .here (.token t ts ts' hpq)⟩
        · simp only [List.dropWhile_cons, isSign, hsign, if_true] at hus
          have hle := (hus.trans (List.dropWhile_suffix _)).length_le
          rw [List.length_cons] at hle
          omega
    | there t hpq h ih =>
      rcases hsign : (sign? t).isSome with _ | _
      · simp only [List.takeWhile_cons, List.dropWhile_cons, isSign, hsign]
        exact ⟨rfl, .there t hpq h⟩
      · simp only [List.dropWhile_cons, isSign, hsign, if_true] at hus
        simp only [List.takeWhile_cons, List.dropWhile_cons, isSign, hsign, if_true, words_cons]
        obtain ⟨htake, hdrop⟩ := ih hus
        exact ⟨congrArg _ htake, hdrop⟩
  rw [lastSign?_eq, lastSign?_eq, hwords.1]
  exact ⟨rfl, hwords.2⟩

end Agree

/-! ### Results that are compared -/

variable (c)

/-- **Results that are alike**: the same, but for the place of a failure. -/
inductive Alike : Except ParseError Measured → Except ParseError Measured → Prop
  /-- The same has been read. -/
  | ok (m : Measured) : Alike (.ok m) (.ok m)
  /-- The same fault is found, at places that correspond. -/
  | malformed (f : Fault) {p q : Nat} (h : c.Near p q) :
      Alike (.error (.malformed f p)) (.error (.malformed f q))
  /-- The same is no variable. -/
  | notAVariable (err : NotAVariable) :
      Alike (.error (.notAVariable err)) (.error (.notAVariable err))

/-- **The results that are compared**: those that do not come from a limit that differs. -/
def Counted (x : Except ParseError Measured) : Prop :=
  ∀ f p, x = .error (.malformed f p) → f.isDepth → c.opts = c.opts'

/-- The second result is like the first, if that is compared. -/
def Matches (x x' : Except ParseError Measured) : Prop := c.Counted x → c.Alike x x'

variable {c}

theorem Counted.of_ne {x : Except ParseError Measured}
    (h : ∀ f p, x ≠ .error (.malformed f p)) : c.Counted x :=
  fun f p hx => absurd hx (h f p)

theorem Alike.exists_eq_error {e : ParseError} {x : Except ParseError Measured}
    (h : c.Alike (.error e) x) : ∃ e', x = .error e' := by
  cases h with
  | malformed | notAVariable => exact ⟨_, rfl⟩

theorem Alike.exists_eq_malformed {f : Fault} {p : Nat} {x : Except ParseError Measured}
    (h : c.Alike (.error (.malformed f p)) x) : ∃ q, x = .error (.malformed f q) ∧ c.Near p q := by
  cases h with
  | malformed _ hpq => exact ⟨_, rfl, hpq⟩

theorem Alike.eq_ok {m : Measured} {x : Except ParseError Measured} (h : c.Alike (.ok m) x) :
    x = .ok m := by
  cases h
  rfl

theorem Alike.mapError (r : Except NotAVariable Measured) :
    c.Alike (r.mapError .notAVariable) (r.mapError .notAVariable) := by
  cases r with
  | error err => exact .notAVariable err
  | ok m => exact .ok m

/-- **A node of some height** is made within both limits or refused by both. -/
theorem Alike.checkHeight {x : Except ParseError Measured} (hx : c.Alike x x) (k : Nat)
    {p q : Nat} (hpq : c.Near p q) :
    c.Matches (checkHeight c.opts k p >>= fun _ => x) (checkHeight c.opts' k q >>= fun _ => x) := by
  intro hcounted
  by_cases hk : k ≤ c.opts.maxDepth
  · rwa [Parse.checkHeight, Parse.checkHeight, if_pos hk, if_pos (Nat.le_trans hk c.maxDepth_le)]
  · rw [Parse.checkHeight, if_neg hk] at hcounted
    have hopts := hcounted _ _ rfl rfl
    rw [← hopts, Parse.checkHeight, Parse.checkHeight, if_neg hk, if_neg hk]
    exact .malformed _ hpq

theorem joinBin_matches (op : BinOp) {p q : Nat} (hpq : c.Near p q) (l r : Measured) :
    c.Matches (joinBin c.opts op p l r) (joinBin c.opts' op q l r) :=
  (Alike.ok _).checkHeight _ hpq

theorem joinAssign_matches (op : AssignOp) {p q : Nat} (hpq : c.Near p q) (l r : Measured) :
    c.Matches (joinAssign c.opts op p l r) (joinAssign c.opts' op q l r) :=
  (Alike.mapError _).checkHeight _ hpq

theorem applySign_matches (s : Option Sign) {p q : Nat} (hpq : c.Near p q) (m : Measured) :
    c.Matches (applySign c.opts p m s) (applySign c.opts' q m s) := by
  rcases s with _ | _ | _ | s
  · exact fun _ => .ok m
  · exact fun _ => .ok m
  · exact (Alike.ok _).checkHeight _ hpq
  · exact (Alike.mapError _).checkHeight _ hpq

theorem applyStep_matches (s : Step) {p q : Nat} (hpq : c.Near p q) (m : Measured) :
    c.Matches (applyStep c.opts s p m) (applyStep c.opts' s q m) := by
  rw [applyStep, applyStep, ← c.trailing_eq]
  cases c.opts.trailing with
  | apply => exact (Alike.mapError _).checkHeight _ hpq
  | discard => exact fun _ => Alike.mapError _

/-! ### Replies that are compared -/

variable (c)

/-- **A reply that follows another one**: if the lines agree up to the token at which the first
reply stops, the second one stops there as well, with a like result. -/
def Follows (r : Reply Measured ts) (r' : Reply Measured ts') : Prop :=
  c.Counted r.result → ∀ us', c.Agree ts ts' r.rest us' → r'.rest = us' ∧ c.Alike r.result r'.result

/-- **A parser that follows another one**, on all lines. -/
def Alongside (p p' : Parser) : Prop := ∀ ts ts', c.Follows (p ts) (p' ts')

variable {c}

namespace Follows

variable {r : Reply Measured ts} {r' : Reply Measured ts'}

/-- Lines that do not begin alike need not be looked at. -/
theorem of_front (h : c.Front ts ts' → c.Follows r r') : c.Follows r r' :=
  fun hcounted _ hagree => h hagree.front hcounted _ hagree

theorem stay {x x' : Except ParseError Measured} (h : c.Matches x x') :
    c.Follows (.stay x ts) (.stay x' ts') :=
  fun hcounted _ hagree => ⟨hagree.eq_of_self.symm, h hcounted⟩

/-- **A failure at the first token** is the same in lines that begin alike. -/
theorem fail (f : Fault) (h : c.Front ts ts') :
    c.Follows (.stay (.error (.malformed f (place c.finish ts))) ts)
      (.stay (.error (.malformed f (place c.finish' ts'))) ts') :=
  stay fun _ => .malformed f h.near_place

theorem widen {ws ws' : List Located} {hs : ts <:+ ws} {hs' : ts' <:+ ws'} (h : c.Follows r r')
    (hagree : ∀ us', c.Agree ws ws' r.rest us' → c.Agree ts ts' r.rest us') :
    c.Follows (r.widen hs) (r'.widen hs') :=
  fun hcounted us' hus' => h hcounted us' (hagree us' hus')

theorem cons (t t' : Located) (h : c.Follows r r') :
    c.Follows (r.widen (List.suffix_cons t ts)) (r'.widen (List.suffix_cons t' ts')) :=
  h.widen fun _ hagree => hagree.tail r.suffix

/-- **One parser and then another** follow two others if each of them does. -/
theorem andThen {next next' : Measured → Parser} (h : c.Follows r r')
    (hnext : ∀ m us', c.Agree ts ts' r.rest us' → c.Follows (next m r.rest) (next' m us')) :
    c.Follows (r.andThen next) (r'.andThen next') := by
  rcases hr : r.result with e | m
  · rw [Reply.andThen_of_error hr]
    intro hcounted us' hagree
    obtain ⟨hrest, hresult⟩ := h hcounted us' hagree
    obtain ⟨e', he'⟩ := (hr ▸ hresult).exists_eq_error
    rw [Reply.andThen_of_error he']
    exact ⟨hrest, hresult⟩
  · rw [Reply.andThen_of_ok hr]
    intro hcounted us' hagree
    -- the point where the second parser begins lies before the one where it stops
    obtain ⟨vs', hts, hvs⟩ := hagree.split (next m r.rest).suffix r.suffix
    obtain ⟨hrest, hresult⟩ := h (.of_ne fun f p hx => by simp [hr] at hx) vs' hts
    rw [Reply.andThen_of_ok (hr ▸ hresult).eq_ok]
    obtain rfl := hrest
    exact hnext m _ hts hcounted us' hvs

end Follows

/-! ### The parsers of the grammar -/

section Chains

variable {ω : Type} {op? : Token → Option ω}
  {join join' : ω → Nat → Measured → Measured → Except ParseError Measured}
  {operand operand' : Parser}

theorem chainFrom_alongside (hoperand : c.Alongside operand operand')
    (hjoin : ∀ op p q l r, c.Near p q → c.Matches (join op p l r) (join' op q l r))
    (l : Measured) :
    c.Alongside (chainFrom op? join operand l) (chainFrom op? join' operand' l) := by
  intro ts ts'
  -- by the number of tokens left
  induction hn : ts.length using Nat.strong_induction_on generalizing l ts ts' with
  | h n ih =>
    refine .of_front fun hfront => ?_
    rcases hop : op? (current ts) with _ | op
    · rw [chainFrom_eq_stay hop, chainFrom_eq_stay (hfront.current_eq ▸ hop)]
      exact .stay fun _ => .ok l
    cases hfront with
    | finish =>
      rw [chainFrom, chainFrom]
      exact Follows.stay fun _ => .ok l
    | @token t p q ts ts' hpq =>
      rw [chainFrom_cons hop, chainFrom_cons (t := ⟨t, q⟩) hop]
      refine .cons _ _ (.andThen (hoperand ts ts') fun r us' _ => ?_)
      refine .andThen (.stay (hjoin op p q l r hpq)) fun m vs' _ => ?_
      have hle := (operand ts).suffix.length_le
      rw [List.length_cons] at hn
      exact ih _ (by simp only [Reply.stay]; omega) m _ _ rfl

theorem chain_alongside (hoperand : c.Alongside operand operand')
    (hjoin : ∀ op p q l r, c.Near p q → c.Matches (join op p l r) (join' op q l r)) :
    c.Alongside (chain op? join operand) (chain op? join' operand') := by
  intro ts ts'
  rw [chain_eq, chain_eq]
  exact (hoperand ts ts').andThen fun l _ _ => chainFrom_alongside hoperand hjoin l _ _

end Chains

theorem stepsFrom_alongside (m : Measured) :
    c.Alongside (stepsFrom c.opts m) (stepsFrom c.opts' m) := by
  intro ts ts'
  induction ts generalizing m ts' with
  | nil =>
    refine .of_front fun hfront => ?_
    cases hfront
    exact Follows.stay fun _ => .ok m
  | cons t ts ih =>
    refine .of_front fun hfront => ?_
    rcases hstep : step? (current (t :: ts)) with _ | s
    · rw [stepsFrom_eq_stay hstep, stepsFrom_eq_stay (hfront.current_eq ▸ hstep)]
      exact .stay fun _ => .ok m
    · cases hfront with
      | @token t p q _ ts' hpq =>
        rw [stepsFrom_cons hstep, stepsFrom_cons (t := ⟨t, q⟩) hstep]
        refine .cons _ _ (.andThen (.stay (applyStep_matches s hpq m)) ?_)
        exact fun m us' _ => ih m us'

theorem factor_alongside {atom atom' : Parser} (hatom : c.Alongside atom atom') :
    c.Alongside (factor c.opts c.finish atom) (factor c.opts' c.finish' atom') := by
  intro ts ts'
  refine .of_front fun hfront => ?_
  have hsigns := fun us' (h : c.Agree ts ts' (atom (ts.dropWhile isSign)).rest us') =>
    h.signs (atom _).suffix
  rw [factor_eq, factor_eq]
  refine .andThen ((hatom _ _).widen fun us' hagree => (hsigns us' hagree).2) ?_
  intro m us' hagree
  rw [← (hsigns us' hagree).1]
  refine .andThen (.stay (applySign_matches _ hfront.near_place m)) ?_
  exact fun m vs' _ => stepsFrom_alongside m _ _

theorem close_alongside (m : Measured) :
    c.Alongside (close c.finish m) (close c.finish' m) := by
  intro ts ts'
  refine .of_front fun hfront => ?_
  cases hfront with
  | finish => exact .fail _ .finish
  | token t ts ts' hpq =>
    cases t with
    | closeParen => exact .cons _ _ (.stay fun _ => .ok m)
    | _ => exact .fail _ (.token _ ts ts' hpq)

theorem atom_alongside {inner inner' : Option Parser}
    (hnone : inner = none → c.opts = c.opts' → inner' = none)
    (hinner : ∀ p ∈ inner, ∃ p' ∈ inner', c.Alongside p p') :
    c.Alongside (atom c.opts c.finish inner) (atom c.opts' c.finish' inner') := by
  intro ts ts'
  refine .of_front fun hfront => ?_
  cases hfront with
  | finish => exact .fail _ .finish
  | token t ts ts' hpq =>
    cases t with
    | number v => exact .cons _ _ (.stay fun _ => .ok (.num v))
    | identifier x => exact .cons _ _ (.stay fun _ => .ok (.var x))
    | openParen =>
      rcases inner with _ | p
      -- where no parenthesis may be opened, the limits have to be the same
      · intro hcounted
        have hopts := hcounted _ _ rfl rfl
        obtain rfl := hnone rfl hopts
        rw [← hopts]
        exact Follows.fail (.parenthesesTooDeep c.opts.maxDepth) (.token _ ts ts' hpq) hcounted
      · obtain ⟨p', hp', hpp'⟩ := hinner p rfl
        obtain rfl := Option.mem_def.mp hp'
        rw [atom_openParen, atom_openParen]
        exact .cons _ _ (.andThen (hpp' ts ts') fun m _ _ => close_alongside m _ _)
    | _ => exact .fail _ (.token _ ts ts' hpq)

theorem expression_alongside {n n' : Nat} (hle : n ≤ n') (heq : c.opts = c.opts' → n = n') :
    c.Alongside (expression c.opts c.finish n) (expression c.opts' c.finish' n') := by
  have hlevels : ∀ {n n'}, c.Alongside (atomOf c.opts c.finish n) (atomOf c.opts' c.finish' n') →
      c.Alongside (expression c.opts c.finish n) (expression c.opts' c.finish' n') := by
    intro n n' hatom
    rw [expression_eq, expression_eq]
    refine chain_alongside (chain_alongside (chain_alongside (factor_alongside hatom) ?_) ?_) ?_
    · exact fun op p q l r hpq => joinBin_matches op hpq l r
    · exact fun op p q l r hpq => joinBin_matches op hpq l r
    · exact fun op p q l r hpq => joinAssign_matches op hpq l r
  induction n generalizing n' with
  | zero =>
    refine hlevels ?_
    cases n' with
    | zero => exact atom_alongside (fun _ _ => rfl) nofun
    | succ n' => exact atom_alongside (fun _ hopts => absurd (heq hopts) (by omega)) nofun
  | succ n ih =>
    obtain ⟨n', rfl⟩ := Nat.exists_eq_succ_of_ne_zero (n := n') (by omega)
    refine hlevels (atom_alongside nofun ?_)
    rintro p ⟨⟩
    exact ⟨_, rfl, ih (by omega) fun hopts => by have := heq hopts; omega⟩

theorem endOfLine_alongside (m : Measured) : c.Alongside (endOfLine m) (endOfLine m) := by
  intro ts ts'
  refine .of_front fun hfront => ?_
  cases hfront with
  | finish => exact Follows.stay fun _ => .ok m
  | token t ts ts' hpq => exact .fail (.trailing t) (.token t ts ts' hpq)

/-- **A line is read by its tokens up to the one at which reading stops**: a line that agrees
with it so far is read alike. -/
theorem wholeLine_alongside :
    c.Alongside (wholeLine c.opts c.finish) (wholeLine c.opts' c.finish') := fun ts ts' =>
  (expression_alongside c.maxDepth_le (congrArg _) ts ts').andThen fun m _ _ =>
    endOfLine_alongside m _ _

/-! ### The same options -/

/-- **The same options for both lines**, under any relation between their places. -/
def sameOptions (opts : ParseOptions) (finish finish' : Nat) (Near : Nat → Nat → Prop)
    (h : Near finish finish') : Comparison where
  opts := opts
  opts' := opts
  trailing_eq := rfl
  maxDepth_le := Nat.le_refl _
  finish := finish
  finish' := finish'
  Near := Near
  near_finish := h

variable {opts : ParseOptions} {finish finish' : Nat} {Near : Nat → Nat → Prop}

/-- Then all results are compared. -/
theorem wholeLine_of_agree (hfinish : Near finish finish')
    (h : (sameOptions opts finish finish' Near hfinish).Agree ts ts'
      (wholeLine opts finish ts).rest us') :
    (wholeLine opts finish' ts').rest = us' ∧
      (sameOptions opts finish finish' Near hfinish).Alike (wholeLine opts finish ts).result
        (wholeLine opts finish' ts').result :=
  wholeLine_alongside (c := sameOptions opts finish finish' Near hfinish) ts ts'
    (fun _ _ _ _ => rfl) us' h

end Comparison

open Comparison

variable {opts : ParseOptions} {finish : Nat} {ts : List Located}

/-- **A line fails at one of its places**, if it fails at a place at all: nowhere behind its
end. -/
theorem position_le_of_wholeLine {f : Fault} {p : Nat} (hts : ∀ t ∈ ts, t.position ≤ finish)
    (h : (wholeLine opts finish ts).result = .error (.malformed f p)) : p ≤ finish := by
  -- the line compared with itself, where a place corresponds to itself if it is within the line
  let c := sameOptions opts finish finish (fun p q => p = q ∧ p ≤ finish) ⟨rfl, Nat.le_refl finish⟩
  have hagree : c.Agree ts ts (wholeLine opts finish ts).rest (wholeLine opts finish ts).rest :=
    .refl (fun t ht => ⟨rfl, hts t ht⟩) (wholeLine opts finish ts).suffix
  have halike := (wholeLine_of_agree _ hagree).2
  rw [h] at halike
  obtain ⟨_, -, -, hp⟩ := halike.exists_eq_malformed
  exact hp

/-- The place at which a line is refused is not behind its end. -/
theorem position_le_of_parse {line : String} {f : Fault} {p : Nat}
    (h : parse line opts = .error (.malformed f p)) : p ≤ line.length :=
  position_le_of_wholeLine (fun _ ht => Nat.le_of_lt (Scanner.position_lt_of_mem_tokens ht))
    (parse_eq_error_iff.mp h)

end Parse

end Reckoner
