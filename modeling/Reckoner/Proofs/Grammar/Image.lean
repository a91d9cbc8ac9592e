import Reckoner.Proofs.Grammar.Identifiers
import Reckoner.Proofs.Scanning.Spacing

/-!
# The expressions that lines stand for

A line has no signs in its numbers, its names are names of the language, and where steps
behind an operand are discarded nothing comes of them. That, and the limit on the height, is
all that tells the expressions that are read from lines from others
(`Reckoner.Grammar.exists_parse_eq_ok_iff`).

To write such an expression it is enough to put every operand in parentheses that is more
than a number or a name (`Reckoner.Expr.tokens`). There is a limit on the parentheses as
well. But where an operator is written, its height and the number of the parentheses around
it never add up to more than the height of the whole, so what keeps to one limit keeps to
the other (`Reckoner.Grammar.derives_tokens`).
-/

namespace Reckoner

namespace Expr

/-! ### What is in an expression -/

/-- **The numbers in an expression**, from left to right. -/
def numbers : Expr → List Value
  | num v => [v]
  | var _ => []
  | neg e => e.numbers
  | update _ _ => []
  | bin _ l r => l.numbers ++ r.numbers
  | assign _ _ e => e.numbers

/-- **The updates in an expression**, from left to right. -/
def updates : Expr → List UpdateOp
  | num _ => []
  | var _ => []
  | neg e => e.updates
  | update op _ => [op]
  | bin _ l r => l.updates ++ r.updates
  | assign _ _ e => e.updates

/-! ### How it is written -/

/-- An expression as an operand: in parentheses, unless it is a number or a name. -/
def operand (e : Expr) (ts : List Token) : List Token :=
  match e with
  | num _ => ts
  | var _ => ts
  | _ => .openParen :: (ts ++ [.closeParen])

/-- **The tokens that an expression is written with.** -/
def tokens : Expr → List Token
  | num v => [.number v]
  | var x => [.identifier x]
  | neg e => .operator (.binary .sub) :: e.operand e.tokens
  | update (.pre s) x => [.operator (.step s), .identifier x]
  | update (.post s) x => [.identifier x, .operator (.step s)]
  | bin op l r => l.operand l.tokens ++ .operator (.binary op) :: r.operand r.tokens
  | assign op x e => .identifier x :: .operator (.assign op) :: e.operand e.tokens

end Expr

namespace Grammar

variable {opts : ParseOptions} {d : Nat} {ts : List Token} {e f : Expr}

/-! ### Expressions that can be written -/

/-- **What can be written**, but for the height: numbers without a sign, names of the
language, and steps behind an operand only if they are applied. -/
structure Writable (opts : ParseOptions) (e : Expr) : Prop where
  /-- No number is negative. -/
  nonneg : ∀ v ∈ e.numbers, 0 ≤ v.toInt
  /-- Every name is a name of the language. -/
  isName : ∀ x ∈ e.names, Lexeme.IsName x.toList
  /-- A step that is discarded leaves no update. -/
  post_notMem : opts.trailing = .discard → ∀ s, .post s ∉ e.updates

theorem writable_num {v : Value} : Writable opts (.num v) ↔ 0 ≤ v.toInt :=
  ⟨fun h => h.nonneg v List.mem_cons_self,
    fun h => ⟨List.forall_mem_singleton.mpr h, List.forall_mem_nil _, fun _ _ => List.not_mem_nil⟩⟩

theorem writable_var {x : String} : Writable opts (.var x) ↔ Lexeme.IsName x.toList :=
  ⟨fun h => h.isName x List.mem_cons_self,
    fun h => ⟨List.forall_mem_nil _, List.forall_mem_singleton.mpr h, fun _ _ => List.not_mem_nil⟩⟩

theorem writable_neg : Writable opts (.neg e) ↔ Writable opts e :=
  ⟨fun h => ⟨h.nonneg, h.isName, h.post_notMem⟩, fun h => ⟨h.nonneg, h.isName, h.post_notMem⟩⟩

theorem writable_update {op : UpdateOp} {x : String} :
    Writable opts (.update op x) ↔
      Lexeme.IsName x.toList ∧ (opts.trailing = .discard → ∀ s, op ≠ .post s) := by
  constructor
  · intro h
    refine ⟨h.isName x List.mem_cons_self, ?_⟩
    rintro hd s rfl
    exact h.post_notMem hd s List.mem_cons_self
  · rintro ⟨hx, hop⟩
    refine ⟨List.forall_mem_nil _, List.forall_mem_singleton.mpr hx, fun hd s hs => ?_⟩
    exact hop hd s (List.mem_singleton.mp hs).symm

theorem writable_bin {op : BinOp} {l r : Expr} :
    Writable opts (.bin op l r) ↔ Writable opts l ∧ Writable opts r := by
  constructor
  · rintro ⟨hnum, hname, hpost⟩
    obtain ⟨hnuml, hnumr⟩ := List.forall_mem_append.mp hnum
    obtain ⟨hnamel, hnamer⟩ := List.forall_mem_append.mp hname
    exact ⟨⟨hnuml, hnamel, fun hd s hs => hpost hd s (List.mem_append_left _ hs)⟩,
      ⟨hnumr, hnamer, fun hd s hs => hpost hd s (List.mem_append_right _ hs)⟩⟩
  · rintro ⟨hl, hr⟩
    refine ⟨List.forall_mem_append.mpr ⟨hl.nonneg, hr.nonneg⟩,
      List.forall_mem_append.mpr ⟨hl.isName, hr.isName⟩, fun hd s hs => ?_⟩
    exact (List.mem_append.mp hs).elim (hl.post_notMem hd s) (hr.post_notMem hd s)

theorem writable_assign {op : AssignOp} {x : String} :
    Writable opts (.assign op x e) ↔ Lexeme.IsName x.toList ∧ Writable opts e := by
  constructor
  · rintro ⟨hnum, hname, hpost⟩
    obtain ⟨hx, hname⟩ := List.forall_mem_cons.mp hname
    exact ⟨hx, hnum, hname, hpost⟩
  · rintro ⟨hx, he⟩
    exact ⟨he.nonneg, List.forall_mem_cons.mpr ⟨hx, he.isName⟩, he.post_notMem⟩

/-! ### What is read can be written -/

theorem Signed.writable {o : Option Token} (h : Signed opts o e f) (he : Writable opts e) :
    Writable opts f := by
  cases h with
  | bare | plus => exact he
  | minus => exact writable_neg.mpr he
  | step => exact writable_update.mpr ⟨writable_var.mp he, fun _ _ => nofun⟩

theorem Trailed.writable (h : Trailed opts e ts f) (he : Writable opts e) : Writable opts f := by
  induction h with
  | nil => exact he
  | cons hs _ ih =>
    cases hs with
    | discarded => exact ih he
    | applied happly =>
      refine ih (writable_update.mpr ⟨writable_var.mp he, fun hdiscard => ?_⟩)
      rw [happly] at hdiscard
      cases hdiscard

/-- **What tokens of a line stand for can be written.** -/
theorem Derives.writable {k : Nonterminal} (h : Derives opts k d ts e)
    (hts : ∀ t ∈ ts, ∃ w, Lexeme.Denotes w t) : Writable opts e := by
  induction h with
  | number d v =>
    obtain ⟨w, hw⟩ := hts _ List.mem_cons_self
    cases hw with
    | number _ hv => exact writable_num.mpr (hv ▸ Int.natCast_nonneg _)
  | identifier d x =>
    obtain ⟨w, hw⟩ := hts _ List.mem_cons_self
    cases hw with
    | name hname => exact writable_var.mpr (by rwa [String.toList_ofList])
  | parens _ _ ih =>
    exact ih (List.forall_mem_append.mp (List.forall_mem_cons.mp hts).2).1
  | factor _ _ hs ht ih =>
    have hinner := (List.forall_mem_append.mp hts).2
    exact ht.writable (hs.writable (ih (List.forall_mem_append.mp hinner).1))
  | ofFactor _ ih | ofProduct _ ih | ofSum _ ih => exact ih hts
  | product _ _ _ _ ihl ihr | sum _ _ _ _ ihl ihr =>
    obtain ⟨hl, hr⟩ := List.forall_mem_append.mp hts
    exact writable_bin.mpr ⟨ihl hl, ihr (List.forall_mem_cons.mp hr).2⟩
  | assign _ _ _ ihl ihr =>
    obtain ⟨hl, hr⟩ := List.forall_mem_append.mp hts
    exact writable_assign.mpr ⟨writable_var.mp (ihl hl), ihr (List.forall_mem_cons.mp hr).2⟩

/-! ### What can be written is read -/

/-- An atom is a factor. -/
theorem Derives.ofAtom (h : Derives opts .atom d ts e) : Derives opts .factor d ts e := by
  have hfactor := Derives.factor (List.forall_mem_nil _) h (.bare e) (.nil e)
  rwa [List.nil_append, List.append_nil] at hfactor

/-- A factor is an expression. -/
theorem Derives.expression_of_factor (h : Derives opts .factor d ts e) :
    Derives opts .expression d ts e :=
  .ofSum (.ofProduct (.ofFactor h))

/-- An atom under one sign is an expression. -/
theorem Derives.signed {t : Token} (h : Derives opts .atom d ts e) (ht : IsSign t)
    (hs : Signed opts (some t) e f) : Derives opts .expression d (t :: ts) f := by
  have hfactor := Derives.factor (List.forall_mem_singleton.mpr ht) h hs (.nil f)
  rw [List.append_nil] at hfactor
  exact hfactor.expression_of_factor

/-- Two factors are combined by any operator. -/
theorem Derives.combined {us : List Token} {op : BinOp} (hl : Derives opts .factor d ts e)
    (hr : Derives opts .factor d us f) (hh : (Expr.bin op e f).height ≤ opts.maxDepth) :
    Derives opts .expression d (ts ++ .operator (.binary op) :: us) (.bin op e f) := by
  have hproduct := Derives.ofFactor hl
  cases op with
  | add => exact .ofSum (.sum (.inl rfl) (.ofProduct hproduct) (.ofFactor hr) hh)
  | sub => exact .ofSum (.sum (.inr rfl) (.ofProduct hproduct) (.ofFactor hr) hh)
  | mul => exact .ofSum (.ofProduct (.product (.inl rfl) hproduct hr hh))
  | div => exact .ofSum (.ofProduct (.product (.inr (.inl rfl)) hproduct hr hh))
  | mod => exact .ofSum (.ofProduct (.product (.inr (.inr rfl)) hproduct hr hh))

/-- What is derived inside of one more pair of parentheses is an operand. -/
theorem Derives.operand (hd : d < opts.maxDepth) (h : Derives opts .expression (d + 1) e.tokens e) :
    Derives opts .atom d (e.operand e.tokens) e := by
  cases e with
  | num v => exact .number d v
  | var x => exact .identifier d x
  | neg | update | bin | assign => exact .parens hd h

/-- **An expression is derived from the tokens it is written with**, where its height and
the parentheses around it keep to the limit together. -/
theorem derives_tokens (hw : Writable opts e) (hh : e.height ≤ max 1 (opts.maxDepth - d)) :
    Derives opts .expression d e.tokens e := by
  induction e generalizing d with
  | num v => exact (Derives.number d v).ofAtom.expression_of_factor
  | var x => exact (Derives.identifier d x).ofAtom.expression_of_factor
  | neg e ih =>
    rw [Expr.height] at hh
    have hpos := e.height_pos
    have he := (ih (writable_neg.mp hw) (by omega)).operand (d := d) (by omega)
    have hneg : (Expr.neg e).height ≤ opts.maxDepth := by rw [Expr.height]; omega
    exact he.signed (.inr (.inl rfl)) (.minus hneg)
  | update op x =>
    rw [Expr.height] at hh
    have hupdate : (Expr.update op x).height ≤ opts.maxDepth := by rw [Expr.height]; omega
    cases op with
    | pre s => exact (Derives.identifier d x).signed (.inr (.inr ⟨s, rfl⟩)) (.step hupdate)
    | post s =>
      have happly : opts.trailing = .apply := by
        rcases htrailing : opts.trailing with _ | _
        · exact absurd rfl ((writable_update.mp hw).2 htrailing s)
        · rfl
      exact (Derives.factor (List.forall_mem_nil _) (.identifier d x) (.bare _)
        (.cons (.applied happly hupdate) (.nil _))).expression_of_factor
  | bin op l r ihl ihr =>
    rw [Expr.height] at hh
    have hposl := l.height_pos
    have hposr := r.height_pos
    have hbin : (Expr.bin op l r).height ≤ opts.maxDepth := by rw [Expr.height]; omega
    obtain ⟨hwl, hwr⟩ := writable_bin.mp hw
    have hl := (ihl hwl (by omega)).operand (d := d) (by omega)
    have hr := (ihr hwr (by omega)).operand (d := d) (by omega)
    exact hl.ofAtom.combined hr.ofAtom hbin
  | assign op x e ih =>
    rw [Expr.height] at hh
    have hassign : (Expr.assign op x e).height ≤ opts.maxDepth := by rw [Expr.height]; omega
    have hpos := e.height_pos
    have he := (ih (writable_assign.mp hw).2 (by omega)).operand (d := d) (by omega)
    have hx : Derives opts .expression d [.identifier x] (.var x) :=
      (Derives.identifier d x).ofAtom.expression_of_factor
    exact .assign hx (.ofProduct (.ofFactor he.ofAtom)) hassign

/-- Parentheses are what they are written as, too. -/
theorem denotes_source_operand (hts : ∀ t ∈ ts, Lexeme.Denotes t.source t) (e : Expr) :
    ∀ t ∈ e.operand ts, Lexeme.Denotes t.source t := by
  have hparens : ∀ t ∈ Token.openParen :: (ts ++ [.closeParen]), Lexeme.Denotes t.source t := by
    refine List.forall_mem_cons.mpr ⟨.openParen, List.forall_mem_append.mpr ⟨hts, ?_⟩⟩
    exact List.forall_mem_singleton.mpr .closeParen
  cases e with
  | num | var => exact hts
  | neg | update | bin | assign => exact hparens

/-- **The tokens that an expression is written with** are what they are written as. -/
theorem Writable.denotes_source (hw : Writable opts e) :
    ∀ t ∈ e.tokens, Lexeme.Denotes t.source t := by
  induction e with
  | num v => exact List.forall_mem_singleton.mpr (Lexeme.denotes_digits (writable_num.mp hw))
  | var x => exact List.forall_mem_singleton.mpr (Lexeme.denotes_toList (writable_var.mp hw))
  | neg e ih =>
    exact List.forall_mem_cons.mpr
      ⟨.operator (.binary .sub), denotes_source_operand (ih (writable_neg.mp hw)) e⟩
  | update op x =>
    have hx := Lexeme.denotes_toList (writable_update.mp hw).1
    cases op with
    | pre s =>
      exact List.forall_mem_cons.mpr ⟨.operator (.step s), List.forall_mem_singleton.mpr hx⟩
    | post s =>
      exact List.forall_mem_cons.mpr ⟨hx, List.forall_mem_singleton.mpr (.operator (.step s))⟩
  | bin op l r ihl ihr =>
    obtain ⟨hl, hr⟩ := writable_bin.mp hw
    refine List.forall_mem_append.mpr ⟨denotes_source_operand (ihl hl) l, ?_⟩
    exact List.forall_mem_cons.mpr ⟨.operator (.binary op), denotes_source_operand (ihr hr) r⟩
  | assign op x e ih =>
    obtain ⟨hx, he⟩ := writable_assign.mp hw
    refine List.forall_mem_cons.mpr ⟨Lexeme.denotes_toList hx, ?_⟩
    exact List.forall_mem_cons.mpr ⟨.operator (.assign op), denotes_source_operand (ih he) e⟩

/-- **What is read from lines.** Under given options, the expressions that some line is
parsed as are those in which no number is negative, every name is a name of the language
and, if steps behind an operand are discarded, no update yields the old value, and which are
not higher than the limit allows. -/
theorem exists_parse_eq_ok_iff (opts : ParseOptions) (e : Expr) :
    (∃ line, parse line opts = .ok e) ↔
      Writable opts e ∧ e.height ≤ max 1 opts.maxDepth := by
  constructor
  · rintro ⟨line, h⟩
    have hsentence := parse_eq_ok_iff.mp h
    refine ⟨hsentence.writable fun t ht => ?_, hsentence.height_le⟩
    refine Scanner.exists_denotes_of_mem_tokens ht ?_
    rintro rest rfl
    exact hsentence.unrecognized_notMem rest ht
  · rintro ⟨hw, hh⟩
    refine ⟨.ofList (Token.spaced e.tokens), parse_eq_ok_iff.mpr ?_⟩
    rw [Parse.words, Scanner.tokens_ofLine_spaced hw.denotes_source]
    exact derives_tokens hw hh

end Grammar

end Reckoner
