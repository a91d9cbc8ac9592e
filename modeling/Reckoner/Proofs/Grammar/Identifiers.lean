import Reckoner.Proofs.Grammar.Parsing
import Reckoner.Proofs.Postfix.RoundTrip
import Reckoner.Proofs.Scanning.Decomposition

/-!
# The names on a line

An identifier begins with a letter and goes on with letters, digits and underscores
(`Reckoner.Text.IsIdentifier`), so it cannot be taken for anything else in postfix
notation: no letter is white space, begins a number or belongs to an operator. The names in
an expression that the parser makes of a line are therefore safe, and the limit on its
height is the one of the options (`Reckoner.Grammar.readable_of_parse`).
-/

namespace Reckoner

/-! ### The shape of a name -/

namespace Text

/-- What an identifier goes on with. -/
def isNamePart (c : Char) : Bool := isLetter c || c.isDigit || c == '_'

theorem isNamePart_iff {c : Char} : isNamePart c ↔ isLetter c ∨ c.isDigit ∨ c = '_' := by
  simp [isNamePart, or_assoc]

theorem isSpace_eq_false_of_isNamePart {c : Char} (h : isNamePart c) : isSpace c = false := by
  rcases isNamePart_iff.mp h with h | h | rfl
  · exact isSpace_eq_false_of_isLetter h
  · exact isSpace_eq_false_of_isDigit h
  · decide

/-- **An identifier**: a letter, then letters, digits and underscores. -/
def IsIdentifier (w : List Char) : Prop :=
  ∃ c cs, w = c :: cs ∧ isLetter c ∧ ∀ a ∈ cs, isNamePart a

end Text

namespace Postfix

/-- No operator has a letter in it. -/
theorem isLetter_eq_false_of_mem_operators {t : Token} (ht : t ∈ Token.operators) {c : Char}
    (hc : c ∈ t.chars) : Text.isLetter c = false := by
  have hall : Token.operators.all (fun u => u.chars.all (!Text.isLetter ·)) = true := by rfl
  simpa using List.all_eq_true.mp (List.all_eq_true.mp hall t ht) c hc

/-- No number begins with a letter. -/
theorem ofDigits?_eq_none_of_isLetter {c : Char} (h : Text.isLetter c) (cs : List Char) :
    Value.ofDigits? (c :: cs) = none := by
  have hnat : Value.natOfDigits? (c :: cs) = none := by
    simp [Value.natOfDigits?, Text.isDigit_eq_false_of_isLetter h]
  rw [Value.ofDigits?, Value.intOfDigits?.eq_def]
  -- a sign in front is no letter either
  split
  · next heq =>
    obtain ⟨rfl, -⟩ := List.cons_eq_cons.mp heq
    exact absurd h (by decide)
  · next heq =>
    obtain ⟨rfl, -⟩ := List.cons_eq_cons.mp heq
    exact absurd h (by decide)
  · rw [hnat]
    rfl

/-- **An identifier is a safe name.** -/
theorem isSafe_of_isIdentifier {w : List Char} (h : Text.IsIdentifier w) :
    IsSafe (.ofList w) := by
  obtain ⟨c, cs, rfl, hc, hcs⟩ := h
  rw [IsSafe, Token.IsPlain, String.toList_ofList]
  refine ⟨⟨List.cons_ne_nil _ _, ?_⟩, fun t ht he => ?_, ?_⟩
  · refine List.forall_mem_cons.mpr ⟨Text.isSpace_eq_false_of_isLetter hc, fun a ha => ?_⟩
    exact Text.isSpace_eq_false_of_isNamePart (hcs a ha)
  · have hfalse := isLetter_eq_false_of_mem_operators ht (he ▸ List.mem_cons_self)
    rw [hc] at hfalse
    cases hfalse
  · exact ofDigits?_eq_none_of_isLetter hc cs

end Postfix

/-! ### The names among the tokens -/

namespace Lexeme

theorem NameTail.isNamePart {w : List Char} (h : NameTail w) : ∀ a ∈ w, Text.isNamePart a := by
  have hpart : ∀ {c : Char}, Text.isLetter c ∨ c.isDigit → Text.isNamePart c := fun hc =>
    Text.isNamePart_iff.mpr (hc.elim .inl fun hdigit => .inr (.inl hdigit))
  induction h with
  | nil => exact nofun
  | cons hc _ ih => exact List.forall_mem_cons.mpr ⟨hpart hc, ih⟩
  | underscore hc _ ih =>
    refine List.forall_mem_cons.mpr ⟨by decide, ?_⟩
    exact List.forall_mem_cons.mpr ⟨hpart hc, ih⟩

theorem IsName.isIdentifier {w : List Char} (h : IsName w) : Text.IsIdentifier w := by
  obtain ⟨c, cs, rfl, hc, hcs⟩ := h
  exact ⟨c, cs, rfl, hc, hcs.isNamePart⟩

end Lexeme

namespace Scanner

/-- A token that is recognized is that of a lexeme. -/
theorem exists_denotes_of_mem_tokens {s : Scanner} {t : Token} (h : t ∈ Parse.words s.tokens)
    (ht : ∀ rest, t ≠ .unrecognized rest) : ∃ w, Lexeme.Denotes w t := by
  obtain ⟨l, hl, rfl⟩ := List.mem_map.mp h
  rcases s.decomposes_tokens.exists_denotes_or l hl with hw | ⟨rest, hrest⟩
  · exact hw
  · exact absurd hrest (ht rest)

/-- **A name that is scanned is a name of the language.** -/
theorem isName_of_mem_tokens {s : Scanner} {x : String}
    (h : .identifier x ∈ Parse.words s.tokens) : Lexeme.IsName x.toList := by
  obtain ⟨w, hw⟩ := exists_denotes_of_mem_tokens h nofun
  cases hw with
  | name hname => rwa [String.toList_ofList]

/-- **The names among the tokens of a line are safe.** -/
theorem isSafe_of_mem_tokens {s : Scanner} {x : String}
    (h : .identifier x ∈ Parse.words s.tokens) : Postfix.IsSafe x := by
  rw [← String.ofList_toList (s := x)]
  exact Postfix.isSafe_of_isIdentifier (isName_of_mem_tokens h).isIdentifier

end Scanner

/-! ### The names and the height of a sentence -/

namespace Grammar

variable {opts : ParseOptions} {ts : List Token} {e f : Expr}

/-- Signs bring in no names. -/
theorem Signed.names_subset {o : Option Token} (h : Signed opts o e f) : f.names ⊆ e.names := by
  cases h <;> simp [Expr.names]

/-- Nor do steps. -/
theorem Trailed.names_subset (h : Trailed opts e ts f) : f.names ⊆ e.names := by
  induction h with
  | nil e => exact List.Subset.refl _
  | cons hs _ ih => cases hs <;> exact ih

/-- **The names of an expression are on its line.** -/
theorem Derives.identifier_mem {k : Nonterminal} {d : Nat} (h : Derives opts k d ts e)
    {x : String} (hx : x ∈ e.names) : .identifier x ∈ ts := by
  induction h with
  | number d v => cases hx
  | identifier d y => simpa [Expr.names] using hx
  | parens hd h ih => simp [ih hx]
  | factor hsigns h hs ht ih =>
    have hmem := ih (hs.names_subset (ht.names_subset hx))
    simp [hmem]
  | ofFactor h ih | ofProduct h ih | ofSum h ih => exact ih hx
  | product _ hl hr _ ihl ihr | sum _ hl hr _ ihl ihr =>
    rcases List.mem_append.mp hx with hx | hx
    · simp [ihl hx]
    · simp [ihr hx]
  | assign hl hr hh ihl ihr =>
    rcases List.mem_cons.mp hx with rfl | hx
    · simp [ihl (List.mem_singleton.mpr rfl)]
    · simp [ihr hx]

/-- An operator in front of an atom or behind it is not too high. -/
theorem Signed.height_le {o : Option Token} (h : Signed opts o e f)
    (he : e.height ≤ max 1 opts.maxDepth) : f.height ≤ max 1 opts.maxDepth := by
  cases h <;> omega

theorem Trailed.height_le (h : Trailed opts e ts f) (he : e.height ≤ max 1 opts.maxDepth) :
    f.height ≤ max 1 opts.maxDepth := by
  induction h with
  | nil e => exact he
  | cons hs _ ih => cases hs <;> exact ih (by omega)

/-- **No derivation is too high**, but for an operand where no operator is allowed. -/
theorem Derives.height_le {k : Nonterminal} {d : Nat} (h : Derives opts k d ts e) :
    e.height ≤ max 1 opts.maxDepth := by
  induction h with
  | number d v => exact Nat.le_max_left _ _
  | identifier d y => exact Nat.le_max_left _ _
  | parens _ _ ih | ofFactor _ ih | ofProduct _ ih | ofSum _ ih => exact ih
  | factor hsigns h hs ht ih => exact ht.height_le (hs.height_le ih)
  | product _ _ _ hh _ _ | sum _ _ _ hh _ _ | assign _ _ hh _ _ => omega

/-- **What is parsed is fit to be written in postfix notation and read back**, under the
same limit. -/
theorem readable_of_parse {line : String} (h : parse line opts = .ok e) :
    Postfix.Readable opts.maxDepth e := by
  have hsentence := parse_eq_ok_iff.mp h
  exact ⟨fun x hx => Scanner.isSafe_of_mem_tokens (hsentence.identifier_mem hx),
    hsentence.height_le⟩

end Grammar

end Reckoner
