import Mathlib.Data.List.Basic
import Reckoner.Proofs.Scanning.Letters
import Reckoner.Token.Automaton

/-!
# Lexemes

The words of the language, said without an automaton: names, runs of digits,
parentheses and operators (`Reckoner.Lexeme`), and the token that each of them stands for
(`Reckoner.Lexeme.Denotes`). A run of digits is a lexeme however long it is, but it stands
for a token only if the number is a value.

The automaton is there to recognize them. What a state has read, if there was no white
space in front, is described by `Reckoner.ScanState.Spells`: one move of the automaton keeps
the description right (`Reckoner.ScanState.Spells.step`), and every text so described leads
to its state, so that the states tell the lexemes apart
(`Reckoner.ScanState.run_eq_iff`). The one state inside a lexeme that does not accept, behind
an underscore, has a description of its own.
-/

namespace Reckoner

variable {c : Char} {u v w : List Char}

/-! ### The words of the language -/

namespace Lexeme

/-- **What a name goes on with** behind its first letter: letters, digits, and single
underscores, each with a letter or a digit right behind it. -/
inductive NameTail : List Char → Prop
  /-- Nothing. -/
  | nil : NameTail []
  /-- A letter or a digit, and more. -/
  | cons {c : Char} {cs : List Char} (hc : Text.isLetter c ∨ c.isDigit) (h : NameTail cs) :
      NameTail (c :: cs)
  /-- An underscore with a letter or a digit behind it, and more. -/
  | underscore {c : Char} {cs : List Char} (hc : Text.isLetter c ∨ c.isDigit)
      (h : NameTail cs) : NameTail ('_' :: c :: cs)

/-- **A name**: a letter and what a name goes on with. -/
def IsName (w : List Char) : Prop := ∃ c cs, w = c :: cs ∧ Text.isLetter c ∧ NameTail cs

/-- **A run of digits**, of at least one. -/
def IsDigits (w : List Char) : Prop := w ≠ [] ∧ ∀ c ∈ w, c.isDigit

/-- The number that a run of digits stands for. -/
def decimal (w : List Char) : Nat := Nat.ofDigitChars 10 w 0

end Lexeme

open Lexeme

/-- **The lexemes of the language.** -/
inductive Lexeme : List Char → Prop
  /-- A name. -/
  | name {w : List Char} (h : IsName w) : Lexeme w
  /-- A run of digits. -/
  | number {w : List Char} (h : IsDigits w) : Lexeme w
  /-- An opening parenthesis. -/
  | openParen : Lexeme ['(']
  /-- A closing parenthesis. -/
  | closeParen : Lexeme [')']
  /-- An operator. -/
  | operator (op : Operator) : Lexeme op.chars

namespace Lexeme

/-- **The token that a lexeme stands for.** A number that is no value has none. -/
inductive Denotes : List Char → Token → Prop
  /-- A name stands for itself. -/
  | name {w : List Char} (h : IsName w) : Denotes w (.identifier (.ofList w))
  /-- A run of digits stands for its number. -/
  | number {w : List Char} (h : IsDigits w) {v : Value} (hv : v.toInt = decimal w) :
      Denotes w (.number v)
  /-- An opening parenthesis. -/
  | openParen : Denotes ['('] .openParen
  /-- A closing parenthesis. -/
  | closeParen : Denotes [')'] .closeParen
  /-- An operator. -/
  | operator (op : Operator) : Denotes op.chars (.operator op)

/-! ### Characters of lexemes -/

theorem NameTail.append (hu : NameTail u) (hv : NameTail v) : NameTail (u ++ v) := by
  induction hu with
  | nil => exact hv
  | cons hc _ ih => exact .cons hc ih
  | underscore hc _ ih => exact .underscore hc ih

theorem IsName.append (hu : IsName u) (hv : NameTail v) : IsName (u ++ v) := by
  obtain ⟨c, cs, rfl, hc, hcs⟩ := hu
  exact ⟨c, cs ++ v, rfl, hc, hcs.append hv⟩

theorem isSpace_eq_false_of_part (h : Text.isLetter c ∨ c.isDigit) : Text.isSpace c = false :=
  h.elim Text.isSpace_eq_false_of_isLetter Text.isSpace_eq_false_of_isDigit

theorem NameTail.isSpace_eq_false (h : NameTail w) : ∀ a ∈ w, Text.isSpace a = false := by
  induction h with
  | nil => exact nofun
  | cons hc _ ih => exact List.forall_mem_cons.mpr ⟨isSpace_eq_false_of_part hc, ih⟩
  | underscore hc _ ih =>
    refine List.forall_mem_cons.mpr ⟨by decide, ?_⟩
    exact List.forall_mem_cons.mpr ⟨isSpace_eq_false_of_part hc, ih⟩

/-- The signs of operators are neither white space nor letters nor digits. -/
theorem kinds_of_mem_operator {op : Operator} (h : c ∈ op.chars) :
    Text.isSpace c = false ∧ Text.isLetter c = false ∧ c.isDigit = false := by
  have hall : op.chars.all (fun a => !Text.isSpace a && !Text.isLetter a && !a.isDigit) := by
    rcases op with (_ | _ | _ | _ | _) | (_ | _) | (_ | (_ | _ | _ | _ | _)) <;> rfl
  simpa [and_assoc] using List.all_eq_true.mp hall c h

end Lexeme

/-- **There is no white space in a lexeme.** -/
theorem Lexeme.isSpace_eq_false (h : Lexeme w) : ∀ c ∈ w, Text.isSpace c = false := by
  cases h with
  | name h =>
    obtain ⟨c, cs, rfl, hc, hcs⟩ := h
    exact List.forall_mem_cons.mpr ⟨Text.isSpace_eq_false_of_isLetter hc, hcs.isSpace_eq_false⟩
  | number h => exact fun c hc => Text.isSpace_eq_false_of_isDigit (h.2 c hc)
  | openParen => exact List.forall_mem_singleton.mpr (by decide)
  | closeParen => exact List.forall_mem_singleton.mpr (by decide)
  | operator op => exact fun c hc => (kinds_of_mem_operator hc).1

/-- A lexeme is not empty. -/
theorem Lexeme.ne_nil (h : Lexeme w) : w ≠ [] := by
  cases h with
  | name h =>
    obtain ⟨c, cs, rfl, -⟩ := h
    exact List.cons_ne_nil c cs
  | number h => exact h.1
  | openParen => exact List.cons_ne_nil _ _
  | closeParen => exact List.cons_ne_nil _ _
  | operator op => rcases op with _ | _ | (_ | _) <;> exact List.cons_ne_nil _ _

namespace ScanState

/-! ### Runs -/

theorem run_append (s : ScanState) (u v : List Char) : s.run (u ++ v) = (s.run u).run v :=
  List.foldl_append

theorem run_concat (s : ScanState) (w : List Char) (c : Char) :
    s.run (w ++ [c]) = (s.run w).step c := s.run_append w [c]

/-- Once stuck, the automaton stays stuck. -/
theorem run_stuck (w : List Char) : stuck.run w = stuck := by
  induction w with
  | nil => rfl
  | cons c w ih => exact ih

/-! ### The first character -/

/-- A character of one of the three kinds begins no operator and no parenthesis. -/
theorem ofChar_of_kind (h : Text.isSpace c ∨ Text.isLetter c ∨ c.isDigit) :
    ofChar c =
      if Text.isSpace c then start else if Text.isLetter c then identifier else number := by
  have hne : ∀ a : Char, Text.isSpace a = false ∧ Text.isLetter a = false ∧ a.isDigit = false →
      c ≠ a := by
    rintro a ⟨hspace, hletter, hdigit⟩ rfl
    rw [hspace, hletter, hdigit] at h
    exact h.elim nofun fun h => h.elim nofun nofun
  have hop : Operator.ofChar? c = none := by
    refine Option.eq_none_iff_forall_ne_some.mpr fun op heq => hne c ?_ rfl
    exact @kinds_of_mem_operator c op (by simp [Operator.chars_of_ofChar? heq])
  rw [ofChar, if_neg (hne _ (by decide)), if_neg (hne _ (by decide)), hop]
  split_ifs <;> simp_all

theorem ofChar_of_isLetter (h : Text.isLetter c) : ofChar c = identifier := by
  rw [ofChar_of_kind (.inr (.inl h)), Text.isSpace_eq_false_of_isLetter h, h]
  rfl

theorem ofChar_of_isDigit (h : c.isDigit) : ofChar c = number := by
  have hletter : Text.isLetter c = false := Bool.eq_false_iff.mpr fun hl => by
    rw [Text.isDigit_eq_false_of_isLetter hl] at h
    cases h
  rw [ofChar_of_kind (.inr (.inr h)), Text.isSpace_eq_false_of_isDigit h, hletter]
  rfl

/-! ### What a state has read -/

/-- **What a state has read**, if the text did not begin with white space. -/
def Spells : ScanState → List Char → Prop
  | start, w => w = []
  | identifier, w => IsName w
  | underscore, w => ∃ v, IsName v ∧ w = v ++ ['_']
  | number, w => IsDigits w
  | openParen, w => w = ['(']
  | closeParen, w => w = [')']
  | operator op, w => w = op.chars
  | stuck, _ => False

/-- The first character of a text. -/
theorem spells_ofChar (hc : Text.isSpace c = false) (hne : ofChar c ≠ stuck) :
    (ofChar c).Spells [c] := by
  by_cases hletter : Text.isLetter c
  · rw [ofChar_of_isLetter hletter]
    exact ⟨c, [], rfl, hletter, .nil⟩
  by_cases hdigit : c.isDigit
  · rw [ofChar_of_isDigit hdigit]
    exact ⟨List.cons_ne_nil _ _, by simpa using hdigit⟩
  unfold ofChar at hne ⊢
  split
  · next hopen => rw [hopen]; rfl
  · split
    · next hclose => rw [hclose]; rfl
    · split
      · next op hop => exact (Operator.chars_of_ofChar? hop).symm
      -- a character of no kind
      · next hopen hclose _ hop => simp_all

/-- **One move** keeps the description right, as long as the automaton does not get
stuck. -/
theorem Spells.step {s : ScanState} (h : s.Spells w) (hc : w = [] → Text.isSpace c = false)
    (hne : s.step c ≠ stuck) : (s.step c).Spells (w ++ [c]) := by
  cases s with
  | start =>
    obtain rfl : w = [] := h
    exact spells_ofChar (hc rfl) hne
  | identifier =>
    have hname : IsName w := h
    simp only [ScanState.step, Bool.or_eq_true] at hne ⊢
    split_ifs at hne ⊢ with hpart hunder
    · exact hname.append (.cons hpart .nil)
    · exact ⟨w, hname, by rw [hunder]⟩
    · exact absurd rfl hne
  | underscore =>
    obtain ⟨v, hname, rfl⟩ := h
    simp only [ScanState.step, Bool.or_eq_true] at hne ⊢
    split_ifs at hne ⊢ with hpart
    · rw [List.append_assoc]
      exact hname.append (.underscore hpart .nil)
    · exact absurd rfl hne
  | number =>
    obtain ⟨hnil, hdigits⟩ : IsDigits w := h
    simp only [ScanState.step] at hne ⊢
    split_ifs at hne ⊢ with hdigit
    · refine ⟨by simp, List.forall_mem_append.mpr ⟨hdigits, by simpa using hdigit⟩⟩
    · exact absurd rfl hne
  | openParen => exact absurd rfl hne
  | closeParen => exact absurd rfl hne
  | operator op =>
    obtain rfl : w = op.chars := h
    simp only [ScanState.step] at hne ⊢
    rcases hop : op.extend? c with _ | longer
    · rw [hop] at hne
      exact absurd rfl hne
    · exact (Operator.chars_of_extend? hop).symm
  | stuck => exact h.elim

/-- So does a run. -/
theorem Spells.run {s : ScanState} (h : s.Spells u)
    (hw : u = [] → ∀ c ∈ w.head?, Text.isSpace c = false) (hne : s.run w ≠ stuck) :
    (s.run w).Spells (u ++ w) := by
  induction w generalizing s u with
  | nil =>
    rw [List.append_nil]
    exact h
  | cons c w ih =>
    have hstep : s.step c ≠ stuck := fun hs => hne <| by
      rw [ScanState.run, List.foldl_cons, hs]
      exact run_stuck w
    have hrun := ih (h.step (fun hu => hw hu c rfl) hstep) (fun hu => by simp at hu) hne
    rwa [List.append_assoc] at hrun

theorem spells_run (hw : ∀ c ∈ w.head?, Text.isSpace c = false) (hne : start.run w ≠ stuck) :
    (start.run w).Spells w :=
  Spells.run (s := start) (u := []) rfl (fun _ => hw) hne

/-! ### The runs of lexemes -/

theorem run_identifier (h : NameTail w) : identifier.run w = identifier := by
  induction h with
  | nil => rfl
  | cons hc _ ih =>
    rw [run, List.foldl_cons, ScanState.step, if_pos (by simpa using hc)]
    exact ih
  | underscore hc _ ih =>
    rw [run, List.foldl_cons, List.foldl_cons]
    have hunder : identifier.step '_' = underscore := by decide
    rw [hunder, ScanState.step, if_pos (by simpa using hc)]
    exact ih

theorem run_number (h : ∀ c ∈ w, c.isDigit) : number.run w = number := by
  induction w with
  | nil => rfl
  | cons c w ih =>
    obtain ⟨hc, hw⟩ := List.forall_mem_cons.mp h
    rw [run, List.foldl_cons, ScanState.step, if_pos hc]
    exact ih hw

theorem run_of_isName (h : IsName w) : start.run w = identifier := by
  obtain ⟨c, cs, rfl, hc, hcs⟩ := h
  show (ofChar c).run cs = identifier
  rw [ofChar_of_isLetter hc, run_identifier hcs]

theorem run_of_isDigits (h : IsDigits w) : start.run w = number := by
  obtain ⟨c, cs, rfl⟩ := List.exists_cons_of_ne_nil h.1
  obtain ⟨hc, hcs⟩ := List.forall_mem_cons.mp h.2
  show (ofChar c).run cs = number
  rw [ofChar_of_isDigit hc, run_number hcs]

theorem run_chars (op : Operator) : start.run op.chars = operator op := by
  rcases op with (_ | _ | _ | _ | _) | (_ | _) | (_ | (_ | _ | _ | _ | _)) <;> rfl

/-- **Every text that a state describes leads to it.** -/
theorem Spells.run_eq {s : ScanState} (h : s.Spells w) : start.run w = s := by
  cases s with
  | start => exact congrArg (start.run) h
  | identifier => exact run_of_isName h
  | underscore =>
    obtain ⟨v, hv, rfl⟩ := h
    rw [run_concat, run_of_isName hv]
    decide
  | number => exact run_of_isDigits h
  | openParen => exact congrArg (start.run) h
  | closeParen => exact congrArg (start.run) h
  | operator op =>
    obtain rfl : w = op.chars := h
    exact run_chars op
  | stuck => exact h.elim

/-- **The states tell texts apart**: what leads to a state is what it describes. -/
theorem run_eq_iff (hw : ∀ c ∈ w.head?, Text.isSpace c = false) {s : ScanState} (hs : s ≠ stuck) :
    start.run w = s ↔ s.Spells w := by
  refine ⟨?_, Spells.run_eq⟩
  rintro rfl
  exact spells_run hw hs

/-! ### Lexemes and their tokens -/

/-- **The automaton accepts the lexemes.** -/
theorem accepting_run_iff (hw : ∀ c ∈ w.head?, Text.isSpace c = false) :
    (start.run w).accepting ↔ Lexeme w := by
  constructor
  · intro h
    have hspells := spells_run hw fun hs => by rw [hs] at h; cases h
    generalize start.run w = s at h hspells
    cases s with
    | identifier => exact .name hspells
    | number => exact .number hspells
    | openParen => obtain rfl : w = ['('] := hspells; exact .openParen
    | closeParen => obtain rfl : w = [')'] := hspells; exact .closeParen
    | operator op => obtain rfl : w = op.chars := hspells; exact .operator op
    | start => cases h
    | underscore => cases h
    | stuck => cases h
  · intro h
    cases h with
    | name h => rw [run_of_isName h]; rfl
    | number h => rw [run_of_isDigits h]; rfl
    | openParen => rfl
    | closeParen => rfl
    | operator op => rw [run_chars]; rfl

/-- A run of digits is read as its number, if that is a value. -/
theorem ofDigits?_of_isDigits (h : IsDigits w) :
    Value.ofDigits? w = Value.ofInt? (decimal w) := by
  have hall : w.all Char.isDigit = true := List.all_eq_true.mpr h.2
  have hnat : Value.natOfDigits? w = some (decimal w) := by
    rw [Value.natOfDigits?, hall, if_pos (by simpa using h.1)]
    rfl
  rw [Value.ofDigits?, Value.intOfDigits?_of_isDigit h.2, hnat]
  rfl

/-- The token of a state is the one that its text stands for. -/
theorem Spells.denotes {s : ScanState} (h : s.Spells w) {t : Token} (ht : s.token? w = some t) :
    Denotes w t := by
  cases s with
  | identifier =>
    obtain rfl := Option.some.inj ht
    exact .name h
  | number =>
    obtain ⟨v, hv, rfl⟩ := Option.map_eq_some_iff.mp ht
    rw [ofDigits?_of_isDigits h] at hv
    exact .number h (Value.ofInt?_eq_some_iff.mp hv)
  | openParen =>
    obtain rfl := Option.some.inj ht
    obtain rfl : w = ['('] := h
    exact .openParen
  | closeParen =>
    obtain rfl := Option.some.inj ht
    obtain rfl : w = [')'] := h
    exact .closeParen
  | operator op =>
    obtain rfl := Option.some.inj ht
    obtain rfl : w = op.chars := h
    exact .operator op
  | start | underscore | stuck => cases ht

/-- **The automaton makes of a lexeme the token it stands for.** -/
theorem token?_run_eq_some_iff (hw : ∀ c ∈ w.head?, Text.isSpace c = false) {t : Token} :
    (start.run w).token? w = some t ↔ Denotes w t := by
  constructor
  · intro ht
    exact (spells_run hw fun hs => by rw [hs] at ht; cases ht).denotes ht
  · intro h
    cases h with
    | name h => rw [run_of_isName h]; rfl
    | number h hv =>
      rw [run_of_isDigits h, token?, ofDigits?_of_isDigits h, Value.ofInt?_eq_some_iff.mpr hv]
      rfl
    | openParen => rfl
    | closeParen => rfl
    | operator op => rw [run_chars]; rfl

end ScanState

/-! ### Numbers that are too great -/

namespace Lexeme

/-- **A lexeme stands for a token**, unless it is a number that is too great. -/
theorem exists_denotes (h : Lexeme w) :
    (∃ t, Denotes w t) ∨ IsDigits w ∧ 2147483647 < decimal w := by
  cases h with
  | name h => exact .inl ⟨_, .name h⟩
  | number h =>
    rcases Nat.lt_or_ge 2147483647 (decimal w) with hlt | hle
    · exact .inr ⟨h, hlt⟩
    · exact .inl ⟨_, .number (v := ⟨decimal w, by omega, by omega⟩) h rfl⟩
  | openParen => exact .inl ⟨_, .openParen⟩
  | closeParen => exact .inl ⟨_, .closeParen⟩
  | operator op => exact .inl ⟨_, .operator op⟩

/-- A number that is too great stands for nothing. -/
theorem IsDigits.not_denotes (h : IsDigits w) (hlt : 2147483647 < decimal w) (t : Token) :
    ¬Denotes w t := by
  intro ht
  have hw : ∀ c ∈ w.head?, Text.isSpace c = false := fun c hc =>
    (Lexeme.number h).isSpace_eq_false c (List.mem_of_mem_head? hc)
  have hnone : Value.ofInt? (decimal w) = none := Value.ofInt?_eq_none_iff.mpr fun hr => by
    have := hr.2
    omega
  have htoken := (ScanState.token?_run_eq_some_iff hw).mpr ht
  rw [ScanState.run_of_isDigits h, ScanState.token?, ScanState.ofDigits?_of_isDigits h,
    hnone] at htoken
  cases htoken

end Lexeme

end Reckoner
