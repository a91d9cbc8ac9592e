import Mathlib.Data.List.TakeWhile
import Reckoner.Proofs.Scanning.Lexemes
import Reckoner.Token.Scanner

/-!
# Lines as sequences of lexemes

What a scanner has to do, said of texts alone: a line is white space and lexemes by turns,
each lexeme the longest one that begins where it does, and each with the number of
characters in front of it (`Reckoner.Decomposes`). Where no lexeme begins, or where the
longest one is a number that is too great, all the rest is one unrecognized token and the
line is at its end.

The automaton finds the longest lexeme although it passes through a state that does not
accept: the match it remembers is a prefix that it accepts, and no prefix that it accepts is
longer (`Reckoner.ScanState.longest?_of_accepting`). So the tokens of a line are
those of its decomposition, and there is one decomposition only
(`Reckoner.Scanner.tokens_ofLine_eq_iff`).
-/

namespace Reckoner

open Lexeme

variable {c : Char} {w ws cs : List Char}

/-! ### Decompositions -/

/-- **The longest lexeme** that a text begins with. -/
structure Lexeme.Longest (w cs : List Char) : Prop where
  /-- The text begins with it. -/
  begins : w <+: cs
  /-- It is a lexeme. -/
  lexeme : Lexeme w
  /-- No lexeme that the text begins with is longer. -/
  longest : ∀ v, v <+: cs → Lexeme v → v.length ≤ w.length

/-- **A text that begins with no token**: with no lexeme, or with a number that is too
great. -/
def Lexeme.Missing (cs : List Char) : Prop :=
  (∀ w, w <+: cs → ¬Lexeme w) ∨ ∃ w, Longest w cs ∧ IsDigits w ∧ 2147483647 < decimal w

/-- White space, or nothing. -/
def IsBlank (ws : List Char) : Prop := ∀ c ∈ ws, Text.isSpace c

theorem IsBlank.nil : IsBlank [] := List.forall_mem_nil _

/-- **The decomposition of a text** that has `n` characters in front of it. -/
inductive Decomposes : Nat → List Char → List Located → Prop
  /-- White space holds no token. -/
  | blank {n : Nat} {ws : List Char} (hws : IsBlank ws) : Decomposes n ws []
  /-- Behind white space comes the longest lexeme, and the rest of the text behind that. -/
  | lexeme {n : Nat} {ws w cs : List Char} {t : Token} {ts : List Located} (hws : IsBlank ws)
      (hw : Longest w (w ++ cs)) (ht : Denotes w t)
      (h : Decomposes (n + ws.length + w.length) cs ts) :
      Decomposes n (ws ++ (w ++ cs)) (⟨t, n + ws.length⟩ :: ts)
  /-- Where no token begins, the rest of the text is one, and the last. -/
  | unrecognized {n : Nat} {ws cs : List Char} {c : Char} (hws : IsBlank ws)
      (hc : Text.isSpace c = false) (h : Missing (c :: cs)) :
      Decomposes n (ws ++ c :: cs) [⟨.unrecognized (.ofList (c :: cs)), n + ws.length⟩]

/-! ### The longest match -/

namespace ScanState

/-- The longest match is a run. -/
theorem run_of_longest? {s t : ScanState} {n : Nat} (h : s.longest? cs = some (t, n)) :
    s.run (cs.take n) = t ∧ t.accepting := by
  induction cs generalizing s t n with
  | nil => cases h
  | cons c cs ih =>
    rw [longest?] at h
    split at h
    · cases h
    · split at h
      · next u m hm =>
        cases h
        exact ih hm
      · split at h
        · next haccept =>
          cases h
          exact ⟨rfl, haccept⟩
        · cases h

/-- **No accepted prefix is longer than the longest match.** -/
theorem longest?_of_accepting {s : ScanState} (hw : w <+: cs) (hne : w ≠ [])
    (h : (s.run w).accepting) : ∃ t n, s.longest? cs = some (t, n) ∧ w.length ≤ n := by
  induction w generalizing s cs with
  | nil => exact absurd rfl hne
  | cons c w ih =>
    obtain ⟨us, rfl⟩ := hw
    have hrun : ((s.step c).run w).accepting := h
    have hstep : s.step c ≠ stuck := fun hs => by
      rw [hs, run_stuck] at hrun
      cases hrun
    rw [List.cons_append, longest?, if_neg hstep]
    rcases eq_or_ne w [] with rfl | hw
    -- the match may be longer than one character, whether or not it stops accepting in between
    · rcases hmatch : (s.step c).longest? ([] ++ us) with _ | ⟨t, n⟩
      · exact ⟨s.step c, 1, if_pos hrun, Nat.le_refl 1⟩
      · exact ⟨t, n + 1, rfl, by simp⟩
    · obtain ⟨t, n, hmatch, hle⟩ := ih (List.prefix_append w us) hw hrun
      rw [hmatch]
      exact ⟨t, n + 1, rfl, Nat.succ_le_succ hle⟩

end ScanState

/-! ### The first token of a text -/

namespace Token

/-- What a text begins with begins like the text. -/
theorem isSpace_head?_of_begins (hc : Text.isSpace c = false) (hw : w <+: c :: cs) :
    ∀ a ∈ w.head?, Text.isSpace a = false := by
  intro a ha
  obtain ⟨us, hus⟩ := hw
  cases w with
  | nil => cases ha
  | cons b w =>
    obtain rfl := Option.some.inj ha
    rwa [(List.cons_eq_cons.mp hus).1]

/-- What is matched of a text is the longest lexeme it begins with. -/
theorem longest_of_longest? (hc : Text.isSpace c = false) {s : ScanState} {n : Nat}
    (h : ScanState.start.longest? (c :: cs) = some (s, n)) :
    Longest ((c :: cs).take n) (c :: cs) where
  begins := List.take_prefix n _
  lexeme := by
    obtain ⟨hrun, haccept⟩ := ScanState.run_of_longest? h
    refine (ScanState.accepting_run_iff ?_).mp (hrun ▸ haccept)
    exact isSpace_head?_of_begins hc (List.take_prefix n _)
  longest v hv hlex := by
    have haccept := (ScanState.accepting_run_iff (isSpace_head?_of_begins hc hv)).mpr hlex
    obtain ⟨t, m, hm, hle⟩ := ScanState.longest?_of_accepting hv hlex.ne_nil haccept
    rw [h] at hm
    cases hm
    rwa [List.length_take_of_le (ScanState.longest?_bounds h).2]

/-- **The first token of a text** is that of the longest lexeme it begins with, and where
that stands for nothing, or where there is none, the text begins with no token. -/
theorem first?_cases (hc : Text.isSpace c = false) (cs : List Char) :
    (∃ w t, Longest w (c :: cs) ∧ Denotes w t ∧ first? (c :: cs) = some (t, w.length)) ∨
      Missing (c :: cs) ∧ first? (c :: cs) = none := by
  rcases h : ScanState.start.longest? (c :: cs) with _ | ⟨s, n⟩
  · refine .inr ⟨.inl fun w hw hlex => ?_, by rw [first?, h]⟩
    have haccept := (ScanState.accepting_run_iff (isSpace_head?_of_begins hc hw)).mpr hlex
    obtain ⟨t, m, hm, -⟩ := ScanState.longest?_of_accepting hw hlex.ne_nil haccept
    rw [h] at hm
    cases hm
  · have hlongest := longest_of_longest? hc h
    have hw := isSpace_head?_of_begins hc hlongest.begins
    obtain rfl := (ScanState.run_of_longest? h).1
    have hfirst : first? (c :: cs) =
        ((ScanState.start.run ((c :: cs).take n)).token? ((c :: cs).take n)).map (·, n) := by
      rw [first?, h]
    rcases hlongest.lexeme.exists_denotes with ⟨t, ht⟩ | ⟨hdigits, hlt⟩
    · refine .inl ⟨_, t, hlongest, ht, ?_⟩
      rw [hfirst, (ScanState.token?_run_eq_some_iff hw).mpr ht,
        List.length_take_of_le (ScanState.longest?_bounds h).2]
      rfl
    · refine .inr ⟨.inr ⟨_, hlongest, hdigits, hlt⟩, ?_⟩
      rw [hfirst, Option.map_eq_none_iff]
      refine Option.eq_none_iff_forall_ne_some.mpr fun t ht => ?_
      exact hdigits.not_denotes hlt t ((ScanState.token?_run_eq_some_iff hw).mp ht)

end Token

/-! ### One call of the scanner -/

namespace Scanner

/-- **What one call does**: read to the end of the text if nothing but white space is left,
take the longest lexeme behind white space, or take all the rest where no token begins. -/
theorem next_cases (s : Scanner) :
    (IsBlank s.rest ∧
      s.next = (none, ⟨[], s.offset + s.rest.length, s.offset + s.rest.length⟩)) ∨
    (∃ ws w cs t, s.rest = ws ++ (w ++ cs) ∧ IsBlank ws ∧ Longest w (w ++ cs) ∧ Denotes w t ∧
      s.next = (some t, ⟨cs, s.offset + ws.length + w.length, s.offset + ws.length⟩)) ∨
    ∃ ws c cs, s.rest = ws ++ c :: cs ∧ IsBlank ws ∧ Text.isSpace c = false ∧
      Missing (c :: cs) ∧ s.next = (some (.unrecognized (.ofList (c :: cs))),
        ⟨[], s.offset + ws.length + (c :: cs).length, s.offset + ws.length⟩) := by
  have hsplit : s.rest.takeWhile Text.isSpace ++ s.rest.dropWhile Text.isSpace = s.rest :=
    List.takeWhile_append_dropWhile
  have hblank : IsBlank (s.rest.takeWhile Text.isSpace) := List.all_eq_true.mp List.all_takeWhile
  rcases hrest : s.rest.dropWhile Text.isSpace with _ | ⟨c, cs⟩
  · rw [hrest, List.append_nil] at hsplit
    rw [hsplit] at hblank
    exact .inl ⟨hblank, by rw [next, hrest]⟩
  · have hc := List.head?_dropWhile_not Text.isSpace s.rest
    rw [hrest] at hc hsplit
    rcases Token.first?_cases hc cs with ⟨w, t, hw, ht, hfirst⟩ | ⟨hmissing, hfirst⟩
    · obtain ⟨us, hus⟩ := hw.begins
      refine .inr (.inl ⟨_, w, us, t, by rw [hus, hsplit], hblank, hus ▸ hw, ht, ?_⟩)
      rw [next, hrest]
      simp only [hfirst]
      rw [← hus, List.drop_left]
    · refine .inr (.inr ⟨_, c, cs, hsplit.symm, hblank, hc, hmissing, ?_⟩)
      rw [next, hrest]
      simp only [hfirst]

end Scanner

/-! ### One decomposition only -/

namespace Lexeme

theorem Longest.unique {v : List Char} (hv : Longest v cs) (hw : Longest w cs) : v = w := by
  have hle := hw.longest v hv.begins hv.lexeme
  exact (List.prefix_of_prefix_length_le hv.begins hw.begins hle).eq_of_length
    (Nat.le_antisymm hle (hv.longest w hw.begins hw.lexeme))

theorem Denotes.lexeme {t : Token} (h : Denotes w t) : Lexeme w := by
  cases h with
  | name h => exact .name h
  | number h hv => exact .number h
  | openParen => exact .openParen
  | closeParen => exact .closeParen
  | operator op => exact .operator op

theorem Denotes.unique {t u : Token} (ht : Denotes w t) (hu : Denotes w u) : t = u := by
  have hw : ∀ c ∈ w.head?, Text.isSpace c = false := fun c hc =>
    ht.lexeme.isSpace_eq_false c (List.mem_of_mem_head? hc)
  have htoken := (ScanState.token?_run_eq_some_iff hw).mpr ht
  rw [(ScanState.token?_run_eq_some_iff hw).mpr hu] at htoken
  exact (Option.some.inj htoken).symm

/-- A text that begins with no token has no longest lexeme that stands for one. -/
theorem Missing.not_denotes (h : Missing cs) (hw : Longest w cs) (t : Token) : ¬Denotes w t := by
  rcases h with hnone | ⟨v, hv, hdigits, hlt⟩
  · exact absurd hw.lexeme (hnone w hw.begins)
  · exact hv.unique hw ▸ hdigits.not_denotes hlt t

end Lexeme

/-- A text that begins with a lexeme does not begin with white space. -/
theorem Lexeme.Longest.exists_cons (h : Longest w cs) :
    ∃ c us, cs = c :: us ∧ Text.isSpace c = false := by
  obtain ⟨us, rfl⟩ := h.begins
  obtain ⟨c, w', rfl⟩ := List.exists_cons_of_ne_nil h.lexeme.ne_nil
  exact ⟨c, w' ++ us, rfl, h.lexeme.isSpace_eq_false c List.mem_cons_self⟩

theorem Token.first?_of_longest (hw : Longest w cs) {t : Token} (ht : Denotes w t) :
    first? cs = some (t, w.length) := by
  obtain ⟨c, us, rfl, hc⟩ := hw.exists_cons
  rcases first?_cases hc us with ⟨v, u, hv, hu, hfirst⟩ | ⟨hmissing, -⟩
  · obtain rfl := hv.unique hw
    rw [hfirst, hu.unique ht]
  · exact absurd ht (hmissing.not_denotes hw t)

theorem Token.first?_of_missing (hc : Text.isSpace c = false) (h : Missing (c :: cs)) :
    first? (c :: cs) = none := by
  rcases first?_cases hc cs with ⟨v, u, hv, hu, -⟩ | ⟨-, hfirst⟩
  · exact absurd hu (h.not_denotes hv u)
  · exact hfirst

/-! ### The tokens of a text -/

namespace Scanner

theorem tokens_of_next_none {s u : Scanner} (h : s.next = (none, u)) : s.tokens = [] := by
  rw [tokens]
  split
  · rfl
  · next heq => rw [h] at heq; cases heq

theorem tokens_of_next_some {s u : Scanner} {t : Token} (h : s.next = (some t, u)) :
    s.tokens = ⟨t, u.position⟩ :: u.tokens := by
  rw [tokens]
  split
  · next heq => rw [h] at heq; cases heq
  · next heq => rw [h] at heq; cases heq; rfl

theorem tokens_of_isBlank {n p : Nat} (hws : IsBlank ws) : tokens ⟨ws, n, p⟩ = [] := by
  have hdrop : ws.dropWhile Text.isSpace = [] := List.dropWhile_eq_nil_iff.mpr hws
  refine tokens_of_next_none (u := ⟨[], n + ws.length, n + ws.length⟩) ?_
  rw [next, hdrop]

/-- White space in front of a text is passed over. -/
theorem takeWhile_append_of_isBlank (hws : IsBlank ws) (hc : Text.isSpace c = false)
    (cs : List Char) :
    (ws ++ c :: cs).takeWhile Text.isSpace = ws ∧
      (ws ++ c :: cs).dropWhile Text.isSpace = c :: cs := by
  constructor
  · rw [List.takeWhile_append_of_pos hws, List.takeWhile_cons_of_neg (by simp [hc]),
      List.append_nil]
  · rw [List.dropWhile_append_of_pos hws, List.dropWhile_cons_of_neg (by simp [hc])]

theorem tokens_of_longest (hws : IsBlank ws) (hw : Longest w (w ++ cs)) {t : Token}
    (ht : Denotes w t) (n p : Nat) :
    tokens ⟨ws ++ (w ++ cs), n, p⟩ = ⟨t, n + ws.length⟩ ::
      tokens ⟨cs, n + ws.length + w.length, n + ws.length⟩ := by
  have hfirst := Token.first?_of_longest hw ht
  obtain ⟨c, us, heq, hc⟩ := hw.exists_cons
  have hdrop : (c :: us).drop w.length = cs := by rw [← heq, List.drop_left]
  rw [heq] at hfirst ⊢
  obtain ⟨htake, hskip⟩ := takeWhile_append_of_isBlank hws hc us
  have hnext : next ⟨ws ++ c :: us, n, p⟩ =
      (some t, ⟨cs, n + ws.length + w.length, n + ws.length⟩) := by
    rw [next, hskip, htake]
    simp only [hfirst, hdrop]
  rw [tokens_of_next_some hnext]

theorem tokens_of_missing (hws : IsBlank ws) (hc : Text.isSpace c = false)
    (h : Missing (c :: cs)) (n p : Nat) :
    tokens ⟨ws ++ c :: cs, n, p⟩ =
      [⟨.unrecognized (.ofList (c :: cs)), n + ws.length⟩] := by
  have hfirst := Token.first?_of_missing hc h
  obtain ⟨htake, hskip⟩ := takeWhile_append_of_isBlank hws hc cs
  have hnext : next ⟨ws ++ c :: cs, n, p⟩ = (some (.unrecognized (.ofList (c :: cs))),
      ⟨[], n + ws.length + (c :: cs).length, n + ws.length⟩) := by
    rw [next, hskip, htake]
    simp only [hfirst]
  rw [tokens_of_next_some hnext, tokens_of_isBlank .nil]

/-- **The tokens of a text are a decomposition of it.** -/
theorem decomposes_tokens (s : Scanner) : Decomposes s.offset s.rest s.tokens := by
  fun_induction tokens s with
  | case1 s u hnext =>
    rcases s.next_cases with ⟨hblank, -⟩ | ⟨_, _, _, _, -, -, -, -, h⟩ | ⟨_, _, _, -, -, -, -, h⟩
    · exact .blank hblank
    · rw [hnext] at h; cases h
    · rw [hnext] at h; cases h
  | case2 s t u hnext ih =>
    rcases s.next_cases with
      ⟨-, h⟩ | ⟨ws, w, cs, t', hrest, hws, hw, ht, h⟩ | ⟨ws, c, cs, hrest, hws, hc, hmissing, h⟩
    · rw [hnext] at h; cases h
    · rw [hnext] at h
      cases h
      rw [hrest]
      exact .lexeme hws hw ht ih
    · rw [hnext] at h
      cases h
      rw [hrest, tokens_of_isBlank .nil]
      exact .unrecognized hws hc hmissing

end Scanner

/-- Every token of a decomposition is that of a lexeme, or the rest of the text. -/
theorem Decomposes.exists_denotes_or {n : Nat} {ts : List Located} (h : Decomposes n cs ts) :
    ∀ l ∈ ts, (∃ w, Denotes w l.token) ∨ ∃ rest, l.token = .unrecognized rest := by
  induction h with
  | blank hws => exact List.forall_mem_nil _
  | lexeme hws hw ht h ih => exact List.forall_mem_cons.mpr ⟨.inl ⟨_, ht⟩, ih⟩
  | unrecognized hws hc h => exact List.forall_mem_singleton.mpr (.inr ⟨_, rfl⟩)

/-- **A decomposition of a text lists its tokens.** -/
theorem Decomposes.tokens_eq {n : Nat} {ts : List Located} (h : Decomposes n cs ts) (p : Nat) :
    (Scanner.mk cs n p).tokens = ts := by
  induction h generalizing p with
  | blank hws => exact Scanner.tokens_of_isBlank hws
  | lexeme hws hw ht _ ih => rw [Scanner.tokens_of_longest hws hw ht, ih]
  | unrecognized hws hc h => exact Scanner.tokens_of_missing hws hc h _ p

/-- **The scanner takes the longest lexemes and loses nothing.** The tokens of a line, each
with the place at which the scanner reports it, are those of its decomposition, of which
there is one only. -/
theorem Scanner.tokens_ofLine_eq_iff (line : String) (ts : List Located) :
    (Scanner.ofLine line).tokens = ts ↔ Decomposes 0 line.toList ts := by
  constructor
  · rintro rfl
    exact decomposes_tokens (ofLine line)
  · intro h
    exact h.tokens_eq 0

end Reckoner
