import Reckoner.Proofs.Scanning.Decomposition

/-!
# A scanner called again and again

Between two calls a scanner can be asked whether a token is left and where the latest one began.
Neither answer is taken from the automaton: the first one looks for anything but white space in
what is left of the line, and the other one was written down by the call. That they agree with what
the calls do (`Reckoner.Scanner.Agrees`) is proved here of every scanner that calls can lead to
(`Reckoner.Scanner.agrees_after_ofLine`).

What is known of such a scanner is `Reckoner.Scanner.On`: how far it has come on the line, and that
all the tokens it has given begin in front of that. A call that gives a token begins it there or
further behind and goes on behind its beginning (`Reckoner.Scanner.next_advances`), which keeps all
of this right; a call that gives none goes to the end of the line, where it is stuck
(`Reckoner.Scanner.eq_of_next_none`).
-/

namespace Reckoner

namespace Scanner

variable {line : String} {s u : Scanner} {t : Token} {ts : List Located}

/-! ### Many calls -/

/-- **The scanner after so many calls.** -/
def after (s : Scanner) : Nat → Scanner
  | 0 => s
  | k + 1 => (s.after k).next.2

/-- **The tokens that so many calls give**, each with the place that is reported after the call. -/
def given (s : Scanner) : Nat → List Located
  | 0 => []
  | k + 1 => s.given k ++ ((s.after k).next.1.map (⟨·, (s.after (k + 1)).position⟩)).toList

/-! ### One call -/

/-- Whether a token is left is whether there is anything but white space. -/
theorem hasNext_eq_false_iff : s.hasNext = false ↔ IsBlank s.rest := by
  simp [hasNext, IsBlank]

/-- **Whether a token is left** is whether the next call gives one. -/
theorem hasNext_iff : s.hasNext ↔ ∃ t, s.next.1 = some t := by
  rcases s.next_cases with
    ⟨hblank, h⟩ | ⟨ws, w, cs, t, hrest, -, hw, -, h⟩ | ⟨ws, c, cs, hrest, -, hc, -, h⟩
  · rw [hasNext_eq_false_iff.mpr hblank, h]
    constructor
    · nofun
    · rintro ⟨t, ht⟩
      cases ht
  all_goals
    rw [h, ← Bool.not_eq_false, hasNext_eq_false_iff, hrest]
    refine ⟨fun _ => ⟨_, rfl⟩, fun _ hblank => ?_⟩
  · obtain ⟨c, us, hus, hc⟩ := hw.exists_cons
    have hspace := hblank c (by simp [hus])
    rw [hc] at hspace
    cases hspace
  · have hspace := hblank c (by simp)
    rw [hc] at hspace
    cases hspace

/-- **A call that gives a token** reads some characters, and begins the token among them. -/
theorem next_advances (h : s.next = (some t, u)) :
    ∃ us, s.rest = us ++ u.rest ∧ u.offset = s.offset + us.length ∧
      s.offset ≤ u.position ∧ u.position < u.offset := by
  rcases s.next_cases with
    ⟨-, heq⟩ | ⟨ws, w, cs, t', hrest, -, hw, -, heq⟩ | ⟨ws, c, cs, hrest, -, -, -, heq⟩
  · rw [h] at heq
    cases heq
  · rw [h] at heq
    cases heq
    have hpos : 0 < w.length := List.length_pos_of_ne_nil hw.lexeme.ne_nil
    refine ⟨ws ++ w, by rw [hrest, List.append_assoc], ?_, Nat.le_add_right _ _,
      Nat.lt_add_of_pos_right hpos⟩
    rw [List.length_append, Nat.add_assoc]
  · rw [h] at heq
    cases heq
    refine ⟨ws ++ c :: cs, by rw [hrest, List.append_nil], ?_, Nat.le_add_right _ _,
      Nat.lt_add_of_pos_right (Nat.succ_pos _)⟩
    rw [List.length_append, Nat.add_assoc]

/-- **A call that gives no token** leaves the scanner at the end of the line. -/
theorem eq_of_next_none (h : s.next = (none, u)) :
    u = ⟨[], s.offset + s.rest.length, s.offset + s.rest.length⟩ := by
  rcases s.next_cases with ⟨-, heq⟩ | ⟨_, _, _, _, -, -, -, -, heq⟩ | ⟨_, _, _, -, -, -, -, heq⟩
  · rw [h] at heq
    exact congrArg Prod.snd heq
  · rw [h] at heq
    cases heq
  · rw [h] at heq
    cases heq

/-- At the end of the line there are no more tokens, however often the scanner is called. -/
theorem next_after_end (n k : Nat) : (after ⟨[], n, n⟩ k).next = (none, ⟨[], n, n⟩) := by
  have hafter : after ⟨[], n, n⟩ k = ⟨[], n, n⟩ := by
    induction k with
    | zero => rfl
    | succ k ih => rw [after, ih]; rfl
  rw [hafter]
  rfl

/-! ### Scanners on a line -/

/-- **A scanner on a line** that has given some tokens. -/
structure On (line : String) (ts : List Located) (s : Scanner) : Prop where
  /-- What is left of the line is what is behind the characters that have been read. -/
  rest_eq : s.rest = line.toList.drop s.offset
  /-- No more characters have been read than there are. -/
  offset_le : s.offset ≤ line.length
  /-- No more tokens have been given than characters have been read. -/
  length_le : ts.length ≤ s.offset
  /-- All tokens begin within the characters that have been read. -/
  position_lt : ∀ l ∈ ts, l.position < s.offset

namespace On

theorem ofLine (line : String) : On line [] (ofLine line) where
  rest_eq := rfl
  offset_le := Nat.zero_le _
  length_le := Nat.le_refl 0
  position_lt := List.forall_mem_nil _

/-- What has been read and what is left are the line. -/
theorem offset_add_length (h : On line ts s) : s.offset + s.rest.length = line.length := by
  have hle := h.offset_le
  rw [h.rest_eq, List.length_drop, String.length_toList]
  omega

/-- One more token. -/
theorem next_some (h : On line ts s) (hnext : s.next = (some t, u)) :
    On line (ts ++ [⟨t, u.position⟩]) u := by
  obtain ⟨us, hrest, hoffset, hle, hlt⟩ := next_advances hnext
  have hline := h.offset_add_length
  have hlength := h.length_le
  rw [hrest, List.length_append] at hline
  refine ⟨?_, by omega, ?_, ?_⟩
  · rw [hoffset, ← List.drop_drop, ← h.rest_eq, hrest, List.drop_left]
  · rw [List.length_append, List.length_singleton]
    omega
  · rw [List.forall_mem_append, List.forall_mem_singleton]
    refine ⟨fun l hl => ?_, hlt⟩
    have := h.position_lt l hl
    omega

/-- The end of the line. -/
theorem eq_of_next_none (h : On line ts s) (hnext : s.next = (none, u)) :
    u = ⟨[], line.length, line.length⟩ := by
  rw [Scanner.eq_of_next_none hnext, h.offset_add_length]

theorem next_none (h : On line ts s) (hnext : s.next = (none, u)) : On line ts u := by
  have hle := h.offset_le
  have hlength := h.length_le
  rw [h.eq_of_next_none hnext]
  refine ⟨?_, Nat.le_refl _, Nat.le_trans hlength hle, fun l hl => ?_⟩
  · rw [List.drop_of_length_le (Nat.le_of_eq String.length_toList)]
  · exact Nat.lt_of_lt_of_le (h.position_lt l hl) hle

/-- **Calls leave the scanner on the line.** -/
theorem after (line : String) (k : Nat) :
    On line ((Scanner.ofLine line).given k) ((Scanner.ofLine line).after k) := by
  induction k with
  | zero => exact .ofLine line
  | succ k ih =>
    rw [given, Scanner.after]
    rcases hnext : ((Scanner.ofLine line).after k).next with ⟨_ | t, u⟩
    · rw [Option.map_none, Option.toList_none, List.append_nil]
      exact ih.next_none hnext
    · exact ih.next_some hnext

end On

/-- **What a scanner reports agrees with what it does**, on a line of which it has given some
tokens. -/
structure Agrees (line : String) (ts : List Located) (s : Scanner) : Prop where
  /-- What is left of the line is what is behind the characters that have been read. -/
  rest_eq : s.rest = line.toList.drop s.offset
  /-- A token is said to be left if and only if the next call gives one. -/
  hasNext_iff : s.hasNext ↔ ∃ t, s.next.1 = some t
  /-- No more tokens have been given than the line has characters. -/
  length_le : ts.length ≤ line.length
  /-- A call that gives a token reads at least one character, and reports a place behind those of
  all the tokens before and within the line. -/
  of_next_some : ∀ t u, s.next = (some t, u) → s.offset < u.offset ∧
    (∀ l ∈ ts, l.position < u.position) ∧ u.position < line.length
  /-- Once a call gives no token, none is said to be left, the reported place is the length of the
  line, and all further calls give none and change nothing. -/
  of_next_none : ∀ u, s.next = (none, u) → u.hasNext = false ∧ u.position = line.length ∧
    ∀ k, (u.after k).next = (none, u)

theorem On.agrees (h : On line ts s) : Agrees line ts s where
  rest_eq := h.rest_eq
  hasNext_iff := hasNext_iff
  length_le := Nat.le_trans h.length_le h.offset_le
  of_next_some t u hnext := by
    obtain ⟨us, -, -, hbegin, hbehind⟩ := next_advances hnext
    refine ⟨Nat.lt_of_le_of_lt hbegin hbehind, fun l hl => ?_, ?_⟩
    · exact Nat.lt_of_lt_of_le (h.position_lt l hl) hbegin
    · exact Nat.lt_of_lt_of_le hbehind (h.next_some hnext).offset_le
  of_next_none u hnext := by
    obtain rfl := h.eq_of_next_none hnext
    exact ⟨rfl, rfl, next_after_end _⟩

/-- **After any number of calls on a line**, what a scanner reports agrees with what it does:
whether a token is left, where the latest one began, how many there can be, and that no call goes on
behind the last one. -/
theorem agrees_after_ofLine (line : String) (k : Nat) :
    Agrees line ((ofLine line).given k) ((ofLine line).after k) :=
  (On.after line k).agrees

/-- Between two tokens and at the end of a line, white space in front and behind. -/
theorem agrees_after_ofLine_spaces :
    let s := (ofLine "  ab  +=7 ").after 1
    let u : Scanner := ⟨"7 ".toList, 8, 6⟩
    let e : Scanner := ⟨[], 10, 10⟩
    s.next = (some (.operator (.assign (.compound .add))), u) ∧
      (⟨.identifier "ab", 2⟩ : Located) ∈ (ofLine "  ab  +=7 ").given 1 ∧
      (s.offset < u.offset ∧ 2 < u.position ∧ u.position < "  ab  +=7 ".length) ∧
      ((ofLine "  ab  +=7 ").after 3).next = (none, e) ∧
      e.hasNext = false ∧ e.position = "  ab  +=7 ".length ∧
        ∀ j, (e.after j).next = (none, e) := by
  intro s u e
  have hnext : s.next = (some (.operator (.assign (.compound .add))), u) := by decide +kernel
  have hmem : (⟨.identifier "ab", 2⟩ : Located) ∈ (ofLine "  ab  +=7 ").given 1 := by
    decide +kernel
  have hend : ((ofLine "  ab  +=7 ").after 3).next = (none, e) := by decide +kernel
  obtain ⟨hoffset, hplaces, hlt⟩ := (agrees_after_ofLine "  ab  +=7 " 1).of_next_some _ _ hnext
  have hlast := (agrees_after_ofLine "  ab  +=7 " 3).of_next_none e hend
  exact ⟨hnext, hmem, ⟨hoffset, hplaces _ hmem, hlt⟩, hend, hlast⟩

end Scanner

end Reckoner
