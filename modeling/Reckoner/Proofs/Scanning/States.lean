import Reckoner.Proofs.Scanning.Decomposition

/-!
# What the automaton has read

The automaton passes over white space and then reads one lexeme, and its state tells which. For a
text that does not begin with white space this is `Reckoner.ScanState.run_eq_iff`; white space in
front of it leaves the automaton where it is at the start, so that nothing else can be behind a
state (`Reckoner.ScanState.run_eq_iff_indented`).

The state in which the automaton is stuck has no text of its own. It is where all the other texts
lead (`Reckoner.ScanState.run_start_iff`): those that are neither white space, nor white space and a
lexeme, nor on their way to a longer name behind an underscore.
-/

namespace Reckoner

open Lexeme

variable {c : Char} {v w ws : List Char}

/-! ### White space in front -/

/-- **A text of some kind behind white space**, of which there may be none. -/
def Indented (p : List Char → Prop) (w : List Char) : Prop :=
  ∃ ws v, w = ws ++ v ∧ IsBlank ws ∧ p v

/-- **A name with one underscore behind it.** -/
def Lexeme.IsUnderscored (w : List Char) : Prop := ∃ v, IsName v ∧ w = v ++ ['_']

/-- Every text is white space and a text that does not begin with white space. -/
theorem exists_isBlank_append (w : List Char) :
    ∃ ws v, w = ws ++ v ∧ IsBlank ws ∧ ∀ c ∈ v.head?, Text.isSpace c = false := by
  refine ⟨w.takeWhile Text.isSpace, w.dropWhile Text.isSpace,
    List.takeWhile_append_dropWhile.symm, List.all_eq_true.mp List.all_takeWhile, fun c hc => ?_⟩
  have hnot := List.head?_dropWhile_not Text.isSpace w
  rw [Option.mem_def.mp hc] at hnot
  exact hnot

/-- White space is white space with nothing behind it. -/
theorem indented_eq_nil_iff : Indented (· = []) w ↔ IsBlank w := by
  constructor
  · rintro ⟨ws, v, rfl, hws, rfl⟩
    rwa [List.append_nil]
  · intro hw
    exact ⟨w, [], (List.append_nil w).symm, hw, rfl⟩

namespace ScanState

/-- White space leaves the automaton where it is at the start. -/
theorem run_append_of_isBlank (hws : IsBlank ws) (v : List Char) :
    start.run (ws ++ v) = start.run v := by
  induction ws with
  | nil => rfl
  | cons c ws ih =>
    obtain ⟨hc, hws⟩ := List.forall_mem_cons.mp hws
    have hstep : start.step c = start := by
      show ofChar c = start
      rw [ofChar_of_kind (.inl hc), if_pos hc]
    show (start.step c).run (ws ++ v) = start.run v
    rw [hstep]
    exact ih hws

/-! ### States and what is behind them -/

/-- **What leads to a state** is what it describes, behind white space. -/
theorem run_eq_iff_indented {s : ScanState} (hs : s ≠ stuck) :
    start.run w = s ↔ Indented s.Spells w := by
  constructor
  · intro h
    obtain ⟨ws, v, rfl, hws, hv⟩ := exists_isBlank_append w
    rw [run_append_of_isBlank hws] at h
    exact ⟨ws, v, rfl, hws, (run_eq_iff hv hs).mp h⟩
  · rintro ⟨ws, v, rfl, hws, hv⟩
    rw [run_append_of_isBlank hws]
    exact hv.run_eq

/-- **The automaton accepts the lexemes** behind white space. -/
theorem accepting_run_iff_indented : (start.run w).accepting ↔ Indented Lexeme w := by
  constructor
  · intro h
    obtain ⟨ws, v, rfl, hws, hv⟩ := exists_isBlank_append w
    rw [run_append_of_isBlank hws] at h
    exact ⟨ws, v, rfl, hws, (accepting_run_iff hv).mp h⟩
  · rintro ⟨ws, v, rfl, hws, hlex⟩
    rw [run_append_of_isBlank hws]
    refine (accepting_run_iff fun c hc => ?_).mpr hlex
    exact hlex.isSpace_eq_false c (List.mem_of_mem_head? hc)

theorem run_eq_start_iff : start.run w = start ↔ IsBlank w :=
  (run_eq_iff_indented (s := start) nofun).trans indented_eq_nil_iff

theorem run_eq_underscore_iff : start.run w = underscore ↔ Indented IsUnderscored w :=
  run_eq_iff_indented (s := underscore) nofun

/-- **A text leads nowhere** if it is none of those that lead to another state. -/
theorem run_eq_stuck_iff : start.run w = stuck ↔
    ¬IsBlank w ∧ ¬Indented Lexeme w ∧ ¬Indented IsUnderscored w := by
  rw [← run_eq_start_iff, ← accepting_run_iff_indented, ← run_eq_underscore_iff]
  generalize start.run w = s
  constructor
  · rintro rfl
    exact ⟨nofun, nofun, nofun⟩
  · rintro ⟨hstart, haccept, hunder⟩
    -- every other state accepts
    cases s with
    | stuck => rfl
    | start => exact absurd rfl hstart
    | underscore => exact absurd rfl hunder
    | _ => exact absurd rfl haccept

/-- **The automaton recognizes white space with one lexeme behind it**, and its state says what it
has read: nothing but white space, or behind white space a name, a run of digits, a parenthesis or
an operator, or a name with one underscore behind it. All other texts get it stuck, and from there
no text leads anywhere else. It accepts the texts that end with a lexeme and no others. -/
theorem run_start_iff (w : List Char) :
    (start.run w = start ↔ IsBlank w) ∧
      (start.run w = identifier ↔ Indented IsName w) ∧
      (start.run w = number ↔ Indented IsDigits w) ∧
      (start.run w = openParen ↔ Indented (· = ['(']) w) ∧
      (start.run w = closeParen ↔ Indented (· = [')']) w) ∧
      (∀ op, start.run w = operator op ↔ Indented (· = op.chars) w) ∧
      (start.run w = underscore ↔ Indented IsUnderscored w) ∧
      (start.run w = stuck ↔
        ¬IsBlank w ∧ ¬Indented Lexeme w ∧ ¬Indented IsUnderscored w) ∧
      (∀ v, stuck.run v = stuck) ∧
      ((start.run w).accepting ↔ Indented Lexeme w) := by
  exact ⟨run_eq_start_iff, run_eq_iff_indented nofun, run_eq_iff_indented nofun,
    run_eq_iff_indented nofun, run_eq_iff_indented nofun, fun op => run_eq_iff_indented nofun,
    run_eq_underscore_iff, run_eq_stuck_iff, run_stuck, accepting_run_iff_indented⟩

/-- Behind an underscore a name may go on, but not with another underscore, and a second lexeme
gets the automaton stuck. -/
example : start.run " a_".toList = underscore ∧ start.run " a_1".toList = identifier ∧
    start.run " a__".toList = stuck ∧ start.run "a b".toList = stuck := by
  decide +kernel

end ScanState

end Reckoner
