import Reckoner.Text.Alphabetic
import Reckoner.Text.Words
import Reckoner.Token

/-!
# The token automaton

One deterministic automaton recognizes every kind of token. It starts in
`Reckoner.ScanState.start`, where white space leaves it, so what it accepts is white
space followed by one lexeme:

* an identifier is a letter followed by letters, digits and underscores, where an
  underscore must have a letter or a digit on either side of it;
* a number is a run of ASCII digits;
* a parenthesis or an operator is written in one way each.

An identifier cannot end in an underscore, which makes
`Reckoner.ScanState.underscore` the one state inside a lexeme that does not accept.
For the sake of that state the longest match, `Reckoner.ScanState.longest?`, has to
remember where the automaton last accepted, instead of stopping where it gets
stuck.
-/

namespace Reckoner

/-- **The states of the automaton.** -/
inductive ScanState
  /-- Nothing but white space has been read. -/
  | start
  /-- An identifier has been read. -/
  | identifier
  /-- An identifier and one underscore have been read. -/
  | underscore
  /-- A number has been read. -/
  | number
  /-- An opening parenthesis has been read. -/
  | openParen
  /-- A closing parenthesis has been read. -/
  | closeParen
  /-- An operator has been read. -/
  | operator (op : Operator)
  /-- What has been read is no part of a lexeme. -/
  | stuck
deriving DecidableEq

namespace ScanState

/-! ### Moves -/

/-- The state after the first character. -/
def ofChar (c : Char) : ScanState :=
  if c = '(' then openParen
  else if c = ')' then closeParen
  else
    match Operator.ofChar? c with
    | some op => operator op
    | none =>
      if Text.isSpace c then start
      else if Text.isLetter c then identifier
      else if c.isDigit then number
      else stuck

/-- **One move of the automaton.** -/
def step : ScanState → Char → ScanState
  | start, c => ofChar c
  | identifier, c =>
    if Text.isLetter c || c.isDigit then identifier
    else if c = '_' then underscore
    else stuck
  | underscore, c => if Text.isLetter c || c.isDigit then identifier else stuck
  | number, c => if c.isDigit then number else stuck
  | operator op, c =>
    match op.extend? c with
    | some longer => operator longer
    | none => stuck
  | openParen, _ => stuck
  | closeParen, _ => stuck
  | stuck, _ => stuck

/-- Whether a lexeme may end in a state. -/
def accepting : ScanState → Bool
  | start => false
  | underscore => false
  | stuck => false
  | _ => true

/-- The state after a text. -/
def run (s : ScanState) (cs : List Char) : ScanState := cs.foldl step s

/-! ### The longest match -/

/-- **The longest match**: of the states the automaton runs through without getting
stuck, the last accepting one, and the number of characters read by then. -/
def longest? : ScanState → List Char → Option (ScanState × Nat)
  | _, [] => none
  | s, c :: cs =>
    let t := s.step c
    if t = stuck then none
    else
      match t.longest? cs with
      | some (u, n) => some (u, n + 1)
      | none => if t.accepting then some (t, 1) else none

/-- A match is not empty and lies within the text. -/
theorem longest?_bounds {cs : List Char} {s t : ScanState} {n : Nat}
    (h : s.longest? cs = some (t, n)) : 0 < n ∧ n ≤ cs.length := by
  induction cs generalizing s t n with
  | nil => simp [longest?] at h
  | cons c cs ih =>
    rw [longest?] at h
    split at h
    · cases h
    · split at h
      · next u m hm =>
        cases h
        have := ih hm
        exact ⟨Nat.succ_pos m, Nat.succ_le_succ this.2⟩
      · split at h
        · cases h
          exact ⟨Nat.one_pos, by simp⟩
        · cases h

/-! ### The token of a lexeme -/

/-- The token of a lexeme that ends in a given state. A number out of range has
none. -/
def token? : ScanState → List Char → Option Token
  | identifier, cs => some (.identifier (.ofList cs))
  | number, cs => (Value.ofDigits? cs).map .number
  | openParen, _ => some .openParen
  | closeParen, _ => some .closeParen
  | operator op, _ => some (.operator op)
  | start, _ => none
  | underscore, _ => none
  | stuck, _ => none

end ScanState

/-- **The first token of a text** that does not begin with white space, and the
number of its characters: the token of the longest match. -/
def Token.first? (cs : List Char) : Option (Token × Nat) :=
  match ScanState.start.longest? cs with
  | some (s, n) => (s.token? (cs.take n)).map (·, n)
  | none => none

/-- A first token is not empty and lies within the text. -/
theorem Token.first?_bounds {cs : List Char} {t : Token} {n : Nat}
    (h : Token.first? cs = some (t, n)) : 0 < n ∧ n ≤ cs.length := by
  unfold Token.first? at h
  split at h
  · next s m hm =>
    obtain ⟨u, _, hu⟩ := Option.map_eq_some_iff.1 h
    cases hu
    exact ScanState.longest?_bounds hm
  · cases h

end Reckoner
