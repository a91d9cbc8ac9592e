import Reckoner.Token.Automaton

/-!
# Scanning a line

A scanner walks along a line and yields one token at a time. It skips white space,
takes the longest match, and goes on right behind it. Where there is no match, or
where the match is a number out of range, the rest of the line is one
unrecognized token and the scanner is at the end.

The scanner counts the characters it has passed, so that it can say where the
latest token began; once the line is used up that place is the length of the line.
Every token takes at least one character (`Reckoner.Scanner.next_rest_length`),
which is why `Reckoner.Scanner.tokens`, all the tokens to come, is a total function.
-/

namespace Reckoner

/-- **A scanner** in the middle of a line. -/
structure Scanner where
  /-- The characters not yet read. -/
  rest : List Char
  /-- The number of characters read. -/
  offset : Nat
  /-- The place of the latest token. -/
  position : Nat
deriving DecidableEq

namespace Scanner

/-- A scanner at the beginning of a line. -/
def ofLine (line : String) : Scanner := ⟨line.toList, 0, 0⟩

/-- Whether a token is left: white space is not one. -/
def hasNext (s : Scanner) : Bool := s.rest.any (!Text.isSpace ·)

/-- **The next token**, if there is one, and the scanner behind it. -/
def next (s : Scanner) : Option Token × Scanner :=
  match s.rest.dropWhile Text.isSpace with
  | [] =>
    let finish := s.offset + s.rest.length
    (none, ⟨[], finish, finish⟩)
  | c :: cs =>
    let begin := s.offset + (s.rest.takeWhile Text.isSpace).length
    match Token.first? (c :: cs) with
    | some (t, n) => (some t, ⟨(c :: cs).drop n, begin + n, begin⟩)
    | none => (some (.unrecognized (.ofList (c :: cs))), ⟨[], begin + (c :: cs).length, begin⟩)

/-- A token takes at least one character. -/
theorem next_rest_length {s u : Scanner} {t : Token} (h : s.next = (some t, u)) :
    u.rest.length < s.rest.length := by
  have hle : (s.rest.dropWhile Text.isSpace).length ≤ s.rest.length :=
    (List.dropWhile_suffix _).length_le
  unfold next at h
  split at h
  · cases h
  · next c cs hcs =>
    rw [hcs] at hle
    split at h
    · next v n hn =>
      obtain ⟨hpos, hlen⟩ := Token.first?_bounds hn
      cases h
      simp only [List.length_drop]
      omega
    · cases h
      simp only [List.length_cons, List.length_nil] at hle ⊢
      omega

/-- **The tokens to come**, each with its place. -/
def tokens (s : Scanner) : List Located :=
  match _h : s.next with
  | (none, _) => []
  | (some t, u) => ⟨t, u.position⟩ :: u.tokens
termination_by s.rest.length
decreasing_by exact next_rest_length _h

end Scanner

/-- All tokens of a line, with the end of the line as the last of them. -/
def tokenize (line : String) : List Token :=
  (Scanner.ofLine line).tokens.map (·.token) ++ [.finish]

end Reckoner
