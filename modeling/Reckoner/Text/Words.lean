/-!
# White space and words

The property *White_Space* of the Unicode standard separates the words of a text:
besides the space and the control characters from tab to carriage return it holds
the next-line character, the no-break spaces, the fixed-width spaces of
typography, and the line and paragraph separators. The zero-width space and the
byte-order mark are not in it.

`Reckoner.Text.words` cuts a text into its maximal runs of other characters, and
`Reckoner.Text.unwords` joins words by single spaces; the second undoes the first
on words that hold no white space (`Reckoner.Text.words_unwords`).
-/

namespace Reckoner.Text

/-! ### White space -/

/-- The white-space code points, as ranges with both ends included. -/
def spaceRanges : List (Nat × Nat) := [
  (0x9, 0xd), (0x20, 0x20), (0x85, 0x85), (0xa0, 0xa0), (0x1680, 0x1680), (0x2000, 0x200a),
  (0x2028, 0x2029), (0x202f, 0x202f), (0x205f, 0x205f), (0x3000, 0x3000)]

/-- **White space**: a character with the Unicode property *White_Space*. -/
def isSpace (c : Char) : Bool :=
  spaceRanges.any fun r => r.1 ≤ c.toNat && c.toNat ≤ r.2

/-- The text without the white space at its two ends. -/
def trim (cs : List Char) : List Char :=
  ((cs.dropWhile isSpace).reverse.dropWhile isSpace).reverse

/-! ### Words -/

/-- The pieces of a text between its white-space characters, empty ones included:
there is always one piece more than there are such characters. -/
def pieces : List Char → List (List Char)
  | [] => [[]]
  | c :: cs => if isSpace c then [] :: pieces cs else (pieces cs).modifyHead (c :: ·)

/-- **The words of a text**: its maximal runs of characters other than white space. -/
def words (cs : List Char) : List (List Char) :=
  (pieces cs).filter (!·.isEmpty)

/-- Words joined by single spaces. -/
def unwords (ws : List (List Char)) : List Char :=
  [' '].intercalate ws

/-- A word proper: not empty, and free of white space. -/
def IsWord (w : List Char) : Prop :=
  w ≠ [] ∧ ∀ c ∈ w, isSpace c = false

theorem pieces_ne_nil (cs : List Char) : pieces cs ≠ [] := by
  induction cs with
  | nil => simp [pieces]
  | cons c cs ih => rw [pieces]; split <;> simp [ih]

/-- A run of other characters goes to the front of the first piece. -/
theorem pieces_append {w : List Char} (hw : ∀ c ∈ w, isSpace c = false) (cs : List Char) :
    pieces (w ++ cs) = (pieces cs).modifyHead (w ++ ·) := by
  induction w with
  | nil =>
    obtain ⟨p, ps, hp⟩ := List.exists_cons_of_ne_nil (pieces_ne_nil cs)
    simp [hp]
  | cons c w ih =>
    obtain ⟨p, ps, hp⟩ := List.exists_cons_of_ne_nil (pieces_ne_nil cs)
    rw [List.cons_append, pieces, if_neg (by simp [hw c]),
      ih fun a ha => hw a (List.mem_cons_of_mem _ ha), hp]
    simp

theorem words_cons_space {c : Char} (hc : isSpace c = true) (cs : List Char) :
    words (c :: cs) = words cs := by
  simp [words, pieces, hc]

/-- A text that is one word has that word. -/
theorem words_of_isWord {w : List Char} (hw : IsWord w) : words w = [w] := by
  have h := pieces_append hw.2 []
  rw [List.append_nil] at h
  simp [words, h, pieces, hw.1]

/-- A word and a separator in front of a text give its first word. -/
theorem words_append_space {w : List Char} (hw : IsWord w) {c : Char} (hc : isSpace c = true)
    (cs : List Char) : words (w ++ c :: cs) = w :: words cs := by
  rw [words, pieces_append hw.2, pieces, if_pos hc]
  simp [words, hw.1]

/-- **Splitting undoes joining** on words proper. -/
theorem words_unwords {ws : List (List Char)} (h : ∀ w ∈ ws, IsWord w) :
    words (unwords ws) = ws := by
  induction ws with
  | nil => rfl
  | cons w ws ih =>
    have hw := h w List.mem_cons_self
    cases ws with
    | nil => simpa [unwords] using words_of_isWord hw
    | cons v vs =>
      have ih := ih fun u hu => h u (List.mem_cons_of_mem _ hu)
      have hs : unwords (w :: v :: vs) = w ++ ' ' :: unwords (v :: vs) := by
        simp [unwords, List.intercalate]
      rw [hs, words_append_space hw (by decide), ih]

end Reckoner.Text
