/-!
# The line editor

A line being edited is a text with a cursor in it. The cursor stands between two
characters, or at one of the ends: it is the number of characters in front of it.
Typing and deleting happen at the cursor. The cursor never leaves the text: this is
`Reckoner.LineEditor.Sound`, and every operation keeps it.
-/

namespace Reckoner

/-- **A line being edited.** -/
structure LineEditor where
  /-- The text. -/
  chars : List Char := []
  /-- The number of characters in front of the cursor. -/
  cursor : Nat := 0
deriving DecidableEq

namespace LineEditor

/-- The cursor is in the text or at one of its ends. -/
def Sound (e : LineEditor) : Prop := e.cursor ≤ e.chars.length

/-- The text as a string. -/
def text (e : LineEditor) : String := .ofList e.chars

/-- A text with the cursor at its end. -/
def ofText (text : String) : LineEditor := ⟨text.toList, text.toList.length⟩

/-- The text in front of the cursor. -/
def before (e : LineEditor) : List Char := e.chars.take e.cursor

/-- The text behind the cursor. -/
def after (e : LineEditor) : List Char := e.chars.drop e.cursor

/-- A character typed at the cursor. -/
def insert (e : LineEditor) (c : Char) : LineEditor :=
  ⟨e.before ++ c :: e.after, e.cursor + 1⟩

/-- The character in front of the cursor deleted. -/
def backspace (e : LineEditor) : LineEditor :=
  if 0 < e.cursor then ⟨e.chars.eraseIdx (e.cursor - 1), e.cursor - 1⟩ else e

/-- The character behind the cursor deleted. -/
def delete (e : LineEditor) : LineEditor := { e with chars := e.chars.eraseIdx e.cursor }

/-- The cursor one character to the left. -/
def left (e : LineEditor) : LineEditor := { e with cursor := e.cursor - 1 }

/-- The cursor one character to the right. -/
def right (e : LineEditor) : LineEditor := { e with cursor := min (e.cursor + 1) e.chars.length }

/-- The cursor at the beginning. -/
def toStart (e : LineEditor) : LineEditor := { e with cursor := 0 }

/-- The cursor at the end. -/
def toEnd (e : LineEditor) : LineEditor := { e with cursor := e.chars.length }

/-! ### The cursor stays in the text -/

theorem sound_ofText (text : String) : (ofText text).Sound := Nat.le_refl _

section Sound

variable {e : LineEditor}

theorem Sound.insert (h : e.Sound) (c : Char) : (e.insert c).Sound := by
  unfold Sound at h
  simp only [Sound, LineEditor.insert, before, after, List.length_append, List.length_take,
    List.length_cons, List.length_drop]
  omega

theorem Sound.backspace (h : e.Sound) : e.backspace.Sound := by
  unfold Sound at h
  unfold LineEditor.backspace
  split
  · simp only [Sound, List.length_eraseIdx]
    split <;> omega
  · exact h

theorem Sound.delete (h : e.Sound) : e.delete.Sound := by
  unfold Sound at h
  simp only [Sound, LineEditor.delete, List.length_eraseIdx]
  split <;> omega

theorem Sound.left (h : e.Sound) : e.left.Sound := by
  unfold Sound at h
  simp only [Sound, LineEditor.left]
  omega

theorem sound_right (e : LineEditor) : e.right.Sound := Nat.min_le_right _ _

theorem sound_toStart (e : LineEditor) : e.toStart.Sound := Nat.zero_le _

theorem sound_toEnd (e : LineEditor) : e.toEnd.Sound := Nat.le_refl _

end Sound

end LineEditor

end Reckoner
