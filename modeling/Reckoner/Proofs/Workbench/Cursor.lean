import Reckoner.Proofs.Workbench.Events

/-!
# The cursor in the line

Whatever has been typed, deleted, submitted and recalled, the cursor of the workbench is in its
line, so there is a text in front of it and a text behind it. What a key does to the line is said in
terms of these two texts (`Reckoner.Workbench.EditsAround`). That the edits can also be made in
UTF-8, at the byte of the cursor, comes with it: none of them is at a byte inside of a character,
and none removes a character where there is none (`Reckoner.LineEditor.EditsInBytes`).
-/

namespace Reckoner

open Display

/-- **A line whose edits can be made in bytes**, with the same results. -/
structure LineEditor.EditsInBytes (e : LineEditor) : Prop where
  /-- At the byte of the cursor a character begins, or the text ends. -/
  isValid : (Text.byteIndex e.text e.cursor).IsValid e.text
  /-- A character can be inserted there. -/
  insert : ∀ c, e.insertInBytes? c = some (e.insert c)
  /-- The character in front of it can be removed. -/
  backspace : e.backspaceInBytes? = some e.backspace
  /-- So can the one behind it. -/
  delete : e.deleteInBytes? = some e.delete

theorem LineEditor.Sound.editsInBytes {e : LineEditor} (h : e.Sound) : e.EditsInBytes :=
  ⟨h.isValid_byteIndex, h.insertInBytes?_eq, h.backspaceInBytes?_eq, h.deleteInBytes?_eq⟩

namespace Workbench

open LineEditor

variable {hash : String → UInt64} {kit : Toolkit}

/-- **What the keys do to a line** that is `l` in front of the cursor and `r` behind it, whatever
has the focus. -/
structure EditsAround (kit : Toolkit) (w : Workbench hash) (l r : List Char) : Prop where
  /-- A character goes in front of the cursor. -/
  char : ∀ c shift, (w.handle kit (.press (.char c) false shift)).editor = around (l ++ [c]) r
  /-- The last character in front of the cursor is dropped. -/
  backspace : ∀ control shift,
    (w.handle kit (.press .backspace control shift)).editor = around l.dropLast r
  /-- The first character behind it is dropped. -/
  delete : ∀ control shift, (w.handle kit (.press .delete control shift)).editor = around l r.tail
  /-- The last character in front of the cursor comes to be behind it. -/
  left : ∀ control shift, (w.handle kit (.press .left control shift)).editor =
    around l.dropLast (l.getLast?.toList ++ r)
  /-- The first character behind the cursor comes to be in front of it. -/
  right : ∀ control shift, (w.handle kit (.press .right control shift)).editor =
    around (l ++ r.head?.toList) r.tail
  /-- The whole text comes to be behind the cursor. -/
  lineStart : ∀ control shift,
    (w.handle kit (.press .lineStart control shift)).editor = around [] (l ++ r)
  /-- The whole text comes to be in front of it. -/
  lineEnd : ∀ control shift,
    (w.handle kit (.press .lineEnd control shift)).editor = around (l ++ r) []

theorem editsAround {w : Workbench hash} {l r : List Char} (h : w.editor = around l r) :
    w.EditsAround kit l r where
  char c _ := (congrArg (·.insert c) h).trans (insert_around l r c)
  backspace _ _ := (congrArg LineEditor.backspace h).trans (backspace_around l r)
  delete _ _ := (congrArg LineEditor.delete h).trans (delete_around l r)
  left _ _ := (congrArg LineEditor.left h).trans (left_around l r)
  right _ _ := (congrArg LineEditor.right h).trans (right_around l r)
  lineStart _ _ := (congrArg LineEditor.toStart h).trans (toStart_around l r)
  lineEnd _ _ := (congrArg LineEditor.toEnd h).trans (toEnd_around l r)

/-- An entry that is loaded has the cursor at its end. -/
theorem editor_load (w : Workbench hash) (i : Nat) :
    (w.load i).editor =
      match w.session.transcript.get? i with
      | some e => around e.input.toList []
      | none => w.editor := by
  rw [load]
  cases w.session.transcript.get? i with
  | none => rfl
  | some e => exact ofText_eq e.input

/-- **What the arrows up and down leave of the line**: the line as it was, an empty line, or an
entry with the cursor at its end. -/
def Leaves (w : Workbench hash) (e : LineEditor) : Prop :=
  e = w.editor ∨ e = around [] [] ∨
    ∃ entry ∈ w.session.transcript.entries, e = around entry.input.toList []

theorem Recalled.leaves {w w' : Workbench hash} (h : w.Recalled w') : w.Leaves w'.editor := by
  cases h with
  | nothing => exact .inl rfl
  | entry h => exact .inr (.inr ⟨_, List.mem_of_getElem? h, ofText_eq _⟩)
  | finished => exact .inr (.inl rfl)

theorem leaves_goUp (w : Workbench hash) : w.Leaves w.goUp.editor := by
  unfold goUp
  split
  · exact (recalled_recallPrevious w).leaves
  · exact .inl rfl
  · exact .inl rfl

theorem leaves_goDown (w : Workbench hash) : w.Leaves w.goDown.editor := by
  unfold goDown
  split
  · exact (recalled_recallNext w).leaves
  · exact .inl rfl
  · exact .inl rfl

/-- **The line is a text with a cursor in it**, whatever keys have been pressed and whatever frames
have been drawn. The cursor is at one of the places between the characters; that is a place between
bytes too, and the edits that are made there have a result, whatever the characters are. Keys move
characters from one side of the cursor to the other, or add or drop one next to it, and it does not
matter what has the focus. A line that is loaded from the transcript has the cursor at its end, and
so has whatever an arrow up or down puts in place of the line. -/
theorem editor_handleAll_opened (kit : Toolkit) (s : Session hash) (r : Reading) (es : List Event) :
    let w := (opened s r).handleAll kit es
    let e := w.editor
    (e.cursor ≤ e.chars.length ∧ e.before ++ e.after = e.chars ∧ e.before.length = e.cursor) ∧
    e.EditsInBytes ∧ w.EditsAround kit e.before e.after ∧
    (∀ i, (w.load i).editor =
      match w.session.transcript.get? i with
      | some entry => around entry.input.toList []
      | none => e) ∧
    ∀ control shift, w.Leaves (w.handle kit (.press .up control shift)).editor ∧
      w.Leaves (w.handle kit (.press .down control shift)).editor := by
  intro w e
  have hsound : e.Sound := sound_handleAll (sound_opened s r) es
  exact ⟨⟨hsound, List.take_append_drop _ _, List.length_take_of_le hsound⟩, hsound.editsInBytes,
    editsAround hsound.around_eq.symm, editor_load w, fun _ _ => ⟨leaves_goUp w, leaves_goDown w⟩⟩

end Workbench

end Reckoner
