import Reckoner.LineEditor

/-!
# Editing a line

A line that is edited falls into what is in front of the cursor and what is behind it. Seen like
this (`Reckoner.LineEditor.around`), every operation of the line editor moves a character across the
cursor, or adds or drops one next to it.

Where the line is kept in UTF-8, the same has to be done with bytes. The cursor still counts
characters; the place at which to edit is the byte at which the character behind the cursor begins
(`Reckoner.Text.byteIndex`). An edit at a byte in the middle of a character has no result, and
neither has the removal of a character where there is none. As long as the cursor is in the line no
edit is of that kind: the edits of the bytes have a result, and it is that of the line editor
(`Reckoner.LineEditor.Sound.insertInBytes?_eq` and what follows it).
-/

namespace Reckoner

/-! ### Texts in bytes -/

namespace Text

/-- The bytes at which the characters of a text begin, the first of them at byte `i`. -/
def offsetsFrom (i : Nat) : List Char → List Nat
  | [] => []
  | c :: cs => i :: offsetsFrom (i + c.utf8Size) cs

/-- **The byte at which a character begins**, the one with index `n`. Where there is no such
character, it is the end of the text. -/
def byteIndex (s : String) (n : Nat) : String.Pos.Raw :=
  ⟨(offsetsFrom 0 s.toList).getD n s.utf8ByteSize⟩

/-- **A character inserted at a byte**, at which a character has to begin or the text to end. -/
def insertAt? (s : String) (p : String.Pos.Raw) (c : Char) : Option String :=
  if p.IsValid s then
    String.fromUTF8? (s.toByteArray.extract 0 p.byteIdx ++
      (String.utf8EncodeChar c).toByteArray ++ s.toByteArray.extract p.byteIdx s.utf8ByteSize)
  else none

/-- **The character at a byte removed**. One has to begin there. -/
def removeAt? (s : String) (p : String.Pos.Raw) : Option String :=
  if p.IsValid s then
    match s.toByteArray.utf8DecodeChar? p.byteIdx with
    | some c => String.fromUTF8? (s.toByteArray.extract 0 p.byteIdx ++
        s.toByteArray.extract (p.byteIdx + c.utf8Size) s.utf8ByteSize)
    | none => none
  else none

/-! ### Bytes between characters -/

theorem utf8ByteSize_ofList_cons (c : Char) (cs : List Char) :
    (String.ofList (c :: cs)).utf8ByteSize = c.utf8Size + (String.ofList cs).utf8ByteSize := by
  rw [← String.size_toByteArray, ← String.size_toByteArray, String.toByteArray_ofList,
    String.toByteArray_ofList, List.utf8Encode_cons, ByteArray.size_append,
    List.utf8Encode_singleton, List.size_toByteArray, String.length_utf8EncodeChar]

/-- A character begins behind the bytes of all those in front of it. -/
theorem getD_offsetsFrom (i n : Nat) (cs : List Char) :
    (offsetsFrom i cs).getD n (i + (String.ofList cs).utf8ByteSize) =
      i + (String.ofList (cs.take n)).utf8ByteSize := by
  induction cs generalizing i n with
  | nil => rw [offsetsFrom, List.getD_nil, List.take_nil]
  | cons c cs ih =>
    cases n with
    | zero => simp [offsetsFrom]
    | succ n =>
      rw [List.take_succ_cons, utf8ByteSize_ofList_cons, utf8ByteSize_ofList_cons,
        ← Nat.add_assoc, ← Nat.add_assoc]
      exact ih _ n

/-- So its byte is the end of the text in front of it. -/
theorem byteIndex_ofList (cs : List Char) (n : Nat) :
    byteIndex (.ofList cs) n = (String.ofList (cs.take n)).rawEndPos := by
  have h := getD_offsetsFrom 0 n cs
  rw [Nat.zero_add, Nat.zero_add] at h
  rw [byteIndex, String.toList_ofList, h]
  rfl

section Between

variable (l r : List Char)

theorem byteIndex_length : byteIndex (.ofList (l ++ r)) l.length = (String.ofList l).rawEndPos := by
  rw [byteIndex_ofList, List.take_left]

/-- The end of the text in front is a place for an edit. -/
theorem isValid_rawEndPos : (String.ofList l).rawEndPos.IsValid (String.ofList (l ++ r)) := by
  rw [String.ofList_append]
  exact String.Pos.Raw.isValid_iff_exists_append.mpr ⟨_, _, rfl, rfl⟩

/-- In front of it are the bytes of the text in front. -/
theorem extract_before :
    (String.ofList (l ++ r)).toByteArray.extract 0 (String.ofList l).rawEndPos.byteIdx =
      l.utf8Encode := by
  rw [String.toByteArray_ofList, List.utf8Encode_append]
  refine ByteArray.extract_append_eq_left ?_
  rw [String.byteIdx_rawEndPos, ← String.size_toByteArray, String.toByteArray_ofList]

/-- Behind it are the bytes of the text behind. -/
theorem extract_after :
    (String.ofList (l ++ r)).toByteArray.extract (String.ofList l).rawEndPos.byteIdx
      (String.ofList (l ++ r)).utf8ByteSize = r.utf8Encode := by
  rw [← String.size_toByteArray, String.toByteArray_ofList, List.utf8Encode_append]
  refine ByteArray.extract_append_eq_right ?_ (ByteArray.size_append)
  rw [String.byteIdx_rawEndPos, ← String.size_toByteArray, String.toByteArray_ofList]

theorem fromUTF8?_utf8Encode (cs : List Char) :
    String.fromUTF8? cs.utf8Encode = some (.ofList cs) := by
  rw [String.fromUTF8?, dif_pos ByteArray.isValidUTF8_utf8Encode]
  rfl

/-- **Inserting between characters** has a result. -/
theorem insertAt?_rawEndPos (c : Char) :
    insertAt? (.ofList (l ++ r)) (String.ofList l).rawEndPos c = some (.ofList (l ++ c :: r)) := by
  rw [insertAt?, if_pos (isValid_rawEndPos l r), extract_before, extract_after,
    ← List.utf8Encode_singleton, ← List.utf8Encode_append, ← List.utf8Encode_append,
    fromUTF8?_utf8Encode, List.append_assoc, List.singleton_append]

/-- There is no place between the two bytes of `é`. -/
example : insertAt? "aé" ⟨2⟩ 'x' = none := by decide +kernel

/-- **Removing the character behind** has a result, if there is one. -/
theorem removeAt?_rawEndPos (c : Char) :
    removeAt? (.ofList (l ++ c :: r)) (String.ofList l).rawEndPos = some (.ofList (l ++ r)) := by
  have hdecode : (String.ofList (l ++ c :: r)).toByteArray.utf8DecodeChar?
      (String.ofList l).rawEndPos.byteIdx = some c := by
    rw [ByteArray.utf8DecodeChar?_eq_utf8DecodeChar?_extract, String.size_toByteArray,
      extract_after, List.utf8DecodeChar?_utf8Encode_cons]
  have hnext : (String.ofList l).rawEndPos.byteIdx + c.utf8Size =
      (String.ofList (l ++ [c])).rawEndPos.byteIdx := by
    rw [String.byteIdx_rawEndPos, String.byteIdx_rawEndPos, String.ofList_append,
      String.utf8ByteSize_append, utf8ByteSize_ofList_cons]
    rfl
  have hafter := extract_after (l ++ [c]) r
  rw [List.append_assoc, List.singleton_append] at hafter
  rw [removeAt?, if_pos (isValid_rawEndPos l (c :: r)), hdecode, extract_before]
  simp only
  rw [hnext, hafter, ← List.utf8Encode_append, fromUTF8?_utf8Encode]

end Between

end Text

/-! ### In front of the cursor and behind it -/

namespace LineEditor

/-- **A line with the cursor between two texts.** -/
def around (l r : List Char) : LineEditor := ⟨l ++ r, l.length⟩

/-- A text with the cursor at its end has nothing behind the cursor. -/
theorem ofText_eq (text : String) : ofText text = around text.toList [] := by
  rw [ofText, around, List.append_nil]

/-- As long as the cursor is in the line, it is between two texts. -/
theorem Sound.around_eq {e : LineEditor} (h : e.Sound) : around e.before e.after = e := by
  rw [around, before, after, List.take_append_drop, List.length_take_of_le h]

section Around

variable (l r : List Char)

theorem before_around : (around l r).before = l := List.take_left

theorem after_around : (around l r).after = r := List.drop_left

theorem text_around : (around l r).text = .ofList (l ++ r) := rfl

/-- The cursor behind a character. -/
theorem around_concat (c : Char) : around (l ++ [c]) r = ⟨l ++ c :: r, l.length + 1⟩ := by
  rw [around, List.append_assoc, List.singleton_append, List.length_append, List.length_singleton]

theorem eraseIdx_length (c : Char) : (l ++ c :: r).eraseIdx l.length = l ++ r := by
  rw [List.eraseIdx_append_of_length_le (Nat.le_refl _), Nat.sub_self, List.eraseIdx_cons_zero]

/-- **Typing** adds a character in front of the cursor. -/
theorem insert_around (c : Char) : (around l r).insert c = around (l ++ [c]) r := by
  rw [insert, before_around, after_around, around_concat]
  rfl

/-- **Deleting backward** drops the last character in front of the cursor. -/
theorem backspace_around : (around l r).backspace = around l.dropLast r := by
  rcases List.eq_nil_or_concat l with rfl | ⟨l, c, rfl⟩
  · rfl
  · rw [List.concat_eq_append, List.dropLast_concat, around_concat, backspace,
      if_pos (Nat.succ_pos _), Nat.add_sub_cancel, eraseIdx_length]
    rfl

/-- **Deleting forward** drops the first character behind the cursor. -/
theorem delete_around : (around l r).delete = around l r.tail := by
  cases r with
  | nil =>
    rw [delete, around, List.eraseIdx_of_length_le (by simp), List.tail_nil]
    rfl
  | cons c r => rw [delete, around, eraseIdx_length, List.tail_cons, around]

/-- **To the left**: the last character in front of the cursor comes to be the first one behind
it. -/
theorem left_around : (around l r).left = around l.dropLast (l.getLast?.toList ++ r) := by
  rcases List.eq_nil_or_concat l with rfl | ⟨l, c, rfl⟩
  · rfl
  · rw [List.concat_eq_append, List.dropLast_concat, List.getLast?_concat, around_concat, left,
      Nat.add_sub_cancel]
    rfl

/-- **To the right**: the first character behind the cursor comes to be the last one in front of
it. -/
theorem right_around : (around l r).right = around (l ++ r.head?.toList) r.tail := by
  cases r with
  | nil => simp [right, around]
  | cons c r =>
    rw [List.head?_cons, Option.toList_some, List.tail_cons, around_concat, right, around]
    simp

theorem toStart_around : (around l r).toStart = around [] (l ++ r) := rfl

theorem toEnd_around : (around l r).toEnd = around (l ++ r) [] := by
  rw [toEnd, around, around, List.append_nil]

end Around

/-! ### Editing in bytes -/

/-- A character inserted at the byte of the cursor. -/
def insertInBytes? (e : LineEditor) (c : Char) : Option LineEditor :=
  (Text.insertAt? e.text (Text.byteIndex e.text e.cursor) c).map fun s =>
    ⟨s.toList, e.cursor + 1⟩

/-- The character at the byte of the cursor removed, after the cursor has moved to the left. -/
def backspaceInBytes? (e : LineEditor) : Option LineEditor :=
  if 0 < e.cursor then
    (Text.removeAt? e.text (Text.byteIndex e.text (e.cursor - 1))).map fun s =>
      ⟨s.toList, e.cursor - 1⟩
  else some e

/-- The character at the byte of the cursor removed, if the cursor is not at the end. -/
def deleteInBytes? (e : LineEditor) : Option LineEditor :=
  if e.cursor < e.chars.length then
    (Text.removeAt? e.text (Text.byteIndex e.text e.cursor)).map fun s => ⟨s.toList, e.cursor⟩
  else some e

namespace Sound

variable {e : LineEditor}

/-- **The cursor stands at the beginning of a character**, or at the end of the text. -/
theorem isValid_byteIndex (h : e.Sound) : (Text.byteIndex e.text e.cursor).IsValid e.text := by
  rw [← h.around_eq, text_around, around, Text.byteIndex_length]
  exact Text.isValid_rawEndPos _ _

theorem insertInBytes?_eq (h : e.Sound) (c : Char) : e.insertInBytes? c = some (e.insert c) := by
  rw [← h.around_eq, insert_around, around_concat, insertInBytes?, text_around, around,
    Text.byteIndex_length, Text.insertAt?_rawEndPos, Option.map_some, String.toList_ofList]

theorem backspaceInBytes?_eq (h : e.Sound) : e.backspaceInBytes? = some e.backspace := by
  rw [← h.around_eq, backspace_around, backspaceInBytes?, text_around]
  rcases List.eq_nil_or_concat e.before with hl | ⟨l, c, hl⟩
  · rw [hl]
    rfl
  · rw [hl, List.concat_eq_append, List.dropLast_concat, around_concat, if_pos (Nat.succ_pos _),
      Nat.add_sub_cancel, List.append_assoc, List.singleton_append, Text.byteIndex_length,
      Text.removeAt?_rawEndPos, Option.map_some, String.toList_ofList, around]

theorem deleteInBytes?_eq (h : e.Sound) : e.deleteInBytes? = some e.delete := by
  rw [← h.around_eq, delete_around, deleteInBytes?, text_around]
  rcases e.after with _ | ⟨c, r⟩
  · rw [around, List.append_nil, if_neg (Nat.lt_irrefl _), List.tail_nil, around, List.append_nil]
  · rw [around, Text.byteIndex_length, Text.removeAt?_rawEndPos, if_pos (by simp), Option.map_some,
      String.toList_ofList, List.tail_cons, around]

end Sound

end LineEditor

end Reckoner
