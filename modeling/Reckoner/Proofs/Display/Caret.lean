import Reckoner.Display.History
import Reckoner.Proofs.Display.Drawing
import Reckoner.Proofs.Session.Chronicle

/-!
# Carets under the lines of a session

Where the failure of a line has a place, a caret is shown on the line of the screen below it. The
caret is to stand under that place (`Reckoner.Display.PointsAt`), and whether it does is a question
of the number in front of the line. The caret is put behind a gutter of six columns; the line is put
behind its number in brackets, which is filled up to the gutter but may be wider.

So the caret stands where it should under every line with a number of up to four digits, and under
no other one (`Reckoner.Display.pointsAt_historyLines_iff`). Numbers go on growing while old lines
are let go of, so the number is not bounded by what the transcript may hold: a transcript of a
single line gets there too (`Reckoner.Display.not_pointsAt_ten_thousandth`).
-/

namespace Reckoner

namespace Display

/-! ### Columns -/

theorem toList_blanks (n : Nat) : (blanks n).toList = List.replicate n ' ' := String.toList_ofList

/-- **A caret under a character of a text.** One line shows the text behind something else, and the
other one has nothing but a caret, in the column of the character `p` of the text, or in the column
behind the text if that is its length. -/
def PointsAt (caret shown : Line) (text : String) (p : Nat) : Prop :=
  ∃ front, columns shown = front ++ text.toList ∧
    columns caret = List.replicate (front.length + p) ' ' ++ ['^']

/-- What is shown in front of the text has to be as wide as what is left free in front of the
caret. -/
theorem pointsAt_iff_length_eq {caret shown : Line} {text : String} {p n : Nat} {front : List Char}
    (hshown : columns shown = front ++ text.toList)
    (hcaret : columns caret = List.replicate (n + p) ' ' ++ ['^']) :
    PointsAt caret shown text p ↔ front.length = n := by
  constructor
  · rintro ⟨front', hshown', hcaret'⟩
    have hfront : front = front' := List.append_cancel_right (hshown.symm.trans hshown')
    have hlength := congrArg List.length (hcaret.symm.trans hcaret')
    rw [← hfront] at hlength
    simp only [List.length_append, List.length_replicate] at hlength
    omega
  · rintro rfl
    exact ⟨front, hshown, hcaret⟩

/-! ### Numbers in the gutter -/

/-- **A number stands in brackets**, and blanks fill up what is left of the gutter. -/
theorem toList_label (n : Nat) :
    (label n).toList = '[' :: Nat.toDigits 10 n ++ [']'] ++
      List.replicate (gutter - ((Nat.toDigits 10 n).length + 2)) ' ' := by
  have hbrackets : (s!"[{n}]").toList = '[' :: Nat.toDigits 10 n ++ [']'] := by
    simp [toString, Nat.repr]
  have hlength : (s!"[{n}]").length = (Nat.toDigits 10 n).length + 2 := by
    rw [← String.length_toList, hbrackets]
    simp
  rw [label, String.toList_append, hbrackets, hlength, toList_blanks]

/-- A number takes its digits and two brackets, and the gutter at least. -/
theorem length_label (n : Nat) :
    (label n).toList.length = max gutter ((Nat.toDigits 10 n).length + 2) := by
  simp only [toList_label, List.length_append, List.length_cons, List.length_nil,
    List.length_replicate]
  omega

/-- **Numbers of up to four digits fit the gutter.** -/
theorem length_label_eq_gutter_iff (n : Nat) : (label n).toList.length = gutter ↔ n < 10000 := by
  have hdigits : (Nat.toDigits 10 n).length ≤ 4 ↔ n < 10 ^ 4 :=
    Nat.length_toDigits_le_iff (by decide) (by decide)
  rw [length_label, gutter]
  omega

/-! ### The lines of an entry -/

/-- The first line of an entry shows the line that was given behind the number. -/
theorem exists_entryLines_eq (n : Nat) (e : Entry) :
    ∃ shown below, entryLines n e = shown :: below ∧
      columns shown = (label n).toList ++ e.input.toList := by
  refine ⟨_, _, rfl, ?_⟩
  simp only [columns_cons, columns_nil, List.append_nil]

/-- **The first two lines of an entry** whose failure has a place, if it has no expression: the line
behind its number, and the caret behind the gutter. -/
theorem entryLines_of_position {e : Entry} {message : String} {p : Nat} (n : Nat)
    (hexpr : e.expression? = none) (hfail : e.outcome = .failure message (some p)) :
    ∃ shown caret below, entryLines n e = shown :: caret :: below ∧
      columns shown = (label n).toList ++ e.input.toList ∧
      columns caret = List.replicate (gutter + p) ' ' ++ ['^'] := by
  rw [entryLines, hexpr, hfail]
  refine ⟨_, _, _, rfl, ?_, ?_⟩
  · simp only [columns_cons, columns_nil, List.append_nil]
  · simp only [columns_cons, columns_nil, List.append_nil, String.toList_append, toList_blanks]
    rfl

/-- The lines of a transcript are those of the entries before some entry, then those of the entry,
then others. -/
theorem exists_historyLines_eq {t : Transcript} {i : Nat} {e : Entry} (h : t.get? i = some e) :
    ∃ below, historyLines t = historyLines { t with entries := t.entries.take i } ++
      (entryLines (t.firstNumber + i) e ++ below) := by
  obtain ⟨hi, hget⟩ := List.getElem?_eq_some_iff.mp h
  have hsplit : t.entries = t.entries.take i ++ e :: t.entries.drop (i + 1) := by
    rw [← hget, ← List.drop_eq_getElem_cons hi, List.take_append_drop]
  have hlength : (t.entries.take i).length = i := List.length_take_of_le (Nat.le_of_lt hi)
  refine ⟨((t.entries.drop (i + 1)).zipIdx (t.firstNumber + i + 1)).flatMap
    fun numbered => entryLines numbered.2 numbered.1, ?_⟩
  rw [historyLines, hsplit, List.zipIdx_append, List.flatMap_append, hlength, List.zipIdx_cons,
    List.flatMap_cons, ← hsplit]
  rfl

/-! ### Carets in the lines of a session -/

/-- **The caret stands under the place of a failure if the number of the line is less than
10000.** Take any session, however many lines its transcript may hold. Where it holds a line whose
failure has a place, the place is in the line or right behind it. Behind what is shown of the lines
before, there is the line behind its number, and then the caret on the next line of the screen,
behind the gutter; the caret is under the place if the number fits the gutter, and not under it
otherwise. -/
theorem pointsAt_historyLines_iff (hash : String → UInt64) (opts : ParseOptions) (limit : Nat)
    (as : List Session.Act) :
    let t := ((Session.new opts limit hash).performAll as).transcript
    ∀ i e message p, t.get? i = some e → e.outcome = .failure message (some p) →
      p ≤ e.input.length ∧ ∃ shown caret below,
        historyLines t =
          historyLines { t with entries := t.entries.take i } ++ shown :: caret :: below ∧
        columns shown = (label (t.firstNumber + i)).toList ++ e.input.toList ∧
        columns caret = List.replicate (gutter + p) ' ' ++ ['^'] ∧
        (PointsAt caret shown e.input p ↔ t.firstNumber + i < 10000) := by
  intro t i e message p hget hfail
  obtain ⟨c, -, rfl⟩ := Session.exists_entry_eq_of_get? hget
  obtain ⟨hexpr, hle⟩ := c.records.of_position message p hfail
  obtain ⟨shown, caret, below, hlines, hshown, hcaret⟩ :=
    entryLines_of_position (t.firstNumber + i) hexpr hfail
  obtain ⟨after, hsplit⟩ := exists_historyLines_eq hget
  refine ⟨hle, shown, caret, below ++ after, ?_, hshown, hcaret, ?_⟩
  · rw [hsplit, hlines]
    rfl
  · rw [pointsAt_iff_length_eq hshown hcaret, length_label_eq_gutter_iff]

/-- The second line of a session, which ends where an operand should begin. -/
theorem pointsAt_historyLines_second :
    let t := ((Session.new {} 5).performAll
      [.run .ordinary "a = 2", .run .ordinary "a +"]).transcript
    t.get? 1 = some ⟨"a +", none, .failure
        "Syntax error at position 3: expected a number, identifier or '(', found end of input"
        (some 3)⟩ ∧
      ∃ shown caret below,
        historyLines t =
          historyLines { t with entries := t.entries.take 1 } ++ shown :: caret :: below ∧
        PointsAt caret shown "a +" 3 := by
  intro t
  have hget : t.get? 1 = some ⟨"a +", none, .failure
      "Syntax error at position 3: expected a number, identifier or '(', found end of input"
      (some 3)⟩ := by
    decide +kernel
  have hnumber : t.firstNumber + 1 < 10000 := by decide +kernel
  obtain ⟨-, shown, caret, below, hlines, -, -, hpoints⟩ :=
    pointsAt_historyLines_iff Text.hash {} 5 [.run .ordinary "a = 2", .run .ordinary "a +"] 1 _ _ _
      hget rfl
  exact ⟨hget, shown, caret, below, hlines, hpoints.mpr hnumber⟩

/-- **The caret under the line number 10000** is one column too far to the left. The line fails at
its end, and the caret stands under its last character and not behind it. The transcript holds no
more than this line; the 9999 lines before have been let go of. -/
theorem not_pointsAt_ten_thousandth :
    let t := ((Session.new {} 1).performAll
      (List.replicate 9999 (.run .ordinary "1") ++ [.run .ordinary "1 +"])).transcript
    t.firstNumber = 10000 ∧
    (∃ message, t.get? 0 = some ⟨"1 +", none, .failure message (some 3)⟩) ∧
    ∃ shown caret below, historyLines t = shown :: caret :: below ∧
      columns shown = "[10000]1 +".toList ∧ columns caret = "         ^".toList ∧
      ¬PointsAt caret shown "1 +" 3 := by
  intro t
  have hexpr : Reading.ordinary.expr {} "1 +" =
      .error (.parse (.malformed (.operandExpected .finish) 3)) := by
    decide +kernel
  obtain ⟨message, ht⟩ : ∃ message, t =
      { limit := 1, entries := [⟨"1 +", none, .failure message (some 3)⟩], dropped := 9999 } := by
    have hconcat : t = _ := Session.transcript_performAll_concat hexpr
      (List.replicate 9999 (.run .ordinary "1"))
    have hline : Session.Act.line? (.run .ordinary "1") = some (.ordinary, "1") := rfl
    rw [List.filterMap_replicate_of_some hline, List.length_replicate] at hconcat
    exact ⟨_, hconcat⟩
  obtain ⟨shown, caret, below, hlines, hshown, hcaret⟩ :=
    entryLines_of_position (e := ⟨"1 +", none, .failure message (some 3)⟩) 10000 rfl rfl
  have hlabel : (label 10000).toList ++ "1 +".toList = "[10000]1 +".toList := by decide +kernel
  rw [ht]
  refine ⟨rfl, ⟨message, rfl⟩, shown, caret, below, ?_, ?_, hcaret, ?_⟩
  · rw [← hlines]
    exact List.append_nil _
  · exact hshown.trans hlabel
  · rw [pointsAt_iff_length_eq hshown hcaret, length_label_eq_gutter_iff]
    exact Nat.lt_irrefl 10000

end Display

end Reckoner
