import Reckoner.Proofs.Display.Painting
import Reckoner.Proofs.Workbench.Events
import Reckoner.Proofs.Workbench.Frames

/-!
# The cursor on the screen

The input box has one row for the line, and the line may be longer than that. What stands in the box
is the prompt and, behind it, the line without so many of its first characters that there is room
for the cursor. So the cursor moves through the box with the line in place until it is in the last
column of the box, and from there on the line moves under it (`Reckoner.Workbench.cursorColumn_eq`).

Either way the cursor is between the two sides of the box, and on the character that stands behind
it in the line, or on a blank cell at the end of the line (`Reckoner.Workbench.cursor_draw_opened`).
This is so with every lawful toolkit, where the characters of the line are narrow.
-/

namespace Reckoner

open Display

namespace Workbench

variable {hash : String → UInt64} {kit : Toolkit} {narrow : Char → Prop}

/-! ### The column of the cursor -/

theorem length_prompt_le (r : Reading) : (prompt r).length ≤ 12 := by
  cases r <;> decide

/-- **The cursor goes as far as there is room for it**, and no further. -/
theorem cursorColumn_eq (w : Workbench hash) (width : Nat) :
    w.cursorColumn width =
      1 + ((prompt w.reading).length + min w.editor.cursor (inputRoom w.reading width)) := by
  rw [cursorColumn, inputSkip]
  omega

/-- So it is between the sides of a box that is wide enough. -/
theorem cursorColumn_lt (w : Workbench hash) {width : Nat} (h : 20 ≤ width) :
    0 < w.cursorColumn width ∧ w.cursorColumn width < width - 1 := by
  have hprompt := length_prompt_le w.reading
  rw [cursorColumn_eq, inputRoom]
  omega

/-! ### The line in the box -/

/-- The prompt, and behind it what is shown of the line. -/
theorem columns_inputLine (w : Workbench hash) (width : Nat) :
    columns (w.inputLine width) =
      (prompt w.reading).toList ++ w.editor.chars.drop (w.inputSkip width) := by
  rw [inputLine, columns_cons, columns_cons, columns_nil, String.toList_ofList, List.append_nil]

/-- **At the cursor is the character behind it**, if there is one. -/
theorem getElem?_columns_inputLine (w : Workbench hash) (width : Nat) :
    (columns (w.inputLine width))[w.cursorColumn width - 1]? =
      w.editor.chars[w.editor.cursor]? := by
  have hcolumn : w.cursorColumn width - 1 =
      (prompt w.reading).toList.length + (w.editor.cursor - w.inputSkip width) := by
    rw [cursorColumn, inputSkip, String.length_toList]
    omega
  have hskip : w.inputSkip width ≤ w.editor.cursor := Nat.sub_le _ _
  rw [columns_inputLine, hcolumn, List.getElem?_append_right (Nat.le_add_right _ _),
    Nat.add_sub_cancel_left, List.getElem?_drop, Nat.add_sub_cancel' hskip]

/-- The prompt is made of printable characters of ASCII. -/
theorem all_prompt (r : Reading) :
    (prompt r).toList.all (fun c => decide (0x20 ≤ c.toNat ∧ c.toNat ≤ 0x7e)) = true := by
  cases r <;> decide

/-- So the line in the box is made of narrow characters if the input line is. -/
theorem narrow_inputLine (hkit : kit.Lawful narrow) {w : Workbench hash}
    (h : ∀ c ∈ w.editor.chars, narrow c) (width : Nat) :
    ∀ c ∈ columns (w.inputLine width), narrow c := by
  intro c hc
  rw [columns_inputLine] at hc
  rcases List.mem_append.mp hc with hc | hc
  · obtain ⟨hle, hge⟩ := of_decide_eq_true (List.all_eq_true.mp (all_prompt w.reading) c hc)
    exact hkit.narrow_ascii c hle hge
  · exact h c (List.mem_of_mem_drop hc)

/-! ### The cursor at a workbench in use -/

/-- **The cursor is always visible, and on its character.** Whatever keys have been pressed and
whatever frames have been drawn, in a frame with the focus on the line the cursor is in the row of
the line, strictly between the two sides of the box. The cell there has the character that stands
behind the cursor in the line, or a blank if the cursor is at the end, where the characters of the
line are narrow; and the cursor is in the line, which may be of any length. -/
theorem cursor_draw_opened (hkit : kit.Lawful narrow) (s : Session hash) (r : Reading)
    (es : List Event) {width height : Nat} (hwidth : 20 ≤ width) (hheight : 6 ≤ height) :
    let w := (opened s r).handleAll kit es
    let f := (w.draw width height kit).1
    w.focus = .input →
      w.editor.cursor ≤ w.editor.chars.length ∧
      ∃ x, f.cursor? = some (x, height - 3) ∧ 0 < x ∧ x < width - 1 ∧
        charAt? f.rows 0 (height - 3) = some '│' ∧
        charAt? f.rows (width - 1) (height - 3) = some '│' ∧
        ((∀ c ∈ w.editor.chars, narrow c) →
          charAt? f.rows x (height - 3) = some (w.editor.chars[w.editor.cursor]?.getD ' ')) := by
  intro w f hfocus
  -- the offsets put right are nothing that the input box shows
  let l := layout kit width height
  let u := w.settle (visibleLines l.history.height) (visibleLines l.symbols.height)
  have harranged : Arranged l width height := arranged_layout hkit width hheight
  have hy : height - 4 + 1 = height - 3 := by omega
  have hcursor : f.cursor? = some (w.cursorColumn width, height - 3) := by
    have hplace : f.cursor? = some (l.input.x + w.cursorColumn l.input.width, l.input.y + 1) :=
      (if_pos hfocus : (if u.focus = .input then _ else _) = _)
    rw [hplace, harranged.input_x, harranged.input_width, harranged.input_y, Nat.zero_add, hy]
  obtain ⟨hline, hsides⟩ := showsLines_inputBox hkit u (Nat.le_trans (by decide) hwidth) hheight
  obtain ⟨hpos, hlt⟩ := cursorColumn_lt w hwidth
  obtain ⟨hleft, hright⟩ := hsides 1 (by decide) (show 1 + 1 < 3 by decide)
  rw [hy] at hleft hright
  rw [Nat.zero_add] at hright
  refine ⟨sound_handleAll (sound_opened s r) es, w.cursorColumn width, hcursor, hpos, hlt, hleft,
    hright, fun hnarrow => ?_⟩
  have hcell := hline 0 (w.cursorColumn width - 1) (show 0 + 2 < 3 by decide)
    (show 0 + (w.cursorColumn width - 1) + 2 < width by omega)
    (narrow_inputLine hkit hnarrow width)
  have hx : 0 + (1 + 0) + (w.cursorColumn width - 1) = w.cursorColumn width := by omega
  rw [hx, Nat.add_zero, hy] at hcell
  rw [← getElem?_columns_inputLine w width]
  exact hcell

/-- A line of thirteen characters is longer than the room for it in a box of twenty columns. The
cursor on its last character is in the last column of the box. -/
theorem cursor_draw_opened_last :
    let es : List Event :=
      typing (fun _ => false) "1 + 2 + 3 + 4".toList ++ [.press .left false false]
    let w := (opened .new .ordinary).handleAll .plain es
    let f := (w.draw 20 6 .plain).1
    w.focus = .input ∧ w.editor.chars[w.editor.cursor]? = some '4' ∧
      f.cursor? = some (18, 3) ∧ charAt? f.rows 18 3 = some '4' ∧
      charAt? f.rows 19 3 = some '│' := by
  intro es w f
  have hfocus : w.focus = .input := by decide +kernel
  have hchar : w.editor.chars[w.editor.cursor]? = some '4' := by decide +kernel
  have hplace : f.cursor? = some (18, 3) := by decide +kernel
  obtain ⟨-, x, hcursor, -, -, -, hside, hcell⟩ :=
    cursor_draw_opened Toolkit.lawful_plain .new .ordinary es (by decide : 20 ≤ 20)
      (by decide : 6 ≤ 6) hfocus
  obtain rfl : 18 = x := congrArg Prod.fst (Option.some.inj (hplace.symm.trans hcursor))
  exact ⟨hfocus, hchar, hplace,
    (hcell fun _ _ => trivial).trans (congrArg (fun c? => some (c?.getD ' ')) hchar), hside⟩

end Workbench

end Reckoner
