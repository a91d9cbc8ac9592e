import Reckoner.Proofs.Display.Drawing
import Reckoner.Workbench.Frame

/-!
# Where things are in a frame

With a lawful toolkit the areas of a frame do not overlap (`Reckoner.Workbench.Arranged`), so each
widget is drawn as on an empty screen, and its lines are in its block. For the panes these are the
lines of their windows (`Reckoner.Workbench.showsWindows_frame`), and for the input box it is the
line behind the prompt (`Reckoner.Workbench.showsLines_inputBox`).

All this is for frames of six rows or more.
-/

namespace Reckoner

open Display

namespace Workbench

variable {hash : String → UInt64} {kit : Toolkit} {narrow : Char → Prop} {width height : Nat}

/-! ### The areas -/

/-- **How the areas of a frame are arranged.** The panes are beside each other in the upper rows,
the input box is below them, and the status bar is in the last row. -/
structure Arranged (l : Layout) (width height : Nat) : Prop where
  /-- The history pane begins in the first column. -/
  history_x : l.history.x = 0
  /-- The symbols pane begins behind it. -/
  symbols_x : l.symbols.x = l.history.width
  /-- Both have the whole width together. -/
  panes_width : l.history.width + l.symbols.width = width
  /-- The history pane begins in the first row. -/
  history_y : l.history.y = 0
  /-- The symbols pane begins there too. -/
  symbols_y : l.symbols.y = 0
  /-- The history pane has all rows but four. -/
  history_height : l.history.height = height - 4
  /-- So has the symbols pane. -/
  symbols_height : l.symbols.height = height - 4
  /-- The input box begins in the first column. -/
  input_x : l.input.x = 0
  /-- It begins in the row below the panes. -/
  input_y : l.input.y = height - 4
  /-- It has the whole width. -/
  input_width : l.input.width = width
  /-- It has three rows. -/
  input_height : l.input.height = 3
  /-- The left half of the status bar is in the last row. -/
  message_y : l.message.y = height - 1
  /-- So is the right half. -/
  help_y : l.help.y = height - 1

theorem arranged_layout (hkit : kit.Lawful narrow) (width : Nat) (h : 6 ≤ height) :
    Arranged (layout kit width height) width height := by
  let rows := kit.split .vertical [.atLeast 0, .exactly 3, .exactly 1] ⟨0, 0, width, height⟩
  have hrows : rows = #v[⟨0, 0, width, height - 4⟩, ⟨0, 0 + (height - 4), width, 3⟩,
      ⟨0, 0 + (height - 1), width, 1⟩] :=
    hkit.split_rows ⟨0, 0, width, height⟩ 0 3 1 (Nat.le_trans (by decide) h)
  obtain ⟨n, hn, hpanes⟩ := hkit.split_columns rows[0] 65 35 rfl
  obtain ⟨m, -, hbar⟩ := hkit.split_columns rows[2] 50 50 rfl
  have hlayout : layout kit width height =
      { history := { rows[0] with width := n }
        symbols := { rows[0] with x := rows[0].x + n, width := rows[0].width - n }
        input := rows[1]
        message := { rows[2] with width := m }
        help := { rows[2] with x := rows[2].x + m, width := rows[2].width - m } } := by
    show Layout.mk (kit.split .horizontal _ rows[0])[0] (kit.split .horizontal _ rows[0])[1] rows[1]
      (kit.split .horizontal _ rows[2])[0] (kit.split .horizontal _ rows[2])[1] = _
    rw [hpanes, hbar]
    rfl
  rw [hlayout]
  clear_value rows
  subst hrows
  exact
    { history_x := rfl
      symbols_x := Nat.zero_add n
      panes_width := Nat.add_sub_of_le hn
      history_y := rfl
      symbols_y := rfl
      history_height := rfl
      symbols_height := rfl
      input_x := rfl
      input_y := Nat.zero_add (height - 4)
      input_width := rfl
      input_height := rfl
      message_y := Nat.zero_add (height - 1)
      help_y := Nat.zero_add (height - 1) }

namespace Arranged

variable {l : Layout}

/-- **The input box** is right above the last row. -/
theorem input_eq (h : Arranged l width height) : l.input = ⟨0, height - 4, width, 3⟩ :=
  Area.ext h.input_x h.input_y h.input_width h.input_height

/-- **The panes and the input box are on the screen.** -/
theorem fits (h : Arranged l width height) (hheight : 6 ≤ height) :
    l.history.Fits width height ∧ l.symbols.Fits width height ∧ l.input.Fits width height := by
  cases h
  refine ⟨⟨?_, ?_⟩, ⟨?_, ?_⟩, ⟨?_, ?_⟩⟩ <;> omega

/-- **Each of them is apart from all other areas.** -/
theorem apart (h : Arranged l width height) (hheight : 6 ≤ height) :
    (∀ a ∈ [l.symbols, l.input, l.message, l.help], l.history.Apart a) ∧
    (∀ a ∈ [l.history, l.input, l.message, l.help], l.symbols.Apart a) ∧
    ∀ a ∈ [l.history, l.symbols, l.message, l.help], l.input.Apart a := by
  cases h
  refine ⟨?_, ?_, ?_⟩
  -- the two panes have no column in common, and any other two of the areas no row
  all_goals
    rintro a ha x y ⟨_, _, _, _⟩ ⟨_, _, _, _⟩
    simp only [List.mem_cons, List.not_mem_nil, or_false] at ha
    rcases ha with rfl | rfl | rfl | rfl <;> omega

end Arranged

/-! ### The windows of the panes -/

/-- **A frame shows the windows of a workbench**: below each other in the block of the symbols pane
are the lines of its window, and so are those of the history pane, as far as there is a history. -/
structure ShowsWindows (narrow : Char → Prop) (w : Workbench hash) (l : Layout) (visible : Nat)
    (f : Frame) : Prop where
  /-- The window of the history pane, one column behind the side of the block. -/
  history : w.session.transcript.isEmpty = false →
    ShowsLines narrow f.rows l.history 1 (w.historyWindow visible)
  /-- The window of the symbols pane. -/
  symbols : ShowsLines narrow f.rows l.symbols 0 (w.symbolsWindow visible)

/-- The number of lines visible in the panes of a frame. -/
theorem visibleLines_sub_four (height : Nat) : visibleLines (height - 4) = max 1 (height - 6) := by
  rw [visibleLines]
  omega

theorem showsWindows_frame (hkit : kit.Lawful narrow) (w : Workbench hash) (width : Nat)
    (h : 6 ≤ height) :
    w.ShowsWindows narrow (layout kit width height) (max 1 (height - 6))
      (w.frame kit width height) := by
  have harranged := arranged_layout hkit width h
  generalize hl : layout kit width height = l at harranged
  obtain ⟨hhistory, hsymbols, -⟩ := harranged.fits h
  obtain ⟨hapartHistory, hapartSymbols, -⟩ := harranged.apart h
  have hrows : (w.frame kit width height).rows =
      kit.drawAll (w.placed l) (emptyScreen width height) := by rw [← hl]; rfl
  rw [← visibleLines_sub_four]
  constructor
  · intro hne
    let pane : Widget :=
      { lines := w.historyWindow (visibleLines (height - 4))
        isList := true
        block? := some
          { border := borderStyle (w.focus = .history)
            title := s!" History ({w.session.transcript.total}) "
            padding := 1 } }
    have hpane : w.historyPane l.history.height = pane := by
      rw [harranged.history_height]
      exact if_neg (Bool.eq_false_iff.mp hne)
    rw [hrows, placed, hpane]
    exact hkit.showsLines_drawAll [] pane _ hhistory
      (fun p hp => hapartHistory p.2 (List.mem_map_of_mem hp)) rfl rfl
  · rw [hrows, ← harranged.symbols_height]
    exact hkit.showsLines_drawAll [_] (w.symbolsPane l.symbols.height) _ hsymbols
      (fun p hp => hapartSymbols p.2 (List.mem_map_of_mem hp)) rfl rfl

/-! ### The line in the input box -/

/-- **The input box in a frame** shows its line between its sides. -/
theorem showsLines_inputBox (hkit : kit.Lawful narrow) (w : Workbench hash) {width : Nat}
    (hwidth : 2 ≤ width) (h : 6 ≤ height) :
    ShowsLines narrow (w.frame kit width height).rows ⟨0, height - 4, width, 3⟩ 0
        [w.inputLine width] ∧
      ShowsSides (w.frame kit width height).rows ⟨0, height - 4, width, 3⟩ := by
  have harranged := arranged_layout hkit width h
  have hrows : (w.frame kit width height).rows =
    kit.drawAll (w.placed (layout kit width height)) (emptyScreen width height) := rfl
  generalize layout kit width height = l at harranged hrows
  have hfits := (harranged.fits h).2.2
  have hapart := (harranged.apart h).2.2
  rw [hrows, placed]
  rw [harranged.input_eq] at *
  exact ⟨hkit.showsLines_drawAll [_, _] (w.inputBox width) _ hfits
      (fun p hp => hapart p.2 (List.mem_map_of_mem hp)) rfl rfl,
    hkit.showsSides_drawAll [_, _] (w.inputBox width) _ hfits
      (fun p hp => hapart p.2 (List.mem_map_of_mem hp)) rfl hwidth⟩

end Workbench

end Reckoner
