import Reckoner.Proofs.Display.Painting
import Reckoner.Proofs.ProbeTable.Entries
import Reckoner.Proofs.Session.Chronicle
import Reckoner.Proofs.Workbench.Events
import Reckoner.Proofs.Workbench.Frames

/-!
# Scrolling

A pane shows a window of its lines, which begins behind as many lines as its scroll offset says. The
offset is moved by the arrows without a look at the lines, and put right when the pane is drawn: an
offset beyond the last page becomes that of the last page. Offsets that are right are left alone
(`Reckoner.Workbench.IsSettled.settle_eq`), so a frame drawn again is the same frame.

A line that is submitted moves the history pane to an offset that is greater than any number of
lines, and what comes of that is seen at the next frame: the window is on the latest lines
(`Reckoner.Workbench.historyWindow_draw_of_submission`). The offset is a number of 64 bits, and so
that it is greater, the number of lines has to be one too.

Where a frame is drawn after every key, the offsets are right before each one. Then an arrow moves
the window of its pane by one line, until it is at the end, and does nothing else
(`Reckoner.Workbench.IsSettled.scrollsByLine`).
-/

namespace Reckoner

open Display

/-! ### Transcripts with lines to show -/

namespace Transcript

/-- Whatever is recorded is held, if anything may be held. -/
theorem isEmpty_push {t : Transcript} (h : 0 < t.limit) (e : Entry) :
    (t.push e).isEmpty = false := by
  have hlast : (t.push e).entries.getLast? = some e := (last?_push t e).trans (if_pos h)
  rw [isEmpty, List.isEmpty_eq_false_iff]
  rintro hnil
  rw [hnil] at hlast
  cases hlast

theorem isEmpty_pushAll {t : Transcript} (h : 0 < t.limit) {es : List Entry} (hes : es ≠ []) :
    (t.pushAll es).isEmpty = false := by
  obtain ⟨fs, e, rfl⟩ := List.eq_nil_or_concat es |>.resolve_left hes
  have hconcat : t.pushAll (fs.concat e) = (t.pushAll fs).push e := by
    rw [List.concat_eq_append]
    exact List.foldl_concat ..
  rw [hconcat]
  exact isEmpty_push (by rwa [limit_pushAll]) e

end Transcript

namespace Workbench

variable {hash : String → UInt64} {kit : Toolkit} {narrow : Char → Prop}

/-! ### Offsets put right -/

theorem length_symbolLines (t : SymbolTable hash) : (symbolLines t).length = t.capacity := by
  rw [symbolLines, List.length_map, Columns.slotList, List.length_map, List.length_zipIdx,
    ProbeTable.length_pairs]

/-- Drawing a frame of six rows or more. -/
theorem draw_eq (hkit : kit.Lawful narrow) (w : Workbench hash) (width : Nat) {height : Nat}
    (h : 6 ≤ height) :
    let settled := w.settle (max 1 (height - 6)) (max 1 (height - 6))
    w.draw width height kit = (settled.frame kit width height, settled) := by
  have harranged := arranged_layout hkit width h
  rw [draw, harranged.history_height, harranged.symbols_height, visibleLines_sub_four]

/-- **Drawing puts the offsets right** and changes nothing else. -/
theorem snd_draw (hkit : kit.Lawful narrow) (w : Workbench hash) (width : Nat) {height : Nat}
    (h : 6 ≤ height) :
    (w.draw width height kit).2 = { w with
      historyScroll :=
        if w.session.transcript.isEmpty then w.historyScroll
        else min w.historyScroll
          ((historyLines w.session.transcript).length - max 1 (height - 6))
      symbolsScroll := min w.symbolsScroll (w.session.symbols.capacity - max 1 (height - 6)) } := by
  rw [draw_eq hkit w width h, ← length_symbolLines]
  rfl

/-- The offset of the history is put right if there is a history. -/
theorem historyScroll_settle (w : Workbench hash) (historyVisible symbolsVisible : Nat)
    (h : w.session.transcript.isEmpty = false) :
    (w.settle historyVisible symbolsVisible).historyScroll =
      min w.historyScroll ((historyLines w.session.transcript).length - historyVisible) :=
  if_neg (Bool.eq_false_iff.mp h)

/-- **The offsets are right** for panes with so many visible lines. -/
structure IsSettled (w : Workbench hash) (visible : Nat) : Prop where
  /-- The history pane is not beyond its last page. -/
  historyScroll_le : w.session.transcript.isEmpty = false →
    w.historyScroll ≤ (historyLines w.session.transcript).length - visible
  /-- Neither is the symbols pane. -/
  symbolsScroll_le : w.symbolsScroll ≤ w.session.symbols.capacity - visible

/-- Offsets that have been put right are right. -/
theorem isSettled_settle (w : Workbench hash) (visible : Nat) :
    (w.settle visible visible).IsSettled visible where
  historyScroll_le h := by
    rw [historyScroll_settle w visible visible h]
    exact Nat.min_le_right _ _
  symbolsScroll_le := by
    rw [← length_symbolLines]
    exact Nat.min_le_right _ _

/-- Offsets that are right are left alone. -/
theorem IsSettled.settle_eq {w : Workbench hash} {visible : Nat} (h : w.IsSettled visible) :
    w.settle visible visible = w := by
  have hsymbols : clampScroll w.symbolsScroll (symbolLines w.session.symbols).length visible =
      w.symbolsScroll := by
    rw [length_symbolLines]
    exact Nat.min_eq_left h.symbolsScroll_le
  have hhistory : (if w.session.transcript.isEmpty then w.historyScroll
      else clampScroll w.historyScroll (historyLines w.session.transcript).length visible) =
        w.historyScroll := by
    split
    · rfl
    · next hne => exact Nat.min_eq_left (h.historyScroll_le (Bool.not_eq_true _ ▸ hne))
  rw [settle, hsymbols, hhistory]

/-- **A frame drawn again** is the same frame. -/
theorem draw_draw (hkit : kit.Lawful narrow) (w : Workbench hash) (width : Nat) {height : Nat}
    (h : 6 ≤ height) :
    (w.draw width height kit).2.draw width height kit = w.draw width height kit := by
  rw [draw_eq hkit w width h, draw_eq hkit _ width h, (isSettled_settle w _).settle_eq]

/-! ### Following the latest lines -/

theorem Recalled.historyScroll_eq {w w' : Workbench hash} (h : w.Recalled w') :
    w'.historyScroll = w.historyScroll := by
  cases h <;> rfl

theorem historyScroll_typeChar (w : Workbench hash) (c : Char) (control : Bool) :
    (w.typeChar c control).historyScroll = w.historyScroll := by
  unfold typeChar toggleReading
  split_ifs
  · rfl
  · split <;> rfl
  · rfl
  · rfl

/-- Submitting a line moves the history to the end. -/
theorem historyScroll_submit {w : Workbench hash}
    (h : ∃ c ∈ w.editor.chars, Text.isSpace c = false) :
    w.submit.historyScroll = maxScroll := by
  rw [submit, if_neg]
  simpa using h

/-- **A key moves the history up by one line at the most.** -/
theorem le_historyScroll_press (w : Workbench hash) (key : Key) (control : Bool) :
    min w.historyScroll maxScroll ≤ (w.press ⟨key, control⟩).historyScroll + 1 := by
  have hsame : min w.historyScroll maxScroll ≤ w.historyScroll + 1 :=
    Nat.le_succ_of_le (Nat.min_le_left _ _)
  cases key with
  | enter =>
    show _ ≤ w.submit.historyScroll + 1
    by_cases hline : ∃ c ∈ w.editor.chars, Text.isSpace c = false
    · rw [historyScroll_submit hline]
      exact Nat.le_succ_of_le (Nat.min_le_right _ _)
    · rwa [submit_of_blank hline]
  | up =>
    show _ ≤ w.goUp.historyScroll + 1
    unfold goUp
    split
    · rwa [(recalled_recallPrevious w).historyScroll_eq]
    · show _ ≤ w.historyScroll - 1 + 1
      omega
    · exact hsame
  | down =>
    show _ ≤ w.goDown.historyScroll + 1
    unfold goDown
    split
    · rwa [(recalled_recallNext w).historyScroll_eq]
    · show _ ≤ min (w.historyScroll + 1) maxScroll + 1
      omega
    · exact hsame
  | char c =>
    show _ ≤ (w.typeChar c control).historyScroll + 1
    rwa [historyScroll_typeChar]
  | escape | tab | left | right | lineStart | lineEnd | backspace | delete | other => exact hsame

theorem le_historyScroll_handleAll (w : Workbench hash) {es : List Event}
    (hes : ∀ width height, .draw width height ∉ es) :
    min w.historyScroll maxScroll ≤ (w.handleAll kit es).historyScroll + es.length := by
  induction es generalizing w with
  | nil => exact Nat.min_le_left _ _
  | cons e es ih =>
    cases e with
    | draw width height => exact absurd List.mem_cons_self (hes width height)
    | press key control shift =>
      have hkey := le_historyScroll_press w key control
      have hrest := ih (w.press ⟨key, control⟩)
        fun width height hmem => hes width height (List.mem_cons_of_mem _ hmem)
      show _ ≤ ((w.press ⟨key, control⟩).handleAll kit es).historyScroll + (es.length + 1)
      omega

/-- **The latest lines**: as many as are visible, or all. -/
theorem historyWindow_draw_of_le (hkit : kit.Lawful narrow) {w : Workbench hash} (width : Nat)
    {height : Nat} (hheight : 6 ≤ height) (hne : w.session.transcript.isEmpty = false)
    (h : (historyLines w.session.transcript).length ≤ w.historyScroll) :
    (w.draw width height kit).2.historyWindow (max 1 (height - 6)) =
      (historyLines w.session.transcript).rtake (max 1 (height - 6)) := by
  have hscroll : (w.draw width height kit).2.historyScroll =
      (historyLines w.session.transcript).length - max 1 (height - 6) := by
    rw [draw_eq hkit w width hheight, historyScroll_settle w _ _ hne]
    omega
  have hlength : ((historyLines w.session.transcript).rtake (max 1 (height - 6))).length ≤
      max 1 (height - 6) := by
    rw [List.rtake, List.length_drop]
    omega
  rw [historyWindow, hscroll]
  exact List.take_of_length_le hlength

/-- A line that is submitted leaves a history that is not empty, if there may be one. -/
theorem isEmpty_handleAll {w : Workbench hash} {e : Event} (he : w.submission? e ≠ none)
    (hlimit : 0 < w.session.transcript.limit) (es : List Event) :
    (w.handleAll kit (e :: es)).session.transcript.isEmpty = false := by
  obtain ⟨l, hl⟩ := Option.ne_none_iff_exists'.mp he
  rw [session_handleAll, Session.transcript_runAll, submissions, hl]
  exact Transcript.isEmpty_pushAll hlimit (List.cons_ne_nil _ _)

/-- **The first frame after a line is submitted** shows the latest lines of the history. -/
theorem historyWindow_draw_of_submission (hkit : kit.Lawful narrow) {w : Workbench hash}
    {control shift : Bool} {es : List Event}
    (hline : w.submission? (.press .enter control shift) ≠ none)
    (hlimit : 0 < w.session.transcript.limit) (hes : ∀ width height, .draw width height ∉ es)
    (width : Nat) {height : Nat} (hheight : 6 ≤ height) :
    let u := w.handleAll kit (.press .enter control shift :: es)
    (historyLines u.session.transcript).length + es.length ≤ maxScroll →
      (u.draw width height kit).2.historyWindow (max 1 (height - 6)) =
        (historyLines u.session.transcript).rtake (max 1 (height - 6)) := by
  intro u hfits
  have hchars : ∃ c ∈ w.editor.chars, Text.isSpace c = false := by
    by_contra hblank
    refine hline ?_
    rw [submission?, if_neg]
    simpa using hblank
  have hscroll : maxScroll ≤ u.historyScroll + es.length := by
    have hkeys : _ ≤ u.historyScroll + es.length := le_historyScroll_handleAll w.submit hes
    rwa [historyScroll_submit hchars, Nat.min_self] at hkeys
  exact historyWindow_draw_of_le hkit width hheight (isEmpty_handleAll hline hlimit es) (by omega)

/-! ### A frame after every key -/

namespace IsSettled

variable {w : Workbench hash} {visible : Nat}

/-- Another offset of the symbols is put right, and nothing else. -/
theorem settle_symbolsScroll (h : w.IsSettled visible) (offset : Nat) :
    { w with symbolsScroll := offset }.settle visible visible =
      { w with symbolsScroll := min offset (w.session.symbols.capacity - visible) } := by
  show { w with
    historyScroll := (w.settle visible visible).historyScroll
    symbolsScroll := min offset ((symbolLines w.session.symbols).length - visible) } = _
  rw [h.settle_eq, length_symbolLines]

/-- Another offset of the history is put right, and nothing else. -/
theorem settle_historyScroll (h : w.IsSettled visible) (hne : w.session.transcript.isEmpty = false)
    (offset : Nat) :
    { w with historyScroll := offset }.settle visible visible =
      { w with
        historyScroll := min offset ((historyLines w.session.transcript).length - visible) } := by
  have hhistory : ({ w with historyScroll := offset }.settle visible visible).historyScroll =
      min offset ((historyLines w.session.transcript).length - visible) :=
    historyScroll_settle _ visible visible hne
  show { w with
    historyScroll := ({ w with historyScroll := offset }.settle visible visible).historyScroll
    symbolsScroll := (w.settle visible visible).symbolsScroll } = _
  rw [h.settle_eq, hhistory]

end IsSettled

section Arrows

variable {w : Workbench hash}

theorem goUp_of_symbols (h : w.focus = .symbols) :
    w.goUp = { w with symbolsScroll := w.symbolsScroll - 1 } := by
  cases w
  cases h
  rfl

theorem goUp_of_history (h : w.focus = .history) :
    w.goUp = { w with historyScroll := w.historyScroll - 1 } := by
  cases w
  cases h
  rfl

theorem goDown_of_symbols (h : w.focus = .symbols) :
    w.goDown = { w with symbolsScroll := min (w.symbolsScroll + 1) maxScroll } := by
  cases w
  cases h
  rfl

theorem goDown_of_history (h : w.focus = .history) :
    w.goDown = { w with historyScroll := min (w.historyScroll + 1) maxScroll } := by
  cases w
  cases h
  rfl

end Arrows

/-- The offset one line down, while there are lines below the window. -/
theorem min_succ_eq {offset total visible : Nat} (hle : offset ≤ total - visible)
    (hfits : total ≤ maxScroll) :
    min (min (offset + 1) maxScroll) (total - visible) =
      if offset + visible < total then offset + 1 else offset := by
  split <;> omega

/-- **An arrow up or down scrolls by one line**, where a frame of a given size is drawn after it. It
moves the window of the pane that has the focus, and does nothing else; at the end of the lines it
does nothing at all. -/
structure ScrollsByLine (kit : Toolkit) (w : Workbench hash) (width height : Nat) : Prop where
  /-- One line up in the symbols. -/
  symbolsUp : w.focus = .symbols → ∀ control shift,
    w.handleAll kit [.press .up control shift, .draw width height] =
      { w with symbolsScroll := w.symbolsScroll - 1 }
  /-- One line down in the symbols. -/
  symbolsDown : w.focus = .symbols → w.session.symbols.capacity ≤ maxScroll → ∀ control shift,
    w.handleAll kit [.press .down control shift, .draw width height] =
      { w with symbolsScroll :=
        if w.symbolsScroll + max 1 (height - 6) < w.session.symbols.capacity
        then w.symbolsScroll + 1 else w.symbolsScroll }
  /-- One line up in the history. -/
  historyUp : w.focus = .history → w.session.transcript.isEmpty = false → ∀ control shift,
    w.handleAll kit [.press .up control shift, .draw width height] =
      { w with historyScroll := w.historyScroll - 1 }
  /-- One line down in the history. -/
  historyDown : w.focus = .history → w.session.transcript.isEmpty = false →
    (historyLines w.session.transcript).length ≤ maxScroll → ∀ control shift,
    w.handleAll kit [.press .down control shift, .draw width height] =
      { w with historyScroll :=
        if w.historyScroll + max 1 (height - 6) < (historyLines w.session.transcript).length
        then w.historyScroll + 1 else w.historyScroll }

theorem IsSettled.scrollsByLine (hkit : kit.Lawful narrow) {w : Workbench hash} (width : Nat)
    {height : Nat} (hheight : 6 ≤ height) (h : w.IsSettled (max 1 (height - 6))) :
    w.ScrollsByLine kit width height where
  symbolsUp hfocus control shift := by
    show (w.goUp.draw width height kit).2 = _
    rw [draw_eq hkit _ width hheight, goUp_of_symbols hfocus]
    refine (h.settle_symbolsScroll _).trans ?_
    rw [Nat.min_eq_left (Nat.le_trans (Nat.sub_le _ _) h.symbolsScroll_le)]
  symbolsDown hfocus hfits control shift := by
    show (w.goDown.draw width height kit).2 = _
    rw [draw_eq hkit _ width hheight, goDown_of_symbols hfocus]
    refine (h.settle_symbolsScroll _).trans ?_
    rw [min_succ_eq h.symbolsScroll_le hfits]
  historyUp hfocus hne control shift := by
    show (w.goUp.draw width height kit).2 = _
    rw [draw_eq hkit _ width hheight, goUp_of_history hfocus]
    refine (h.settle_historyScroll hne _).trans ?_
    rw [Nat.min_eq_left (Nat.le_trans (Nat.sub_le _ _) (h.historyScroll_le hne))]
  historyDown hfocus hne hfits control shift := by
    show (w.goDown.draw width height kit).2 = _
    rw [draw_eq hkit _ width hheight, goDown_of_history hfocus]
    refine (h.settle_historyScroll hne _).trans ?_
    rw [min_succ_eq (h.historyScroll_le hne) hfits]

/-- **A frame is drawn at first and after every event.** -/
def redrawn (width height : Nat) (es : List Event) : List Event :=
  .draw width height :: es.flatMap fun e => [e, .draw width height]

/-- So the offsets are right. -/
theorem isSettled_redrawn (hkit : kit.Lawful narrow) (w : Workbench hash) (width : Nat)
    {height : Nat} (h : 6 ≤ height) (es : List Event) :
    (w.handleAll kit (redrawn width height es)).IsSettled (max 1 (height - 6)) := by
  have hdraw : ∀ w : Workbench hash, (w.draw width height kit).2.IsSettled (max 1 (height - 6)) :=
    fun w => by
      rw [draw_eq hkit w width h]
      exact isSettled_settle w _
  rcases List.eq_nil_or_concat es with rfl | ⟨es, e, rfl⟩
  · exact hdraw w
  · have hlast : redrawn width height (es.concat e) =
        redrawn width height es ++ [e, .draw width height] := by
      rw [List.concat_eq_append, redrawn, List.flatMap_append]
      rfl
    rw [hlast, handleAll_append]
    exact hdraw ((w.handleAll kit (redrawn width height es)).handle kit e)

/-! ### Scrolling at a workbench in use -/

/-- **Drawing puts the scroll offsets right, and the history follows its latest lines.** Take a
lawful toolkit, and frames of six rows or more. Whatever keys have been pressed and whatever frames
have been drawn, a frame leaves a workbench that differs in the two offsets only, each of them at
the last page if it was beyond that; what is drawn of the panes is the windows at these offsets,
line by line, and the same frame drawn again is the same. The first frame after a line has been
submitted shows the latest lines of the history, whatever keys have been pressed meanwhile. Where a
frame of one size is drawn at first and after every key, an arrow up or down moves the window of the
pane with the focus by one line, unless it is at the end. -/
theorem scroll_handleAll_opened (hkit : kit.Lawful narrow) (s : Session hash) (r : Reading)
    (es : List Event) (width : Nat) {height : Nat} (hheight : 6 ≤ height) :
    let w := (opened s r).handleAll kit es
    let visible := max 1 (height - 6)
    ((w.draw width height kit).2 = { w with
      historyScroll :=
        if w.session.transcript.isEmpty then w.historyScroll
        else min w.historyScroll ((historyLines w.session.transcript).length - visible)
      symbolsScroll := min w.symbolsScroll (w.session.symbols.capacity - visible) } ∧
      Arranged (layout kit width height) width height ∧
      (w.draw width height kit).2.ShowsWindows narrow (layout kit width height) visible
        (w.draw width height kit).1 ∧
      (w.draw width height kit).2.draw width height kit = w.draw width height kit) ∧
    (∀ control shift ks, w.submission? (.press .enter control shift) ≠ none →
      0 < w.session.transcript.limit → (∀ width height, .draw width height ∉ ks) →
        let u := w.handleAll kit (.press .enter control shift :: ks)
        (historyLines u.session.transcript).length + ks.length ≤ maxScroll →
          (u.draw width height kit).2.historyWindow visible =
            (historyLines u.session.transcript).rtake visible) ∧
    ∀ ks, (w.handleAll kit (redrawn width height ks)).ScrollsByLine kit width height := by
  intro w visible
  refine ⟨⟨snd_draw hkit w width hheight, arranged_layout hkit width hheight, ?_,
    draw_draw hkit w width hheight⟩, ?_, fun ks => ?_⟩
  · rw [draw_eq hkit w width hheight]
    exact showsWindows_frame hkit _ width hheight
  · intro control shift ks hline hlimit hks
    exact historyWindow_draw_of_submission hkit hline hlimit hks width hheight
  · exact (isSettled_redrawn hkit w width hheight ks).scrollsByLine hkit width hheight

/-- Two lines of the history are visible. After the second line is submitted the focus is given to
the history and an arrow up is pressed before a frame is drawn: that frame shows the last two of six
lines. With a frame after every key the arrow leads one line up, and in the symbols an arrow down
leads one line down. -/
theorem scroll_handleAll_opened_pages :
    let es : List Event := typing (fun _ => false) "1".toList ++ [.press .enter false false] ++
      typing (fun _ => false) "2".toList
    let w := (opened .new .ordinary).handleAll .plain es
    let u := w.handleAll .plain
      [.press .enter false false, .press .tab false false, .press .up true false]
    let x := w.handleAll .plain (redrawn 40 8 [.press .enter false false, .press .tab false false])
    let y := w.handleAll .plain (redrawn 40 8 [.press .tab false false, .press .tab false false])
    (w.submission? (.press .enter false false) ≠ none ∧ 0 < w.session.transcript.limit ∧
      (historyLines u.session.transcript).length + 2 ≤ maxScroll ∧
      (u.draw 40 8 .plain).2.historyWindow 2 = (historyLines u.session.transcript).rtake 2) ∧
    (x.focus = .history ∧ x.session.transcript.isEmpty = false ∧ x.historyScroll = 4 ∧
      x.handleAll .plain [.press .up false false, .draw 40 8] = { x with historyScroll := 3 }) ∧
    y.focus = .symbols ∧ y.session.symbols.capacity ≤ maxScroll ∧
      y.handleAll .plain [.press .down false true, .draw 40 8] = { y with symbolsScroll := 1 } := by
  intro es w u x y
  have hline : w.submission? (.press .enter false false) ≠ none := by decide +kernel
  have hlimit : 0 < w.session.transcript.limit := by decide +kernel
  have hfits : (historyLines u.session.transcript).length + 2 ≤ maxScroll := by decide +kernel
  have hhistory : x.focus = .history := by decide +kernel
  have hne : x.session.transcript.isEmpty = false := by decide +kernel
  have hscroll : x.historyScroll = 4 := by decide +kernel
  have hsymbols : y.focus = .symbols := by decide +kernel
  have hcapacity : y.session.symbols.capacity ≤ maxScroll := by decide +kernel
  have htop : y.symbolsScroll + 2 < y.session.symbols.capacity ∧ y.symbolsScroll = 0 := by
    decide +kernel
  obtain ⟨-, hlatest, hscrolls⟩ := scroll_handleAll_opened Toolkit.lawful_plain .new .ordinary es 40
    (by decide : 6 ≤ 8)
  have hwindow := hlatest false false [.press .tab false false, .press .up true false] hline hlimit
    (by simp) hfits
  have hup : x.handleAll .plain [.press .up false false, .draw 40 8] =
      { x with historyScroll := x.historyScroll - 1 } :=
    (hscrolls _).historyUp hhistory hne false false
  have hdown : y.handleAll .plain [.press .down false true, .draw 40 8] =
      { y with
        symbolsScroll :=
          if y.symbolsScroll + 2 < y.session.symbols.capacity then y.symbolsScroll + 1
          else y.symbolsScroll } :=
    (hscrolls _).symbolsDown hsymbols hcapacity false true
  rw [hscroll] at hup
  rw [if_pos htop.1, htop.2] at hdown
  exact ⟨⟨hline, hlimit, hfits, hwindow⟩, ⟨hhistory, hne, hscroll, hup⟩, hsymbols, hcapacity, hdown⟩

end Workbench

end Reckoner
