import Reckoner.Proofs.Session.Record
import Reckoner.Proofs.Workbench.Editing
import Reckoner.Workbench.Frame

/-!
# What happens at the workbench

Keys are pressed and frames are drawn, in any order. Of all that can happen only one thing gets to
the session: the key that submits the line, while there is something in the line besides white space
(`Reckoner.Workbench.submission?`). What the session is given then is the line as it stands, however
it has come about. So the session is where it would be if these lines had been run in it one after
the other, without a workbench (`Reckoner.Workbench.session_handleAll`).

What a key can do to the session, the line and the entry recalled is said once, in
`Reckoner.Workbench.Pressed`; the statements about all keys are read off from it.
-/

namespace Reckoner

open Display

namespace Workbench

variable {hash : String → UInt64}

/-! ### Keys -/

/-- **What an arrow can do** to a workbench with the focus on the line. -/
inductive Recalled (w : Workbench hash) : Workbench hash → Prop
  /-- There is nothing to be recalled. -/
  | nothing : Recalled w w
  /-- An entry is put into the line. -/
  | entry {i : Nat} {e : Entry} (h : w.session.transcript.get? i = some e) :
      Recalled w { w with editor := .ofText e.input, recalled? := some i }
  /-- The line is emptied behind the latest entry. -/
  | finished : Recalled w { w with editor := {}, recalled? := none }

theorem recalled_load (w : Workbench hash) (i : Nat) : w.Recalled (w.load i) := by
  unfold load
  split
  · next e h => exact .entry h
  · exact .nothing

theorem recalled_recallPrevious (w : Workbench hash) : w.Recalled w.recallPrevious := by
  unfold recallPrevious
  split
  · exact .nothing
  · exact recalled_load w _
  · exact recalled_load w _

theorem recalled_recallNext (w : Workbench hash) : w.Recalled w.recallNext := by
  unfold recallNext
  split
  · exact .nothing
  · split
    · exact recalled_load w _
    · exact .finished

/-- **What a key can do** to the session, the line and the entry recalled. -/
inductive Pressed (w : Workbench hash) (key : Key) (w' : Workbench hash) : Prop
  /-- The line is submitted. -/
  | submitted (hkey : key = .enter) (h : w' = w.submit)
  /-- An entry is recalled. -/
  | recalled (h : w.Recalled w')
  /-- At most the line is edited. -/
  | edited (hsession : w'.session = w.session) (hrecalled : w'.recalled? = w.recalled?)
      (hsound : w.editor.Sound → w'.editor.Sound)

theorem pressed_goUp (w : Workbench hash) : w.Pressed .up w.goUp := by
  unfold goUp
  split
  · exact .recalled (recalled_recallPrevious w)
  · exact .edited rfl rfl id
  · exact .edited rfl rfl id

theorem pressed_goDown (w : Workbench hash) : w.Pressed .down w.goDown := by
  unfold goDown
  split
  · exact .recalled (recalled_recallNext w)
  · exact .edited rfl rfl id
  · exact .edited rfl rfl id

theorem pressed_typeChar (w : Workbench hash) (c : Char) (control : Bool) :
    w.Pressed (.char c) (w.typeChar c control) := by
  unfold typeChar
  split_ifs
  · exact .edited rfl rfl id
  · unfold toggleReading
    split
    · exact .edited rfl rfl id
    · exact .edited rfl rfl id
  · exact .edited rfl rfl id
  · exact .edited rfl rfl fun h => h.insert c

/-- **Every key** does one of these things, whatever has the focus. -/
theorem pressed_press (w : Workbench hash) (key : Key) (control : Bool) :
    w.Pressed key (w.press ⟨key, control⟩) := by
  cases key with
  | enter => exact .submitted rfl rfl
  | up => exact pressed_goUp w
  | down => exact pressed_goDown w
  | char c => exact pressed_typeChar w c control
  | left => exact .edited rfl rfl (·.left)
  | right => exact .edited rfl rfl fun _ => w.editor.sound_right
  | lineStart => exact .edited rfl rfl fun _ => w.editor.sound_toStart
  | lineEnd => exact .edited rfl rfl fun _ => w.editor.sound_toEnd
  | backspace => exact .edited rfl rfl (·.backspace)
  | delete => exact .edited rfl rfl (·.delete)
  | escape | tab | other => exact .edited rfl rfl id

/-! ### Events -/

/-- **What happens at a workbench.** -/
inductive Event
  /-- A key is pressed, perhaps with the control key or the shift key held. -/
  | press (key : Key) (control shift : Bool)
  /-- A frame is drawn. -/
  | draw (width height : Nat)

/-- The workbench after something has happened, with a toolkit for the frames. The shift key makes
no difference to a key: what is typed with it is another character, and that is all. -/
def handle (kit : Toolkit) (w : Workbench hash) : Event → Workbench hash
  | .press key control _ => w.press ⟨key, control⟩
  | .draw width height => (w.draw width height kit).2

/-- The workbench after many things have happened. -/
def handleAll (kit : Toolkit) (w : Workbench hash) (es : List Event) : Workbench hash :=
  es.foldl (handle kit) w

/-- **A workbench just opened** over a session. -/
def opened (s : Session hash) (r : Reading) : Workbench hash := { session := s, reading := r }

variable {kit : Toolkit}

theorem handleAll_append (w : Workbench hash) (es fs : List Event) :
    w.handleAll kit (es ++ fs) = (w.handleAll kit es).handleAll kit fs := List.foldl_append

/-! ### The line -/

theorem Recalled.sound {w w' : Workbench hash} (h : w.Recalled w') (hw : w.editor.Sound) :
    w'.editor.Sound := by
  cases h with
  | nothing => exact hw
  | entry h => exact LineEditor.sound_ofText _
  | finished => exact Nat.le_refl 0

theorem sound_submit {w : Workbench hash} (hw : w.editor.Sound) : w.submit.editor.Sound := by
  unfold submit
  split_ifs
  · exact hw
  · exact Nat.le_refl 0

/-- **The cursor stays in the line**, whatever happens. -/
theorem sound_handle {w : Workbench hash} (hw : w.editor.Sound) (e : Event) :
    (w.handle kit e).editor.Sound := by
  cases e with
  | draw width height => exact hw
  | press key control shift =>
    cases pressed_press w key control with
    | submitted hkey h =>
      rw [handle, h]
      exact sound_submit hw
    | recalled h => exact h.sound hw
    | edited hsession hrecalled hsound => exact hsound hw

theorem sound_handleAll {w : Workbench hash} (hw : w.editor.Sound) (es : List Event) :
    (w.handleAll kit es).editor.Sound := by
  induction es generalizing w with
  | nil => exact hw
  | cons e es ih => exact ih (sound_handle hw e)

theorem sound_opened (s : Session hash) (r : Reading) : (opened s r).editor.Sound := Nat.le_refl 0

/-! ### The session -/

/-- **The line that an event submits**, with the way in which lines are read at that time: the
whole line as it stands, if something in it is not white space. -/
def submission? (w : Workbench hash) : Event → Option (Reading × String)
  | .press .enter _ _ =>
    if w.editor.chars.any (!Text.isSpace ·) then some (w.reading, w.editor.text) else none
  | _ => none

/-- The lines that are submitted while many things happen, in order. -/
def submissions (kit : Toolkit) (w : Workbench hash) : List Event → List (Reading × String)
  | [] => []
  | e :: es => (w.submission? e).toList ++ (w.handle kit e).submissions kit es

theorem Recalled.session_eq {w w' : Workbench hash} (h : w.Recalled w') :
    w'.session = w.session := by
  cases h <;> rfl

/-- A line that is blank is not submitted. -/
theorem submit_of_blank {w : Workbench hash} (h : ¬∃ c ∈ w.editor.chars, Text.isSpace c = false) :
    w.submit = w := by
  rw [submit, if_pos]
  simpa using h

/-- Any other line is run, and leaves an empty line. -/
theorem submit_of_not_blank {w : Workbench hash}
    (h : ∃ c ∈ w.editor.chars, Text.isSpace c = false) :
    w.submit.session = (w.session.run w.reading w.editor.text).2 ∧ w.submit.editor = {} ∧
      w.submit.recalled? = none := by
  rw [submit, if_neg]
  · exact ⟨rfl, rfl, rfl⟩
  · simpa using h

/-- **One event**: the line that it submits is run, and if it submits none, the session is left
alone. -/
theorem session_handle (w : Workbench hash) (e : Event) :
    (w.handle kit e).session = w.session.runAll (w.submission? e).toList := by
  cases e with
  | draw width height => rfl
  | press key control shift =>
    by_cases hkey : key = .enter
    · subst hkey
      rw [submission?]
      split_ifs with hline
      · exact (submit_of_not_blank (by simpa using hline)).1
      · exact congrArg session (submit_of_blank (by simpa using hline))
    · have hnone : w.submission? (.press key control shift) = none := by
        cases key with
        | enter => exact absurd rfl hkey
        | _ => rfl
      rw [hnone]
      cases pressed_press w key control with
      | submitted henter => exact absurd henter hkey
      | recalled h => exact h.session_eq
      | edited hsession => exact hsession

/-- **Many events**: the lines that they submit are run one after the other. -/
theorem session_handleAll (w : Workbench hash) (es : List Event) :
    (w.handleAll kit es).session = w.session.runAll (w.submissions kit es) := by
  induction es generalizing w with
  | nil => rfl
  | cons e es ih =>
    refine (ih (w.handle kit e)).trans ?_
    rw [session_handle, submissions]
    exact List.foldl_append.symm

/-! ### Lines typed and entered -/

/-- **A text typed**, some of its characters with the shift key held. -/
def typing (shift : Char → Bool) (cs : List Char) : List Event :=
  cs.map fun c => .press (.char c) false (shift c)

/-- What is typed at the end of the line is added to it, and nothing else that the session would be
given changes. -/
theorem handleAll_typing (shift : Char → Bool) (cs : List Char) {w : Workbench hash} {l : List Char}
    (h : w.editor = .around l []) :
    (w.handleAll kit (typing shift cs)).session = w.session ∧
      (w.handleAll kit (typing shift cs)).reading = w.reading ∧
      (w.handleAll kit (typing shift cs)).editor = .around (l ++ cs) [] := by
  induction cs generalizing w l with
  | nil => exact ⟨rfl, rfl, by rw [List.append_nil]; exact h⟩
  | cons c cs ih =>
    let typed : Workbench hash := { w with editor := w.editor.insert c, focus := .input }
    have htyped : typed.editor = .around (l ++ [c]) [] :=
      (congrArg (·.insert c) h).trans (LineEditor.insert_around l [] c)
    obtain ⟨hsession, hreading, heditor⟩ := ih htyped
    rw [List.append_assoc, List.singleton_append] at heditor
    exact ⟨hsession, hreading, heditor⟩

/-- **A line typed and entered** is run as it is, whatever has been done before on an empty line. -/
theorem handleAll_typing_enter (shift : Char → Bool) (control shift' : Bool) {line : String}
    {w : Workbench hash} (hline : ∃ c ∈ line.toList, Text.isSpace c = false)
    (hempty : w.editor = .around [] []) :
    let u := w.handleAll kit (typing shift line.toList ++ [.press .enter control shift'])
    u.session = (w.session.run w.reading line).2 ∧ u.editor = {} ∧ u.recalled? = none := by
  intro u
  obtain ⟨hsession, hreading, heditor⟩ := handleAll_typing shift line.toList hempty
  have hu : u = (w.handleAll kit (typing shift line.toList)).submit := handleAll_append _ _ _
  generalize w.handleAll kit (typing shift line.toList) = v at hsession hreading heditor hu
  rw [List.nil_append] at heditor
  have htext : v.editor.text = line := by
    rw [heditor, LineEditor.text_around, List.append_nil, String.ofList_toList]
  have hchars : v.editor.chars = line.toList := by
    rw [heditor, LineEditor.around, List.append_nil]
  obtain ⟨hrun, hclear, hrecalled⟩ := submit_of_not_blank (w := v) (by rwa [hchars])
  rw [hsession, hreading, htext] at hrun
  rw [hu]
  exact ⟨hrun, hclear, hrecalled⟩

/-- **The workbench drives its session by the lines entered, and by nothing else.** Whatever keys
are pressed and whatever frames are drawn, also after the workbench was to be left, the session is
the one in which the lines submitted have been run, each as it stood when it was submitted and as
lines were read then; what submits no line leaves the session alone. And where the line is empty, a
line that is typed and entered is run as it is, after which the line is empty again and no entry is
recalled. -/
theorem session_handleAll_opened (kit : Toolkit) (s : Session hash) (r : Reading)
    (es : List Event) :
    let w := (opened s r).handleAll kit es
    w.session = s.runAll ((opened s r).submissions kit es) ∧
    (∀ e, w.submission? e = none → (w.handle kit e).session = w.session) ∧
    ∀ (line : String) shift control shift', w.editor.chars = [] →
      (∃ c ∈ line.toList, Text.isSpace c = false) →
        let u := w.handleAll kit (typing shift line.toList ++ [.press .enter control shift'])
        u.session = (w.session.run w.reading line).2 ∧ u.editor = {} ∧ u.recalled? = none := by
  intro w
  refine ⟨session_handleAll _ es, fun e he => ?_, fun line shift control shift' hempty hline => ?_⟩
  · rw [session_handle, he]
    rfl
  · have hsound : w.editor.Sound := sound_handleAll (sound_opened s r) es
    have hedit : w.editor = .around [] [] := by
      rw [← hsound.around_eq, LineEditor.before, LineEditor.after, hempty, List.take_nil,
        List.drop_nil]
    exact handleAll_typing_enter shift control shift' hline hedit

/-- A line in postfix notation is run, the workbench is to be left, lines are read in ordinary
notation, the first line is recalled and done away with; then another one is typed and entered. -/
theorem session_handleAll_opened_recall :
    let es : List Event := typing (fun _ => false) "1 1 +".toList ++
      [.press .enter false false, .press .escape false false, .press (.char 'r') true false,
        .press .up false true, .draw 40 8, .press .down false false]
    let w := (opened .new .postfixed).handleAll .plain es
    w.session = Session.new.runAll [(.postfixed, "1 1 +")] ∧
    (w.submission? (.press .enter false false) = none ∧
      (w.handle .plain (.press .enter false false)).session = w.session) ∧
    (w.editor.chars = [] ∧ (∃ c ∈ "b = 2".toList, Text.isSpace c = false) ∧
      let u := w.handleAll .plain (typing (· = '=') "b = 2".toList ++ [.press .enter true true])
      u.session = (w.session.run .ordinary "b = 2").2 ∧ u.editor = {} ∧ u.recalled? = none) := by
  intro es w
  have hlines : (opened .new .postfixed).submissions .plain es = [(.postfixed, "1 1 +")] := by
    decide +kernel
  have hblank : w.submission? (.press .enter false false) = none := by decide +kernel
  have hempty : w.editor.chars = [] := by decide +kernel
  have hreading : w.reading = .ordinary := by decide +kernel
  have hline : ∃ c ∈ "b = 2".toList, Text.isSpace c = false := ⟨'b', by decide, by decide⟩
  obtain ⟨hsession, hother, htyped⟩ := session_handleAll_opened .plain .new .postfixed es
  have hrun := htyped "b = 2" (· = '=') true true hempty hline
  rw [hlines] at hsession
  rw [hreading] at hrun
  exact ⟨hsession, ⟨hblank, hother _ hblank⟩, hempty, hline, hrun⟩

end Workbench

end Reckoner
