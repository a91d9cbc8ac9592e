import Reckoner.Proofs.Workbench.Events

/-!
# Walking the history

The entry recalled is an index into a transcript, and the transcript lets go of its oldest entries,
so an index could come to stand for another entry, or for none. It does not: a transcript changes
only when a line is submitted, and then no entry is recalled any more
(`Reckoner.Workbench.RecallsHeld.handle`).

With the focus on the line the arrows walk over the entries held, from the latest one up to the
oldest one and back again. Where they stand is `Reckoner.Workbench.Stands`; behind the latest entry
there is one more place, at which nothing is recalled and from which a walk begins. An arrow up
stays at the oldest entry, and an arrow down behind the latest one, so a walk of arrows up and then
of arrows down ends at a place that can be computed (`Reckoner.Workbench.Stands.handleAll_up_down`).
-/

namespace Reckoner

open Display

namespace Transcript

variable {t : Transcript} {i : Nat}

theorem lt_length_of_get? {e : Entry} (h : t.get? i = some e) : i < t.length :=
  (List.getElem?_eq_some_iff.mp h).1

theorem exists_get?_of_lt_length (h : i < t.length) : ∃ e, t.get? i = some e :=
  ⟨_, List.getElem?_eq_getElem h⟩

end Transcript

namespace Workbench

open LineEditor

variable {hash : String → UInt64} {kit : Toolkit}

/-! ### The entry recalled is held -/

/-- **The entry recalled is one of those held**, if one is recalled. -/
def RecallsHeld (w : Workbench hash) : Prop :=
  ∀ i, w.recalled? = some i → i < w.session.transcript.length

theorem recallsHeld_of_eq_none {w : Workbench hash} (h : w.recalled? = none) : w.RecallsHeld :=
  fun i hi => by
    rw [h] at hi
    cases hi

theorem recallsHeld_opened (s : Session hash) (r : Reading) : (opened s r).RecallsHeld :=
  recallsHeld_of_eq_none rfl

namespace RecallsHeld

variable {w w' : Workbench hash}

theorem recalled (h : w.RecallsHeld) (hw : w.Recalled w') : w'.RecallsHeld := by
  cases hw with
  | nothing => exact h
  | entry he =>
    intro i hi
    obtain rfl := Option.some.inj hi
    exact Transcript.lt_length_of_get? he
  | finished => exact recallsHeld_of_eq_none rfl

/-- A line that is run may push an entry out of the transcript, but then none is recalled. -/
theorem submit (h : w.RecallsHeld) : w.submit.RecallsHeld := by
  by_cases hline : ∃ c ∈ w.editor.chars, Text.isSpace c = false
  · exact recallsHeld_of_eq_none (submit_of_not_blank hline).2.2
  · rw [submit_of_blank hline]
    exact h

/-- **Whatever happens**, the entry recalled is held. -/
theorem handle (h : w.RecallsHeld) (e : Event) : (w.handle kit e).RecallsHeld := by
  cases e with
  | draw width height => exact h
  | press key control shift =>
    rw [Workbench.handle]
    cases pressed_press w key control with
    | submitted hkey hw =>
      rw [hw]
      exact h.submit
    | recalled hw => exact h.recalled hw
    | edited hsession hrecalled hsound =>
      intro i hi
      rw [hsession]
      exact h i (hrecalled.symm.trans hi)

theorem handleAll (h : w.RecallsHeld) (es : List Event) : (w.handleAll kit es).RecallsHeld := by
  induction es generalizing w with
  | nil => exact h
  | cons e es ih => exact ih (h.handle e)

end RecallsHeld

/-! ### One arrow -/

/-- **An entry is loaded**: its text is in the line, with the cursor at its end, and it is the entry
recalled. Nothing else has changed. -/
def Loads (w : Workbench hash) (i : Nat) (w' : Workbench hash) : Prop :=
  ∃ e, w.session.transcript.get? i = some e ∧
    w' = { w with editor := around e.input.toList [], recalled? := some i }

/-- **What the arrows do** with the focus on the line, while some entries are held. -/
structure WalksHistory (kit : Toolkit) (w : Workbench hash) : Prop where
  /-- The first arrow up loads the latest entry. -/
  first : w.recalled? = none → ∀ control shift,
    w.Loads (w.session.transcript.length - 1) (w.handle kit (.press .up control shift))
  /-- Any other one loads the entry before, or the oldest one again. -/
  up : ∀ i, w.recalled? = some i → ∀ control shift,
    w.Loads (i - 1) (w.handle kit (.press .up control shift))
  /-- An arrow down loads the entry behind. -/
  down : ∀ i, w.recalled? = some i → i + 1 < w.session.transcript.length → ∀ control shift,
    w.Loads (i + 1) (w.handle kit (.press .down control shift))
  /-- Behind the latest entry the line is empty and nothing is recalled. -/
  finished : ∀ i, w.recalled? = some i → w.session.transcript.length ≤ i + 1 → ∀ control shift,
    w.handle kit (.press .down control shift) = { w with editor := around [] [], recalled? := none }

theorem loads_load {w : Workbench hash} {i : Nat} (h : i < w.session.transcript.length) :
    w.Loads i (w.load i) := by
  obtain ⟨e, he⟩ := Transcript.exists_get?_of_lt_length h
  refine ⟨e, he, ?_⟩
  rw [load, he, ← ofText_eq]

section Arrows

variable {w : Workbench hash}

theorem handle_up (h : w.focus = .input) (control shift : Bool) :
    w.handle kit (.press .up control shift) = w.recallPrevious := by
  show w.goUp = _
  rw [goUp, h]

theorem handle_down (h : w.focus = .input) (control shift : Bool) :
    w.handle kit (.press .down control shift) = w.recallNext := by
  show w.goDown = _
  rw [goDown, h]

theorem recallPrevious_of_eq_none (h : w.recalled? = none) :
    w.recallPrevious = if 0 < w.session.transcript.length then
      w.load (w.session.transcript.length - 1) else w := by
  rw [recallPrevious, h]
  cases w.session.transcript.length <;> rfl

theorem recallPrevious_of_eq_some {i : Nat} (h : w.recalled? = some i)
    (hpos : 0 < w.session.transcript.length) : w.recallPrevious = w.load (i - 1) := by
  obtain ⟨n, hn⟩ := Nat.exists_eq_succ_of_ne_zero (Nat.ne_of_gt hpos)
  rw [recallPrevious, h, hn]

theorem recallNext_of_eq_some {i : Nat} (h : w.recalled? = some i) :
    w.recallNext = if i + 1 < w.session.transcript.length then w.load (i + 1)
      else { w with editor := around [] [], recalled? := none } := by
  rw [recallNext, h]
  rfl

theorem RecallsHeld.walksHistory (h : w.RecallsHeld) (hfocus : w.focus = .input)
    (hpos : 0 < w.session.transcript.length) : w.WalksHistory kit where
  first hnone control shift := by
    rw [handle_up hfocus, recallPrevious_of_eq_none hnone, if_pos hpos]
    exact loads_load (by omega)
  up i hi control shift := by
    rw [handle_up hfocus, recallPrevious_of_eq_some hi hpos]
    have hlt := h i hi
    exact loads_load (by omega)
  down i hi hlt control shift := by
    rw [handle_down hfocus, recallNext_of_eq_some hi, if_pos hlt]
    exact loads_load hlt
  finished i hi hle control shift := by
    rw [handle_down hfocus, recallNext_of_eq_some hi, if_neg (Nat.not_lt.mpr hle)]

end Arrows

/-! ### Many arrows -/

/-- The key that an event presses, if it presses one. -/
def Event.key? : Event → Option Key
  | .press key _ _ => some key
  | .draw _ _ => none

/-- The keys that are pressed while many things happen, in order. -/
def keysOf (es : List Event) : List Key := es.filterMap Event.key?

theorem keysOf_cons_press (key : Key) (control shift : Bool) (es : List Event) :
    keysOf (.press key control shift :: es) = key :: keysOf es := rfl

/-- **The place of a walk**, with the focus on the line. At the index of an entry held this entry is
recalled, and none is behind the latest one. -/
structure Stands (w : Workbench hash) (t : Transcript) (i : Nat) : Prop where
  /-- The walk is over these entries. -/
  transcript_eq : w.session.transcript = t
  /-- The focus is on the line. -/
  focus_eq : w.focus = .input
  /-- The entry at the place is recalled. -/
  recalled?_eq : w.recalled? = if i < t.length then some i else none

/-- **The line shows the place of a walk**: the text of its entry with the cursor at the end, or
nothing behind the latest entry. -/
structure Shows (w : Workbench hash) (t : Transcript) (i : Nat) : Prop extends Stands w t i where
  /-- The line is the text of the entry at the place. -/
  editor_eq : w.editor = around ((t.get? i).elim [] fun e => e.input.toList) []

variable {w w' : Workbench hash} {t : Transcript} {i j k : Nat}

theorem Loads.shows (h : w.Loads i w') (ht : w.session.transcript = t) (hfocus : w.focus = .input) :
    w'.Shows t i := by
  obtain ⟨e, he, rfl⟩ := h
  rw [ht] at he
  refine ⟨⟨ht, hfocus, ?_⟩, ?_⟩
  · rw [if_pos (Transcript.lt_length_of_get? he)]
  · rw [he]
    rfl

theorem Stands.recallsHeld (h : w.Stands t i) : w.RecallsHeld := by
  intro l hl
  have hrecalled := h.recalled?_eq
  rw [hl] at hrecalled
  split at hrecalled
  · next hlt =>
    obtain rfl := Option.some.inj hrecalled
    rwa [h.transcript_eq]
  · cases hrecalled

/-- **An arrow up** goes to the entry before. From behind the latest entry it goes to that. -/
theorem Stands.handle_up (h : w.Stands t i) (hle : i ≤ t.length) (hpos : 0 < t.length)
    (control shift : Bool) : (w.handle kit (.press .up control shift)).Shows t (i - 1) := by
  have hwalks : w.WalksHistory kit :=
    h.recallsHeld.walksHistory h.focus_eq (by rwa [h.transcript_eq])
  have hrecalled := h.recalled?_eq
  split at hrecalled
  · exact (hwalks.up i hrecalled control shift).shows h.transcript_eq h.focus_eq
  · next hge =>
    obtain rfl : i = t.length := Nat.le_antisymm hle (Nat.not_lt.mp hge)
    have hloads := hwalks.first hrecalled control shift
    rw [h.transcript_eq] at hloads
    exact hloads.shows h.transcript_eq h.focus_eq

namespace Shows

/-- **An arrow down** goes to the entry behind. Behind the latest entry it has no effect. -/
theorem handle_down (h : w.Shows t i) (control shift : Bool) :
    (w.handle kit (.press .down control shift)).Shows t (i + 1) := by
  have hbehind : ∀ l, t.length ≤ l → t.get? l = none := fun l hl => List.getElem?_eq_none hl
  rw [Workbench.handle_down h.focus_eq]
  have hrecalled := h.recalled?_eq
  split at hrecalled
  · rw [recallNext_of_eq_some hrecalled, h.transcript_eq]
    split
    · next hlt =>
      exact (loads_load (by rwa [h.transcript_eq])).shows h.transcript_eq h.focus_eq
    · next hge =>
      refine ⟨⟨h.transcript_eq, h.focus_eq, ?_⟩, ?_⟩
      · rw [if_neg hge]
      · rw [hbehind _ (Nat.not_lt.mp hge)]
        rfl
  · next hge =>
    have hge' := Nat.not_lt.mp hge
    rw [recallNext, hrecalled]
    refine ⟨⟨h.transcript_eq, h.focus_eq, ?_⟩, ?_⟩
    · rw [hrecalled, if_neg (by omega)]
    · rw [h.editor_eq, hbehind _ hge', hbehind _ (by omega)]

/-- Frames may be drawn on the way. -/
theorem handleAll_down (h : w.Shows t i) {es : List Event}
    (hkeys : keysOf es = List.replicate j .down) :
    (w.handleAll kit es).Shows t (i + j) := by
  induction es generalizing w i j with
  | nil =>
    obtain rfl : j = 0 := by simpa [keysOf] using hkeys.symm
    exact h
  | cons e es ih =>
    cases e with
    | draw width height =>
      have hdraw : (w.handle kit (.draw width height)).Shows t i := ⟨⟨h.1.1, h.1.2, h.1.3⟩, h.2⟩
      exact ih hdraw hkeys
    | press key control shift =>
      cases j with
      | zero => cases hkeys
      | succ j =>
        rw [keysOf_cons_press, List.replicate_succ] at hkeys
        obtain ⟨rfl, hrest⟩ := List.cons.inj hkeys
        have hdown : (w.handle kit (.press .down control shift)).Shows t (i + 1) :=
          h.handle_down control shift
        have hwalk := ih hdown hrest
        rwa [Nat.add_assoc, Nat.add_comm 1] at hwalk

end Shows

/-- **Arrows up and then arrows down**, and frames drawn on the way. -/
theorem Stands.handleAll_up_down (h : w.Stands t i) (hle : i ≤ t.length) (hpos : 0 < t.length)
    {es : List Event} (hkeys : keysOf es =
      List.replicate (k + 1) .up ++ List.replicate j .down) :
    (w.handleAll kit es).Shows t (i - (k + 1) + j) := by
  induction es generalizing w i k with
  | nil => cases hkeys
  | cons e es ih =>
    cases e with
    | draw width height =>
      have hdraw : (w.handle kit (.draw width height)).Stands t i := ⟨h.1, h.2, h.3⟩
      exact ih hdraw hle hkeys
    | press key control shift =>
      rw [keysOf_cons_press, List.replicate_succ, List.cons_append] at hkeys
      obtain ⟨rfl, hrest⟩ := List.cons.inj hkeys
      have hup : (w.handle kit (.press .up control shift)).Shows t (i - 1) :=
        h.handle_up hle hpos control shift
      cases k with
      | zero => exact hup.handleAll_down hrest
      | succ k =>
        have hwalk := ih hup.toStands (Nat.le_trans (Nat.sub_le _ _) hle) hrest
        rwa [Nat.sub_sub, Nat.add_comm 1] at hwalk

/-! ### Recalling at a workbench in use -/

/-- **Recalling walks the history in order**, and the entry recalled never goes stale. Whatever keys
have been pressed and whatever frames have been drawn, an entry that is recalled is held. With the
focus on the line, and while some entries are held, the first arrow up loads the latest entry and
the others the entry before, as far as the oldest one; an arrow down loads the entry behind, and
behind the latest one it empties the line and ends the walk. So where nothing is recalled, some
arrows up and then some arrows down show the entry at the place they lead to, or an empty line once
the latest entry has been passed. -/
theorem recalled_handleAll_opened (kit : Toolkit) (s : Session hash) (r : Reading)
    (es : List Event) :
    let w := (opened s r).handleAll kit es
    let t := w.session.transcript
    w.RecallsHeld ∧
    (w.focus = .input → 0 < t.length →
      w.WalksHistory kit ∧
      ∀ k j fs, 1 ≤ k → w.recalled? = none →
        keysOf fs = List.replicate k .up ++ List.replicate j .down →
          (w.handleAll kit fs).Shows t (t.length - k + j)) := by
  intro w t
  have hheld : w.RecallsHeld := (recallsHeld_opened s r).handleAll es
  refine ⟨hheld, fun hfocus hpos => ⟨hheld.walksHistory hfocus hpos, ?_⟩⟩
  intro k j fs hk hnone hkeys
  obtain ⟨k, rfl⟩ := Nat.exists_eq_succ_of_ne_zero (Nat.one_le_iff_ne_zero.mp hk)
  have hstands : w.Stands t t.length := ⟨rfl, hfocus, by rw [hnone, if_neg (Nat.lt_irrefl _)]⟩
  exact hstands.handleAll_up_down (Nat.le_refl _) hpos hkeys

/-- Of three lines run, a transcript of two entries holds the last ones. Three arrows up stay at the
older one of these, and an arrow down leads from there to the latest one. -/
theorem recalled_handleAll_opened_evicted :
    let line (x : String) := typing (fun _ => false) x.toList ++ [.press .enter false false]
    let w := (opened (.new {} 2) .ordinary).handleAll .plain (line "1" ++ line "2" ++ line "3")
    let fs : List Event := [.press .up false false, .draw 40 8, .press .up true false,
      .press .up false false, .press .down false true]
    w.focus = .input ∧ w.session.transcript.length = 2 ∧ w.recalled? = none ∧
      w.WalksHistory .plain ∧ keysOf fs = List.replicate 3 .up ++ List.replicate 1 .down ∧
      (w.handleAll .plain fs).Shows w.session.transcript 1 := by
  intro line w fs
  have hfocus : w.focus = .input := by decide +kernel
  have hlength : w.session.transcript.length = 2 := by decide +kernel
  have hnone : w.recalled? = none := by decide +kernel
  have hkeys : keysOf fs = List.replicate 3 .up ++ List.replicate 1 .down := rfl
  obtain ⟨-, hwalk⟩ := recalled_handleAll_opened .plain (.new {} 2) .ordinary
    (line "1" ++ line "2" ++ line "3")
  obtain ⟨hwalks, hshows⟩ := hwalk hfocus (by rw [hlength]; decide)
  have hthree := hshows 3 1 fs (by decide) hnone hkeys
  rw [hlength] at hthree
  exact ⟨hfocus, hlength, hnone, hwalks, hkeys, hthree⟩

end Workbench

end Reckoner
