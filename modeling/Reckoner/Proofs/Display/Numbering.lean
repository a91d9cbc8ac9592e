import Reckoner.Proofs.Display.Caret

/-!
# The numbers of entries

The entries that a transcript has recorded are numbered from one on, in the order in which they
were recorded. Old entries are let go of one by one, and now and then all of them are; what is held
is always a last part of all that has been recorded, and the number of entries let go of says
where it begins (`Reckoner.Transcript.HoldsLast.entries_eq_drop`). So it does not matter in which
of these ways an entry came to be the first one, or that none may be held at all.

The number in front of an entry is therefore its number among all entries ever recorded, and it
stays the same as long as the entry is held (`Reckoner.Transcript.numbering_performAll`).
-/

namespace Reckoner

open Display

namespace Transcript

/-! ### What is done with a transcript -/

/-- **What is done with a transcript.** -/
inductive Act
  /-- An entry is recorded. -/
  | push (e : Entry)
  /-- All entries are let go of. -/
  | clear
deriving DecidableEq

/-- The entry that is recorded, if one is. -/
def Act.entry? : Act → Option Entry
  | push e => some e
  | clear => none

/-- Whether an entry is recorded. -/
def Act.isPush : Act → Bool
  | push _ => true
  | clear => false

/-- The transcript after something has been done with it. -/
def perform (t : Transcript) : Act → Transcript
  | .push e => t.push e
  | .clear => t.clear

/-- The transcript after many things have been done with it. -/
def performAll (t : Transcript) (as : List Act) : Transcript := as.foldl perform t

/-- **All entries recorded**, whatever has become of them. -/
def recorded (as : List Act) : List Entry := as.filterMap Act.entry?

/-- **The number of entries recorded since** all were let go of for the last time, if ever. -/
def sinceClear (as : List Act) : Nat := (as.rtakeWhile Act.isPush).length

variable {t : Transcript} {es fs : List Entry} {k : Nat}

theorem performAll_append (t : Transcript) (as bs : List Act) :
    t.performAll (as ++ bs) = (t.performAll as).performAll bs :=
  List.foldl_append

theorem performAll_concat (t : Transcript) (as : List Act) (a : Act) :
    t.performAll (as ++ [a]) = (t.performAll as).perform a :=
  List.foldl_concat ..

theorem recorded_append (as bs : List Act) : recorded (as ++ bs) = recorded as ++ recorded bs :=
  List.filterMap_append

theorem sinceClear_push (as : List Act) (e : Entry) :
    sinceClear (as ++ [.push e]) = sinceClear as + 1 := by
  rw [sinceClear, List.rtakeWhile_concat_pos _ _ _ rfl, List.length_append, List.length_singleton,
    sinceClear]

theorem sinceClear_clear (as : List Act) : sinceClear (as ++ [.clear]) = 0 := by
  rw [sinceClear, List.rtakeWhile_concat_neg _ _ _ (by decide), List.length_nil]

theorem limit_performAll (t : Transcript) (as : List Act) : (t.performAll as).limit = t.limit := by
  induction as generalizing t with
  | nil => rfl
  | cons a as ih =>
    refine (ih _).trans ?_
    cases a <;> rfl

/-- **What a transcript holds after a run.** -/
theorem holdsLast_performAll (limit : Nat) (as : List Act) :
    (performAll { limit := limit } as).HoldsLast (recorded as) (sinceClear as) := by
  induction as using List.reverseRecOn with
  | nil => exact .nil limit
  | append_singleton as a ih =>
    rw [performAll_concat, recorded_append]
    cases a with
    | push e =>
      rw [sinceClear_push]
      exact ih.push e
    | clear =>
      have hrecorded : recorded as ++ recorded [.clear] = recorded as := List.append_nil _
      rw [sinceClear_clear, hrecorded]
      exact ih.clear

/-- What has been let go of stays so. -/
theorem dropped_le_performAll (t : Transcript) (as : List Act) :
    t.dropped ≤ (t.performAll as).dropped := by
  induction as generalizing t with
  | nil => exact Nat.le_refl _
  | cons a as ih =>
    have hle : t.dropped ≤ (t.perform a).dropped := by
      cases a <;> exact Nat.le_add_right _ _
    exact Nat.le_trans hle (ih _)

/-! ### The window of what is held -/

/-- **The entries held, with their numbers.** -/
def numbered (t : Transcript) : List (Entry × Nat) := t.entries.zipIdx t.firstNumber

namespace HoldsLast

/-- **What is held is all that has been recorded, without the first ones**: as many as have been
let go of. -/
theorem entries_eq_drop (h : t.HoldsLast es k) : t.entries = es.drop t.dropped := by
  have hlength : t.entries.length = min t.limit k := by
    have hle := h.le_length
    rw [h.entries_eq, List.rtake, List.length_drop]
    omega
  have htotal : t.dropped + t.entries.length = es.length := h.total_eq
  rw [h.entries_eq, List.rtake]
  congr 1
  omega

/-- An entry held is the one with its number. -/
theorem getElem?_of_get? (h : t.HoldsLast es k) {i : Nat} {e : Entry} (hget : t.get? i = some e) :
    es[t.firstNumber + i - 1]? = some e := by
  rw [get?, h.entries_eq_drop, List.getElem?_drop] at hget
  rwa [firstNumber, Nat.add_right_comm, Nat.add_sub_cancel]

/-- **The numbers are those of a count from one** of everything recorded. -/
theorem numbered_eq_drop (h : t.HoldsLast es k) : t.numbered = (es.zipIdx 1).drop t.dropped := by
  have htotal : t.dropped + t.entries.length = es.length := h.total_eq
  have hlength : (es.take t.dropped).length = t.dropped := List.length_take_of_le (by omega)
  -- the entries in front of those held have the numbers in front of theirs
  have hsplit : es.take t.dropped ++ t.entries = es := by
    rw [h.entries_eq_drop, List.take_append_drop]
  rw [← hsplit, List.zipIdx_append, List.drop_left' (by rw [List.length_zipIdx, hlength]), hlength,
    numbered, firstNumber, Nat.add_comm]

/-- **Numbers stay as they are.** -/
theorem numbered_of_append {u : Transcript} {j : Nat} (ht : t.HoldsLast es k)
    (hu : u.HoldsLast (es ++ fs) j) (hle : t.dropped ≤ u.dropped) :
    u.numbered = t.numbered.drop (u.dropped - t.dropped) ++
      (fs.zipIdx (t.total + 1)).drop (u.dropped - t.total) := by
  rw [hu.numbered_eq_drop, ht.numbered_eq_drop, List.zipIdx_append, List.drop_append,
    List.drop_drop, List.length_zipIdx, Nat.add_sub_of_le hle, ht.total_eq, Nat.add_comm 1]

end HoldsLast

/-! ### The numbers that are shown -/

/-- **Numbers are stable over any run.** Whatever is done with a new transcript, it holds the last
ones of the entries recorded since all were let go of for the last time, as many as may be held, and
has counted all that were ever recorded. The entry at an index is the one that was recorded with the
number of this index. That number stands in front of it where the transcript is shown, in decimal
digits between brackets, with blanks behind it up to the gutter: what is held with its numbers is a
last part of everything recorded, counted from one. If more is done with the transcript, then of the
entries held some first ones may be let go of; the others keep their numbers, and those recorded
since are numbered on. -/
theorem numbering_performAll (limit : Nat) (as : List Act) :
    let t := performAll { limit := limit } as
    t.entries = (recorded as).rtake (min limit (sinceClear as)) ∧
      t.total = (recorded as).length ∧
      (∀ i e, t.get? i = some e → (recorded as)[t.firstNumber + i - 1]? = some e) ∧
      historyLines t = (t.numbered.flatMap fun (e, n) => entryLines n e) ∧
      t.numbered = ((recorded as).zipIdx 1).drop t.dropped ∧
      (∀ n e, ∃ shown below, entryLines n e = shown :: below ∧
        columns shown = '[' :: Nat.toDigits 10 n ++ [']'] ++
          List.replicate (gutter - ((Nat.toDigits 10 n).length + 2)) ' ' ++ e.input.toList) ∧
      ∀ bs, let u := t.performAll bs
        u.numbered = t.numbered.drop (u.dropped - t.dropped) ++
          ((recorded bs).zipIdx (t.total + 1)).drop (u.dropped - t.total) := by
  intro t
  have ht : t.HoldsLast (recorded as) (sinceClear as) := holdsLast_performAll limit as
  have hlimit : t.limit = limit := limit_performAll { limit := limit } as
  refine ⟨hlimit ▸ ht.entries_eq, ht.total_eq, fun i e => ht.getElem?_of_get?, rfl,
    ht.numbered_eq_drop, fun n e => ?_, fun bs => ?_⟩
  · obtain ⟨shown, below, hlines, hshown⟩ := exists_entryLines_eq n e
    exact ⟨shown, below, hlines, by rw [hshown, toList_label]⟩
  · have hu := holdsLast_performAll limit (as ++ bs)
    rw [recorded_append, performAll_append] at hu
    exact ht.numbered_of_append hu (dropped_le_performAll t bs)

/-- Two entries may be held. The first one has been let go of with all there were, the second one
for the fourth one, and one more entry takes the place of the third one. The first line that is
shown is that of the third one. -/
theorem numbering_performAll_fourth :
    let entry (x : String) : Entry := ⟨x, none, .failure "" none⟩
    let as : List Act := [.push (entry "a"), .clear, .push (entry "b"), .push (entry "c"),
      .push (entry "d")]
    let t := performAll { limit := 2 } as
    t.get? 1 = some (entry "d") ∧ (recorded as)[t.firstNumber + 1 - 1]? = some (entry "d") ∧
      t.numbered = [(entry "c", 3), (entry "d", 4)] ∧
      (∃ shown below, historyLines t = shown :: below ∧ columns shown = "[3]   c".toList) ∧
      (t.performAll [.push (entry "e")]).numbered = [(entry "d", 4), (entry "e", 5)] := by
  intro entry as t
  obtain ⟨-, -, hget, hlines, -, hfirst, hlater⟩ := numbering_performAll 2 as
  have hheld : t.get? 1 = some (entry "d") := by decide +kernel
  have hnumbered : t.numbered = [(entry "c", 3), (entry "d", 4)] := by decide +kernel
  obtain ⟨shown, below, hentry, hshown⟩ := hfirst 3 (entry "c")
  refine ⟨hheld, hget 1 _ hheld, hnumbered, ⟨shown, below ++ entryLines 4 (entry "d"), ?_, ?_⟩,
    (hlater [.push (entry "e")]).trans ?_⟩
  · refine hlines.trans ?_
    rw [hnumbered, List.flatMap_cons, List.flatMap_singleton]
    exact congrArg (· ++ entryLines 4 (entry "d")) hentry
  · exact hshown.trans (by decide +kernel)
  · decide +kernel

end Transcript

end Reckoner
