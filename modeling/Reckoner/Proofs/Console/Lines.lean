import Mathlib.Data.List.Basic
import Mathlib.Data.List.TakeWhile
import Reckoner.Console
import Reckoner.Proofs.ProbeTable.Entries

/-!
# The lines of the console

What goes into the console and what comes out of it are lines of text. The words of a line that goes
in are the longest stretches of other characters between its white space
(`Reckoner.Text.Spells`), and cutting a text finds these words and no others
(`Reckoner.Text.spells_iff`).

The lines that come out where all slots are printed show the content of one slot each. A key is a
word and has no blank in it, so where the key ends can be seen, and with it what the value is: what
was in the slots can be read back from the lines (`Reckoner.Command.contentLines_inj`).
-/

namespace Reckoner

/-! ### Words of a text -/

namespace Text

/-- **A text spells words**: each of them is without white space, and between two of them is some.
White space may stand in front of the words and behind them. -/
inductive Spells : List Char → List (List Char) → Prop
  /-- White space spells no words. -/
  | nil {s : List Char} (hs : ∀ c ∈ s, isSpace c = true) : Spells s []
  /-- A word ends at white space, or with the text. -/
  | cons {s w cs : List Char} {ws : List (List Char)} (hs : ∀ c ∈ s, isSpace c = true)
      (hw : IsWord w) (hnext : ∀ c ∈ cs.head?, isSpace c = true) (h : Spells cs ws) :
      Spells (s ++ w ++ cs) (w :: ws)

theorem words_append_of_isSpace {s : List Char} (hs : ∀ c ∈ s, isSpace c = true) (cs : List Char) :
    words (s ++ cs) = words cs := by
  induction s with
  | nil => rfl
  | cons c s ih =>
    rw [List.cons_append, words_cons_space (hs c List.mem_cons_self)]
    exact ih fun d hd => hs d (List.mem_cons_of_mem _ hd)

/-- A word at the beginning of a text is the first one. -/
theorem words_append_of_isWord {w cs : List Char} (hw : IsWord w)
    (hnext : ∀ c ∈ cs.head?, isSpace c = true) : words (w ++ cs) = w :: words cs := by
  cases cs with
  | nil => rw [List.append_nil, words_of_isWord hw, words, pieces]; rfl
  | cons c cs =>
    have hc : isSpace c = true := hnext c rfl
    rw [words_append_space hw hc, words_cons_space hc]

theorem Spells.words_eq {cs : List Char} {ws : List (List Char)} (h : Spells cs ws) :
    words cs = ws := by
  induction h with
  | nil hs =>
    have hwords := words_append_of_isSpace hs []
    rwa [List.append_nil] at hwords
  | cons hs hw hnext h ih =>
    rw [List.append_assoc, words_append_of_isSpace hs, words_append_of_isWord hw hnext, ih]

/-- What a text spells are words. -/
theorem Spells.isWord {cs : List Char} {ws : List (List Char)} (h : Spells cs ws) :
    ∀ w ∈ ws, IsWord w := by
  induction h with
  | nil hs => exact fun w hw => absurd hw List.not_mem_nil
  | cons hs hw hnext h ih =>
    intro w hmem
    rcases List.mem_cons.mp hmem with rfl | hmem
    · exact hw
    · exact ih w hmem

/-- Dropping stops at a character that is kept. -/
theorem eq_false_of_mem_head?_dropWhile {p : Char → Bool} {cs : List Char} {c : Char}
    (hc : c ∈ (cs.dropWhile p).head?) : p c = false := by
  have hnot := List.head?_dropWhile_not p cs
  rw [Option.mem_def.mp hc] at hnot
  exact hnot

/-- **Cutting a text finds its words.** -/
theorem spells_words (cs : List Char) : Spells cs (words cs) := by
  generalize hn : cs.length = n
  induction n using Nat.strongRecOn generalizing cs with
  | ind n ih =>
    have hs : ∀ c ∈ cs.takeWhile isSpace, isSpace c = true := fun c hc => List.mem_takeWhile_imp hc
    have hsplit : cs.takeWhile isSpace ++ cs.dropWhile isSpace = cs :=
      List.takeWhile_append_dropWhile
    cases hrest : cs.dropWhile isSpace with
    | nil =>
      rw [hrest, List.append_nil] at hsplit
      rw [hsplit] at hs
      have hwords := words_append_of_isSpace hs []
      rw [List.append_nil] at hwords
      exact hwords ▸ .nil hs
    | cons d ds =>
      -- the first word begins behind the white space
      have hd : isSpace d = false := eq_false_of_mem_head?_dropWhile (by rw [hrest]; rfl)
      let w := (d :: ds).takeWhile (!isSpace ·)
      let us := (d :: ds).dropWhile (!isSpace ·)
      have hwus : w ++ us = d :: ds := List.takeWhile_append_dropWhile
      have hw : IsWord w := by
        refine ⟨?_, fun c hc => by simpa using List.mem_takeWhile_imp hc⟩
        simp [w, hd]
      have hnext : ∀ c ∈ us.head?, isSpace c = true := fun c hc => by
        simpa using eq_false_of_mem_head?_dropWhile hc
      have hlength : us.length < n := by
        have hle : (d :: ds).length ≤ cs.length := hrest ▸ List.length_dropWhile_le _ _
        have hpos : 0 < w.length := List.length_pos_iff.mpr hw.1
        have hsum := congrArg List.length hwus
        rw [List.length_append] at hsum
        omega
      have hcs : cs = cs.takeWhile isSpace ++ w ++ us := by
        rw [List.append_assoc, hwus, ← hrest, hsplit]
      have hspells := Spells.cons hs hw hnext (ih us.length hlength us rfl)
      rw [← words_append_of_isWord hw hnext, ← words_append_of_isSpace hs, ← List.append_assoc,
        ← hcs] at hspells
      exact hspells

/-- **The words of a text** are what it spells. -/
theorem spells_iff {cs : List Char} {ws : List (List Char)} : Spells cs ws ↔ words cs = ws :=
  ⟨Spells.words_eq, fun h => h ▸ spells_words cs⟩

/-- Every text spells words. -/
theorem exists_spells (line : String) :
    ∃ ws : List String, Spells line.toList (ws.map String.toList) := by
  refine ⟨(words line.toList).map String.ofList, ?_⟩
  have hid : String.toList ∘ String.ofList = id := funext fun _ => String.toList_ofList
  rw [List.map_map, hid, List.map_id]
  exact spells_iff.mpr rfl

end Text

/-! ### Lines of slots -/

namespace Command

/-- **The line of a slot**: its number, and the key and the value that are in it. -/
def contentLine (i : Nat) : Option (String × String) → String
  | none => s!"{i}: "
  | some (k, v) => s!"{i}: {k} = {v}"

/-- The lines of a table are those of the contents of its slots. -/
theorem map_slotText {hash : String → UInt64} (t : StringTable hash) :
    t.slotList.map slotText = t.slots.toList.mapIdx contentLine := by
  rw [ProbeTable.slotList_eq_map_zipIdx, List.map_map, List.mapIdx_eq_zipIdx_map]
  refine List.map_congr_left fun ⟨e, i⟩ _ => ?_
  rcases e with _ | ⟨k, v⟩ <;> rfl

/-- **A text without blanks.** -/
def Unspaced (k : String) : Prop := ' ' ∉ k.toList

/-- A word is without blanks, and so is the argument that is not there. -/
theorem unspaced_getD {ws : List String} (h : ∀ w ∈ ws, Text.IsWord w.toList) (i : Nat) :
    Unspaced (ws.getD i "") := by
  rw [List.getD_eq_getElem?_getD]
  cases hw : ws[i]? with
  | none => exact List.not_mem_nil
  | some w =>
    intro hmem
    have hspace := (h w (List.mem_of_getElem? hw)).2 ' ' hmem
    exact absurd hspace (by decide)

/-- What stands behind the number of a slot in its line. -/
theorem contentLine_some (i : Nat) (k v : String) :
    contentLine i (some (k, v)) = contentLine i none ++ (k ++ " = " ++ v) := by
  simp only [contentLine, toString, String.append_assoc]

theorem contentLine_some_ne (i : Nat) (k v : String) :
    contentLine i (some (k, v)) ≠ contentLine i none := by
  intro h
  rw [contentLine_some] at h
  have hlength := congrArg String.length h
  simp only [String.length_append] at hlength
  have hmiddle : " = ".length = 3 := rfl
  omega

/-- The blank behind a key shows where the key ends. -/
theorem contentLine_some_inj {i : Nat} {k v l w : String} (hk : Unspaced k) (hl : Unspaced l)
    (h : contentLine i (some (k, v)) = contentLine i (some (l, w))) : k = l ∧ v = w := by
  rw [contentLine_some, contentLine_some, String.append_right_inj] at h
  have hchars : k.toList ++ ' ' :: ('=' :: ' ' :: v.toList) =
      l.toList ++ ' ' :: ('=' :: ' ' :: w.toList) := by
    have htoList := congrArg String.toList h
    rwa [String.toList_append, String.toList_append, String.toList_append, String.toList_append,
      List.append_assoc, List.append_assoc] at htoList
  have hlength : k.toList.length = l.toList.length := by
    have hblank := congrArg (List.idxOf ' ') hchars
    rwa [List.idxOf_append_of_notMem hk, List.idxOf_append_of_notMem hl, List.idxOf_cons_self,
      List.idxOf_cons_self] at hblank
  obtain ⟨hkey, hvalue⟩ := List.append_inj hchars hlength
  injection hvalue with _ hvalue
  injection hvalue with _ hvalue
  injection hvalue with _ hvalue
  exact ⟨String.toList_inj.mp hkey, String.toList_inj.mp hvalue⟩

/-- **The lines of all slots** say what is in each of them, where no key has a blank in it. -/
theorem contentLines_inj {cs ds : List (Option (String × String))}
    (hc : ∀ k v, some (k, v) ∈ cs → Unspaced k) (hd : ∀ k v, some (k, v) ∈ ds → Unspaced k)
    (h : cs.mapIdx contentLine = ds.mapIdx contentLine) : cs = ds := by
  refine List.ext_getElem? fun i => ?_
  have hi := congrArg (fun lines => lines[i]?) h
  simp only [List.getElem?_mapIdx] at hi
  -- there is a line in both or in neither, and where there is one the slots are both in use or not
  rcases he : cs[i]? with _ | _ | ⟨k, v⟩ <;> rcases hf : ds[i]? with _ | _ | ⟨l, w⟩ <;>
    simp only [he, hf, Option.map_none, Option.map_some, Option.some.injEq, reduceCtorEq] at hi ⊢
  case some.none.some.some => exact contentLine_some_ne i l w hi.symm
  case some.some.some.none => exact contentLine_some_ne i k v hi
  case some.some.some.some =>
    obtain ⟨rfl, rfl⟩ := contentLine_some_inj (hc k v (List.mem_of_getElem? he))
      (hd l w (List.mem_of_getElem? hf)) hi
    rfl

end Command

end Reckoner
