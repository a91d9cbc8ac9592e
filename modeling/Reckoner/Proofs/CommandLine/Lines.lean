import Mathlib.Data.List.Basic
import Reckoner.CommandLine.Dialogue

/-!
# The lines of a text

A line ends in one of two ways, at a line feed or at a carriage return with a line feed behind it,
and the last line may also end with the text. `Reckoner.CommandLine.Lines` says which lines a text
has, without saying how they are found: a line has no line feed in it, and a carriage return in
front of a line feed is no part of the line. Every text has lines in this sense, and in one way
only (`Reckoner.CommandLine.lines_iff`).

Texts can be put one behind the other if the first one ends with a line feed
(`Reckoner.CommandLine.Lines.append`), and then so can their lines.
-/

namespace Reckoner

namespace CommandLine

variable {c : Char} {l m cs : List Char} {ls ms : List (List Char)}

/-- **The lines of a text.** -/
inductive Lines : List Char → List (List Char) → Prop
  /-- A text without characters has no lines. -/
  | nil : Lines [] []
  /-- The last line may end with the text, if there is anything on it. -/
  | last {l : List Char} (hl : '\n' ∉ l) (hne : l ≠ []) : Lines l [l]
  /-- A line may end with a line feed that has no carriage return in front of it. -/
  | feed {l cs : List Char} {ls : List (List Char)} (hl : '\n' ∉ l)
      (hend : l.getLast? ≠ some '\r') (h : Lines cs ls) : Lines (l ++ '\n' :: cs) (l :: ls)
  /-- A line may end with a carriage return and a line feed. -/
  | returnFeed {l cs : List Char} {ls : List (List Char)} (hl : '\n' ∉ l) (h : Lines cs ls) :
      Lines (l ++ '\r' :: '\n' :: cs) (l :: ls)

/-! ### Lines are found -/

/-- A character that does not end a line is the first one of the first line. -/
theorem Lines.cons (h : Lines cs (l :: ls)) (hc : c ≠ '\n')
    (hreturn : c = '\r' → cs.head? ≠ some '\n') : Lines (c :: cs) ((c :: l) :: ls) := by
  have hmem : '\n' ∉ l → '\n' ∉ c :: l := fun hl => List.not_mem_cons_of_ne_of_not_mem hc.symm hl
  cases h with
  | last hl hne => exact .last (hmem hl) (List.cons_ne_nil _ _)
  | @feed _ ds _ hl hend h =>
    refine Lines.feed (l := c :: l) (hmem hl) ?_ h
    rcases eq_or_ne l [] with rfl | hne
    · intro hlast
      exact hreturn (Option.some.inj hlast) rfl
    · rwa [List.getLast?_cons_of_ne_nil hne]
  | returnFeed hl h => exact Lines.returnFeed (l := c :: l) (hmem hl) h

/-- **The lines that are found** are lines of the text. -/
theorem lines_linesOf (cs : List Char) : Lines cs (linesOf cs) := by
  fun_induction linesOf cs with
  | case1 => exact .nil
  | case2 cs ih => exact Lines.feed (l := []) List.not_mem_nil nofun ih
  | case3 cs ih => exact Lines.returnFeed (l := []) List.not_mem_nil ih
  | case4 c cs hc hreturn hnil ih =>
    rw [hnil] at ih
    cases ih
    exact .last (by simpa using Ne.symm hc) (List.cons_ne_nil _ _)
  | case5 c cs hc hreturn l ls hcons ih =>
    rw [hcons] at ih
    refine ih.cons hc ?_
    rintro rfl hhead
    obtain ⟨ds, rfl⟩ := List.head?_eq_some_iff.mp hhead
    exact hreturn ds rfl rfl

/-! ### No others are -/

/-- A character that does not end a line is found on the first line. -/
theorem linesOf_cons (h : linesOf cs = l :: ls) (hc : c ≠ '\n')
    (hreturn : c = '\r' → cs.head? ≠ some '\n') : linesOf (c :: cs) = (c :: l) :: ls := by
  rw [linesOf, h]
  · exact hc
  · rintro ds rfl rfl
    exact hreturn rfl rfl

/-- So are many. -/
theorem linesOf_append (h : linesOf cs = m :: ms) (hl : '\n' ∉ l)
    (hreturn : l.getLast? = some '\r' → cs.head? ≠ some '\n') :
    linesOf (l ++ cs) = (l ++ m) :: ms := by
  induction l with
  | nil => exact h
  | cons c l ih =>
    obtain ⟨hc, hl⟩ := List.ne_and_not_mem_of_not_mem_cons hl
    cases l with
    | nil =>
      refine linesOf_cons h hc.symm ?_
      rintro rfl
      exact hreturn rfl
    | cons d l =>
      refine linesOf_cons (ih hl hreturn) hc.symm fun _ hhead => ?_
      exact (List.ne_and_not_mem_of_not_mem_cons hl).1 (Option.some.inj hhead).symm

theorem Lines.linesOf_eq (h : Lines cs ls) : linesOf cs = ls := by
  induction h with
  | nil => rfl
  | @last l hl hne =>
    -- the last character is a line, and those in front of it are on that line as well
    obtain ⟨l, c, rfl⟩ : ∃ k c, l = k ++ [c] := ⟨_, _, (List.dropLast_append_getLast hne).symm⟩
    rw [List.mem_append, List.mem_singleton, not_or] at hl
    refine linesOf_append (m := [c]) ?_ hl.1 fun _ hhead => hl.2 (Option.some.inj hhead).symm
    rw [linesOf]
    · rfl
    · exact Ne.symm hl.2
    · nofun
  | @feed l cs ls hl hend h ih =>
    have hcs : linesOf ('\n' :: cs) = [] :: ls := by rw [linesOf, ih]
    rw [linesOf_append hcs hl fun hlast => absurd hlast hend, List.append_nil]
  | @returnFeed l cs ls hl h ih =>
    have hcs : linesOf ('\r' :: '\n' :: cs) = [] :: ls := by rw [linesOf, ih]
    have hhead : ('\r' :: '\n' :: cs).head? ≠ some '\n' := fun h =>
      absurd (Option.some.inj h) (by decide)
    rw [linesOf_append hcs hl fun _ => hhead, List.append_nil]

/-- **A text has one sequence of lines**, and it is found. -/
theorem lines_iff : Lines cs ls ↔ linesOf cs = ls :=
  ⟨Lines.linesOf_eq, fun h => h ▸ lines_linesOf cs⟩

/-! ### Texts one behind the other -/

/-- **Behind a line feed a text begins anew.** -/
theorem Lines.append (h : Lines l ls) (hend : ∀ c ∈ l.getLast?, c = '\n') (hm : Lines m ms) :
    Lines (l ++ m) (ls ++ ms) := by
  have hrest : ∀ {k ds : List Char}, (∀ c ∈ (k ++ '\n' :: ds).getLast?, c = '\n') →
      ∀ c ∈ ds.getLast?, c = '\n' := by
    intro k ds hall c hc
    refine hall c ?_
    rw [List.getLast?_append, List.getLast?_cons, Option.mem_def.mp hc]
    rfl
  induction h with
  | nil => exact hm
  | @last l hl hne =>
    have hlast := List.getLast?_eq_some_getLast hne
    rw [hend _ hlast] at hlast
    exact absurd (List.mem_of_getLast? hlast) hl
  | @feed l cs ls hl hreturn h ih =>
    rw [List.append_assoc]
    exact .feed hl hreturn (ih (hrest hend))
  | @returnFeed l cs ls hl h ih =>
    rw [List.append_assoc]
    refine .returnFeed hl (ih (hrest (k := l ++ ['\r']) ?_))
    rwa [List.append_assoc]

end CommandLine

end Reckoner
