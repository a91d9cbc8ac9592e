import Reckoner.Proofs.Grammar.Counting
import Reckoner.Proofs.Grammar.Lookahead

/-!
# Asking a parser again

A parser of a line can be asked for an expression as often as one likes, also after failures. What
it keeps from one time to the next is the tokens that are left, and these are the tokens of the rest
of the line (`Reckoner.Decomposes.drop`): a scanner that begins at a token finds the same tokens as
the one that has come there from the beginning of the line. So a parser in the middle of a line is a
parser at the beginning of a shorter line, but for the places, which are all behind the same
characters (`Reckoner.LineParser.shift`).

Places do not decide what is read. A line that is shifted is read like the line itself
(`Reckoner.LineParser.next_shift`), which is a comparison of the two in the sense of
`Reckoner.Parse.Comparison`, and every failure has its place shifted as well. So whatever a parser
has been asked for, its next answer is that of a new one (`Reckoner.LineParser.after_eq_shift`).
That goes for a parser that counts open parentheses as well, since it stops at zero each time
(`Reckoner.LineParser.afterCounting_run`).
-/

namespace Reckoner

/-! ### Lines behind other characters -/

/-- A token behind `m` more characters. -/
def Located.shift (m : Nat) (t : Located) : Located := { t with position := t.position + m }

/-- A failure behind `m` more characters. -/
def ParseError.shift (m : Nat) : ParseError → ParseError
  | malformed f p => malformed f (p + m)
  | notAVariable err => notAVariable err

/-- A parser of a line behind `m` more characters. -/
def LineParser.shift (m : Nat) (p : LineParser) : LineParser where
  options := p.options
  finish := p.finish + m
  rest := p.rest.map (·.shift m)

/-- **The tokens of a text behind more characters** are the same, in later places. -/
theorem Decomposes.shift {n : Nat} {cs : List Char} {ts : List Located} (h : Decomposes n cs ts)
    (m : Nat) : Decomposes (n + m) cs (ts.map (·.shift m)) := by
  induction h with
  | blank hws => exact .blank hws
  | @lexeme n ws w cs t ts hws hw ht h ih =>
    rw [List.map_cons, Located.shift, Nat.add_right_comm]
    refine .lexeme hws hw ht ?_
    rwa [show n + m + ws.length + w.length = n + ws.length + w.length + m by omega]
  | unrecognized hws hc h =>
    rw [List.map_singleton, Located.shift, Nat.add_right_comm]
    exact .unrecognized hws hc h

/-! ### The rest of a line -/

/-- **What is left of the tokens are the tokens of what is left of the text**, which is the text
from the first of them on. -/
theorem Decomposes.drop {n : Nat} {cs : List Char} {ts us : List Located} (h : Decomposes n cs ts)
    (hus : us <:+ ts) : ∃ k, Parse.place (n + cs.length) us = n + k ∧
      Decomposes (n + k) (cs.drop k) us := by
  induction h with
  | @blank n ws hws =>
    obtain rfl := List.suffix_nil.mp hus
    refine ⟨ws.length, rfl, ?_⟩
    rw [List.drop_length]
    exact .blank .nil
  | @lexeme n ws w cs t ts hws hw ht h ih =>
    rcases List.suffix_cons_iff.mp hus with rfl | hus
    · refine ⟨ws.length, rfl, ?_⟩
      rw [List.drop_left]
      exact .lexeme .nil hw ht h
    · obtain ⟨k, hplace, hrest⟩ := ih hus
      refine ⟨(ws ++ w).length + k, ?_, ?_⟩
      · rw [List.length_append, List.length_append, ← Nat.add_assoc, ← Nat.add_assoc, hplace,
          List.length_append]
        omega
      · rw [← List.append_assoc, List.drop_length_add_append, List.length_append, ← Nat.add_assoc,
          ← Nat.add_assoc]
        exact hrest
  | @unrecognized n ws cs c hws hc h =>
    rcases List.suffix_cons_iff.mp hus with rfl | hus
    · refine ⟨ws.length, rfl, ?_⟩
      rw [List.drop_left]
      exact .unrecognized .nil hc h
    · obtain rfl := List.suffix_nil.mp hus
      refine ⟨(ws ++ c :: cs).length, rfl, ?_⟩
      rw [List.drop_length]
      exact .blank .nil

namespace Scanner

variable {line : String} {us : List Located}

/-- What is left of the tokens begins in the line or at its end. -/
theorem place_le_of_suffix (hus : us <:+ (ofLine line).tokens) :
    Parse.place line.length us ≤ line.length := by
  cases us with
  | nil => exact Nat.le_refl _
  | cons t us => exact (position_lt_of_mem_tokens (hus.subset List.mem_cons_self)).le

/-- **A scanner that begins at a token** finds the tokens that are left. -/
theorem map_shift_tokens_drop (hus : us <:+ (ofLine line).tokens) :
    (ofLine (.ofList (line.toList.drop (Parse.place line.length us)))).tokens.map
      (·.shift (Parse.place line.length us)) = us := by
  obtain ⟨k, hplace, hrest⟩ := (decomposes_tokens (ofLine line)).drop hus
  have hk : Parse.place line.length us = 0 + k := by
    rwa [ofLine, Nat.zero_add, String.length_toList] at hplace
  rw [hk, Nat.zero_add]
  -- both are decompositions of the rest of the line, and there is one only
  have hshift := (decomposes_tokens (ofLine (.ofList (line.toList.drop k)))).shift k
  have htext : (ofLine (.ofList (line.toList.drop k))).rest = line.toList.drop k :=
    String.toList_ofList
  rw [htext] at hshift
  exact (hshift.tokens_eq 0).symm.trans (hrest.tokens_eq 0)

end Scanner

/-! ### The same line, shifted -/

namespace Parse

open Comparison

/-- **A line and the same one behind `m` more characters.** -/
abbrev shifted (opts : ParseOptions) (finish m : Nat) : Comparison :=
  sameOptions opts finish (finish + m) (fun p q => q = p + m) rfl

variable {opts : ParseOptions} {finish m : Nat} {ts us : List Located}

/-- They agree up to any token. -/
theorem Comparison.Agree.shift (hus : us <:+ ts) :
    (shifted opts finish m).Agree ts (ts.map (·.shift m)) us (us.map (·.shift m)) := by
  induction ts with
  | nil =>
    obtain rfl := List.suffix_nil.mp hus
    exact .here .finish
  | cons t ts ih =>
    rcases List.suffix_cons_iff.mp hus with rfl | hus
    · exact .here (.token t.token ts _ rfl)
    · exact .there t.token rfl (ih hus)

theorem Comparison.Alike.eq_mapError_shift {x x' : Except ParseError Measured}
    (h : (shifted opts finish m).Alike x x') : x' = x.mapError (·.shift m) := by
  cases h with
  | ok m => rfl
  | malformed f hpq => rw [hpq]; rfl
  | notAVariable err => rfl

end Parse

namespace LineParser

open Parse

/-- **A parser of a shifted line** does what the parser of the line does, and says so with its
places shifted. -/
theorem next_shift (p : LineParser) (m : Nat) :
    (p.shift m).next = (p.next.1.mapError (·.shift m), p.next.2.shift m) := by
  have hagree : (shifted p.options p.finish m).Agree p.rest (p.rest.map (·.shift m)) _ _ :=
    .shift (wholeLine p.options p.finish p.rest).suffix
  obtain ⟨hrest, halike⟩ := Comparison.wholeLine_of_agree _ hagree
  rw [next_eq, next_eq, LineParser.shift, LineParser.shift]
  refine Prod.ext ?_ (congrArg (LineParser.mk p.options (p.finish + m)) hrest)
  rw [halike.eq_mapError_shift]
  cases (wholeLine p.options p.finish p.rest).result <;> rfl

/-! ### One expression after the other -/

/-- **The parser after some calls.** -/
def after : Nat → LineParser → LineParser
  | 0, p => p
  | k + 1, p => after k p.next.2

/-- The same with a counter of open parentheses, each call with the one that the last call has
left. -/
def afterCounting : Nat → LineParser → StateM Nat LineParser
  | 0, p => return p
  | k + 1, p => do
    let (_, q) ← p.nextCounting
    afterCounting k q

/-- Every call leaves the counter at zero. -/
theorem afterCounting_run (p : LineParser) (k : Nat) :
    (p.afterCounting k).run 0 = (p.after k, 0) := by
  induction k generalizing p with
  | zero => rfl
  | succ k ih => rw [afterCounting, run_bind_of_run p.nextCounting_run, after, ih]

variable {line : String} {opts : ParseOptions} {p : LineParser}

/-- **A parser in the middle of a line**: all that can be said of one that has been asked for some
expressions, whatever has come of that. -/
structure Within (line : String) (opts : ParseOptions) (p : LineParser) : Prop where
  /-- It has the options it was given. -/
  options_eq : p.options = opts
  /-- It knows the length of the line. -/
  finish_eq : p.finish = line.length
  /-- It has the last ones of the tokens. -/
  suffix : p.rest <:+ (Scanner.ofLine line).tokens

theorem within_ofLine (line : String) (opts : ParseOptions) : Within line opts (ofLine line opts) :=
  ⟨rfl, rfl, List.suffix_rfl⟩

namespace Within

theorem next (h : Within line opts p) : Within line opts p.next.2 := by
  rw [next_eq]
  exact ⟨h.options_eq, h.finish_eq, (wholeLine _ _ _).suffix.trans h.suffix⟩

theorem after (h : Within line opts p) (k : Nat) : Within line opts (p.after k) := by
  induction k generalizing p with
  | zero => exact h
  | succ k ih => exact ih h.next

/-- **It is a new parser** of what is left of the line. -/
theorem eq_shift (h : Within line opts p) :
    p = (ofLine (.ofList (line.toList.drop p.position)) opts).shift p.position := by
  obtain ⟨options, finish, rest⟩ := p
  obtain ⟨rfl, rfl, hsuffix⟩ := h
  have hle := Scanner.place_le_of_suffix hsuffix
  rw [LineParser.shift, ofLine, LineParser.mk.injEq, LineParser.position]
  refine ⟨rfl, ?_, (Scanner.map_shift_tokens_drop hsuffix).symm⟩
  rw [String.length_ofList, List.length_drop, String.length_toList, Nat.sub_add_cancel hle]

/-- At the end of the line nothing is left. -/
theorem rest_eq_nil (h : Within line opts p) (hend : p.position = line.length) : p.rest = [] := by
  rw [position] at hend
  cases hrest : p.rest with
  | nil => rfl
  | cons t ts =>
    rw [hrest, place] at hend
    have hlt := Scanner.position_lt_of_mem_tokens (h.suffix.subset (hrest ▸ List.mem_cons_self))
    omega

end Within

/-- **At the end of a line** a parser fails, and stays there. -/
theorem next_of_rest_eq_nil (h : p.rest = []) :
    p.next = (.error (.malformed (.operandExpected .finish) p.finish), p) := by
  obtain ⟨⟨trailing, maxDepth⟩, finish, rest⟩ := p
  obtain rfl := h
  cases maxDepth <;> rfl

theorem after_of_rest_eq_nil (h : p.rest = []) (k : Nat) : p.after k = p := by
  induction k with
  | zero => rfl
  | succ k ih => rw [after, next_of_rest_eq_nil h, ih]

/-- **A parser keeps nothing from one call to the next** but its place in the line. After any calls,
failures in the middle of parentheses among them, it is a parser that has not been asked for
anything yet, of the rest of the line from its place on: with all its tokens, and with room for as
many parentheses as at first; a counter of open parentheses that all these calls have shared is at
zero. So the next answer is that to the rest of the line alone, and if it is a failure at some
place, that place is counted from the beginning of the line. At the end of the line, all answers are
the same failure. -/
theorem after_eq_shift (line : String) (opts : ParseOptions) (k : Nat) :
    let p := (ofLine line opts).after k
    let suffix : String := .ofList (line.toList.drop p.position)
    p = (ofLine suffix opts).shift p.position ∧
      ((ofLine line opts).afterCounting k).run 0 = (p, 0) ∧
      p.next.1 = (parse suffix opts).mapError (·.shift p.position) ∧
      (p.position = line.length → ∀ j,
        (p.after j).next.1 = .error (.malformed (.operandExpected .finish) line.length)) := by
  intro p suffix
  have hwithin : Within line opts p := (within_ofLine line opts).after k
  have hp : p = (ofLine suffix opts).shift p.position := hwithin.eq_shift
  refine ⟨hp, afterCounting_run _ k, ?_, fun hend j => ?_⟩
  · calc
      p.next.1 = ((ofLine suffix opts).shift p.position).next.1 := congrArg (·.next.1) hp
      _ = (parse suffix opts).mapError (·.shift p.position) := by rw [next_shift, parse]
  · have hnil := hwithin.rest_eq_nil hend
    rw [after_of_rest_eq_nil hnil, next_of_rest_eq_nil hnil, hwithin.finish_eq]

/-- With room for one parenthesis. The second call opens one that is never closed, the third one
opens another one all the same, and then the line is at its end. -/
theorem after_eq_shift_unclosed :
    let opts : ParseOptions := { maxDepth := 1 }
    let p := (ofLine "((1 (2" opts).after 2
    let q := (ofLine "((1 (2" opts).after 3
    (p = (ofLine "(2" opts).shift 4 ∧ p.next.1 = .error (.malformed .closingExpected 6)) ∧
      q.position = "((1 (2".length ∧
        ∀ j, (q.after j).next.1 = .error (.malformed (.operandExpected .finish) 6) := by
  intro opts p q
  obtain ⟨hp, -, hnext, -⟩ := after_eq_shift "((1 (2" opts 2
  obtain ⟨-, -, -, hend⟩ := after_eq_shift "((1 (2" opts 3
  have hplace : ((ofLine "((1 (2" opts).after 2).position = 4 := by decide +kernel
  have hfinish : q.position = "((1 (2".length := by decide +kernel
  have hsuffix : String.ofList ("((1 (2".toList.drop 4) = "(2" := by decide +kernel
  have hparse : parse "(2" opts = .error (.malformed .closingExpected 2) := by decide +kernel
  rw [hplace, hsuffix] at hp hnext
  rw [hparse] at hnext
  exact ⟨⟨hp, hnext⟩, hfinish, hend hfinish⟩

end LineParser

end Reckoner
