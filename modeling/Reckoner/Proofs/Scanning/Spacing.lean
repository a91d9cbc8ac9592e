import Reckoner.Proofs.Scanning.Decomposition

/-!
# Tokens written with spaces between them

Where a lexeme ends is decided by what follows it, and white space ends every lexeme, since
there is none inside of one. So tokens that are written with single spaces between them are
read back as they are (`Reckoner.Scanner.tokens_ofLine_spaced`), as long as each of them is
what its own text stands for. For a number that means that it is not negative.

The last of the tokens may also be the rest of a line where no token begins: such a rest begins
with no token on any line. With that, all the tokens that come from a line are read back
(`Reckoner.Decomposes.readable`).
-/

namespace Reckoner

open Lexeme

variable {w cs : List Char} {ts : List Token}

namespace Token

/-! ### The text of a token -/

/-- **How a token is written** on a line. -/
def source : Token → List Char
  | number v => v.digits
  | identifier x => x.toList
  | operator op => op.chars
  | openParen => ['(']
  | closeParen => [')']
  | finish => []
  | unrecognized rest => rest.toList

/-- Tokens with a space in front of each. -/
def spacedTail (ts : List Token) : List Char := ts.flatMap fun t => ' ' :: t.source

/-- **Tokens with single spaces between them.** -/
def spaced : List Token → List Char
  | [] => []
  | t :: ts => t.source ++ spacedTail ts

/-- These are their texts, joined by spaces. -/
theorem spaced_eq_intercalate (ts : List Token) :
    spaced ts = [' '].intercalate (ts.map source) := by
  induction ts with
  | nil => rfl
  | cons t ts ih =>
    cases ts with
    | nil => simp [spaced, spacedTail]
    | cons u us =>
      rw [List.map_cons, List.map_cons, List.intercalate_cons_cons, ← List.map_cons, ← ih,
        List.append_assoc]
      rfl

theorem isSpace_head?_spacedTail (ts : List Token) :
    ∀ c ∈ (spacedTail ts).head?, Text.isSpace c := by
  cases ts with
  | nil => exact nofun
  | cons t ts =>
    intro c hc
    obtain rfl : ' ' = c := Option.some.inj hc
    decide

end Token

namespace Lexeme

/-- The digits of a value that is not negative stand for it. -/
theorem denotes_digits {v : Value} (hv : 0 ≤ v.toInt) : Denotes v.digits (.number v) := by
  unfold Value.digits
  split
  · next n hn =>
    refine .number ⟨Nat.toDigits_ne_nil, fun c => Value.isDigit_of_mem_toDigits⟩ ?_
    rw [decimal, Nat.ofDigitChars_ten_toDigits, hn, Int.ofNat_eq_natCast]
  · next n hn =>
    rw [hn] at hv
    exact absurd hv (Int.negSucc_not_nonneg n).mp

/-- A name stands for itself. -/
theorem denotes_toList {x : String} (hx : IsName x.toList) :
    Denotes x.toList (.identifier x) := by
  have hname := Denotes.name hx
  rwa [String.ofList_toList] at hname

/-- **White space ends a lexeme.** -/
theorem Longest.of_isSpace (hw : Lexeme w) (hcs : ∀ c ∈ cs.head?, Text.isSpace c) :
    Longest w (w ++ cs) where
  begins := List.prefix_append w cs
  lexeme := hw
  longest v hv hlex := by
    by_contra hlt
    obtain ⟨us, rfl⟩ := List.prefix_of_prefix_length_le (List.prefix_append w cs) hv (by omega)
    rcases us with _ | ⟨c, us⟩
    · exact hlt (by rw [List.append_nil])
    · -- a longer one would have the white space in it
      obtain ⟨vs, rfl⟩ := (List.prefix_append_right_inj w).mp hv
      have hspace : Text.isSpace c := hcs c rfl
      rw [hlex.isSpace_eq_false c (by simp)] at hspace
      cases hspace

/-- **What stands for a token is written back as a text that stands for it**, although it may be
another one: a number loses the zeros it begins with. -/
theorem Denotes.source {t : Token} (h : Denotes w t) : Denotes t.source t := by
  cases h with
  | name h => exact denotes_toList (by rwa [String.toList_ofList])
  | number h hv => exact denotes_digits (hv ▸ Int.natCast_nonneg _)
  | openParen => exact .openParen
  | closeParen => exact .closeParen
  | operator op => exact .operator op

end Lexeme

/-! ### Reading them back -/

namespace Token

/-- **The tokens that a line can have**: each is what its own text stands for, but the last one may
be a rest of the line that begins with no token. -/
inductive Readable : List Token → Prop
  /-- A line without tokens. -/
  | nil : Readable []
  /-- A token that is what its text stands for. -/
  | cons {t : Token} {ts : List Token} (ht : Denotes t.source t) (hts : Readable ts) :
      Readable (t :: ts)
  /-- A rest that begins with no token. -/
  | unrecognized {c : Char} {cs : List Char} (hc : Text.isSpace c = false)
      (h : Missing (c :: cs)) : Readable [.unrecognized (.ofList (c :: cs))]

theorem Readable.of_denotes (hts : ∀ t ∈ ts, Denotes t.source t) : Readable ts := by
  induction ts with
  | nil => exact .nil
  | cons t ts ih =>
    obtain ⟨ht, hts⟩ := List.forall_mem_cons.mp hts
    exact .cons ht (ih hts)

/-- What is behind the first token is white space and the other tokens. -/
theorem exists_spacedTail_eq (ts : List Token) :
    ∃ ws, IsBlank ws ∧ spacedTail ts = ws ++ spaced ts := by
  cases ts with
  | nil => exact ⟨[], .nil, rfl⟩
  | cons t ts => exact ⟨[' '], List.forall_mem_singleton.mpr (by decide), rfl⟩

/-- **Tokens that are written with spaces are those of their text**, also behind white space. -/
theorem Readable.exists_decomposes (h : Readable ts) {ws : List Char} (hws : IsBlank ws) (n : Nat) :
    ∃ ls, Decomposes n (ws ++ spaced ts) ls ∧ ls.map (·.token) = ts := by
  induction h generalizing ws n with
  | nil => exact ⟨[], .blank (by rwa [spaced, List.append_nil]), rfl⟩
  | @cons t ts ht hts ih =>
    obtain ⟨vs, hvs, htail⟩ := exists_spacedTail_eq ts
    obtain ⟨ls, hls, hwords⟩ := ih hvs (n + ws.length + t.source.length)
    rw [← htail] at hls
    have hlongest := Longest.of_isSpace ht.lexeme (isSpace_head?_spacedTail ts)
    exact ⟨_, .lexeme hws hlongest ht hls, congrArg (t :: ·) hwords⟩
  | @unrecognized c cs hc h =>
    have hspaced : spaced [.unrecognized (.ofList (c :: cs))] = c :: cs := by
      rw [spaced, source, String.toList_ofList, spacedTail, List.flatMap_nil, List.append_nil]
    rw [hspaced]
    exact ⟨_, .unrecognized hws hc h, rfl⟩

end Token

/-- **A line has such tokens only.** -/
theorem Decomposes.readable {n : Nat} {ls : List Located} (h : Decomposes n cs ls) :
    Token.Readable (ls.map (·.token)) := by
  induction h with
  | blank => exact .nil
  | lexeme _ _ ht _ ih => exact .cons ht.source ih
  | unrecognized _ hc h => exact .unrecognized hc h

namespace Scanner

/-- Tokens that a line can have are read back from a line on which they are written with spaces. -/
theorem tokens_ofLine_of_readable (h : Token.Readable ts) :
    (ofLine (.ofList (Token.spaced ts))).tokens.map (·.token) = ts := by
  obtain ⟨ls, hls, hwords⟩ := h.exists_decomposes .nil 0
  rw [List.nil_append] at hls
  rw [ofLine, String.toList_ofList, hls.tokens_eq, hwords]

/-- **Tokens written with spaces are read back**, if each is what its text stands for. -/
theorem tokens_ofLine_spaced (hts : ∀ t ∈ ts, Denotes t.source t) :
    (ofLine (.ofList (Token.spaced ts))).tokens.map (·.token) = ts :=
  tokens_ofLine_of_readable (.of_denotes hts)

end Scanner

end Reckoner
