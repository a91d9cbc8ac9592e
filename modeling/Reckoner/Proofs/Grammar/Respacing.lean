import Reckoner.Proofs.Grammar.Faults
import Reckoner.Proofs.Scanning.Spacing

/-!
# Lines that differ in white space

A parser is given the tokens of a line and their places, and the places come out of it only as the
place of a fault. So lines with the same tokens are read alike, up to where in the line the token
at fault begins (`Reckoner.Grammar.ReadAlike.of_tokenize_eq`).

A line that is written again, token by token and with single spaces, has the tokens it had, and so
nothing but places is changed by it (`Reckoner.tokenize_respaced`).
-/

namespace Reckoner

open Parse

namespace Grammar

variable {line line' : String} {opts : ParseOptions}

/-- **Two lines that are read alike.** What is reported of a fault is in the fault, and where it is
in the line is counted in tokens. -/
inductive ReadAlike (opts : ParseOptions) (line line' : String) : Prop
  /-- The same expression is on both. -/
  | expression (e : Expr) (h : parse line opts = .ok e) (h' : parse line' opts = .ok e)
  /-- Both are refused since the same is no variable. -/
  | notAVariable (err : NotAVariable) (h : parse line opts = .error (.notAVariable err))
      (h' : parse line' opts = .error (.notAVariable err))
  /-- Both have the same fault, and at the same token. -/
  | fault (k : Nat) (f : Fault) (h : FailsAt line opts k f) (h' : FailsAt line' opts k f)

/-- The tokens of a line without its end. -/
theorem dropLast_tokenize (line : String) :
    (tokenize line).dropLast = words (Scanner.ofLine line).tokens :=
  List.dropLast_concat

/-- **Places of two lines that are those of the same token**, or the ends of both lines. -/
def SameToken (line line' : String) (p q : Nat) : Prop :=
  ∃ k ≤ (Scanner.ofLine line).tokens.length,
    p = place line.length ((Scanner.ofLine line).tokens.drop k) ∧
      q = place line'.length ((Scanner.ofLine line').tokens.drop k)

/-- **Lines with the same tokens are read alike.** -/
theorem ReadAlike.of_tokenize_eq (h : tokenize line = tokenize line') (opts : ParseOptions) :
    ReadAlike opts line line' := by
  have hwords : words (Scanner.ofLine line).tokens = words (Scanner.ofLine line').tokens := by
    rw [← dropLast_tokenize, h, dropLast_tokenize]
  have hlength : (Scanner.ofLine line).tokens.length = (Scanner.ofLine line').tokens.length := by
    simpa only [words, List.length_map] using congrArg List.length hwords
  -- both ends are behind all of the tokens
  have hfinish : SameToken line line' line.length line'.length :=
    ⟨_, Nat.le_refl _, by rw [List.drop_length, place], by rw [hlength, List.drop_length, place]⟩
  obtain ⟨cs, hcs⟩ := (wholeLine opts line.length (Scanner.ofLine line).tokens).suffix
  have hle : cs.length ≤ (Scanner.ofLine line).tokens.length :=
    List.IsPrefix.length_le ⟨_, hcs⟩
  obtain ⟨-, -, halike⟩ := alike_of_take_eq line' (SameToken line line') hfinish hcs
    (fun j hj => ⟨j, Nat.le_trans hj hle, rfl, rfl⟩) (congrArg (List.take _) h.symm)
  generalize hx : (wholeLine opts line.length _).result = x at halike
  generalize hx' : (wholeLine opts line'.length _).result = x' at halike
  cases halike with
  | ok m => exact .expression m.expr (by rw [parse_eq, hx]; rfl) (by rw [parse_eq, hx']; rfl)
  | notAVariable err =>
    exact .notAVariable err (parse_eq_error_iff.mpr hx) (parse_eq_error_iff.mpr hx')
  | malformed f hpq =>
    obtain ⟨k, hk, rfl, rfl⟩ := hpq
    exact .fault k f ⟨hk, parse_eq_error_iff.mpr hx⟩ ⟨hlength ▸ hk, parse_eq_error_iff.mpr hx'⟩

end Grammar

/-! ### Writing a line again -/

/-- **A line written again**: its tokens with single spaces between them. -/
def respaced (line : String) : String := .ofList (Token.spaced (tokenize line).dropLast)

/-- **Writing a line again keeps its tokens.** What is written are the texts of the tokens, joined
by single spaces. Each lexeme is alone between its spaces and is the same token there, also where
the longest match has ended because of what came behind it; and what begins with no token on the
line does so behind a space. So under all options the line is read as it was: as the same
expression, or refused because the same is no variable, or with the same fault at the same
token. -/
theorem tokenize_respaced (line : String) :
    (respaced line).toList = [' '].intercalate ((tokenize line).dropLast.map Token.source) ∧
      tokenize (respaced line) = tokenize line ∧
      ∀ opts, Grammar.ReadAlike opts line (respaced line) := by
  have htokens : tokenize (respaced line) = tokenize line := by
    have hreadable := (Scanner.decomposes_tokens (Scanner.ofLine line)).readable
    rw [respaced, Grammar.dropLast_tokenize, words, tokenize,
      Scanner.tokens_ofLine_of_readable hreadable, tokenize]
  refine ⟨?_, htokens, fun opts => .of_tokenize_eq htokens.symm opts⟩
  rw [respaced, String.toList_ofList, Token.spaced_eq_intercalate]

/-- Zeros in front of a number are lost, and a name that ends at its underscore is one still. -/
example : respaced " (007+ab_ 1" = "( 7 + ab _ 1" := by decide +kernel

end Reckoner
