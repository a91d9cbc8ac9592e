import Reckoner.Proofs.Grammar.Identifiers
import Reckoner.Proofs.Session.Record

/-!
# Running a transcript again

What a transcript holds of a line in postfix notation is enough to run the line again: in
the same table of variables it has the same result, leaves the same table and is recorded
alike (`Reckoner.Session.run_replays`). However the line was read, its expression has safe
names and is within the depth limit, so it is read back from what is recorded; all the rest
depends on the expression alone.

A line without an expression has not touched the table, and nothing is recorded of it that
could be run. So the recorded expressions of a whole run have the same effect as the run
(`Reckoner.Session.symbols_replay`), on any session that starts with the same table.
-/

namespace Reckoner

/-! ### One line -/

namespace Reading

variable {hash : String → UInt64} {r : Reading} {opts : ParseOptions} {line : String} {e : Expr}

/-- **The expression of a line** is read back from its postfix form, however the line is
read. -/
theorem expr_postfixText (h : r.expr opts line = .ok e) :
    postfixed.expr opts e.postfixText = .ok e := by
  have hreadable : Postfix.Readable opts.maxDepth e := by
    cases r with
    | ordinary => exact Grammar.readable_of_parse (Except.mapError_eq_ok_iff.mp h)
    | postfixed => exact Postfix.readable_of_build (Except.mapError_eq_ok_iff.mp h)
  exact Except.mapError_eq_ok_iff.mpr (Postfix.build_postfixText_of_readable hreadable)

theorem evaluate_of_expr (h : r.expr opts line = .ok e) (t : SymbolTable hash) :
    r.evaluate opts line t = ((e.evaluate t).1.mapError .eval, (e.evaluate t).2) := by
  rw [evaluate, h]

/-- A line without an expression leaves the table alone. -/
theorem evaluate_of_error {err : LineError} (h : r.expr opts line = .error err)
    (t : SymbolTable hash) : r.evaluate opts line t = (.error err, t) := by
  rw [evaluate, h]

end Reading

namespace Session

variable {hash : String → UInt64} {s : Session hash} {r : Reading} {line p : String}

/-- An expression is recorded if there is one on the line. -/
theorem exists_of_expression? (h : (s.entryOf r line).expression? = some p) :
    ∃ e, r.expr s.options line = .ok e ∧ e.postfixText = p := by
  rw [entryOf] at h
  cases hexpr : r.expr s.options line with
  | error err =>
    rw [hexpr] at h
    cases h
  | ok e =>
    rw [hexpr] at h
    exact ⟨e, rfl, Option.some.inj h⟩

theorem exists_of_expression?_eq_none (h : (s.entryOf r line).expression? = none) :
    ∃ err, r.expr s.options line = .error err := by
  rw [entryOf] at h
  cases hexpr : r.expr s.options line with
  | error err => exact ⟨err, rfl⟩
  | ok e =>
    rw [hexpr] at h
    cases h

/-- **What is recorded of a line evaluates like the line.** -/
theorem evaluate_of_expression? (h : (s.entryOf r line).expression? = some p)
    (t : SymbolTable hash) :
    Reading.postfixed.evaluate s.options p t = r.evaluate s.options line t := by
  obtain ⟨e, hexpr, rfl⟩ := exists_of_expression? h
  rw [Reading.evaluate_of_expr hexpr, Reading.evaluate_of_expr (Reading.expr_postfixText hexpr)]

/-- **What is recorded of a line is recorded like the line**, but for the line itself. -/
theorem entryOf_of_expression? (h : (s.entryOf r line).expression? = some p) :
    s.entryOf .postfixed p = { s.entryOf r line with input := p } := by
  obtain ⟨e, hexpr, rfl⟩ := exists_of_expression? h
  rw [entryOf, entryOf, evaluate_of_expression? h, hexpr, Reading.expr_postfixText hexpr]

/-! ### Many lines -/

/-- The lines that run recorded expressions again. -/
def replayOf (es : List Entry) : List (Reading × String) :=
  (es.filterMap (·.expression?)).map (Reading.postfixed, ·)

/-- **The recorded expressions of a run have its effect on the table.** -/
theorem symbols_replay {s' : Session hash} {ls : List (Reading × String)}
    (ho : s'.options = s.options) (hs : s'.symbols = s.symbols) :
    (s'.runAll (replayOf (s.entriesOf ls))).symbols = (s.runAll ls).symbols := by
  induction ls generalizing s s' with
  | nil => exact hs
  | cons l ls ih =>
    rw [entriesOf, replayOf]
    cases hp : (s.entryOf l.1 l.2).expression? with
    | none =>
      -- the line has failed before anything was evaluated, and nothing is run for it
      obtain ⟨err, herr⟩ := exists_of_expression?_eq_none hp
      rw [List.filterMap_cons_none hp]
      refine ih (ho.trans (options_run _ _ _).symm) (hs.trans ?_)
      rw [symbols_run, Reading.evaluate_of_error herr]
    | some p =>
      rw [List.filterMap_cons_some hp]
      refine ih ?_ ?_
      · rw [options_run, options_run, ho]
      · rw [symbols_run, symbols_run, ho, hs, evaluate_of_expression? hp]

/-- **Lines can be run again from what is recorded of them.** If a line leaves an entry with
an expression, then running the expression in its place has the same result, which is a
value or a failure of the evaluation, leaves the same table and the same entry but for the
line. If none of the entries of many lines has been let go of, then running their
expressions, on any session with the same options and the same table, leaves the same table. -/
theorem run_replays (s : Session hash) :
    (∀ r line entry p, (s.run r line).2.transcript.last? = some entry →
      entry.expression? = some p →
        (∃ x, (s.run r line).1 = Except.mapError LineError.eval x ∧
          (s.run .postfixed p).1 = Except.mapError LineError.eval x) ∧
        (s.run .postfixed p).2.symbols = (s.run r line).2.symbols ∧
        (s.run .postfixed p).2.transcript.last? = some { entry with input := p }) ∧
      ∀ ls (s' : Session hash), (s.runAll ls).transcript.dropped ≤ s.transcript.total →
        s'.options = s.options → s'.symbols = s.symbols →
          (s'.runAll (replayOf ((s.runAll ls).transcript.since s.transcript.total))).symbols =
            (s.runAll ls).symbols := by
  refine ⟨fun r line entry p hlast hp => ?_, fun ls s' hkept ho hs => ?_⟩
  · rw [transcript_run, Transcript.last?_push] at hlast
    split at hlast
    · next hlimit =>
      obtain rfl := Option.some.inj hlast
      obtain ⟨e, hexpr, -⟩ := exists_of_expression? hp
      refine ⟨⟨(e.evaluate s.symbols).1, ?_, ?_⟩, ?_, ?_⟩
      · rw [run_eq, Reading.evaluate_of_expr hexpr]
      · rw [run_eq, evaluate_of_expression? hp, Reading.evaluate_of_expr hexpr]
      · rw [symbols_run, symbols_run, evaluate_of_expression? hp]
      · rw [transcript_run, Transcript.last?_push, if_pos hlimit, entryOf_of_expression? hp]
    · cases hlast
  · rw [since_runAll hkept]
    exact symbols_replay ho hs

/-- An assignment, a line that cannot be read and a step that reads first, all of them kept,
leave the same table when the two expressions among them are run again. -/
theorem run_replays_new :
    (new.run .ordinary "a = 2").2.transcript.last? =
        some ⟨"a = 2", some "a 2 =", .value ⟨2, by decide⟩⟩ ∧
      (new.run .postfixed "a 2 =").2.symbols = (new.run .ordinary "a = 2").2.symbols ∧
      (new.runAll [(.ordinary, "a = 2"), (.ordinary, "a +"),
        (.postfixed, "a +++")]).transcript.dropped ≤ new.transcript.total ∧
      (new.runAll [(.postfixed, "a 2 ="), (.postfixed, "a +++")]).symbols =
        (new.runAll [(.ordinary, "a = 2"), (.ordinary, "a +"), (.postfixed, "a +++")]).symbols := by
  have hlast : (new.run .ordinary "a = 2").2.transcript.last? =
      some ⟨"a = 2", some "a 2 =", .value ⟨2, by decide⟩⟩ := by
    decide +kernel
  have hkept : (new.runAll [(.ordinary, "a = 2"), (.ordinary, "a +"),
      (.postfixed, "a +++")]).transcript.dropped ≤ new.transcript.total := by
    decide +kernel
  have hreplay : replayOf ((new.runAll [(.ordinary, "a = 2"), (.ordinary, "a +"),
      (.postfixed, "a +++")]).transcript.since new.transcript.total) =
      [(.postfixed, "a 2 ="), (.postfixed, "a +++")] := by
    decide +kernel
  have hsymbols := (run_replays new).2 _ new hkept rfl rfl
  rw [hreplay] at hsymbols
  exact ⟨hlast, ((run_replays new).1 _ _ _ _ hlast rfl).2.1, hkept, hsymbols⟩

end Session

end Reckoner
