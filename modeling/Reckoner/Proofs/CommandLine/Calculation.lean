import Reckoner.CommandLine.Task
import Reckoner.Proofs.CommandLine.Lines
import Reckoner.Proofs.CommandLine.Messages
import Reckoner.Proofs.Evaluation.Recording
import Reckoner.Proofs.Session.Replay

/-!
# Calculations on the command line

Lines from standard input are run in one session, one after the other, up to the first empty line
or the end of the input. What is printed is the prompt and what there is to show of the result, for
each of these lines, and the prompt once more; nothing else of the input has a part in it
(`Reckoner.CommandLine.output_calculation`).

A line is run in the session that the lines in front of it have left, and all that matters of that
session are its options, which stay as they are, and its variables
(`Reckoner.Session.results_congr`). So what a line can change for the lines behind it is what it
writes, whether it fails or not (`Reckoner.Session.symbols_run_eq_storeAll`).

A single line on the command line is run in a session of its own, and what is shown of it is the
same as if it were the first line of the input (`Reckoner.CommandLine.outcome_ofArguments`).
-/

namespace Reckoner

variable {hash : String → UInt64}

/-! ### Lines that are run one after the other -/

/-- **What a line writes**: what is on record of its evaluation. A line without an expression
writes nothing. -/
def Reading.writes (r : Reading) (opts : ParseOptions) (line : String) (t : SymbolTable hash) :
    List ((Path × String) × Value) :=
  match r.expr opts line with
  | .ok e => storesOf (e.report t).2.log
  | .error _ => []

/-- The table that an evaluation leaves is the one at the start with the recorded values stored. -/
theorem Expr.storeAll_report (e : Expr) (t : SymbolTable hash) :
    t.storeAll (storesOf (e.report t).2.log) = (e.evaluate t).2 := by
  have hends := e.ends_report t
  generalize e.report t = x, e.evaluate t = y at hends ⊢
  cases hends with
  | ok hds h => exact h.storeAll_eq
  | error hds h hfails => exact h.storeAll_eq

namespace Session

/-- **The results of lines** that are run one after the other. -/
def results (s : Session hash) (r : Reading) : List String → List (Except LineError Value)
  | [] => []
  | line :: lines => (s.run r line).1 :: (s.run r line).2.results r lines

/-- The lines behind others find the session that those have left. -/
theorem results_append (s : Session hash) (r : Reading) (ls ms : List String) :
    s.results r (ls ++ ms) = s.results r ls ++ (s.runAll (ls.map (r, ·))).results r ms := by
  induction ls generalizing s with
  | nil => rfl
  | cons line ls ih => exact congrArg _ (ih _)

/-- **The results depend on the options and on the variables** of the session, and not on what has
been run in it. -/
theorem results_congr {s t : Session hash} (ho : s.options = t.options) (hs : s.symbols = t.symbols)
    (r : Reading) (lines : List String) : s.results r lines = t.results r lines := by
  induction lines generalizing s t with
  | nil => rfl
  | cons line lines ih =>
    rw [results, results, ih (s := (s.run r line).2) (t := (t.run r line).2)]
    · rw [run_eq, run_eq, ho, hs]
    · rw [options_run, options_run, ho]
    · rw [symbols_run, symbols_run, ho, hs]

/-- **A line changes the variables by what it writes.** -/
theorem symbols_run_eq_storeAll (s : Session hash) (r : Reading) (line : String) :
    (s.run r line).2.symbols = s.symbols.storeAll (r.writes s.options line s.symbols) := by
  rw [symbols_run, Reading.writes]
  cases hexpr : r.expr s.options line with
  | error err =>
    rw [Reading.evaluate_of_error hexpr]
    rfl
  | ok e =>
    rw [Reading.evaluate_of_expr hexpr]
    exact (e.storeAll_report s.symbols).symm

/-- **A line alters nothing for the lines behind it** but the variables it writes. -/
theorem results_append_cons (s : Session hash) (r : Reading) (ls : List String) (line : String)
    (ms : List String) :
    let t := s.runAll (ls.map (r, ·))
    s.results r (ls ++ line :: ms) =
      s.results r ls ++ (t.run r line).1 ::
        { t with symbols :=
          t.symbols.storeAll (r.writes t.options line t.symbols) }.results r ms := by
  intro t
  rw [results_append]
  refine congrArg (s.results r ls ++ (t.run r line).1 :: ·) ?_
  have hsymbols := symbols_run_eq_storeAll t r line
  generalize t.symbols.storeAll (r.writes t.options line t.symbols) = symbols at hsymbols ⊢
  exact results_congr (t := { t with symbols := symbols }) (options_run t r line) hsymbols r ms

end Session

namespace CommandLine

variable {parser : ArgumentParser} {args : List String} {a : Arguments}

/-! ### What is printed -/

/-- **The lines that are run**: those in front of the first empty one. -/
def entered (lines : List String) : List String := lines.takeWhile (· ≠ "")

/-- **A dialogue**: the prompt is in front of each answer, which is a line of its own, and at the
end. -/
def dialogueText (answers : List String) : String :=
  String.join (answers.map fun answer => "Expression: " ++ answer ++ "\n") ++ "Expression: "

theorem dialogueText_cons (answer : String) (answers : List String) :
    dialogueText (answer :: answers) =
      "Expression: " ++ answer ++ "\n" ++ dialogueText answers := by
  rw [dialogueText, List.map_cons, String.join_cons, String.append_assoc]
  rfl

/-- What is behind an empty line is not run. -/
theorem entered_append_blank (ls ms : List String) : entered (ls ++ "" :: ms) = entered ls := by
  induction ls with
  | nil => rfl
  | cons line ls ih =>
    by_cases hline : line = ""
    · rw [hline]
      rfl
    · rw [List.cons_append, entered, entered, List.takeWhile_cons_of_pos (by simpa using hline),
        List.takeWhile_cons_of_pos (by simpa using hline)]
      exact congrArg _ ih

/-- **The dialogue of a calculation** shows the results of the lines that are run. -/
theorem output_calculation (r : Reading) (s : Session hash) (lines : List String) :
    (calculation r).output s lines = dialogueText ((s.results r (entered lines)).map report) := by
  induction lines generalizing s with
  | nil => rfl
  | cons line lines ih =>
    by_cases hline : line = ""
    · rw [hline]
      rfl
    · have hrespond : (calculation r).respond s line =
          (report (s.run r line).1 ++ "\n", some (s.run r line).2) := by
        simp [calculation, hline, printed]
      rw [Dialogue.output, hrespond, entered, List.takeWhile_cons_of_pos (by simpa using hline),
        Session.results, List.map_cons, dialogueText_cons]
      show "Expression: " ++ (report (s.run r line).1 ++ "\n") ++ (calculation r).output _ lines = _
      rw [ih, String.append_assoc, String.append_assoc, String.append_assoc]
      rfl

/-! ### What is asked for -/

/-- How lines are read. -/
def Arguments.reading (a : Arguments) : Reading := if a.rpn then .postfixed else .ordinary

/-- The session in which lines are run. -/
def Arguments.session (a : Arguments) (hash : String → UInt64) : Session hash :=
  .new a.options a.history hash

/-- **Lines from standard input are run.** -/
structure Arguments.AsksForLines (a : Arguments) : Prop where
  /-- No table is worked on. -/
  table_eq : a.table = false
  /-- No tokens are shown. -/
  tokens_eq : a.tokens = false
  /-- There is no line on the command line. -/
  expr?_eq : a.expr? = none
  /-- Lines are to be read. -/
  plain_eq : a.plain = true

/-- **A single line is run**, which is on the command line. -/
structure Arguments.AsksForLine (a : Arguments) (line : String) : Prop where
  /-- No table is worked on. -/
  table_eq : a.table = false
  /-- No tokens are shown. -/
  tokens_eq : a.tokens = false
  /-- This is the line. -/
  expr?_eq : a.expr? = some line

theorem task_of_asksForLines (ha : a.AsksForLines) :
    a.task hash = .talk (calculation a.reading) (a.session hash) := by
  obtain ⟨htable, htokens, hexpr, hplain⟩ := ha
  rw [Arguments.task, htable, htokens, hexpr, hplain]
  rfl

theorem task_of_asksForLine {line : String} (ha : a.AsksForLine line) :
    a.task hash = .single (a.session hash) a.reading line := by
  obtain ⟨htable, htokens, hexpr⟩ := ha
  rw [Arguments.task, htable, htokens, hexpr]
  rfl

/-- Arguments that the parser accepts decide what is done. -/
theorem ofArguments_eq (h : parser args = .ok a) :
    Task.ofArguments args parser hash = a.task hash := by
  rw [Task.ofArguments, h]

/-- **Lines from standard input**: the results of those in front of the first empty one are
shown. -/
theorem outcome_lines (hash : String → UInt64) (ha : a.AsksForLines) {stdin : String}
    {lines : List String} (hlines : Lines stdin.toList (lines.map String.toList)) :
    (a.task hash).outcome stdin =
      (dialogueText (((a.session hash).results a.reading (entered lines)).map report), 0) := by
  have hfound : (linesOf stdin.toList).map String.ofList = lines := by
    rw [hlines.linesOf_eq, List.map_map]
    exact (List.map_congr_left fun _ _ => String.ofList_toList).trans (List.map_id lines)
  rw [task_of_asksForLines ha, Task.outcome, hfound, output_calculation]

/-- **A single line**: its result is shown, and the exit code says whether there is a value. -/
theorem outcome_line (hash : String → UInt64) {line : String} (ha : a.AsksForLine line)
    (stdin : String) :
    ∃ code, (a.task hash).outcome stdin =
        (report ((a.session hash).run a.reading line).1 ++ "\n", code) ∧
      (code = 0 ↔ ∃ v, ((a.session hash).run a.reading line).1 = .ok v) ∧
      (code = 1 ↔ ∃ err, ((a.session hash).run a.reading line).1 = .error err) := by
  have hprinted : ∀ t, printed [t] = t ++ "\n" := fun t => by simp [printed]
  rw [task_of_asksForLine ha, Task.single]
  rcases hresult : ((a.session hash).run a.reading line).1 with err | v
  · exact ⟨1, by rw [← hprinted]; rfl, by simp, by simp⟩
  · exact ⟨0, by rw [← hprinted]; rfl, by simp, by simp⟩

/-! ### The input -/

/-- Every text has lines. -/
theorem exists_lines (text : String) :
    ∃ lines : List String, Lines text.toList (lines.map String.toList) := by
  refine ⟨(linesOf text.toList).map String.ofList, ?_⟩
  have hid : String.toList ∘ String.ofList = id := funext fun _ => String.toList_ofList
  rw [List.map_map, hid, List.map_id]
  exact lines_linesOf text.toList

/-- **A line ends at either line end.** -/
theorem Lines.ended {line e v : String} {ms : List String}
    (hv : Lines v.toList (ms.map String.toList)) (hfeed : '\n' ∉ line.toList)
    (hreturn : '\r' ∉ line.toList) (he : e = "\n" ∨ e = "\r\n") :
    Lines (line ++ e ++ v).toList ((line :: ms).map String.toList) := by
  rw [String.toList_append, String.toList_append, List.append_assoc]
  rcases he with rfl | rfl
  · exact .feed hfeed (fun hlast => hreturn (List.mem_of_getLast? hlast)) hv
  · exact .returnFeed hfeed hv

/-- **A line end at the beginning of a line** is an empty line. -/
theorem Lines.append_blank {u e v : String} {ls ms : List String}
    (hu : Lines u.toList (ls.map String.toList)) (hend : ∀ c ∈ u.toList.getLast?, c = '\n')
    (he : e = "\n" ∨ e = "\r\n") (hv : Lines v.toList (ms.map String.toList)) :
    Lines (u ++ e ++ v).toList ((ls ++ "" :: ms).map String.toList) := by
  have hblank : Lines ("" ++ e ++ v).toList (("" :: ms).map String.toList) :=
    hv.ended List.not_mem_nil List.not_mem_nil he
  rw [String.empty_append] at hblank
  rw [String.append_assoc, String.toList_append, List.map_append]
  exact hu.append hend hblank

/-- **A text begins with a line**, and with a line end behind it if there is more. -/
def BeginsWith (line text : String) : Prop :=
  text = line ∨ ∃ rest, text = line ++ "\n" ++ rest ∨ text = line ++ "\r\n" ++ rest

/-- Then this is its first line. -/
theorem BeginsWith.exists_lines {line text : String} (h : BeginsWith line text) (hne : line ≠ "")
    (hfeed : '\n' ∉ line.toList) (hreturn : '\r' ∉ line.toList) :
    ∃ lines : List String, Lines text.toList ((line :: lines).map String.toList) := by
  rcases h with rfl | ⟨rest, h⟩
  · exact ⟨[], .last hfeed (by simpa using hne)⟩
  · obtain ⟨lines, hlines⟩ := CommandLine.exists_lines rest
    refine ⟨lines, ?_⟩
    rcases h with rfl | rfl
    · exact hlines.ended hfeed hreturn (.inl rfl)
    · exact hlines.ended hfeed hreturn (.inr rfl)

/-- **Lines from standard input are run in a session.** -/
structure RunsLines (s : Session hash) (r : Reading) (outcome : String → String × Nat) : Prop where
  /-- The results of the lines in front of the first empty one are shown, and no others. -/
  shows_results : ∀ stdin lines, Lines stdin.toList (lines.map String.toList) →
    ∃ shown, List.Forall₂ Shows (s.results r (entered lines)) shown ∧
      outcome stdin = (dialogueText shown, 0)
  /-- An empty line is as good as the end of the input. -/
  append_blank : ∀ u e v : String, (∀ c ∈ u.toList.getLast?, c = '\n') → e = "\n" ∨ e = "\r\n" →
    outcome (u ++ e ++ v) = outcome u
  /-- A line alters nothing for the lines behind it but the variables it writes. -/
  results_eq : ∀ ls line ms,
    let t := s.runAll (ls.map (r, ·))
    s.results r (ls ++ line :: ms) = s.results r ls ++ (t.run r line).1 ::
      { t with symbols := t.symbols.storeAll (r.writes t.options line t.symbols) }.results r ms

/-- **A calculation on the command line runs lines in a session.**

For lines from standard input, the results of running them in one session, up to the first empty
line or the end of the input, are shown one after the other, with the prompt in front of each and
once more at the end. No line alters what the lines behind it are run in but for the variables it
writes, also if it fails.

For a single line, which is not empty and has no line end in it, the same is shown as for the first
one of the lines from standard input with the same settings, and the exit code is one if and only if
the line fails.

This is so whatever parser of arguments there is, as soon as it accepts the arguments. -/
theorem outcome_ofArguments (hash : String → UInt64) (h : parser args = .ok a) :
    let s := a.session hash
    let r := a.reading
    let outcome := (Task.ofArguments args parser hash).outcome
    (a.AsksForLines → RunsLines s r outcome) ∧
    ∀ line, a.AsksForLine line → line ≠ "" → '\n' ∉ line.toList → '\r' ∉ line.toList →
      ∃ shown, Shows (s.run r line).1 shown ∧
        (∀ stdin, ∃ code, outcome stdin = (shown ++ "\n", code) ∧
          (code = 0 ↔ ∃ v, (s.run r line).1 = .ok v) ∧
          (code = 1 ↔ ∃ err, (s.run r line).1 = .error err)) ∧
        ∀ stdin, BeginsWith line stdin → ∃ more,
          ({ a with expr? := none, plain := true : Arguments }.task hash).outcome stdin =
            ("Expression: " ++ shown ++ "\n" ++ more, 0) := by
  intro s r outcome
  have houtcome : outcome = (a.task hash).outcome := by rw [← ofArguments_eq h]
  rw [houtcome]
  refine ⟨fun ha => ⟨fun stdin lines hlines => ?_, fun u e v hend he => ?_,
    s.results_append_cons r⟩, fun line ha hne hfeed hreturn => ?_⟩
  · exact ⟨_, forall₂_shows_iff.mpr rfl, outcome_lines hash ha hlines⟩
  · obtain ⟨ls, hls⟩ := exists_lines u
    obtain ⟨ms, hms⟩ := exists_lines v
    rw [outcome_lines hash ha (hls.append_blank hend he hms), outcome_lines hash ha hls,
      entered_append_blank]
  · refine ⟨report (s.run r line).1, shows_iff.mpr rfl, outcome_line hash ha, ?_⟩
    intro stdin hstdin
    obtain ⟨lines, hlines⟩ := hstdin.exists_lines hne hfeed hreturn
    have hasks : { a with expr? := none, plain := true : Arguments }.AsksForLines :=
      ⟨ha.table_eq, ha.tokens_eq, rfl, rfl⟩
    rw [outcome_lines hash hasks hlines, entered,
      List.takeWhile_cons_of_pos (by simpa using hne), Session.results, List.map_cons,
      dialogueText_cons]
    exact ⟨_, rfl⟩

/-- A step is kept although the line it is on fails, and a line that cannot be read fails in the
same way as the first one of the input and as a single one. -/
theorem outcome_ofArguments_failures :
    let lines := ["1 +", "x = 1", "x++ / 0", "x", "", "x = 5"]
    let stdin := "1 +\nx = 1\r\nx++ / 0\nx\n\nx = 5"
    let a : Arguments := ⟨none, true, false, false, false, ⟨.apply, 9⟩, 0⟩
    let a' : Arguments := { a with expr? := some "1 +", plain := false }
    let args := ["--plain", "--postfix", "apply", "--max-depth=9", "--history", "0"]
    let args' := ["-e1 +", "--postfix=apply", "--max-depth", "+9", "--history=00"]
    let failure := "Error at position 3: expected a number, identifier or '(', found end of input"
    let outcome := (Task.ofArguments args Arguments.parser Text.hash).outcome
    Arguments.parser args = .ok a ∧ a.AsksForLines ∧
      Lines stdin.toList (lines.map String.toList) ∧
      outcome stdin = ("Expression: " ++ failure ++ "\nExpression: 1\n" ++
        "Expression: Error: Division by zero in operation: 1 / 0\n" ++
        "Expression: 2\nExpression: ", 0) ∧
      outcome ("x = 1\n" ++ "\r\n" ++ "x") = outcome "x = 1\n" ∧
      Arguments.parser args' = .ok a' ∧ a'.AsksForLine "1 +" ∧ BeginsWith "1 +" stdin ∧
      (Task.ofArguments args' Arguments.parser Text.hash).outcome stdin = (failure ++ "\n", 1) ∧
      ∃ more, outcome stdin = ("Expression: " ++ failure ++ "\n" ++ more, 0) := by
  intro lines stdin a a' args args' failure outcome
  have hargs : Arguments.parser args = .ok a := by decide +kernel
  have hargs' : Arguments.parser args' = .ok a' := by decide +kernel
  have hlines : Lines stdin.toList (lines.map String.toList) := lines_iff.mpr (by decide +kernel)
  have hasks : a.AsksForLines := ⟨rfl, rfl, rfl, rfl⟩
  have hasks' : a'.AsksForLine "1 +" := ⟨rfl, rfl, rfl⟩
  have hbegins : BeginsWith "1 +" stdin := .inr ⟨"x = 1\r\nx++ / 0\nx\n\nx = 5", .inl rfl⟩
  let fault : LineError := .parse (.malformed (.operandExpected .finish) 3)
  let one : Value := ⟨1, by decide⟩
  let zero : Value := ⟨0, by decide⟩
  have hresults : (a.session Text.hash).results a.reading (entered lines) =
      [.error fault, .ok one, .error (.eval (.divisionByZero (.binary .div one zero))),
        .ok ⟨2, by decide⟩] := by
    decide +kernel
  have hresult : ((a'.session Text.hash).run a'.reading "1 +").1 = .error fault := by decide +kernel
  have hruns := (outcome_ofArguments Text.hash hargs).1 hasks
  obtain ⟨answers, hanswers, hprinted⟩ := hruns.shows_results stdin lines hlines
  rw [hresults, forall₂_shows_iff] at hanswers
  have hlast : "x = 1\n".toList.getLast? = some '\n' := by decide +kernel
  have hblank := hruns.append_blank "x = 1\n" "\r\n" "x"
    (fun c hc => (Option.some.inj (hlast.symm.trans hc)).symm) (.inr rfl)
  obtain ⟨shown, hshown, hcode, hfirst⟩ := (outcome_ofArguments Text.hash hargs').2 "1 +" hasks'
    (by decide) (by decide) (by decide)
  rw [hresult, shows_iff] at hshown
  have hfailure : shown = failure := hshown.trans (by decide +kernel)
  obtain ⟨code, hsingle, -, hone⟩ := hcode stdin
  rw [hone.mpr ⟨fault, hresult⟩, hfailure] at hsingle
  obtain ⟨more, hmore⟩ := hfirst stdin hbegins
  rw [hfailure] at hmore
  refine ⟨hargs, hasks, hlines, hprinted.trans ?_, hblank, hargs', hasks', hbegins, hsingle, more,
    ?_⟩
  · rw [hanswers]
    decide +kernel
  · exact (congrArg (·.outcome stdin) (ofArguments_eq hargs)).trans hmore

end CommandLine

end Reckoner
