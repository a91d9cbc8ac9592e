import Mathlib.Data.List.DropRight
import Mathlib.Data.List.Forall2
import Reckoner.Proofs.Grammar.Lookahead
import Reckoner.Proofs.Session.Replay

/-!
# The transcript of a session

Lines are run in a session one after the other, and in between its variables may be forgotten. The
transcript is a faithful record of that (`Reckoner.Session.exists_records`): every line that has
been run is counted and has left one entry, in the order in which the lines were run, and the last
ones are held, as many as may be.

What an entry has to say of a line is collected in `Reckoner.Session.Records`, against what the
line has returned and what it has left, not against the way in which it was run. The two parts of
the statement are apart: what a transcript holds after any entries have been recorded
(`Reckoner.Transcript.Keeps`), and what one entry says of one line.
-/

namespace Reckoner

/-! ### The latest entries -/

namespace Transcript

/-- Every entry recorded is counted, whether it can be held or not. -/
theorem total_push (t : Transcript) (e : Entry) : (t.push e).total = t.total + 1 := by
  show t.dropped + (t.length + 1 - t.limit) +
    ((t.entries ++ [e]).drop (t.length + 1 - t.limit)).length = t.dropped + t.length + 1
  rw [List.length_drop, List.length_append, List.length_singleton, length]
  omega

/-- **A transcript that holds the latest entries**: it has counted all of `es`, and of the last `k`
ones it holds as many as may be held. -/
structure HoldsLast (t : Transcript) (es : List Entry) (k : Nat) : Prop where
  /-- All of them have been counted. -/
  total_eq : t.total = es.length
  /-- There are as many of them. -/
  le_length : k ≤ es.length
  /-- The last ones are held. -/
  entries_eq : t.entries = es.rtake (min t.limit k)

namespace HoldsLast

variable {t : Transcript} {es : List Entry} {k : Nat}

/-- Nothing has been recorded in a new transcript. -/
theorem nil (limit : Nat) : HoldsLast { limit := limit } [] 0 where
  total_eq := rfl
  le_length := Nat.le_refl 0
  entries_eq := (List.rtake_nil _).symm

/-- **One more entry** is counted, and held in the place of the oldest one if need be. -/
theorem push (h : t.HoldsLast es k) (e : Entry) : (t.push e).HoldsLast (es ++ [e]) (k + 1) where
  total_eq := by rw [total_push, h.total_eq, List.length_append, List.length_singleton]
  le_length := by
    rw [List.length_append, List.length_singleton]
    exact Nat.succ_le_succ h.le_length
  entries_eq := by
    have hle := h.le_length
    -- both are what is left of `es ++ [e]` behind some first entries, which are as many
    show (t.entries ++ [e]).drop (t.entries.length + 1 - t.limit) =
      (es ++ [e]).rtake (min t.limit (k + 1))
    rw [h.entries_eq, List.rtake, List.rtake, List.length_drop, List.length_append,
      List.length_singleton, ← List.drop_append_of_le_length (Nat.sub_le _ _), List.drop_drop]
    congr 1
    omega

/-- **Letting go of all entries** leaves them counted. -/
theorem clear (h : t.HoldsLast es k) : t.clear.HoldsLast es 0 where
  total_eq := h.total_eq
  le_length := Nat.zero_le _
  entries_eq := by
    show [] = es.rtake (min t.limit 0)
    rw [Nat.min_zero, List.rtake_zero]

end HoldsLast

/-- **A transcript in which some entries have been recorded**, and nothing else: it has counted
all of them and holds the last ones. -/
structure Keeps (t : Transcript) (es : List Entry) : Prop where
  /-- All of them have been counted. -/
  total_eq : t.total = es.length
  /-- As many as may be held are held. -/
  entries_eq : t.entries = es.rtake t.limit

/-- Then it holds the latest ones of all of them. -/
theorem keeps_iff_holdsLast {t : Transcript} {es : List Entry} :
    t.Keeps es ↔ t.HoldsLast es es.length := by
  have hrtake : es.rtake (min t.limit es.length) = es.rtake t.limit := by
    rw [List.rtake, List.rtake]
    congr 1
    omega
  constructor
  · intro h
    exact ⟨h.total_eq, Nat.le_refl _, h.entries_eq.trans hrtake.symm⟩
  · intro h
    exact ⟨h.total_eq, h.entries_eq.trans hrtake⟩

namespace Keeps

variable {t : Transcript} {es : List Entry}

/-- Nothing has been recorded in a new transcript. -/
theorem nil (limit : Nat) : Keeps { limit := limit } [] :=
  keeps_iff_holdsLast.mpr (.nil limit)

/-- One more entry is recorded. -/
theorem push (h : t.Keeps es) (e : Entry) : (t.push e).Keeps (es ++ [e]) := by
  rw [keeps_iff_holdsLast, List.length_append]
  exact (keeps_iff_holdsLast.mp h).push e

/-- So are many. -/
theorem pushAll (h : t.Keeps es) (fs : List Entry) : (t.pushAll fs).Keeps (es ++ fs) := by
  induction fs generalizing t es with
  | nil => rwa [List.append_nil]
  | cons e fs ih =>
    rw [← List.singleton_append, ← List.append_assoc]
    exact ih (h.push e)

end Keeps

theorem limit_pushAll (t : Transcript) (es : List Entry) : (t.pushAll es).limit = t.limit := by
  induction es generalizing t with
  | nil => rfl
  | cons e es ih => exact ih (t.push e)

/-- A transcript of a single entry holds the latest one and has let go of all the others. -/
theorem push_of_limit_eq_one {t : Transcript} (h : t.limit = 1) (e : Entry) :
    t.push e = { limit := 1, entries := [e], dropped := t.total } := by
  rw [push, h, Nat.add_sub_cancel, length, List.drop_left, total, length]

end Transcript

/-! ### Outcomes -/

namespace Outcome

variable {x : Except LineError Value}

theorem ofResult_eq_value_iff {v : Value} : ofResult x = .value v ↔ x = .ok v := by
  cases x <;> simp [ofResult]

theorem ofResult_eq_failure_iff {message : String} {position? : Option Nat} :
    ofResult x = .failure message position? ↔
      ∃ err, x = .error err ∧ err.message = message ∧ err.position? = position? := by
  cases x <;> simp [ofResult]

end Outcome

namespace Reading

open Except (mapError_eq_error_iff)

variable {hash : String → UInt64} {r : Reading} {opts : ParseOptions} {line : String}
  {t : SymbolTable hash} {err : LineError} {p : Nat}

/-- **A failure with a place** comes from reading the line, and the place is within the line. -/
theorem of_position? (h : (r.evaluate opts line t).1 = .error err) (hp : err.position? = some p) :
    r.expr opts line = .error err ∧ p ≤ line.length := by
  cases hexpr : r.expr opts line with
  | error err' =>
    rw [evaluate_of_error hexpr] at h
    obtain rfl := Except.error.inj h
    refine ⟨rfl, ?_⟩
    cases r with
    | ordinary =>
      obtain ⟨e, hparse, rfl⟩ := mapError_eq_error_iff.mp hexpr
      cases e with
      | malformed f q =>
        obtain rfl := Option.some.inj hp
        exact Parse.position_le_of_parse hparse
      | notAVariable => cases hp
    | postfixed =>
      obtain ⟨e, -, rfl⟩ := mapError_eq_error_iff.mp hexpr
      cases hp
  | ok e =>
    rw [evaluate_of_expr hexpr] at h
    obtain ⟨e, -, rfl⟩ := mapError_eq_error_iff.mp h
    cases hp

end Reading

namespace Session

variable {hash : String → UInt64}

/-! ### What is done with a session -/

/-- **What is done with a session.** -/
inductive Act
  /-- A line is run. -/
  | run (r : Reading) (line : String)
  /-- The variables are forgotten. -/
  | reset

/-- The line that is run, if one is. -/
def Act.line? : Act → Option (Reading × String)
  | run r line => some (r, line)
  | reset => none

/-- The session after something has been done with it. -/
def perform (s : Session hash) : Act → Session hash
  | .run r line => (s.run r line).2
  | .reset => s.reset

/-- The session after many things have been done with it. -/
def performAll (s : Session hash) (as : List Act) : Session hash := as.foldl perform s

/-- **A call**: a line run in some session. -/
structure Call (hash : String → UInt64) where
  /-- The session in which the line is run. -/
  before : Session hash
  /-- How the line is read. -/
  reading : Reading
  /-- The line. -/
  line : String

namespace Call

/-- What the line returns. -/
def result (c : Call hash) : Except LineError Value := (c.before.run c.reading c.line).1

/-- The session that the line leaves. -/
def after (c : Call hash) : Session hash := (c.before.run c.reading c.line).2

/-- The entry that the line leaves. -/
def entry (c : Call hash) : Entry := c.before.entryOf c.reading c.line

end Call

/-- **The calls among the things done**, each with the session it finds. -/
def callsOf (s : Session hash) : List Act → List (Call hash)
  | [] => []
  | .run r line :: as => ⟨s, r, line⟩ :: (s.run r line).2.callsOf as
  | .reset :: as => s.reset.callsOf as

/-- They are those of the lines, in order. -/
theorem map_callsOf (s : Session hash) (as : List Act) :
    (s.callsOf as).map (fun c => (c.reading, c.line)) = as.filterMap Act.line? := by
  induction as generalizing s with
  | nil => rfl
  | cons a as ih =>
    cases a with
    | run r line => exact congrArg _ (ih _)
    | reset => exact ih _

/-- The options stay as they are. -/
theorem options_of_mem_callsOf {s : Session hash} {as : List Act} {c : Call hash}
    (h : c ∈ s.callsOf as) :
    c.before.options = s.options := by
  induction as generalizing s with
  | nil => cases h
  | cons a as ih =>
    cases a with
    | run r line =>
      rcases List.mem_cons.mp h with rfl | h
      · rfl
      · exact (ih h).trans (options_run s r line)
    | reset => exact ih (s := s.reset) h

/-- **The transcript holds what the calls have left** and nothing else. -/
theorem transcript_performAll (s : Session hash) (as : List Act) :
    (s.performAll as).transcript = s.transcript.pushAll ((s.callsOf as).map Call.entry) := by
  induction as generalizing s with
  | nil => rfl
  | cons a as ih =>
    cases a with
    | run r line =>
      refine (ih _).trans ?_
      rw [perform, transcript_run]
      rfl
    | reset => exact ih _

/-- The options stay as they are. -/
theorem options_performAll (s : Session hash) (as : List Act) :
    (s.performAll as).options = s.options := by
  induction as generalizing s with
  | nil => rfl
  | cons a as ih =>
    cases a with
    | run r line => exact (ih _).trans (options_run s r line)
    | reset => exact ih s.reset

/-- What the calls have left is in the transcript of a new session. -/
theorem keeps_performAll (hash : String → UInt64) (opts : ParseOptions) (limit : Nat)
    (as : List Act) :
    ((new opts limit hash).performAll as).transcript.Keeps
      (((new opts limit hash).callsOf as).map Call.entry) := by
  have hkeeps := (Transcript.Keeps.nil limit).pushAll
    (((new opts limit hash).callsOf as).map Call.entry)
  rw [List.nil_append] at hkeeps
  rw [transcript_performAll]
  exact hkeeps

/-- Every entry held is that of a call. -/
theorem exists_entry_eq_of_get? {opts : ParseOptions} {limit i : Nat} {as : List Act} {e : Entry}
    (h : ((new opts limit hash).performAll as).transcript.get? i = some e) :
    ∃ c ∈ (new opts limit hash).callsOf as, c.entry = e := by
  have hmem : e ∈ ((new opts limit hash).performAll as).transcript.entries := List.mem_of_getElem? h
  rw [(keeps_performAll hash opts limit as).entries_eq] at hmem
  exact List.mem_map.mp (List.mem_of_mem_drop hmem)

/-- **The transcript of a single entry**, after a line that has no expression. -/
theorem transcript_performAll_concat {opts : ParseOptions} {r : Reading} {line : String}
    {err : LineError} (h : r.expr opts line = .error err) (as : List Act) :
    ((new opts 1 hash).performAll (as ++ [.run r line])).transcript =
      { limit := 1, entries := [⟨line, none, .failure err.message err.position?⟩],
        dropped := (as.filterMap Act.line?).length } := by
  have hlimit : ((new opts 1 hash).performAll as).transcript.limit = 1 := by
    rw [transcript_performAll, Transcript.limit_pushAll]
    rfl
  have htotal : ((new opts 1 hash).performAll as).transcript.total =
      (as.filterMap Act.line?).length := by
    rw [(keeps_performAll hash opts 1 as).total_eq, List.length_map,
      ← map_callsOf (new opts 1 hash), List.length_map]
  have hentry : ((new opts 1 hash).performAll as).entryOf r line =
      ⟨line, none, .failure err.message err.position?⟩ := by
    have hexpr : r.expr ((new opts 1 hash).performAll as).options line = .error err := by
      rw [options_performAll]
      exact h
    rw [entryOf, hexpr, Reading.evaluate_of_error hexpr]
    rfl
  rw [performAll, List.foldl_concat, perform, transcript_run, ← hentry, ← htotal]
  exact Transcript.push_of_limit_eq_one hlimit _

/-! ### What an entry says of a line -/

/-- **An entry that records a call faithfully**, in a session with the given options. -/
structure Records (opts : ParseOptions) (c : Call hash) (e : Entry) : Prop where
  /-- It has the line as it was given. -/
  input_eq : e.input = c.line
  /-- It has the value that was returned. -/
  value_iff : ∀ v, e.outcome = .value v ↔ c.result = .ok v
  /-- Or else it has what is reported of the failure that was returned, and its place. -/
  failure_iff : ∀ message position?, e.outcome = .failure message position? ↔
    ∃ err, c.result = .error err ∧ err.message = message ∧ err.position? = position?
  /-- It has the expression of the line in postfix notation, if there was one. -/
  expression?_iff : ∀ p, e.expression? = some p ↔
    ∃ tree, c.reading.expr opts c.line = .ok tree ∧ tree.postfixText = p
  /-- If it has a place, there was no expression, and the place is within the line. -/
  of_position : ∀ message p, e.outcome = .failure message (some p) →
    e.expression? = none ∧ p ≤ c.line.length
  /-- If there was no expression, the table of variables has been left alone. -/
  symbols_eq : ∀ err, c.reading.expr opts c.line = .error err →
    c.after.symbols = c.before.symbols

/-- **The entry of a call records it.** -/
theorem Call.records (c : Call hash) : Records c.before.options c c.entry where
  input_eq := rfl
  value_iff v := by
    rw [Call.result, run_eq]
    exact Outcome.ofResult_eq_value_iff
  failure_iff message position? := by
    rw [Call.result, run_eq]
    exact Outcome.ofResult_eq_failure_iff
  expression?_iff p := by
    rw [Call.entry, entryOf]
    cases c.reading.expr c.before.options c.line <;> simp [Except.toOption]
  of_position message p h := by
    obtain ⟨err, hresult, -, hp⟩ := Outcome.ofResult_eq_failure_iff.mp h
    obtain ⟨hexpr, hle⟩ := Reading.of_position? hresult hp
    refine ⟨?_, hle⟩
    rw [Call.entry, entryOf, hexpr]
    rfl
  symbols_eq err h := by
    rw [Call.after, symbols_run, Reading.evaluate_of_error h]

/-- **The transcript is a faithful record of the session.** Whatever is done with a new session, and
whatever the hash, each line that is run leaves one entry that records it; all of them have been
counted, and the last ones are held in order, as many as the transcript may hold. -/
theorem exists_records (hash : String → UInt64) (opts : ParseOptions) (limit : Nat)
    (as : List Act) :
    ∃ es, List.Forall₂ (Records opts) ((new opts limit hash).callsOf as) es ∧
      ((new opts limit hash).callsOf as).map (fun c => (c.reading, c.line)) =
        as.filterMap Act.line? ∧
      ((new opts limit hash).performAll as).transcript.total = (as.filterMap Act.line?).length ∧
      ((new opts limit hash).performAll as).transcript.entries = es.rtake limit := by
  have hkeeps := (Transcript.Keeps.nil limit).pushAll
    (((new opts limit hash).callsOf as).map Call.entry)
  rw [List.nil_append] at hkeeps
  have htranscript := transcript_performAll (new opts limit hash) as
  refine ⟨((new opts limit hash).callsOf as).map Call.entry, ?_, map_callsOf _ _, ?_, ?_⟩
  · refine List.forall₂_map_right_iff.mpr (List.forall₂_same.mpr fun c hc => ?_)
    have hrecords := c.records
    rwa [options_of_mem_callsOf hc] at hrecords
  · rw [htranscript, ← map_callsOf (new opts limit hash), List.length_map,
      ← List.length_map Call.entry]
    exact hkeeps.total_eq
  · rw [htranscript]
    exact hkeeps.entries_eq.trans (by rw [Transcript.limit_pushAll])

end Session

end Reckoner
