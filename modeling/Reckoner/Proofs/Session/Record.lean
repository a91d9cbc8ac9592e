import Mathlib.Data.List.Basic
import Reckoner.Session

/-!
# What a session records

Running a line is evaluating it in the table of the session and recording what has come of
that (`Reckoner.Session.run_eq`); the entry is determined before the line is run
(`Reckoner.Session.entryOf`). Many lines record their entries one after the other, in a
transcript that lets go of the oldest ones. Entries are numbered for good, so the ones of a
run can be asked for by number, and as long as none of them has been let go of they are all
there, in order (`Reckoner.Session.since_runAll`).
-/

namespace Reckoner

/-! ### Recording entries -/

namespace Transcript

/-- Recording many entries, one after the other. -/
def pushAll (t : Transcript) (es : List Entry) : Transcript := es.foldl push t

/-- **The entries held that were recorded after the first so many.** -/
def since (t : Transcript) (n : Nat) : List Entry := t.entries.drop (n - t.dropped)

/-- Numbers are given once: what is let go of stays let go of. -/
theorem dropped_le_push (t : Transcript) (e : Entry) : t.dropped ≤ (t.push e).dropped :=
  Nat.le_add_right _ _

/-- An entry goes behind those held, and some of the oldest ones go. -/
theorem entries_push (t : Transcript) (e : Entry) :
    (t.push e).entries = (t.entries ++ [e]).drop ((t.push e).dropped - t.dropped) := by
  show _ = (t.entries ++ [e]).drop (t.dropped + (t.length + 1 - t.limit) - t.dropped)
  rw [Nat.add_sub_cancel_left]
  rfl

/-- No more is let go of than there is. -/
theorem dropped_push_le (t : Transcript) (e : Entry) : (t.push e).dropped ≤ t.total + 1 := by
  show t.dropped + (t.length + 1 - t.limit) ≤ t.dropped + t.length + 1
  omega

/-- The latest entry is the one recorded last, if any may be held. -/
theorem last?_push (t : Transcript) (e : Entry) :
    (t.push e).last? = if 0 < t.limit then some e else none := by
  show ((t.entries ++ [e]).drop (t.entries.length + 1 - t.limit)).getLast? = _
  split_ifs with h
  · rw [List.drop_append_of_le_length (by omega), List.getLast?_concat]
  · rw [Nat.eq_zero_of_not_pos h, List.drop_of_length_le (by simp), List.getLast?_nil]

theorem dropped_le_pushAll (t : Transcript) (es : List Entry) :
    t.dropped ≤ (t.pushAll es).dropped := by
  induction es generalizing t with
  | nil => exact Nat.le_refl _
  | cons e es ih => exact Nat.le_trans (t.dropped_le_push e) (ih _)

theorem entries_pushAll (t : Transcript) (es : List Entry) :
    (t.pushAll es).entries = (t.entries ++ es).drop ((t.pushAll es).dropped - t.dropped) := by
  induction es generalizing t with
  | nil => simp [pushAll]
  | cons e es ih =>
    have hle := t.dropped_le_push e
    have hall := (t.push e).dropped_le_pushAll es
    have hlen : (t.push e).dropped - t.dropped ≤ (t.entries ++ [e]).length := by
      have := t.dropped_push_le e
      rw [total, length] at this
      rw [List.length_append, List.length_singleton]
      omega
    -- what the first entry lets go of is in front of it, so the two cuts are one
    show ((t.push e).pushAll es).entries = (t.entries ++ e :: es).drop
      (((t.push e).pushAll es).dropped - t.dropped)
    rw [ih, entries_push, ← List.drop_append_of_le_length hlen, List.drop_drop, List.append_assoc,
      List.singleton_append]
    congr 1
    omega

/-- **As long as none of them has been let go of**, the entries recorded are the ones behind
those that there were before. -/
theorem since_pushAll {t : Transcript} {es : List Entry}
    (h : (t.pushAll es).dropped ≤ t.total) : (t.pushAll es).since t.total = es := by
  have hle := t.dropped_le_pushAll es
  have hdrop : (t.pushAll es).dropped - t.dropped + (t.total - (t.pushAll es).dropped) =
      t.entries.length := by
    rw [total, length] at *
    omega
  rw [since, entries_pushAll, List.drop_drop, hdrop, List.drop_left]

end Transcript

/-! ### Running lines -/

namespace Session

variable {hash : String → UInt64}

/-- **The entry that a line is going to leave.** -/
def entryOf (s : Session hash) (r : Reading) (line : String) : Entry where
  input := line
  expression? := (r.expr s.options line).toOption.map Expr.postfixText
  outcome := .ofResult (r.evaluate s.options line s.symbols).1

/-- **Running a line** is evaluating it and recording its entry. -/
theorem run_eq (s : Session hash) (r : Reading) (line : String) :
    s.run r line =
      ((r.evaluate s.options line s.symbols).1,
        { s with
          symbols := (r.evaluate s.options line s.symbols).2
          transcript := s.transcript.push (s.entryOf r line) }) := by
  rw [run, entryOf, Reading.evaluate]
  cases r.expr s.options line with
  | error err => rfl
  | ok e => rfl

theorem options_run (s : Session hash) (r : Reading) (line : String) :
    (s.run r line).2.options = s.options := by
  rw [run_eq]

theorem symbols_run (s : Session hash) (r : Reading) (line : String) :
    (s.run r line).2.symbols = (r.evaluate s.options line s.symbols).2 := by
  rw [run_eq]

theorem transcript_run (s : Session hash) (r : Reading) (line : String) :
    (s.run r line).2.transcript = s.transcript.push (s.entryOf r line) := by
  rw [run_eq]

/-- Running many lines, each with the way it is read. -/
def runAll (s : Session hash) (ls : List (Reading × String)) : Session hash :=
  ls.foldl (fun s l => (s.run l.1 l.2).2) s

/-- The entries that many lines are going to leave. -/
def entriesOf (s : Session hash) : List (Reading × String) → List Entry
  | [] => []
  | l :: ls => s.entryOf l.1 l.2 :: (s.run l.1 l.2).2.entriesOf ls

theorem transcript_runAll (s : Session hash) (ls : List (Reading × String)) :
    (s.runAll ls).transcript = s.transcript.pushAll (s.entriesOf ls) := by
  induction ls generalizing s with
  | nil => rfl
  | cons l ls ih =>
    refine (ih _).trans ?_
    rw [transcript_run]
    rfl

/-- **The entries of a run** are in the transcript, as long as none has been let go of. -/
theorem since_runAll {s : Session hash} {ls : List (Reading × String)}
    (h : (s.runAll ls).transcript.dropped ≤ s.transcript.total) :
    (s.runAll ls).transcript.since s.transcript.total = s.entriesOf ls := by
  rw [transcript_runAll] at *
  exact Transcript.since_pushAll h

end Session

end Reckoner
