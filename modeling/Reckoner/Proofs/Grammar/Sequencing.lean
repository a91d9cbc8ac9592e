import Reckoner.Parse.Line

/-!
# Parsers one after the other

Every parser of the grammar asks other parsers, one behind the other, and passes on the first
failure. Said once (`Reckoner.Parse.Reply.andThen`), this turns each parser into an equation: a
chain is an operand and then the rest of the chain, a factor is an atom, its sign and its steps.
A statement about all parsers is then a rule for each of the few things that they are made of:

* a reply that reads nothing, but may fail (`Reckoner.Parse.Reply.stay`);
* one parser and then another (`Reckoner.Parse.Reply.andThen`);
* a reply to the tokens behind the first one (`Reckoner.Parse.Reply.widen`).

A whole line is an expression and the end of the line (`Reckoner.Parse.wholeLine`).
-/

namespace Reckoner

namespace Parse

/-! ### Replies put together -/

/-- What a reply says, apart from the proof that it carries. -/
def Reply.outcome {α : Type} {ts : List Located} (r : Reply α ts) :
    Except ParseError α × List Located := (r.result, r.rest)

namespace Reply

variable {ts us : List Located}

/-- **A reply that reads nothing.** -/
def stay (x : Except ParseError Measured) (ts : List Located) : Reply Measured ts :=
  ⟨x, ts, List.suffix_rfl⟩

/-- **One parser and then another**, which goes on with what has been read. A failure is passed
on, and with it the tokens that are left. -/
def andThen (r : Reply Measured ts) (next : Measured → Parser) : Reply Measured ts :=
  match r.result with
  | .error e => .error e r.suffix
  | .ok m => (next m r.rest).widen r.suffix

theorem andThen_of_error {r : Reply Measured ts} {e : ParseError} (h : r.result = .error e)
    (next : Measured → Parser) : r.andThen next = r := by
  obtain ⟨_, us, hus⟩ := r
  cases h
  rfl

theorem andThen_of_ok {r : Reply Measured ts} {m : Measured} (h : r.result = .ok m)
    (next : Measured → Parser) : r.andThen next = (next m r.rest).widen r.suffix := by
  rw [andThen, h]

theorem stay_ok_andThen (m : Measured) (ts : List Located) (next : Measured → Parser) :
    (stay (.ok m) ts).andThen next = next m ts := rfl

theorem outcome_widen (r : Reply Measured us) (h : us <:+ ts) :
    (r.widen h).outcome = r.outcome := rfl

/-- **Both parsers have read something** if the second one has. -/
theorem outcome_andThen_eq_ok_iff {r : Reply Measured ts} {next : Measured → Parser}
    {m : Measured} : (r.andThen next).outcome = (.ok m, us) ↔
      ∃ a vs, r.outcome = (.ok a, vs) ∧ (next a vs).outcome = (.ok m, us) := by
  rcases r with ⟨e | a, vs, hvs⟩
  · exact ⟨nofun, nofun⟩
  · constructor
    · exact fun h => ⟨a, vs, rfl, h⟩
    · rintro ⟨_, _, h, hnext⟩
      cases h
      exact hnext

/-- So it is if the first one reads nothing. -/
theorem outcome_stay_andThen_eq_ok_iff {x : Except ParseError Measured}
    {next : Measured → Parser} {m : Measured} :
    ((stay x ts).andThen next).outcome = (.ok m, us) ↔
      ∃ a, x = .ok a ∧ (next a ts).outcome = (.ok m, us) := by
  cases x with
  | error e => exact ⟨nofun, nofun⟩
  | ok a => exact ⟨fun h => ⟨a, rfl, h⟩, fun ⟨_, ha, h⟩ => by cases ha; exact h⟩

/-- Behind what the first one has read, the second one says what is read of both. -/
theorem outcome_andThen {r : Reply Measured ts} {m : Measured} (h : r.outcome = (.ok m, us))
    (next : Measured → Parser) : (r.andThen next).outcome = (next m us).outcome := by
  rcases r with ⟨e | a, vs, hvs⟩
  · cases h
  · cases h
    rfl

end Reply

open Reply

/-! ### Chains -/

section Chains

variable {ω : Type} {op? : Token → Option ω}
  {join : ω → Nat → Measured → Measured → Except ParseError Measured} {operand : Parser}

/-- A chain ends where there is no operator. -/
theorem chainFrom_eq_stay {l : Measured} {ts : List Located} (h : op? (current ts) = none) :
    chainFrom op? join operand l ts = stay (.ok l) ts := by
  rw [chainFrom.eq_def]
  cases ts with
  | nil => rfl
  | cons t ts =>
    have h' : op? t.token = none := h
    simp only [h']
    rfl

/-- Behind an operator come an operand, the node made of it, and the rest of the chain. -/
theorem chainFrom_cons {l : Measured} {t : Located} {ts : List Located} {op : ω}
    (h : op? t.token = some op) :
    chainFrom op? join operand l (t :: ts) =
      ((operand ts).andThen fun r us =>
        (stay (join op t.position l r) us).andThen (chainFrom op? join operand)).widen
          (List.suffix_cons t ts) := by
  rw [chainFrom.eq_def]
  simp only [h]
  rcases operand ts with ⟨e | r, us, hus⟩
  · rfl
  · simp only
    rcases hjoin : join op t.position l r with e | m
    · simp [andThen, stay, hjoin, Reply.error, widen]
    · simp [andThen, stay, hjoin, widen]

/-- A chain is an operand and the rest of the chain. -/
theorem chain_eq (ts : List Located) :
    chain op? join operand ts = (operand ts).andThen (chainFrom op? join operand) := by
  rw [chain]
  rcases operand ts with ⟨e | l, us, hus⟩ <;> rfl

end Chains

/-! ### Factors -/

section Factors

variable {opts : ParseOptions} {finish : Nat}

/-- The steps behind an operand end where there is no step. -/
theorem stepsFrom_eq_stay {m : Measured} {ts : List Located} (h : step? (current ts) = none) :
    stepsFrom opts m ts = stay (.ok m) ts := by
  cases ts with
  | nil => rfl
  | cons t ts =>
    have h' : step? t.token = none := h
    simp only [stepsFrom, h']
    rfl

/-- Where there is one, it is applied or discarded before the others. -/
theorem stepsFrom_cons {m : Measured} {t : Located} {ts : List Located} {s : Step}
    (h : step? t.token = some s) :
    stepsFrom opts m (t :: ts) =
      ((stay (applyStep opts s t.position m) ts).andThen (stepsFrom opts)).widen
        (List.suffix_cons t ts) := by
  simp only [stepsFrom, h]
  rcases happly : applyStep opts s t.position m with e | a
  · rfl
  · rfl

/-- A factor is its atom behind the signs, then the sign that counts, then the steps. -/
theorem factor_eq (atom : Parser) (ts : List Located) :
    factor opts finish atom ts =
      ((atom (ts.dropWhile isSign)).widen (List.dropWhile_suffix isSign)).andThen fun m us =>
        (stay (applySign opts (place finish ts) m (lastSign? ts)) us).andThen
          (stepsFrom opts) := by
  rw [factor]
  rcases atom (ts.dropWhile isSign) with ⟨e | m, us, hus⟩
  · rfl
  · simp only
    rcases happly : applySign opts (place finish ts) m (lastSign? ts) with e | a
    · simp [andThen, stay, happly, Reply.error, widen]
    · simp [andThen, stay, happly, widen]

end Factors

/-! ### Atoms -/

section Atoms

variable {opts : ParseOptions} {finish : Nat}

/-- The closing parenthesis behind an expression. -/
def close (finish : Nat) (m : Measured) : Parser
  | ⟨.closeParen, _⟩ :: us => .ok m (List.suffix_cons _ us)
  | us => stay (.error (.malformed .closingExpected (place finish us))) us

/-- Behind an opening parenthesis come an expression and the closing one. -/
theorem atom_openParen (inner : Parser) (pos : Nat) (ts : List Located) :
    atom opts finish (some inner) (⟨.openParen, pos⟩ :: ts) =
      ((inner ts).andThen (close finish)).widen (List.suffix_cons _ ts) := by
  rw [atom]
  rcases inner ts with ⟨e | m, _ | ⟨⟨t, pos'⟩, us⟩, hus⟩
  · rfl
  · rfl
  · rfl
  · cases t <;> rfl

end Atoms

/-! ### Lines -/

/-- The end of the line behind an expression. -/
def endOfLine (m : Measured) : Parser
  | [] => stay (.ok m) []
  | t :: us => stay (.error (.malformed (.trailing t.token) t.position)) (t :: us)

/-- **A whole line**: an expression and the end of the line. -/
def wholeLine (opts : ParseOptions) (finish : Nat) : Parser := fun ts =>
  (expression opts finish opts.maxDepth ts).andThen endOfLine

/-- **A parser of a line** reads a whole line and stops where that stops. -/
theorem next_eq (p : LineParser) :
    p.next =
      ((wholeLine p.options p.finish p.rest).result.map (·.expr),
        { p with rest := (wholeLine p.options p.finish p.rest).rest }) := by
  rw [LineParser.next, wholeLine]
  rcases expression p.options p.finish p.options.maxDepth p.rest with
    ⟨e | m, _ | ⟨t, us⟩, hus⟩ <;> rfl

/-- A line is parsed by reading the whole of it. -/
theorem parse_eq (line : String) (opts : ParseOptions) :
    parse line opts =
      (wholeLine opts line.length (Scanner.ofLine line).tokens).result.map (·.expr) := by
  rw [parse, next_eq]
  rfl

/-- **A line is refused** for what is wrong with the whole of it. -/
theorem parse_eq_error_iff {line : String} {opts : ParseOptions} {e : ParseError} :
    parse line opts = .error e ↔
      (wholeLine opts line.length (Scanner.ofLine line).tokens).result = .error e := by
  rw [parse_eq]
  rcases (wholeLine opts line.length (Scanner.ofLine line).tokens).result with e' | m
  · exact ⟨fun h => congrArg _ (Except.error.inj h), fun h => congrArg _ (Except.error.inj h)⟩
  · exact ⟨nofun, nofun⟩

end Parse

end Reckoner
