import Mathlib.Logic.ExistsUnique
import Reckoner.Proofs.Console.Lines
import Reckoner.Proofs.ProbeTable.Doubling

/-!
# The console as a ledger

To whoever types lines into the console the table behind it is a map from strings to strings with
a capacity: a `Reckoner.Ledger`. The capacity has no part in what the map is. It is seen in the home
of a key and in the number of lines in which all slots are shown, it doubles where a new key would
make the table more than half full, and it is back at its default where the table is begun anew.

`Reckoner.Ledger.Answers` says what is shown for a command and which ledger is left. Where all slots
are shown, in which order the pairs of the map come is not told by the ledger; but each pair is in
one line and each other line is that of an empty slot, and the lines leave no doubt about this
(`Reckoner.Ledger.Lists`).

One line fed to a table has such an answer and leaves a table kept for the ledger that is left
(`Reckoner.Ledger.Kept.feed`), and so by induction does any sequence of lines
(`Reckoner.Ledger.replies_answers_feed`).
-/

namespace Reckoner

/-! ### What a line says -/

namespace Command

/-- **The words for the commands.** Each makes a command of a key and a value, and most of them
pass over one of these or both. -/
def vocabulary : List (String × (String → String → Command)) := [
  ("hash", fun k _ => hash k), ("index", fun k _ => index k), ("size", fun _ _ => size),
  ("capacity", fun _ _ => capacity), ("contains", fun k _ => contains k),
  ("find", fun k _ => find k), ("add", add), ("insert", add), ("remove", fun k _ => remove k),
  ("delete", fun k _ => remove k), ("print", fun _ _ => print), ("clear", fun _ _ => clear),
  ("exit", fun _ _ => exit), ("quit", fun _ _ => exit), ("end", fun _ _ => exit)]

/-- A word of a line, or the empty string if the line has not so many. -/
def wordAt (ws : List String) (i : Nat) : String := ws.getD i ""

/-- **What words say.** The first is looked up, the next two are the key and the value, and the
others are passed over. -/
def ofWords (ws : List String) : Except InvalidCommand Command :=
  match vocabulary.lookup (wordAt ws 0) with
  | some command => .ok (command (wordAt ws 1) (wordAt ws 2))
  | none => .error ⟨wordAt ws 0⟩

/-- **The command on a line** is what the words say that the line spells. -/
theorem ofLine_eq_ofWords {line : String} {ws : List String}
    (h : Text.Spells line.toList (ws.map String.toList)) : ofLine line = ofWords ws := by
  have hws : (Text.words line.toList).map String.ofList = ws := by
    rw [Text.spells_iff.mp h, List.map_map]
    exact (List.map_congr_left fun w _ => String.ofList_toList).trans (List.map_id ws)
  rw [ofLine, hws, ofWords, wordAt, wordAt, wordAt]
  generalize ws.getD 0 "" = w, ws.getD 1 "" = k, ws.getD 2 "" = v
  split
  all_goals try rfl
  -- the words of the vocabulary are done, and what is left is not one of them
  have hnone : vocabulary.lookup w = none := by
    rw [List.lookup_eq_none_iff]
    simp_all [vocabulary]
  rw [hnone]

/-- Where an entry is added, its key is the one that is given. -/
theorem eq_of_mem_vocabulary : ∀ e ∈ vocabulary, ∀ {k v k' v'}, e.2 k v = add k' v' → k' = k := by
  simp +contextual [vocabulary]

/-- A key that is added is a word of the line, or the empty string. -/
theorem unspaced_of_ofWords {cs : List Char} {ws : List String} {k v : String}
    (h : Text.Spells cs (ws.map String.toList)) (hadd : ofWords ws = .ok (add k v)) :
    Unspaced k := by
  have hfirst : Unspaced (wordAt ws 1) :=
    unspaced_getD (fun w hw => h.isWord _ (List.mem_map_of_mem hw)) 1
  rw [ofWords] at hadd
  split at hadd
  · next command hcommand =>
    obtain ⟨before, behind, hsplit, -⟩ := List.lookup_eq_some_iff.mp hcommand
    have hmem : (wordAt ws 0, command) ∈ vocabulary := hsplit ▸ by simp
    rw [eq_of_mem_vocabulary _ hmem (Except.ok.inj hadd)]
    exact hfirst
  · cases hadd

end Command

/-- **A line fed to a table**: what is shown, or that it is no command, and the table left. -/
def StringTable.feed {hash : String → UInt64} (t : StringTable hash) (line : String) :
    Except InvalidCommand (List String) × StringTable hash :=
  match Command.ofLine line with
  | .ok c => (.ok (c.apply t).1, (c.apply t).2)
  | .error err => (.error err, t)

/-! ### Ledgers -/

/-- **A ledger**: the map that a table of strings stands for, and the number of its slots. -/
structure Ledger where
  /-- The values of the keys. -/
  map : FiniteMap String String
  /-- The number of slots. -/
  capacity : Nat

namespace Ledger

/-- **A value for a key.** A new key doubles the capacity if more than half of it would be taken. -/
def add (l : Ledger) (k v : String) : Ledger where
  map := l.map.insert k v
  capacity :=
    if k ∈ l.map ∨ 2 * (l.map.keys.card + 1) ≤ l.capacity then l.capacity else 2 * l.capacity

/-- **No value for a key any more.** The capacity stays. -/
def remove (l : Ledger) (k : String) : Ledger := { l with map := l.map.erase k }

/-- **All slots are listed.** There is one line for each slot, in order, and one way only to read
the lines: a pair of the map stands in each slot that is in use, and each pair in one slot. -/
def Lists (l : Ledger) (out : List String) : Prop :=
  ∃! contents : List (Option (String × String)),
    contents.length = l.capacity ∧
    (contents.filterMap id : Multiset (String × String)) =
      l.map.entries.map (fun e => (e.1, e.2)) ∧
    out = contents.mapIdx Command.contentLine

/-- **The answer to a command**: the lines that are shown, and the ledger that is left. -/
inductive Answers (hash : String → UInt64) (l : Ledger) : Command → List String → Ledger → Prop
  | hash (k : String) : Answers hash l (.hash k) [toString (hash k)] l
  | index (k : String) : Answers hash l (.index k) [toString ((hash k).toNat % l.capacity)] l
  | size : Answers hash l .size [toString l.map.keys.card] l
  | capacity : Answers hash l .capacity [toString l.capacity] l
  | contains (k : String) : Answers hash l (.contains k) [if k ∈ l.map then "true" else "false"] l
  | find (k : String) : Answers hash l (.find k) [(l.map.lookup k).getD "null"] l
  | add (k v : String) : Answers hash l (.add k v) [] (l.add k v)
  | remove (k : String) : Answers hash l (.remove k) [] (l.remove k)
  | print {out : List String} (h : l.Lists out) : Answers hash l .print out l
  | clear : Answers hash l .clear [] ⟨∅, 16⟩
  | exit : Answers hash l .exit [] l

/-- **The reply to the words of a line.** A line that is no command leaves the ledger as it is. -/
inductive Responds (hash : String → UInt64) (l : Ledger) (ws : List String) :
    Except InvalidCommand (List String) → Ledger → Prop
  | command {c : Command} {out : List String} {l' : Ledger} (hc : Command.ofWords ws = .ok c)
      (h : l.Answers hash c out l') : Responds hash l ws (.ok out) l'
  | invalid {err : InvalidCommand} (h : Command.ofWords ws = .error err) :
      Responds hash l ws (.error err) l

/-- **The replies to lines**, each to the words that its line spells. -/
inductive Replies (hash : String → UInt64) :
    Ledger → List String → List (Except InvalidCommand (List String)) → Ledger → Prop
  | nil (l : Ledger) : Replies hash l [] [] l
  | cons {l l' l'' : Ledger} {line : String} {ws lines : List String}
      {out : Except InvalidCommand (List String)}
      {outs : List (Except InvalidCommand (List String))}
      (hws : Text.Spells line.toList (ws.map String.toList)) (h : l.Responds hash ws out l')
      (hrest : Replies hash l' lines outs l'') : Replies hash l (line :: lines) (out :: outs) l''

/-! ### Tables that are kept for a ledger -/

variable {hash : String → UInt64} {t : StringTable hash} {l : Ledger}

/-- **A table is kept for a ledger.** Its keys have come from lines, so they are without blanks. -/
structure Kept (t : StringTable hash) (l : Ledger) : Prop extends t.Represents l.map where
  /-- The number of slots is that of the ledger. -/
  capacity_eq : t.capacity = l.capacity
  /-- No key has a blank in it. -/
  unspaced : ∀ k ∈ l.map, Command.Unspaced k

theorem kept_ofCapacity (c : Nat) : Kept (.ofCapacity c : StringTable hash) ⟨∅, max c 1⟩ where
  toRepresents := .ofCapacity c
  capacity_eq := ProbeTable.capacity_ofCapacity c
  unspaced _ hk := absurd hk Finmap.notMem_empty

namespace Kept

theorem add (h : Kept t l) {k : String} (hk : Command.Unspaced k) (v : String) :
    Kept (t.add k v).2 (l.add k v) where
  toRepresents := h.toRepresents.add k v
  capacity_eq := by
    have hcapacity := h.toSound.capacity_add k v
    simp only [h.contains_eq, h.size_eq_card, h.capacity_eq, decide_eq_true_iff] at hcapacity
    exact hcapacity
  unspaced l' hl := by
    rcases Finmap.mem_insert.mp hl with rfl | hl
    · exact hk
    · exact h.unspaced l' hl

theorem remove (h : Kept t l) (k : String) : Kept (t.remove k).2 (l.remove k) where
  toRepresents := h.toRepresents.remove k
  capacity_eq := (t.extent_remove k).1.trans h.capacity_eq
  unspaced l' hl := h.unspaced l' (Finmap.mem_erase.mp hl).2

/-- The slots of the table are what the lines are read as, and nothing else is. -/
theorem lists (h : Kept t l) : l.Lists (t.slotList.map Command.slotText) := by
  -- however the lines are read, the keys are those of the map
  have hunspaced : ∀ contents : List (Option (String × String)),
      (contents.filterMap id : Multiset (String × String)) =
        l.map.entries.map (fun e => (e.1, e.2)) →
      ∀ k v, some (k, v) ∈ contents → Command.Unspaced k := fun contents hcontents k v hmem => by
    have hpair : (k, v) ∈ (contents.filterMap id : Multiset (String × String)) :=
      Multiset.mem_coe.mpr (List.mem_filterMap.mpr ⟨_, hmem, rfl⟩)
    rw [hcontents, Multiset.mem_map] at hpair
    obtain ⟨e, he, heq⟩ := hpair
    obtain rfl : e.1 = k := congrArg Prod.fst heq
    exact h.unspaced e.1 (Finmap.mem_of_lookup_eq_some (Finmap.lookup_eq_some_iff.mpr he))
  have hentries : (t.slots.toList.filterMap id : Multiset (String × String)) =
      l.map.entries.map fun e => (e.1, e.2) := t.toList_eq ▸ h.toList_eq
  refine ⟨t.slots.toList, ⟨t.size_slots.trans h.capacity_eq, hentries, Command.map_slotText t⟩, ?_⟩
  rintro contents ⟨-, hcontents, hout⟩
  exact Command.contentLines_inj (hunspaced contents hcontents) (hunspaced _ hentries)
    (hout.symm.trans (Command.map_slotText t))

/-- **A command carried out** is answered, and what is left is kept. -/
theorem apply {c : Command} {out : List String} {u : StringTable hash} (h : Kept t l)
    (hc : ∀ k v, c = .add k v → Command.Unspaced k) (hout : c.apply t = (out, u)) :
    ∃ l', l.Answers hash c out l' ∧ Kept u l' := by
  cases c <;> rw [Command.apply, Prod.mk.injEq] at hout <;> obtain ⟨rfl, rfl⟩ := hout
  case hash k => exact ⟨l, .hash k, h⟩
  case index k =>
    refine ⟨l, ?_, h⟩
    rw [Columns.home, h.capacity_eq]
    exact .index k
  case size =>
    refine ⟨l, ?_, h⟩
    rw [h.size_eq_card]
    exact .size
  case capacity =>
    refine ⟨l, ?_, h⟩
    rw [h.capacity_eq]
    exact .capacity
  case contains k =>
    refine ⟨l, ?_, h⟩
    simp only [h.contains_eq, decide_eq_true_iff]
    exact .contains k
  case find k =>
    refine ⟨l, ?_, h⟩
    rw [h.find?_eq]
    exact .find k
  case add k v => exact ⟨l.add k v, .add k v, h.add (hc k v rfl) v⟩
  case remove k => exact ⟨l.remove k, .remove k, h.remove k⟩
  case print => exact ⟨l, .print h.lists, h⟩
  case clear => exact ⟨⟨∅, 16⟩, .clear, kept_ofCapacity 16⟩
  case exit => exact ⟨l, .exit, h⟩

/-- **One line.** -/
theorem feed (h : Kept t l) {line : String} {ws : List String}
    (hws : Text.Spells line.toList (ws.map String.toList)) :
    ∃ l', l.Responds hash ws (t.feed line).1 l' ∧ Kept (t.feed line).2 l' := by
  rw [StringTable.feed, Command.ofLine_eq_ofWords hws]
  cases hc : Command.ofWords ws with
  | error err => exact ⟨l, .invalid hc, h⟩
  | ok c =>
    have hkey : ∀ k v, c = .add k v → Command.Unspaced k := fun k v hadd =>
      Command.unspaced_of_ofWords hws (hadd ▸ hc)
    obtain ⟨l', hanswers, hkept⟩ := h.apply hkey rfl
    exact ⟨l', .command hc hanswers, hkept⟩

/-- **A sequence of lines.** -/
theorem replies (h : Kept t l) (lines : List String) :
    ∃ l', Replies hash l lines (ProbeTable.answers StringTable.feed t lines) l' ∧
      Kept (lines.foldl (fun t line => (t.feed line).2) t) l' := by
  induction lines generalizing t l with
  | nil => exact ⟨l, .nil l, h⟩
  | cons line lines ih =>
    obtain ⟨ws, hws⟩ := Text.exists_spells line
    obtain ⟨l₁, hresponds, hkept⟩ := h.feed hws
    obtain ⟨l₂, hreplies, hkept⟩ := ih hkept
    exact ⟨l₂, .cons hws hresponds hreplies, hkept⟩

end Kept

/-- **The console is a ledger.** Whatever the capacity of the table at first, every sequence of
lines has the replies of an empty ledger of that capacity, which is at least one, and leaves a table
kept for the ledger that is left. A line whose first word is not in the vocabulary, or that has no
word, is no command, and does nothing to any table. -/
theorem replies_answers_feed (hash : String → UInt64) (capacity : Nat) (lines : List String) :
    let t : StringTable hash := .ofCapacity capacity
    (∃ l, Replies hash ⟨∅, max capacity 1⟩ lines (ProbeTable.answers StringTable.feed t lines) l ∧
      Kept (lines.foldl (fun t line => (t.feed line).2) t) l) ∧
    ∀ (u : StringTable hash) (line : String) (ws : List String),
      Text.Spells line.toList (ws.map String.toList) →
      Command.vocabulary.lookup (Command.wordAt ws 0) = none →
      u.feed line = (.error ⟨Command.wordAt ws 0⟩, u) := by
  refine ⟨(kept_ofCapacity capacity).replies lines, fun u line ws hws hnone => ?_⟩
  rw [StringTable.feed, Command.ofLine_eq_ofWords hws, Command.ofWords, hnone]

/-- Two keys make four slots of one, and all four are listed; a blank line does nothing. -/
theorem replies_answers_feed_print :
    let lines := ["add a 1", "insert b", "print", " "]
    let outs := [.ok [], .ok [], .ok ["0: a = 1", "1: ", "2: b = ", "3: "], .error ⟨""⟩]
    (∃ l, Replies Text.hash ⟨∅, 1⟩ lines outs l) ∧
    Text.Spells " ".toList (([] : List String).map String.toList) ∧
    Command.vocabulary.lookup (Command.wordAt [] 0) = none ∧
    StringTable.feed (.ofCapacity 0 : StringTable) " " = (.error ⟨""⟩, .ofCapacity 0) := by
  intro lines outs
  have houts : ProbeTable.answers StringTable.feed (.ofCapacity 0 : StringTable) lines = outs := by
    decide +kernel
  have hblank : Text.Spells " ".toList (([] : List String).map String.toList) :=
    .nil fun c hc => by
      obtain rfl : c = ' ' := List.mem_singleton.mp hc
      decide
  have hnone : Command.vocabulary.lookup (Command.wordAt [] 0) = none := by decide
  obtain ⟨⟨l, hreplies, -⟩, hinvalid⟩ := replies_answers_feed Text.hash 0 lines
  exact ⟨⟨l, houts ▸ hreplies⟩, hblank, hnone, hinvalid _ _ _ hblank hnone⟩

end Ledger

end Reckoner
