import Mathlib.Data.Finmap
import Reckoner.Proofs.ProbeTable.Repair

/-!
# Tables as finite maps

Seen from outside a table is a finite map. A `Reckoner.ProbeTable.Call` is what can be
asked of either, and `Reckoner.ProbeTable.answers_ofCapacity` is the statement that
nothing in the answers to a sequence of calls tells one from the other: not the hash,
not the capacity asked for at first, not the collisions, the growth and the repairs
in between.

The entries of a table come in the order of its slots, which a map does not have. So
the answer to a call for all entries is compared as a multiset, in which each pair of
the map has to stand once.
-/

namespace Reckoner

/-- A finite map. -/
abbrev FiniteMap (κ υ : Type) : Type := Finmap fun _ : κ => υ

namespace ProbeTable

open Columns

variable {κ υ : Type}

/-! ### Calls and their answers -/

/-- **A call** of a table, or of a finite map. -/
inductive Call (κ υ : Type)
  /-- A value for a key. -/
  | add (k : κ) (v : υ)
  /-- No value any more for a key. -/
  | remove (k : κ)
  /-- The value of a key. -/
  | find (k : κ)
  /-- Whether there is a value for a key. -/
  | contains (k : κ)
  /-- No values any more. -/
  | clear
  /-- The number of keys. -/
  | size
  /-- Whether there are no keys. -/
  | isEmpty
  /-- All entries. -/
  | entries

/-- **What a call returns.** -/
inductive Answer (κ υ : Type)
  /-- The value of a key, if it has or had one. -/
  | value (v? : Option υ)
  /-- Yes or no. -/
  | truth (b : Bool)
  /-- A number. -/
  | count (n : Nat)
  /-- Entries, in no order. -/
  | entries (es : Multiset (κ × υ))
  /-- Nothing. -/
  | done

/-- The answers to a sequence of calls, each of which leaves a state for the next. -/
def answers {σ γ α : Type} (step : σ → γ → α × σ) : σ → List γ → List α
  | _, [] => []
  | s, c :: cs => (step s c).1 :: answers step (step s c).2 cs

variable [DecidableEq κ]

/-- **A call of a table**, and the table it leaves. -/
def call {hash : κ → UInt64} (t : ProbeTable κ υ hash) :
    Call κ υ → Answer κ υ × ProbeTable κ υ hash
  | .add k v => (.value (t.add k v).1, (t.add k v).2)
  | .remove k => (.value (t.remove k).1, (t.remove k).2)
  | .find k => (.value (t.find? k), t)
  | .contains k => (.truth (t.contains k), t)
  | .clear => (.done, t.clear)
  | .size => (.count t.size, t)
  | .isEmpty => (.truth t.isEmpty, t)
  | .entries => (.entries t.toList, t)

/-- **The same call of a finite map**, and the map it leaves. -/
def callMap (m : FiniteMap κ υ) : Call κ υ → Answer κ υ × FiniteMap κ υ
  | .add k v => (.value (m.lookup k), m.insert k v)
  | .remove k => (.value (m.lookup k), m.erase k)
  | .find k => (.value (m.lookup k), m)
  | .contains k => (.truth (decide (k ∈ m)), m)
  | .clear => (.done, ∅)
  | .size => (.count m.keys.card, m)
  | .isEmpty => (.truth (decide (m.keys = ∅)), m)
  | .entries => (.entries (m.entries.map fun e => (e.1, e.2)), m)

/-! ### The map of a table -/

variable {hash : κ → UInt64} {t : ProbeTable κ υ hash} {m : FiniteMap κ υ}

/-- **A table in use stands for a map**, with the same value for every key. -/
structure Represents (t : ProbeTable κ υ hash) (m : FiniteMap κ υ) : Prop extends t.Sound where
  /-- The values are the same. -/
  holds_iff : ∀ {k v}, t.Holds k v ↔ m.lookup k = some v

namespace Represents

theorem find?_eq (h : t.Represents m) (k : κ) : t.find? k = m.lookup k :=
  Option.ext fun _ => (h.find?_eq_some_iff h.room).trans h.holds_iff

theorem contains_eq (h : t.Represents m) (k : κ) : t.contains k = decide (k ∈ m) := by
  rw [contains_eq_isSome, h.find?_eq, ← Bool.coe_iff_coe, Finmap.lookup_isSome, decide_eq_true_iff]

/-- **The entries of a table** are the pairs of its map, each of them once. -/
theorem toList_eq (h : t.Represents m) :
    (t.toList : Multiset (κ × υ)) = m.entries.map fun e => (e.1, e.2) := by
  have hinj : Function.Injective fun e : (_ : κ) × υ => (e.1, e.2) := by
    rintro ⟨k, v⟩ ⟨l, w⟩ he
    cases he
    rfl
  have hlist : (t.toList : Multiset (κ × υ)).Nodup :=
    Multiset.coe_nodup.mpr (.of_map _ h.nodup_keys)
  refine (Multiset.Nodup.ext hlist (m.nodup_entries.map hinj)).mpr fun ⟨k, v⟩ => ?_
  rw [Multiset.mem_coe, mem_toList_iff, h.holds_iff, Finmap.lookup_eq_some_iff, Multiset.mem_map]
  constructor
  · exact fun he => ⟨⟨k, v⟩, he, rfl⟩
  · rintro ⟨⟨l, w⟩, he, heq⟩
    cases heq
    exact he

/-- The size of a table is the number of keys of its map. -/
theorem size_eq_card (h : t.Represents m) : t.size = m.keys.card := by
  have hcard := congrArg Multiset.card h.toList_eq
  rw [Multiset.coe_card, Multiset.card_map, length_toList, ← h.size_eq] at hcard
  exact hcard.trans (Multiset.card_map Sigma.fst m.entries).symm

theorem isEmpty_eq (h : t.Represents m) : t.isEmpty = decide (m.keys = ∅) := by
  rw [isEmpty, h.size_eq_card, ← Bool.coe_iff_coe, beq_iff_eq, decide_eq_true_iff,
    Finset.card_eq_zero]

theorem ofCapacity (c : Nat) : (ofCapacity c : ProbeTable κ υ hash).Represents ∅ :=
  ⟨sound_ofCapacity c, fun {k v} => by simp [not_holds_ofCapacity]⟩

theorem clear (h : t.Represents m) : t.clear.Represents ∅ :=
  ⟨h.toSound.clear, fun {k v} => by simp [not_holds_clear]⟩

theorem add (h : t.Represents m) (k : κ) (v : υ) : (t.add k v).2.Represents (m.insert k v) := by
  obtain ⟨hsound, hholds⟩ := h.toSound.add k v
  refine ⟨hsound, fun {l x} => ?_⟩
  rw [hholds]
  split
  · next hlk =>
    subst hlk
    rw [Finmap.lookup_insert, Option.some.injEq, eq_comm]
  · next hlk => rw [Finmap.lookup_insert_of_ne _ hlk, h.holds_iff]

theorem remove (h : t.Represents m) (k : κ) : (t.remove k).2.Represents (m.erase k) := by
  obtain ⟨hsound, hholds⟩ := h.toSound.remove k
  refine ⟨hsound, fun {l x} => ?_⟩
  rw [hholds]
  rcases eq_or_ne l k with rfl | hlk
  · simp [Finmap.lookup_erase]
  · rw [Finmap.lookup_erase_ne hlk, h.holds_iff, and_iff_right hlk]

/-- **One call**: the answers are the same, and so is what is stood for afterwards. -/
theorem call (h : t.Represents m) (c : Call κ υ) :
    (t.call c).1 = (callMap m c).1 ∧ (t.call c).2.Represents (callMap m c).2 := by
  cases c with
  | add k v => exact ⟨congrArg Answer.value ((fst_add t k v).trans (h.find?_eq k)), h.add k v⟩
  | remove k => exact ⟨congrArg Answer.value ((fst_remove t k).trans (h.find?_eq k)), h.remove k⟩
  | find k => exact ⟨congrArg Answer.value (h.find?_eq k), h⟩
  | contains k => exact ⟨congrArg Answer.truth (h.contains_eq k), h⟩
  | clear => exact ⟨rfl, h.clear⟩
  | size => exact ⟨congrArg Answer.count h.size_eq_card, h⟩
  | isEmpty => exact ⟨congrArg Answer.truth h.isEmpty_eq, h⟩
  | entries => exact ⟨congrArg Answer.entries h.toList_eq, h⟩

/-- **Any sequence of calls** has the same answers. -/
theorem answers_eq (h : t.Represents m) (cs : List (Call κ υ)) :
    answers ProbeTable.call t cs = answers callMap m cs := by
  induction cs generalizing t m with
  | nil => rfl
  | cons c cs ih =>
    obtain ⟨hanswer, hrest⟩ := h.call c
    rw [answers, answers, hanswer, ih hrest]

end Represents

/-- **A table is a finite map.** Whatever the hash of the keys and the capacity asked for
at first, every sequence of calls of a new table returns what it returns of the empty
map. -/
theorem answers_ofCapacity (hash : κ → UInt64) (c : Nat) (cs : List (Call κ υ)) :
    answers call (ofCapacity c : ProbeTable κ υ hash) cs = answers callMap ∅ cs :=
  (Represents.ofCapacity c).answers_eq cs

end ProbeTable

end Reckoner
