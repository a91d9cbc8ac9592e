import Reckoner.Proofs.ProbeTable.Slots

/-!
# Where searches end

A search is right if it ends at the entry of its key whenever there is one. That is
a property of where the entries are, `Reckoner.ProbeTable.Layout`: no key is in two
slots, and no slot between the home of a key and the slot of its entry is empty.

In a table so laid out that is not full,

* the search for a key that is held ends in its slot
  (`Reckoner.ProbeTable.Layout.locate_eq`);
* the search for any other key ends in an empty slot
  (`Reckoner.ProbeTable.entry?_locate_eq_none`);
* writing an entry where the search for its key ends keeps the layout
  (`Reckoner.ProbeTable.Layout.place`), in whatever way runs of entries meet.

The last of these does not ask whether the key was there before, so it serves the
addition of an entry, its replacement and the growth of the table alike.
-/

namespace Reckoner

namespace ProbeTable

open Columns

variable {κ υ : Type} {hash : κ → UInt64} {t u : ProbeTable κ υ hash}

/-- **A slot within reach of a key**: from the home of the key on there is no empty
slot before it. -/
def Reaches (t : ProbeTable κ υ hash) (k : κ) (i : Nat) : Prop :=
  ∃ d < t.capacity, t.probe (t.home k) d = i ∧
    ∀ j < d, t.InUse (t.probe (t.home k) j)

/-- **The layout of a table**: every key has one slot, and it is within reach. -/
structure Layout (t : ProbeTable κ υ hash) : Prop where
  /-- No key is in two slots. -/
  unique : ∀ {i j k v w}, t.entry? i = some (k, v) → t.entry? j = some (k, w) → i = j
  /-- Every key is within reach. -/
  reaches : ∀ {i k v}, t.entry? i = some (k, v) → t.Reaches k i

/-- A slot stays within reach as long as no slot is emptied. -/
theorem Reaches.mono {k : κ} {i : Nat} (h : t.Reaches k i) (hcap : u.capacity = t.capacity)
    (huse : ∀ j, t.InUse j → u.InUse j) : u.Reaches k i := by
  obtain ⟨d, hd, hi, hchain⟩ := h
  have hprobe : ∀ j, u.probe (u.home k) j = t.probe (t.home k) j := fun j => by
    rw [probe_congr hcap, home_congr hcap]
  exact ⟨d, hcap ▸ hd, (hprobe d).trans hi, fun j hj => hprobe j ▸ huse _ (hchain j hj)⟩

/-- A table without entries is laid out. -/
theorem Layout.of_entry?_eq_none (h : ∀ i, t.entry? i = none) : t.Layout :=
  ⟨fun hi => absurd hi (by simp [h]), fun hi => absurd hi (by simp [h])⟩

/-- No pair stands twice in the list of the entries, and no key either. -/
theorem Layout.nodup_keys (ht : t.Layout) : (t.toList.map (·.1)).Nodup := by
  rw [List.Nodup, List.pairwise_map, toList_eq_filterMap, List.pairwise_filterMap]
  refine List.nodup_range.imp ?_
  rintro i j hij ⟨k, v⟩ hk ⟨l, w⟩ hl (rfl : k = l)
  exact hij (ht.unique hk hl)

section Search

variable [DecidableEq κ]

/-! ### The end of a search -/

/-- A search does not go past a slot at which it can end. -/
theorem reachFrom_le {k : κ} {h n j d : Nat} (hj : j ≤ d) (hd : d < j + n)
    (hs : t.stops k (t.probe h d) = true) :
    t.reachFrom k h n j ≤ d ∧ t.stops k (t.probe h (t.reachFrom k h n j)) = true := by
  induction n generalizing j with
  | zero => omega
  | succ n ih =>
    rw [reachFrom]
    split
    · next hstop => exact ⟨hj, hstop⟩
    · next hgo =>
      rcases eq_or_lt_of_le hj with rfl | hlt
      · exact absurd hs hgo
      · exact ih hlt (by omega)

/-- A search has not been able to end before. -/
theorem stops_eq_false_of_lt {k : κ} {h n j i : Nat} (hj : j ≤ i)
    (hi : i < t.reachFrom k h n j) : t.stops k (t.probe h i) = false := by
  induction n generalizing j with
  | zero => exact absurd hi (by rw [reachFrom]; omega)
  | succ n ih =>
    rw [reachFrom] at hi
    split at hi
    · omega
    · next hgo =>
      rcases eq_or_lt_of_le hj with rfl | hlt
      · simpa using hgo
      · exact ih hlt hi

theorem reach_le {k : κ} {d : Nat} (hd : d < t.capacity)
    (hs : t.stops k (t.probe (t.home k) d) = true) :
    t.reach k ≤ d ∧ t.stops k (t.locate k) = true :=
  reachFrom_le (Nat.zero_le d) (by omega) hs

theorem inUse_of_lt_reach {k : κ} {j : Nat} (hj : j < t.reach k) :
    t.InUse (t.probe (t.home k) j) := by
  have h : t.stops k (t.probe (t.home k) j) = false := stops_eq_false_of_lt (Nat.zero_le j) hj
  rw [InUse, Option.isSome_iff_ne_none]
  intro hnone
  rw [stops_eq_true_iff.mpr (Or.inl hnone)] at h
  cases h

/-- In a table that is not full every search ends before it has seen all slots. -/
theorem reach_lt (hroom : t.occupied < t.capacity) (k : κ) :
    t.reach k < t.capacity ∧ t.stops k (t.locate k) = true := by
  obtain ⟨i, hi, hnone⟩ := exists_entry?_eq_none hroom
  obtain ⟨d, hd, rfl⟩ := exists_probe_eq (home_lt (i.zero_le.trans_lt hi) k) hi
  have h := reach_le hd (stops_eq_true_iff.mpr (Or.inl hnone))
  exact ⟨h.1.trans_lt hd, h.2⟩

theorem locate_lt (hroom : t.occupied < t.capacity) (k : κ) : t.locate k < t.capacity :=
  probe_lt ((Nat.zero_le _).trans_lt hroom) _ _

/-- **A search ends within reach** of its key. -/
theorem reaches_locate (hroom : t.occupied < t.capacity) (k : κ) : t.Reaches k (t.locate k) :=
  ⟨t.reach k, (reach_lt hroom k).1, rfl, fun _ => inUse_of_lt_reach⟩

/-- A search ends in an empty slot or in one that holds its key. -/
theorem entry?_locate (hroom : t.occupied < t.capacity) (k : κ) :
    t.entry? (t.locate k) = none ∨ ∃ v, t.entry? (t.locate k) = some (k, v) :=
  stops_eq_true_iff.mp (reach_lt hroom k).2

/-- **The search for a key that is not held ends in an empty slot.** -/
theorem entry?_locate_eq_none (hroom : t.occupied < t.capacity) {k : κ}
    (hk : ∀ v, ¬t.Holds k v) : t.entry? (t.locate k) = none :=
  (entry?_locate hroom k).resolve_right fun ⟨v, hv⟩ => hk v ⟨_, hv⟩

theorem contains_eq_isSome (t : ProbeTable κ υ hash) (k : κ) :
    t.contains k = (t.find? k).isSome := by
  rw [contains_def, find?_def, Option.isSome_map]

/-- What is in the slots after an entry has been placed. -/
theorem entry?_place (hroom : t.occupied < t.capacity) {k : κ} {v : υ} {j : Nat} {e : κ × υ} :
    entry? (t.place k v) j = some e ↔
      (j = t.locate k ∧ e = (k, v)) ∨ (j ≠ t.locate k ∧ t.entry? j = some e) := by
  constructor
  · intro h
    exact (entry?_write_eq_some h).imp_left fun ⟨hj, he⟩ => ⟨hj, (Option.some.inj he).symm⟩
  · rintro (⟨rfl, rfl⟩ | ⟨hj, he⟩)
    · exact entry?_write_self (locate_lt hroom k) _
    · rw [place, entry?_write_of_ne hj, he]

namespace Layout

/-- **The search for a key that is held ends in its slot.** -/
theorem locate_eq (ht : t.Layout) {i : Nat} {k : κ} {v : υ} (h : t.entry? i = some (k, v)) :
    t.locate k = i := by
  obtain ⟨d, hd, hi, hchain⟩ := ht.reaches h
  obtain ⟨hle, hstop⟩ := reach_le (k := k) hd (stops_eq_true_iff.mpr (Or.inr ⟨v, hi ▸ h⟩))
  rcases eq_or_lt_of_le hle with heq | hlt
  · rw [locate, heq, hi]
  · rcases stops_eq_true_iff.mp hstop with hnone | ⟨w, hw⟩
    · exact absurd (hchain _ hlt) (by rw [← locate, InUse, hnone]; simp)
    · exact ht.unique hw h

/-- **Finding a value** is holding it. -/
theorem find?_eq_some_iff (ht : t.Layout) (hroom : t.occupied < t.capacity) {k : κ} {v : υ} :
    t.find? k = some v ↔ t.Holds k v := by
  rw [find?_def, Option.map_eq_some_iff]
  constructor
  · rintro ⟨⟨l, w⟩, he, rfl⟩
    rcases entry?_locate hroom k with hnone | ⟨u, hu⟩
    · rw [hnone] at he
      cases he
    · rw [hu] at he
      cases he
      exact ⟨_, hu⟩
  · rintro ⟨i, hi⟩
    exact ⟨(k, v), by rw [ht.locate_eq hi, hi], rfl⟩

/-! ### Writing where a search ends -/

/-- **Placing an entry keeps the layout.** Another key of the table is not in the slot
written to: its own search would end there. -/
theorem place (ht : t.Layout) (hroom : t.occupied < t.capacity) (k : κ) (v : υ) :
    (t.place k v).Layout where
  unique {i j l w x} hi hj := by
    rcases (entry?_place hroom).mp hi with ⟨rfl, hlk⟩ | ⟨hni, hi'⟩
    · rcases (entry?_place hroom).mp hj with ⟨rfl, -⟩ | ⟨hnj, hj'⟩
      · rfl
      · cases hlk
        exact absurd (ht.locate_eq hj').symm hnj
    · rcases (entry?_place hroom).mp hj with ⟨rfl, hlk⟩ | ⟨-, hj'⟩
      · cases hlk
        exact absurd (ht.locate_eq hi').symm hni
      · exact ht.unique hi' hj'
  reaches {i l w} hi := by
    refine Reaches.mono (t := t) ?_ (capacity_write t _ _) fun j hj => hj.write
    rcases (entry?_place hroom).mp hi with ⟨rfl, hlk⟩ | ⟨-, hi'⟩
    · cases hlk
      exact reaches_locate hroom k
    · exact ht.reaches hi'

/-- **What is held after an entry has been placed**: for its key its value, and for
any other key what was held before. -/
theorem holds_place (ht : t.Layout) (hroom : t.occupied < t.capacity) {k l : κ} {v w : υ} :
    (t.place k v).Holds l w ↔ if l = k then w = v else t.Holds l w := by
  constructor
  · rintro ⟨i, hi⟩
    rcases (entry?_place hroom).mp hi with ⟨rfl, he⟩ | ⟨hni, hi'⟩
    · cases he
      rw [if_pos rfl]
    · rw [if_neg fun hlk => hni (hlk ▸ ht.locate_eq hi').symm]
      exact ⟨i, hi'⟩
  · intro h
    split at h
    · next hlk =>
      subst hlk h
      exact ⟨_, (entry?_place hroom).mpr (Or.inl ⟨rfl, rfl⟩)⟩
    · next hlk =>
      obtain ⟨i, hi⟩ := h
      refine ⟨i, (entry?_place hroom).mpr (Or.inr ⟨?_, hi⟩)⟩
      rintro rfl
      rcases entry?_locate hroom k with hnone | ⟨x, hx⟩
      · rw [hnone] at hi
        cases hi
      · rw [hx] at hi
        cases hi
        exact hlk rfl

end Layout

/-- Placing an entry with a new key takes up one slot. -/
theorem occupied_place_of_eq_none (hroom : t.occupied < t.capacity) {k : κ}
    (h : t.entry? (t.locate k) = none) (v : υ) : (t.place k v).occupied = t.occupied + 1 := by
  have hw := occupied_write (locate_lt hroom k) (some (k, v))
  rw [h] at hw
  simpa [place] using hw

/-- Replacing an entry takes up no slot. -/
theorem occupied_place_of_eq_some {k : κ} {e : κ × υ} (h : t.entry? (t.locate k) = some e)
    (v : υ) : (t.place k v).occupied = t.occupied := by
  have hw := occupied_write (lt_capacity_of_eq_some h) (some (k, v))
  rw [h] at hw
  simpa [place] using hw

@[simp] theorem capacity_place (t : ProbeTable κ υ hash) (k : κ) (v : υ) :
    (t.place k v).capacity = t.capacity := capacity_write _ _ _

@[simp] theorem size_place (t : ProbeTable κ υ hash) (k : κ) (v : υ) :
    (t.place k v).size = t.size := rfl

end Search

end ProbeTable

end Reckoner
