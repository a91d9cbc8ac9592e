import Mathlib.Combinatorics.Enumerative.DoubleCounting
import Reckoner.Proofs.ProbeTable.Reachable

/-!
# Which slots are in use

Where a key is depends on what has happened to the table. Which slots are in use does not,
and neither does the sum of all displacements: both are determined by the keys and the
capacity (`Reckoner.ProbeTable.sameSlots_callAll`).

The ways of the keys, from home to slot, are looked at from the slots. A slot has its
*arrivals*, the keys that have it as their home, and its *crossings*, the keys whose way leads
over it and on to the next slot. What crosses a slot or arrives at the next one goes on to
cross the next one, except for the one key that stays there, if that slot is in use
(`Reckoner.ProbeTable.Layout.crossings_after`). So the crossings of a slot determine those of
the next one, by a rule that mentions no more than the homes and grows with its argument.

On a circle such a rule does not have to have one solution only. Here it has: a table has an
empty slot, no way leads over that, and counted from there the crossings are the least that the
rule allows. The same holds of any other table with these keys and this capacity, counted from
another slot, so that neither has more crossings than the other
(`Reckoner.ProbeTable.Rearranged.crossings_le`).
-/

namespace Reckoner

namespace ProbeTable

open Columns

variable {κ υ : Type} {hash : κ → UInt64} {t u : ProbeTable κ υ hash}

/-- The steps between home and slot of every entry, in the order of the slots. -/
def displacements (t : ProbeTable κ υ hash) : List Nat :=
  t.slotList.filterMap (·.displacement? t.capacity)

/-- The next slot tells which slot it is next to. -/
theorem after_inj {i j : Nat} (hi : i < t.capacity) (hj : j < t.capacity)
    (h : t.after i = t.after j) : i = j :=
  (Nat.ModEq.add_right_cancel' 1 h).eq_of_lt_of_lt hi hj

variable [DecidableEq κ]

/-- **The keys of a table.** -/
def keySet (t : ProbeTable κ υ hash) : Finset κ := (t.toList.map (·.1)).toFinset

theorem mem_keySet {k : κ} : k ∈ t.keySet ↔ ∃ v, t.Holds k v := by
  rw [keySet, List.mem_toFinset, List.mem_map]
  constructor
  · rintro ⟨⟨l, v⟩, h, rfl⟩
    exact ⟨v, mem_toList_iff.mp h⟩
  · rintro ⟨v, h⟩
    exact ⟨(k, v), mem_toList_iff.mpr h, rfl⟩

/-- A table in use has the keys that are found. -/
theorem Sound.mem_keySet_iff (ht : t.Sound) {k : κ} : k ∈ t.keySet ↔ t.contains k := by
  rw [mem_keySet, contains_eq_isSome, Option.isSome_iff_exists]
  exact exists_congr fun v => (ht.find?_eq_some_iff ht.room).symm

/-- Its size is the number of its keys. -/
theorem Sound.card_keySet (ht : t.Sound) : t.keySet.card = t.size := by
  rw [keySet, List.toFinset_card_of_nodup ht.nodup_keys, List.length_map, length_toList, ht.size_eq]

/-! ### Ways that cross a slot -/

/-- **The way of a key crosses a slot** if it leads over the slot and on to the next. -/
def Crosses (t : ProbeTable κ υ hash) (k : κ) (i : Nat) : Prop :=
  ∃ j < t.reach k, t.probe (t.home k) j = i

instance (t : ProbeTable κ υ hash) (k : κ) (i : Nat) : Decidable (t.Crosses k i) :=
  inferInstanceAs (Decidable (∃ j < t.reach k, t.probe (t.home k) j = i))

/-- **The crossings of a slot**: the number of keys whose way crosses it. -/
def crossings (t : ProbeTable κ υ hash) (i : Nat) : Nat := (t.keySet.filter (t.Crosses · i)).card

/-- The number of keys that have a slot as their home. -/
def arrivals (t : ProbeTable κ υ hash) (i : Nat) : Nat := (t.keySet.filter (t.home · = i)).card

/-- No way leads over an empty slot. -/
theorem crossings_eq_zero {i : Nat} (hi : ¬t.InUse i) : t.crossings i = 0 := by
  rw [crossings, Finset.card_eq_zero, Finset.filter_eq_empty_iff]
  rintro k - ⟨j, hj, rfl⟩
  exact hi (inUse_of_lt_reach hj)

/-- A way comes to a slot from the one before it, or begins there. -/
theorem crosses_or_home_eq_iff {k : κ} {i : Nat} (hi : i < t.capacity) :
    t.Crosses k i ∨ t.home k = t.after i ↔
      ∃ j ≤ t.reach k, t.probe (t.home k) j = t.after i := by
  have hpos : 0 < t.capacity := i.zero_le.trans_lt hi
  constructor
  · rintro (⟨j, hj, rfl⟩ | h)
    · exact ⟨j + 1, hj, (t.after_probe _ j).symm⟩
    · exact ⟨0, Nat.zero_le _, (probe_zero (home_lt hpos k)).trans h⟩
  · rintro ⟨_ | j, hj, h⟩
    · exact .inr ((probe_zero (home_lt hpos k)).symm.trans h)
    · rw [← after_probe] at h
      exact .inl ⟨j, hj, after_inj (probe_lt hpos _ _) hi h⟩

/-- It goes on from a slot to the next one, or ends there. -/
theorem crosses_or_locate_eq_iff {k : κ} {i : Nat} :
    t.Crosses k i ∨ t.locate k = i ↔ ∃ j ≤ t.reach k, t.probe (t.home k) j = i := by
  constructor
  · rintro (⟨j, hj, h⟩ | h)
    · exact ⟨j, hj.le, h⟩
    · exact ⟨t.reach k, le_rfl, h⟩
  · rintro ⟨j, hj, h⟩
    rcases hj.lt_or_eq with hlt | rfl
    · exact .inl ⟨j, hlt, h⟩
    · exact .inr h

/-- Not both, on the way to a slot: that would be a way around the whole table. -/
theorem not_crosses_of_home_eq (hroom : t.occupied < t.capacity) {k : κ} {i : Nat}
    (h : t.home k = t.after i) : ¬t.Crosses k i := by
  rintro ⟨j, hj, rfl⟩
  have hreach := (reach_lt hroom k).1
  have hpos : 0 < t.capacity := (Nat.zero_le _).trans_lt hroom
  rw [after_probe] at h
  have hstart : t.probe (t.home k) 0 = t.probe (t.home k) (j + 1) :=
    (probe_zero (home_lt hpos k)).trans h
  exact (Nat.succ_ne_zero j).symm (probe_inj hpos (by omega) hstart)

theorem not_crosses_locate (hroom : t.occupied < t.capacity) (k : κ) :
    ¬t.Crosses k (t.locate k) := by
  rintro ⟨j, hj, h⟩
  have hreach := (reach_lt hroom k).1
  exact hj.ne (probe_inj (hj.trans hreach) hreach h)

namespace Layout

/-- One key stays in a slot in use, and none in an empty one. -/
theorem card_filter_locate_eq (ht : t.Layout) (i : Nat) :
    (t.keySet.filter (t.locate · = i)).card = (t.entry? i).toList.length := by
  have hlocate : ∀ {k}, k ∈ t.keySet → ∃ v, t.entry? (t.locate k) = some (k, v) := fun hk => by
    obtain ⟨v, j, hj⟩ := mem_keySet.mp hk
    exact ⟨v, by rw [ht.locate_eq hj, hj]⟩
  rcases hi : t.entry? i with _ | ⟨k, v⟩
  · rw [Option.toList_none, List.length_nil, Finset.card_eq_zero, Finset.filter_eq_empty_iff]
    rintro k hk rfl
    obtain ⟨v, hv⟩ := hlocate hk
    rw [hi] at hv
    cases hv
  · rw [Option.toList_some, List.length_singleton, Finset.card_eq_one]
    refine ⟨k, Finset.eq_singleton_iff_unique_mem.mpr ⟨?_, fun l hl => ?_⟩⟩
    · exact Finset.mem_filter.mpr ⟨mem_keySet.mpr ⟨v, i, hi⟩, ht.locate_eq hi⟩
    · obtain ⟨hmem, rfl⟩ := Finset.mem_filter.mp hl
      obtain ⟨w, hw⟩ := hlocate hmem
      rw [hi] at hw
      cases hw
      rfl

/-- **From one slot to the next**: what crosses a slot or arrives at the next one crosses the
next one, but for the key that stays there. -/
theorem crossings_after (ht : t.Layout) (hroom : t.occupied < t.capacity) {i : Nat}
    (hi : i < t.capacity) :
    t.crossings (t.after i) + (t.entry? (t.after i)).toList.length =
      t.crossings i + t.arrivals (t.after i) := by
  have hout : Disjoint (t.keySet.filter (t.Crosses · (t.after i)))
      (t.keySet.filter (t.locate · = t.after i)) := by
    refine Finset.disjoint_filter.mpr ?_
    rintro k - hcross hlocate
    exact not_crosses_locate hroom k (hlocate ▸ hcross)
  have hin : Disjoint (t.keySet.filter (t.Crosses · i))
      (t.keySet.filter (t.home · = t.after i)) := by
    refine Finset.disjoint_filter.mpr ?_
    rintro k - hcross hhome
    exact not_crosses_of_home_eq hroom hhome hcross
  -- both sides count the keys whose way leads to the next slot at all
  rw [crossings, crossings, arrivals, ← ht.card_filter_locate_eq,
    ← Finset.card_union_of_disjoint hout, ← Finset.card_union_of_disjoint hin, ← Finset.filter_or,
    ← Finset.filter_or]
  refine congrArg Finset.card (Finset.filter_congr fun k _ => ?_)
  rw [crosses_or_locate_eq_iff, crosses_or_home_eq_iff hi]

/-! ### The sum of the displacements -/

/-- A key is displaced by the steps of the search for it. -/
theorem displacements_eq (ht : t.Layout) (hroom : t.occupied < t.capacity) :
    t.displacements = t.toList.map fun e => t.reach e.1 := by
  rw [displacements, slotList_eq, toList_eq_filterMap, List.filterMap_map, List.map_filterMap]
  refine List.filterMap_congr fun i _ => ?_
  rcases hi : t.entry? i with _ | ⟨k, v⟩
  · simp [Slot.displacement?, hi]
  · have hhome : t.home k < t.capacity := home_lt ((Nat.zero_le _).trans_lt hroom) k
    have hreach := sub_mod_eq hhome (reach_lt hroom k).1 (ht.locate_eq hi)
    simp [Slot.displacement?, hi, hreach]

/-- Every key is displaced once. -/
theorem sum_displacements (ht : t.Layout) (hroom : t.occupied < t.capacity) :
    t.displacements.sum = ∑ k ∈ t.keySet, t.reach k := by
  rw [ht.displacements_eq hroom, keySet, List.sum_toFinset _ ht.nodup_keys, List.map_map]
  rfl

/-- A way crosses as many slots as it has steps. -/
theorem card_filter_crosses (hroom : t.occupied < t.capacity) (k : κ) :
    ((Finset.range t.capacity).filter (t.Crosses k ·)).card = t.reach k := by
  have hreach := (reach_lt hroom k).1
  have himage : (Finset.range t.capacity).filter (t.Crosses k ·) =
      (Finset.range (t.reach k)).image (t.probe (t.home k)) := by
    ext i
    rw [Finset.mem_filter, Finset.mem_image, Finset.mem_range]
    constructor
    · rintro ⟨-, j, hj, h⟩
      exact ⟨j, Finset.mem_range.mpr hj, h⟩
    · rintro ⟨j, hj, rfl⟩
      exact ⟨probe_lt ((Nat.zero_le _).trans_lt hroom) _ _, j, Finset.mem_range.mp hj, rfl⟩
  rw [himage, Finset.card_image_of_injOn, Finset.card_range]
  intro i hi j hj h
  rw [Finset.coe_range, Set.mem_Iio] at hi hj
  exact probe_inj (hi.trans hreach) (hj.trans hreach) h

/-- **The displacements add up to the crossings** of all slots. -/
theorem sum_displacements_eq_sum_crossings (ht : t.Layout) (hroom : t.occupied < t.capacity) :
    t.displacements.sum = ∑ i ∈ Finset.range t.capacity, t.crossings i := by
  rw [ht.sum_displacements hroom]
  calc ∑ k ∈ t.keySet, t.reach k
      = ∑ k ∈ t.keySet, ((Finset.range t.capacity).filter (t.Crosses k ·)).card :=
        Finset.sum_congr rfl fun k _ => (card_filter_crosses hroom k).symm
    _ = ∑ i ∈ Finset.range t.capacity, t.crossings i :=
        Finset.sum_card_bipartiteAbove_eq_sum_card_bipartiteBelow t.Crosses

end Layout

/-! ### Two tables with the same keys -/

/-- **The same keys in as many slots**, perhaps in another order. -/
structure Rearranged (t u : ProbeTable κ υ hash) : Prop where
  /-- The one is a table in use. -/
  left : t.Sound
  /-- So is the other. -/
  right : u.Sound
  /-- They have the same number of slots. -/
  capacity_eq : u.capacity = t.capacity
  /-- They have the same keys. -/
  keySet_eq : u.keySet = t.keySet

namespace Rearranged

theorem symm (h : t.Rearranged u) : u.Rearranged t :=
  ⟨h.right, h.left, h.capacity_eq.symm, h.keySet_eq.symm⟩

/-- **One rule for both tables** leads from the crossings of a slot to those of the next. -/
theorem crossings_after (h : t.Rearranged u) {i : Nat} (hi : i < t.capacity) :
    u.crossings (t.after i) + (u.entry? (t.after i)).toList.length =
      u.crossings i + t.arrivals (t.after i) := by
  have hafter : u.after i = t.after i := by rw [after, after, h.capacity_eq]
  have harrivals : u.arrivals (t.after i) = t.arrivals (t.after i) := by
    rw [arrivals, arrivals, h.keySet_eq]
    refine congrArg Finset.card (Finset.filter_congr fun k _ => ?_)
    rw [home_congr h.capacity_eq]
  have hnext := h.right.crossings_after h.right.room (hi.trans_eq h.capacity_eq.symm)
  rwa [hafter, harrivals] at hnext

/-- **Neither table has more crossings than the other.** -/
theorem crossings_le (h : t.Rearranged u) {i : Nat} (hi : i < t.capacity) :
    t.crossings i ≤ u.crossings i := by
  obtain ⟨e, he, hnone⟩ := exists_entry?_eq_none h.left.room
  obtain ⟨x, -, rfl⟩ := exists_probe_eq he hi
  clear hi
  -- by the number of the slot, counted from one that is empty in the first table
  induction x with
  | zero =>
    rw [probe_zero he, crossings_eq_zero (by simp [InUse, hnone])]
    exact Nat.zero_le _
  | succ x ih =>
    rw [← after_probe]
    have hx : t.probe e x < t.capacity := probe_lt h.left.capacity_pos e x
    by_cases huse : t.InUse (t.after (t.probe e x))
    · obtain ⟨d, hd⟩ := Option.isSome_iff_exists.mp huse
      have htnext := h.left.crossings_after h.left.room hx
      have hunext := h.crossings_after hx
      have hstay := Option.length_toList_le (o := u.entry? (t.after (t.probe e x)))
      rw [hd, Option.toList_some, List.length_singleton] at htnext
      omega
    · rw [crossings_eq_zero huse]
      exact Nat.zero_le _

/-- **The crossings are the same.** -/
theorem crossings_eq (h : t.Rearranged u) {i : Nat} (hi : i < t.capacity) :
    u.crossings i = t.crossings i :=
  Nat.le_antisymm (h.symm.crossings_le (hi.trans_eq h.capacity_eq.symm)) (h.crossings_le hi)

/-- **The same slots are in use.** -/
theorem inUse_iff (h : t.Rearranged u) (i : Nat) : t.InUse i ↔ u.InUse i := by
  rcases Nat.lt_or_ge i t.capacity with hi | hi
  · -- the slot is the next one of some other
    have hpos := h.left.capacity_pos
    obtain ⟨j, hj, rfl⟩ : ∃ j < t.capacity, t.after j = i :=
      ⟨t.probe i (t.capacity - 1), probe_lt hpos _ _, by
        rw [after_probe, Nat.sub_add_cancel hpos, probe_capacity hi]⟩
    have htnext := h.left.crossings_after h.left.room hj
    have hunext := h.crossings_after hj
    rw [h.crossings_eq hi, h.crossings_eq hj] at hunext
    have hstay : (t.entry? (t.after j)).toList.length = (u.entry? (t.after j)).toList.length := by
      omega
    rw [InUse, InUse]
    revert hstay
    cases t.entry? (t.after j) <;> cases u.entry? (t.after j) <;> simp
  · have hout : ∀ {w : ProbeTable κ υ hash}, w.capacity = t.capacity → ¬w.InUse i := by
      intro w hw huse
      obtain ⟨d, hd⟩ := Option.isSome_iff_exists.mp huse
      exact hi.not_gt ((lt_capacity_of_eq_some hd).trans_eq hw)
    exact iff_of_false (hout rfl) (hout h.capacity_eq)

/-- **The displacements have the same sum.** -/
theorem sum_displacements_eq (h : t.Rearranged u) :
    t.displacements.sum = u.displacements.sum := by
  rw [h.left.sum_displacements_eq_sum_crossings h.left.room,
    h.right.sum_displacements_eq_sum_crossings h.right.room, h.capacity_eq]
  exact Finset.sum_congr rfl fun i hi => (h.crossings_eq (Finset.mem_range.mp hi)).symm

end Rearranged

/-- **The slots in use do not depend on the past.** Whatever the hash, take any two tables, each
made by a sequence of calls of a new table of any capacity. If they have the same capacity in the
end and the same keys, then the same slots are in use in both, and the displacements have the
same sum, although a key may be in different slots. -/
theorem sameSlots_callAll (hash : κ → UInt64) (c c' : Nat) (cs cs' : List (Call κ υ)) :
    let t : ProbeTable κ υ hash := (ofCapacity c).callAll cs
    let u : ProbeTable κ υ hash := (ofCapacity c').callAll cs'
    u.capacity = t.capacity → u.keySet = t.keySet →
      (∀ i, t.InUse i ↔ u.InUse i) ∧ t.displacements.sum = u.displacements.sum := by
  intro t u hcap hkeys
  have h : t.Rearranged u :=
    ⟨(sound_ofCapacity c).callAll cs, (sound_ofCapacity c').callAll cs', hcap, hkeys⟩
  exact ⟨h.inUse_iff, h.sum_displacements_eq⟩

/-- With one home for all keys, the last of eight slots: a table of eight slots that has lost a
key, and one that has grown from a single slot and lost another. The two keys left are the other
way around in it, around the end of the table as before. -/
theorem sameSlots_callAll_around :
    let t : ProbeTable Nat Nat (fun _ => 7) :=
      (ofCapacity 8).callAll [.add 1 10, .add 2 20, .add 3 30, .remove 1]
    let u : ProbeTable Nat Nat (fun _ => 7) :=
      (ofCapacity 0).callAll [.add 3 1, .add 4 2, .add 2 3, .remove 4]
    (t.entry? 7 = some (2, 20) ∧ u.entry? 7 = some (3, 1)) ∧
      (u.capacity = t.capacity ∧ u.keySet = t.keySet) ∧
      (∀ i, t.InUse i ↔ u.InUse i) ∧ t.displacements.sum = u.displacements.sum := by
  intro t u
  have hcap : u.capacity = t.capacity := by decide +kernel
  have hkeys : u.keySet = t.keySet := by decide +kernel
  refine ⟨?_, ⟨hcap, hkeys⟩, ?_⟩
  · decide +kernel
  · exact sameSlots_callAll (fun _ => 7) 8 0 [.add 1 10, .add 2 20, .add 3 30, .remove 1]
      [.add 3 1, .add 4 2, .add 2 3, .remove 4] hcap hkeys

end ProbeTable

end Reckoner
