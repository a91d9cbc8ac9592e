import Mathlib.Data.Nat.ModEq
import Reckoner.Proofs.ProbeTable.Entries

/-!
# The slots of a table

What a table holds, slot by slot. The operations on a table are sequences of
`Reckoner.ProbeTable.write`, so the first thing to say of each is what it does to
the content of one slot and to the number of slots in use
(`Reckoner.ProbeTable.occupied`).

Two views of the content are used from here on. `Reckoner.ProbeTable.Holds` forgets
in which slot an entry is, and is what the operations are specified by.
`Reckoner.Columns.probe` counts slots around the end from a slot of one's choice;
every slot has exactly one number below the capacity
(`Reckoner.ProbeTable.exists_probe_eq`, `Reckoner.ProbeTable.probe_inj`), which turns
questions about a circle into questions about an interval.
-/

namespace Reckoner

namespace ProbeTable

open Columns

variable {κ υ : Type} {hash : κ → UInt64} {t u : ProbeTable κ υ hash}

/-! ### Reading and writing one slot -/

/-- A slot is **in use** if it is not empty. -/
def InUse (t : ProbeTable κ υ hash) (i : Nat) : Prop := (t.entry? i).isSome

theorem lt_capacity_of_eq_some {i : Nat} {e : κ × υ} (h : t.entry? i = some e) :
    i < t.capacity := by
  by_contra hi
  rw [entry?_def, Array.getElem?_eq_none (t.size_slots.trans_le (not_lt.mp hi))] at h
  cases h

@[simp] theorem capacity_write (t : ProbeTable κ υ hash) (i : Nat) (e : Option (κ × υ)) :
    (t.write i e).capacity = t.capacity := Array.size_setIfInBounds

@[simp] theorem home_write (t : ProbeTable κ υ hash) (i : Nat) (e : Option (κ × υ)) (k : κ) :
    (t.write i e).home k = t.home k := by
  rw [home, home, capacity_write]

@[simp] theorem probe_write (t : ProbeTable κ υ hash) (i : Nat) (e : Option (κ × υ)) (h j : Nat) :
    (t.write i e).probe h j = t.probe h j := by
  rw [probe, probe, capacity_write]

@[simp] theorem entry?_write_self {i : Nat} (hi : i < t.capacity) (e : Option (κ × υ)) :
    entry? (t.write i e) i = e := by
  rw [entry?_write, if_pos ⟨rfl, hi⟩]

theorem entry?_write_of_ne {i j : Nat} (h : j ≠ i) (e : Option (κ × υ)) :
    entry? (t.write i e) j = t.entry? j := by
  rw [entry?_write, if_neg fun hc => h hc.1.symm]

/-- An entry of a slot that has been written to is the one written, or one that
was there before in another slot. -/
theorem entry?_write_eq_some {i j : Nat} {e : Option (κ × υ)} {d : κ × υ}
    (h : entry? (t.write i e) j = some d) :
    (j = i ∧ e = some d) ∨ (j ≠ i ∧ t.entry? j = some d) := by
  rcases eq_or_ne j i with rfl | hne
  · have hj : j < t.capacity := by simpa using lt_capacity_of_eq_some h
    exact Or.inl ⟨rfl, by rwa [entry?_write_self hj] at h⟩
  · exact Or.inr ⟨hne, by rwa [entry?_write_of_ne hne] at h⟩

/-- A write of an entry empties no slot. -/
theorem InUse.write {i j : Nat} {d : κ × υ} (h : t.InUse j) : (t.write i (some d)).InUse j := by
  rcases eq_or_ne j i with rfl | hne
  · obtain ⟨c, hc⟩ := Option.isSome_iff_exists.mp h
    rw [InUse, entry?_write_self (lt_capacity_of_eq_some hc)]
    rfl
  · rwa [InUse, entry?_write_of_ne hne]

/-- Empty slots have no entries. -/
theorem entry?_blank (c n i : Nat) : entry? (blank c n : ProbeTable κ υ hash) i = none := by
  have hkey : (blank c n : ProbeTable κ υ hash).key? i = none := by
    rw [key?, Array.getD_eq_getD_getElem?]
    show (Array.replicate c none)[i]?.getD none = none
    rw [Array.getElem?_replicate]
    split <;> rfl
  unfold entry?
  rw [hkey]
  rfl

theorem capacity_blank (c n : Nat) : (blank c n : ProbeTable κ υ hash).capacity = c :=
  Array.size_replicate

theorem entry?_ofCapacity (c i : Nat) : entry? (ofCapacity c : ProbeTable κ υ hash) i = none :=
  entry?_blank (max c 1) 0 i

theorem capacity_ofCapacity (c : Nat) :
    (ofCapacity c : ProbeTable κ υ hash).capacity = max c 1 := capacity_blank (max c 1) 0

theorem clear_eq_blank (t : ProbeTable κ υ hash) : t.clear = blank t.capacity 0 := by
  refine eq_of_toColumns_eq ?_
  show t.toColumns.clear = Columns.blank t.capacity 0
  rw [Columns.clear, t.aligned.size_eq]
  rfl

theorem capacity_clear : t.clear.capacity = t.capacity := by
  rw [clear_eq_blank, capacity_blank]

theorem entry?_clear (t : ProbeTable κ υ hash) (i : Nat) : entry? t.clear i = none := by
  rw [clear_eq_blank, entry?_blank]

/-! ### The number of slots in use -/

/-- The number of slots that are not empty. -/
def occupied (t : ProbeTable κ υ hash) : Nat := t.slots.countP Option.isSome

theorem length_toList (t : ProbeTable κ υ hash) : t.toList.length = t.occupied := by
  rw [toList_eq, occupied, ← Array.countP_toList]
  induction t.slots.toList with
  | nil => rfl
  | cons e es ih => cases e <;> simpa using ih

theorem occupied_le_capacity (t : ProbeTable κ υ hash) : t.occupied ≤ t.capacity :=
  Array.countP_le_size.trans_eq t.size_slots

/-- A table that is not full has an empty slot. -/
theorem exists_entry?_eq_none (h : t.occupied < t.capacity) :
    ∃ i < t.capacity, t.entry? i = none := by
  by_contra hall
  refine h.ne ((Array.countP_eq_size.mpr fun e he => ?_).trans t.size_slots)
  obtain ⟨i, hi, rfl⟩ := Array.mem_iff_getElem.mp he
  by_contra hnone
  refine hall ⟨i, hi.trans_eq t.size_slots, ?_⟩
  rw [← getElem_slots t hi]
  exact Option.not_isSome_iff_eq_none.mp hnone

/-- A write changes the number of slots in use by the slot it writes to. -/
theorem occupied_write {i : Nat} (hi : i < t.capacity) (e : Option (κ × υ)) :
    (t.write i e).occupied + (t.entry? i).toList.length =
      t.occupied + e.toList.length := by
  have hi' : i < t.slots.size := hi.trans_eq t.size_slots.symm
  have hle : (if t.slots[i].isSome then 1 else 0) ≤ t.occupied := by
    split
    · next h => exact Array.countP_pos_iff.mpr ⟨t.slots[i], Array.getElem_mem hi', h⟩
    · exact Nat.zero_le _
  have hset : (t.write i e).occupied =
      t.occupied - (if t.slots[i].isSome then 1 else 0) + (if e.isSome then 1 else 0) := by
    rw [occupied, slots_write, Array.setIfInBounds, dif_pos hi', Array.countP_set]
    rfl
  rw [hset, ← getElem_slots t hi']
  revert hle
  cases t.slots[i] <;> cases e <;> simp <;> omega

theorem occupied_blank (c n : Nat) : (blank c n : ProbeTable κ υ hash).occupied = 0 := by
  rw [occupied, Array.countP_eq_zero]
  intro e he
  obtain ⟨i, hi, rfl⟩ := Array.mem_iff_getElem.mp he
  rw [getElem_slots, entry?_blank]
  simp

theorem occupied_ofCapacity (c : Nat) : (ofCapacity c : ProbeTable κ υ hash).occupied = 0 :=
  occupied_blank (max c 1) 0

theorem occupied_clear (t : ProbeTable κ υ hash) : t.clear.occupied = 0 := by
  rw [clear_eq_blank, occupied_blank]

/-! ### Entries wherever they are -/

/-- In order, the slots have these entries. -/
theorem toList_slots (t : ProbeTable κ υ hash) :
    t.slots.toList = (List.range t.capacity).map t.entry? := by
  refine List.ext_getElem (by simp [size_slots]) fun i hi _ => ?_
  rw [Array.getElem_toList, getElem_slots, List.getElem_map, List.getElem_range]

/-- The entries are those of the slots in order. -/
theorem toList_eq_filterMap (t : ProbeTable κ υ hash) :
    t.toList = (List.range t.capacity).filterMap t.entry? := by
  rw [toList_eq, toList_slots, List.filterMap_map]
  rfl

/-- **A table holds an entry** if one of its slots does. -/
def Holds (t : ProbeTable κ υ hash) (k : κ) (v : υ) : Prop := ∃ i, t.entry? i = some (k, v)

theorem mem_toList_iff {k : κ} {v : υ} : (k, v) ∈ t.toList ↔ t.Holds k v := by
  rw [toList_eq_filterMap, List.mem_filterMap]
  constructor
  · rintro ⟨i, -, hi⟩
    exact ⟨i, hi⟩
  · rintro ⟨i, hi⟩
    exact ⟨i, List.mem_range.mpr (lt_capacity_of_eq_some hi), hi⟩

/-! ### Counting slots around the end -/

theorem probe_lt (h : 0 < t.capacity) (i j : Nat) : t.probe i j < t.capacity := Nat.mod_lt _ h

theorem home_lt (h : 0 < t.capacity) (k : κ) : t.home k < t.capacity := Nat.mod_lt _ h

/-- Where a search leads depends on the slots by their number only. -/
theorem probe_congr (h : u.capacity = t.capacity) (i j : Nat) : u.probe i j = t.probe i j := by
  rw [probe, probe, h]

theorem home_congr (h : u.capacity = t.capacity) (k : κ) : u.home k = t.home k := by
  rw [home, home, h]

/-- Steps add up. -/
theorem probe_probe (t : ProbeTable κ υ hash) (h i j : Nat) :
    t.probe (t.probe h i) j = t.probe h (i + j) := by
  rw [probe, probe, probe, Nat.mod_add_mod, Nat.add_assoc]

theorem after_probe (t : ProbeTable κ υ hash) (h j : Nat) :
    t.after (t.probe h j) = t.probe h (j + 1) := t.probe_probe h j 1

theorem probe_zero {h : Nat} (hh : h < t.capacity) : t.probe h 0 = h := Nat.mod_eq_of_lt hh

/-- As many steps as there are slots lead back. -/
theorem probe_capacity {h : Nat} (hh : h < t.capacity) : t.probe h t.capacity = h := by
  rw [probe, Nat.add_mod_right, Nat.mod_eq_of_lt hh]

/-- Every slot has a number, counted from any other. -/
theorem exists_probe_eq {e i : Nat} (he : e < t.capacity) (hi : i < t.capacity) :
    ∃ x < t.capacity, t.probe e x = i := by
  rcases le_or_gt e i with h | h
  · exact ⟨i - e, by omega, by rw [probe, Nat.add_sub_cancel' h, Nat.mod_eq_of_lt hi]⟩
  · refine ⟨i + t.capacity - e, by omega, ?_⟩
    rw [probe, Nat.add_sub_cancel' (by omega), Nat.add_mod_right, Nat.mod_eq_of_lt hi]

/-- Every slot has one number only. -/
theorem probe_inj {e x y : Nat} (hx : x < t.capacity) (hy : y < t.capacity)
    (h : t.probe e x = t.probe e y) : x = y :=
  (Nat.ModEq.add_left_cancel' e h).eq_of_lt_of_lt hx hy

end ProbeTable

end Reckoner
