import Mathlib.Order.Basic
import Reckoner.ProbeTable

/-!
# A table as one array of entries

The columns of a table agree, so what is in a slot can be said at once: nothing, or an entry. This
is the view of a table from here on, and `Reckoner.ProbeTable.write` is the one way in which its
slots change: with an entry a key and a value are written, and without one both are taken away.

The operations work on the columns. What each of them does to the entries is said here, once, by an
equation (`Reckoner.ProbeTable.resize_eq`, `Reckoner.ProbeTable.add_of_eq_some`,
`Reckoner.ProbeTable.add_of_eq_none`, `Reckoner.ProbeTable.repair_succ`,
`Reckoner.ProbeTable.remove_of_eq_some`, `Reckoner.ProbeTable.remove_of_eq_none`). No proof below
looks at the columns again but to say that they agree.
-/

namespace Reckoner

namespace Columns

variable {κ υ : Type} {hash : κ → UInt64}

/-- Writing the key that is there changes nothing. -/
theorem setKey_of_key? {c : Columns κ υ hash} {i : Nat} {k? : Option κ} (h : c.key? i = k?) :
    c.setKey i k? = c := by
  subst h
  have hkeys : c.keys.setIfInBounds i (c.key? i) = c.keys := Array.ext_getElem? fun j => by
    rw [Array.getElem?_setIfInBounds]
    split
    · next hij =>
      subst hij
      split
      · next hi => simp [key?, Array.getD, hi]
      · next hi => rw [Array.getElem?_eq_none (Nat.le_of_not_lt hi)]
    · rfl
  rw [setKey, hkeys]

end Columns

namespace ProbeTable

open Columns

variable {κ υ : Type} {hash : κ → UInt64} {t u : ProbeTable κ υ hash}

/-- **A table is its columns.** -/
theorem eq_of_toColumns_eq (h : u.toColumns = t.toColumns) : u = t := by
  cases u
  cases t
  cases h
  rfl

/-! ### Entries -/

/-- The entry of a slot, if there is one. -/
def entry? (t : ProbeTable κ υ hash) (i : Nat) : Option (κ × υ) := entryOf (t.key? i, t.value? i)

/-- The slots, each empty or with an entry. -/
def slots (t : ProbeTable κ υ hash) : Array (Option (κ × υ)) := (t.pairs.map entryOf).toArray

/-- The key in a slot is that of its entry. -/
theorem key?_eq (t : ProbeTable κ υ hash) (i : Nat) : t.key? i = (t.entry? i).map (·.1) := by
  have h : (t.value? i).isSome = (t.key? i).isSome := t.aligned.isSome_eq i
  unfold entry?
  revert h
  cases t.key? i <;> cases t.value? i <;> simp [entryOf]

/-- So is the value. -/
theorem value?_eq (t : ProbeTable κ υ hash) (i : Nat) : t.value? i = (t.entry? i).map (·.2) := by
  have h : (t.value? i).isSome = (t.key? i).isSome := t.aligned.isSome_eq i
  unfold entry?
  revert h
  cases t.key? i <;> cases t.value? i <;> simp [entryOf]

theorem isSome_key? (t : ProbeTable κ υ hash) (i : Nat) :
    (t.key? i).isSome = (t.entry? i).isSome := by
  rw [key?_eq, Option.isSome_map]

theorem length_pairs (t : ProbeTable κ υ hash) : t.pairs.length = t.capacity := by
  rw [pairs, List.length_zip, Array.length_toList, Array.length_toList, t.aligned.size_eq,
    Nat.min_self, capacity]

theorem size_slots (t : ProbeTable κ υ hash) : t.slots.size = t.capacity := by
  rw [slots, List.size_toArray, List.length_map, length_pairs]

/-- In each of the slots is its entry. -/
theorem getElem_slots (t : ProbeTable κ υ hash) {i : Nat} (hi : i < t.slots.size) :
    t.slots[i] = t.entry? i := by
  have hkeys : i < t.keys.size := hi.trans_eq t.size_slots
  have hvalues : i < t.values.size := hkeys.trans_eq t.aligned.size_eq.symm
  simp [slots, pairs, entry?, key?, value?, Array.getD, hkeys, hvalues]

theorem entry?_def (t : ProbeTable κ υ hash) (i : Nat) : t.entry? i = t.slots[i]?.getD none := by
  rcases Nat.lt_or_ge i t.slots.size with hi | hi
  · rw [Array.getElem?_eq_getElem hi, getElem_slots, Option.getD_some]
  · have hkeys : ¬i < t.keys.size := Nat.not_lt.mpr (t.size_slots.symm.trans_le hi)
    rw [Array.getElem?_eq_none hi, entry?, key?, Array.getD, dif_neg hkeys]
    rfl

theorem toList_eq (t : ProbeTable κ υ hash) : t.toList = t.slots.toList.filterMap id := by
  rw [toList, slots, List.filterMap_map]
  rfl

/-- All slots are shown in order, each with its entry and the home of its key. -/
theorem slotList_eq_map_zipIdx (t : ProbeTable κ υ hash) :
    t.slotList = t.slots.toList.zipIdx.map fun (e, i) => ⟨i, e, e.map fun d => t.home d.1⟩ := by
  rw [slotList, slots, List.zipIdx_map, List.map_map]
  refine List.map_congr_left fun ⟨⟨k?, v?⟩, i⟩ he => ?_
  have h := t.aligned.pairs (k?, v?) (List.fst_mem_of_mem_zipIdx he)
  revert h
  cases k? <;> cases v? <;> simp [entryOf]

/-! ### Writing an entry -/

/-- The table with another content of one slot. -/
def write (t : ProbeTable κ υ hash) (i : Nat) (e : Option (κ × υ)) : ProbeTable κ υ hash :=
  ⟨(t.setKey i (e.map (·.1))).setValue i (e.map (·.2)),
    t.aligned.set i (by rw [Option.isSome_map, Option.isSome_map])⟩

/-- What is in a slot after a slot has been written to. -/
theorem entry?_write (t : ProbeTable κ υ hash) (i j : Nat) (e : Option (κ × υ)) :
    entry? (t.write i e) j = if i = j ∧ i < t.capacity then e else t.entry? j := by
  have hkey : (t.write i e).key? j =
      if i = j ∧ i < t.capacity then e.map (·.1) else t.key? j := getD_setIfInBounds ..
  have hvalue : (t.write i e).value? j =
      if i = j ∧ i < t.capacity then e.map (·.2) else t.value? j := by
    rw [capacity, ← t.aligned.size_eq]
    exact getD_setIfInBounds ..
  unfold entry?
  rw [hkey, hvalue]
  split
  · cases e <;> rfl
  · rfl

theorem slots_write (t : ProbeTable κ υ hash) (i : Nat) (e : Option (κ × υ)) :
    (t.write i e).slots = t.slots.setIfInBounds i e := by
  have hcap : (t.write i e).capacity = t.capacity := Array.size_setIfInBounds
  refine Array.ext (by rw [size_slots, Array.size_setIfInBounds, size_slots, hcap])
    fun j hj hj' => ?_
  have hjslots : j < t.slots.size := by rwa [Array.size_setIfInBounds] at hj'
  have hjcap : j < t.capacity := hjslots.trans_eq t.size_slots
  rw [getElem_slots, entry?_write, Array.getElem_setIfInBounds hjslots, getElem_slots]
  by_cases hij : i = j
  · subst hij
    rw [if_pos ⟨rfl, hjcap⟩, if_pos rfl]
  · rw [if_neg (fun h => hij h.1), if_neg hij]

variable [DecidableEq κ]

theorem find?_def (t : ProbeTable κ υ hash) (k : κ) :
    t.find? k = (t.entry? (t.locate k)).map (·.2) := by
  rw [find?, Columns.find?, value?_eq]

theorem contains_def (t : ProbeTable κ υ hash) (k : κ) :
    t.contains k = (t.entry? (t.locate k)).isSome := by
  rw [contains, Columns.contains, isSome_key?]

theorem stops_eq_true_iff {k : κ} {i : Nat} :
    t.stops k i = true ↔ t.entry? i = none ∨ ∃ v, t.entry? i = some (k, v) := by
  unfold stops
  rw [key?_eq]
  rcases t.entry? i with _ | ⟨l, v⟩ <;> simp

/-! ### Placing and growing -/

/-- An entry written where the search for its key ends. -/
def place (t : ProbeTable κ υ hash) (k : κ) (v : υ) : ProbeTable κ υ hash :=
  t.write (t.locate k) (some (k, v))

/-- Entries placed one after the other. -/
def placeAll (t : ProbeTable κ υ hash) (es : List (κ × υ)) : ProbeTable κ υ hash :=
  es.foldl (fun u e => u.place e.1 e.2) t

theorem placeAll_cons (t : ProbeTable κ υ hash) (e : κ × υ) (es : List (κ × υ)) :
    t.placeAll (e :: es) = (t.place e.1 e.2).placeAll es := rfl

theorem size_placeAll (t : ProbeTable κ υ hash) (es : List (κ × υ)) :
    (t.placeAll es).size = t.size := by
  induction es generalizing t with
  | nil => rfl
  | cons e es ih => exact ih (t.place e.1 e.2)

omit [DecidableEq κ] in
/-- As many empty slots as are asked for. -/
def blank (capacity size : Nat) : ProbeTable κ υ hash := ⟨.blank capacity size, .replicate _ _ rfl⟩

/-- The same entries in a table of another capacity. -/
def resize (t : ProbeTable κ υ hash) (capacity : Nat) : ProbeTable κ υ hash :=
  ⟨t.toColumns.resize capacity, t.aligned.resize capacity⟩

/-- The table with room for one more key. -/
def reserve (t : ProbeTable κ υ hash) : ProbeTable κ υ hash :=
  ⟨t.toColumns.reserve, t.aligned.reserve⟩

/-- The slots of a table with their keys and values are placed as its entries are. -/
theorem foldl_placePair (t : ProbeTable κ υ hash) {es : List (Option κ × Option υ)}
    (hes : ∀ e ∈ es, e.2.isSome = e.1.isSome) :
    es.foldl placePair t.toColumns = (t.placeAll (es.filterMap entryOf)).toColumns := by
  induction es generalizing t with
  | nil => rfl
  | cons e es ih =>
    obtain ⟨k?, v?⟩ := e
    have hslot := hes _ List.mem_cons_self
    have hrest : ∀ d ∈ es, d.2.isSome = d.1.isSome := fun d hd => hes d (List.mem_cons_of_mem _ hd)
    rcases k? with _ | k
    · exact ih t hrest
    · obtain ⟨v, rfl⟩ := Option.isSome_iff_exists.mp hslot
      exact ih (t.place k v) hrest

/-- **Growing** places the entries in the order of their slots. -/
theorem resize_eq (t : ProbeTable κ υ hash) (capacity : Nat) :
    t.resize capacity = (blank capacity t.size).placeAll t.toList :=
  eq_of_toColumns_eq (foldl_placePair (blank capacity t.size) t.aligned.pairs)

theorem reserve_eq (t : ProbeTable κ υ hash) :
    t.reserve = if 2 * (t.size + 1) > t.capacity then t.resize (2 * t.capacity) else t := by
  refine eq_of_toColumns_eq ?_
  show t.toColumns.reserve = _
  unfold Columns.reserve
  split <;> rfl

theorem size_reserve (t : ProbeTable κ υ hash) : t.reserve.size = t.size := by
  rw [reserve_eq]
  split
  · rw [resize_eq, size_placeAll]
    rfl
  · rfl

/-! ### Adding -/

/-- What is added to the columns of a table is added to the table. -/
theorem add_eq_of_toColumns {k : κ} {v : υ} {v? : Option υ}
    (h : t.toColumns.add k v = (v?, u.toColumns)) : t.add k v = (v?, u) :=
  Prod.ext (congrArg Prod.fst h :) (eq_of_toColumns_eq (congrArg Prod.snd h :))

/-- **A new key** is placed, with its value, in a table with room for it. -/
theorem add_of_eq_none {k : κ} (h : t.entry? (t.locate k) = none) (v : υ) :
    t.add k v = (none, { t.reserve.place k v with size := t.size + 1 }) := by
  have hkey : ¬(t.key? (t.locate k)).isSome := by rw [isSome_key?, h]; simp
  have hadd : t.toColumns.add k v =
      (none, { t.toColumns.reserve.place k (some v) with size := t.reserve.size + 1 }) :=
    if_neg hkey
  rw [size_reserve] at hadd
  exact add_eq_of_toColumns hadd

/-- **A key that is there** keeps its slot, and has another value. -/
theorem add_of_eq_some {k : κ} {w : υ} (h : t.entry? (t.locate k) = some (k, w)) (v : υ) :
    t.add k v = (some w, t.place k v) := by
  have hkey : t.key? (t.locate k) = some k := by rw [key?_eq, h]; rfl
  have hvalue : t.value? (t.locate k) = some w := by rw [value?_eq, h]; rfl
  have hadd : t.toColumns.add k v =
      (t.value? (t.locate k), t.toColumns.setValue (t.locate k) (some v)) :=
    if_pos (Option.isSome_iff_exists.mpr ⟨k, hkey⟩)
  have hplace : (t.place k v).toColumns = t.toColumns.setValue (t.locate k) (some v) :=
    congrArg (Columns.setValue · (t.locate k) (some v)) (setKey_of_key? hkey)
  rw [hvalue, ← hplace] at hadd
  exact add_eq_of_toColumns hadd

/-! ### Repairing and removing -/

/-- The entry of a slot taken out and put back where the search for its key ends
then. -/
def reseat (t : ProbeTable κ υ hash) (i : Nat) : ProbeTable κ υ hash :=
  ⟨t.toColumns.reseat i, t.aligned.reseat i⟩

theorem reseat_of_eq_none {i : Nat} (h : t.entry? i = none) : t.reseat i = t := by
  have hkey : t.key? i = none := by rw [key?_eq, h]; rfl
  refine eq_of_toColumns_eq ?_
  show t.toColumns.reseat i = _
  rw [Columns.reseat, hkey]

theorem reseat_of_eq_some {i : Nat} {k : κ} {v : υ} (h : t.entry? i = some (k, v)) :
    t.reseat i = (t.write i none).place k v := by
  have hkey : t.key? i = some k := by rw [key?_eq, h]; rfl
  have hvalue : t.value? i = some v := by rw [value?_eq, h]; rfl
  refine eq_of_toColumns_eq ?_
  show t.toColumns.reseat i = _
  rw [Columns.reseat, hkey, hvalue]
  rfl

/-- **The repair behind a cleared slot**, from slot `i` on and for `n` slots at the most. -/
def repair (n i : Nat) (t : ProbeTable κ υ hash) : ProbeTable κ υ hash :=
  ⟨t.toColumns.repair n i, t.aligned.repair n i⟩

/-- **One step of a repair.** -/
theorem repair_succ (n i : Nat) (t : ProbeTable κ υ hash) :
    repair (n + 1) i t =
      if (t.entry? i).isSome then repair n (t.after i) (t.reseat i) else t := by
  refine eq_of_toColumns_eq ?_
  show t.toColumns.repair (n + 1) i = _
  rw [Columns.repair, isSome_key?]
  split <;> rfl

/-- What is removed from the columns of a table is removed from the table. -/
theorem remove_eq_of_toColumns {k : κ} {v? : Option υ}
    (h : t.toColumns.remove k = (v?, u.toColumns)) : t.remove k = (v?, u) :=
  Prod.ext (congrArg Prod.fst h :) (eq_of_toColumns_eq (congrArg Prod.snd h :))

theorem remove_of_eq_none {k : κ} (h : t.entry? (t.locate k) = none) :
    t.remove k = (none, t) := by
  have hkey : ¬(t.key? (t.locate k)).isSome := by rw [isSome_key?, h]; simp
  exact remove_eq_of_toColumns (if_neg hkey)

/-- **Removing a key** clears its slot and repairs the slots behind it. -/
theorem remove_of_eq_some {k l : κ} {v : υ} (h : t.entry? (t.locate k) = some (l, v)) :
    t.remove k = (some v, repair t.capacity (t.after (t.locate k))
      { t.write (t.locate k) none with size := t.size - 1 }) := by
  have hkey : (t.key? (t.locate k)).isSome := by rw [isSome_key?, h]; rfl
  have hvalue : t.value? (t.locate k) = some v := by rw [value?_eq, h]; rfl
  have hcap : (t.write (t.locate k) none).capacity = t.capacity := Array.size_setIfInBounds
  have hafter : (t.write (t.locate k) none).after (t.locate k) = t.after (t.locate k) := by
    rw [after, hcap, after]
  have hremove : t.toColumns.remove k = (t.value? (t.locate k),
      Columns.repair (t.write (t.locate k) none).capacity
        ((t.write (t.locate k) none).after (t.locate k))
        { (t.write (t.locate k) none).toColumns with size := t.size - 1 }) := if_pos hkey
  rw [hvalue, hcap, hafter] at hremove
  exact remove_eq_of_toColumns hremove

end ProbeTable

end Reckoner
