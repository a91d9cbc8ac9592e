import Reckoner.Proofs.ProbeTable.FiniteMap

/-!
# Tables that calls can leave

Every table that a sequence of calls makes of a new one is sound: each call keeps a sound
table sound (`Reckoner.ProbeTable.Sound.call`), whatever the repair of a removal does in
between.

The two arrays of a table are written to one after the other, and the calls are followed on the
arrays alone as well (`Reckoner.Columns.callAll`): they agree before and after each call
(`Reckoner.Columns.Aligned.callAll`), and they are the arrays of the table that the same calls leave
(`Reckoner.ProbeTable.toColumns_callAll`).

What follows can be seen from outside. The slots of a table are shown with the home of
their key and how far from it the entry is, and that many slots, all of them taken by other
keys, lie on the way from the one to the other (`Reckoner.ProbeTable.Layout.exists_displaced`). A
search ends in the slot of its key, or in an empty one if the table does not have the key.
-/

namespace Reckoner

namespace ProbeTable

open Columns

variable {κ υ : Type} {hash : κ → UInt64} {t : ProbeTable κ υ hash}

/-! ### Slots as they are shown -/

/-- Every slot is shown, in order, with its entry and the home of its key. -/
theorem slotList_eq (t : ProbeTable κ υ hash) :
    t.slotList = (List.range t.capacity).map fun i =>
      ⟨i, t.entry? i, (t.entry? i).map fun e => t.home e.1⟩ := by
  refine List.ext_getElem ?_ fun i _ _ => ?_
  · rw [slotList_eq_map_zipIdx, List.length_map, List.length_zipIdx, Array.length_toList,
      size_slots, List.length_map, List.length_range]
  · simp [slotList_eq_map_zipIdx, getElem_slots]

/-- **How far an entry is from home.** The number of steps shown is the number of slots that
lie between the home of a key and its slot, and other keys are in all of them. -/
structure Displaced (t : ProbeTable κ υ hash) (s : Slot κ υ) (k : κ) (d : Nat) : Prop where
  /-- The home of the key is shown. -/
  home?_eq : s.home? = some (t.home k)
  /-- So is the number of steps. -/
  displacement?_eq : s.displacement? t.capacity = some d
  /-- The way does not lead around the table more than once. -/
  lt_capacity : d < t.capacity
  /-- It leads to the slot. -/
  probe_eq : t.probe (t.home k) d = s.index
  /-- All slots before it are in use, by other keys. -/
  crosses : ∀ j < d, ∃ l v, t.entry? (t.probe (t.home k) j) = some (l, v) ∧ l ≠ k

/-- The number of steps from one slot to another. -/
theorem sub_mod_eq {c h d i : Nat} (hh : h < c) (hd : d < c) (hi : (h + d) % c = i) :
    (i + c - h) % c = d := by
  rcases Nat.lt_or_ge (h + d) c with hlt | hge
  · rw [Nat.mod_eq_of_lt hlt] at hi
    rw [← hi, show h + d + c - h = d + c by omega, Nat.add_mod_right, Nat.mod_eq_of_lt hd]
  · rw [Nat.mod_eq_sub_mod hge, Nat.mod_eq_of_lt (by omega)] at hi
    rw [← hi, show h + d - c + c - h = d by omega, Nat.mod_eq_of_lt hd]

/-- **Every slot in use is shown with its way from home.** -/
theorem Layout.exists_displaced (ht : t.Layout) {s : Slot κ υ} (hs : s ∈ t.slotList) {k : κ}
    {v : υ} (h : s.entry? = some (k, v)) : ∃ d, t.Displaced s k d := by
  rw [slotList_eq, List.mem_map] at hs
  obtain ⟨i, hi, rfl⟩ := hs
  have hentry : t.entry? i = some (k, v) := h
  obtain ⟨d, hd, hdi, hway⟩ := ht.reaches hentry
  have hhome : t.home k < t.capacity := home_lt (d.zero_le.trans_lt hd) k
  refine ⟨d, ?_, ?_, hd, hdi, fun j hj => ?_⟩
  · simp [hentry]
  · simp [Slot.displacement?, hentry, sub_mod_eq hhome hd hdi]
  · obtain ⟨⟨l, w⟩, hl⟩ := Option.isSome_iff_exists.mp (hway j hj)
    refine ⟨l, w, hl, ?_⟩
    rintro rfl
    have hslot := (ht.unique hl hentry).trans hdi.symm
    exact hj.ne (probe_inj (hj.trans hd) hd hslot)

/-! ### Sequences of calls -/

variable [DecidableEq κ]

/-- One call keeps a table sound. -/
theorem Sound.call (ht : t.Sound) (c : Call κ υ) : (t.call c).2.Sound := by
  cases c with
  | add k v => exact (ht.add k v).1
  | remove k => exact (ht.remove k).1
  | clear => exact ht.clear
  | find | contains | size | isEmpty | entries => exact ht

/-- **The table that a sequence of calls leaves.** -/
def callAll (t : ProbeTable κ υ hash) (cs : List (Call κ υ)) : ProbeTable κ υ hash :=
  cs.foldl (fun t c => (t.call c).2) t

/-- Any sequence of calls keeps a table sound. -/
theorem Sound.callAll (ht : t.Sound) (cs : List (Call κ υ)) : (t.callAll cs).Sound := by
  induction cs generalizing t with
  | nil => exact ht
  | cons c cs ih => exact ih (ht.call c)

end ProbeTable

/-! ### Calls of the two arrays -/

namespace Columns

open ProbeTable (Call Answer)

variable {κ υ : Type} [DecidableEq κ] {hash : κ → UInt64}

/-- **A call of two arrays**, whether they agree or not, and the arrays it leaves. -/
def call (a : Columns κ υ hash) : Call κ υ → Answer κ υ × Columns κ υ hash
  | .add k v => (.value (a.add k v).1, (a.add k v).2)
  | .remove k => (.value (a.remove k).1, (a.remove k).2)
  | .find k => (.value (a.find? k), a)
  | .contains k => (.truth (a.contains k), a)
  | .clear => (.done, a.clear)
  | .size => (.count a.size, a)
  | .isEmpty => (.truth a.isEmpty, a)
  | .entries => (.entries a.toList, a)

/-- The arrays that a sequence of calls leaves. -/
def callAll (a : Columns κ υ hash) (cs : List (Call κ υ)) : Columns κ υ hash :=
  cs.foldl (fun a c => (a.call c).2) a

namespace Aligned

variable {a : Columns κ υ hash}

/-- One call keeps two arrays in agreement. -/
theorem call (h : Aligned a.keys a.values) (c : Call κ υ) :
    Aligned (a.call c).2.keys (a.call c).2.values := by
  cases c with
  | add k v => exact h.add k v
  | remove k => exact h.remove k
  | clear => exact h.clear
  | find | contains | size | isEmpty | entries => exact h

/-- **Any sequence of calls keeps two arrays in agreement.** -/
theorem callAll (h : Aligned a.keys a.values) (cs : List (Call κ υ)) :
    Aligned (a.callAll cs).keys (a.callAll cs).values := by
  induction cs generalizing a with
  | nil => exact h
  | cons c cs ih => exact ih (h.call c)

end Aligned

end Columns

namespace ProbeTable

open Columns

variable {κ υ : Type} [DecidableEq κ] {hash : κ → UInt64}

/-- A call of a table is a call of its arrays, with the same answer. -/
theorem call_toColumns (t : ProbeTable κ υ hash) (c : Call κ υ) :
    t.toColumns.call c = ((t.call c).1, (t.call c).2.toColumns) := by
  cases c <;> rfl

/-- **The arrays of a table** go through the same calls. -/
theorem toColumns_callAll (t : ProbeTable κ υ hash) (cs : List (Call κ υ)) :
    (t.callAll cs).toColumns = t.toColumns.callAll cs := by
  induction cs generalizing t with
  | nil => rfl
  | cons c cs ih =>
    have hstep : (t.toColumns.call c).2 = (t.call c).2.toColumns :=
      congrArg Prod.snd (t.call_toColumns c)
    exact (ih (t.call c).2).trans (congrArg (Columns.callAll · cs) hstep.symm)

/-! ### Tables in use -/

/-- **What holds of every table in use.** Whatever the hash, the capacity asked for at first
and the calls since: the two arrays that the calls have written to are of the same length, which is
at least one, and there is a key in a place of the one exactly if there is a value in the same place
of the other. They are the arrays of a table; its size is the number of its slots in use; it is at
most half full; no key is in two slots, and from the home of a key to its slot all slots are in use.
So every slot is shown with the number of slots, all taken by other keys, that lie between it and
the home of its key; and a search ends in the slot of its key if there is one, and else in an empty
slot. -/
theorem sound_callAll_ofCapacity (hash : κ → UInt64) (c : Nat) (cs : List (Call κ υ)) :
    let a : Columns κ υ hash := (Columns.ofCapacity c).callAll cs
    let t : ProbeTable κ υ hash := (ofCapacity c).callAll cs
    (a.values.size = a.keys.size ∧ 1 ≤ a.keys.size ∧
      ∀ i, (a.keys.getD i none).isSome = (a.values.getD i none).isSome) ∧
    t.toColumns = a ∧
    t.Sound ∧
    (t.slotList.map (·.index) = List.range t.capacity ∧
      ∀ s ∈ t.slotList, s.entry? = t.entry? s.index ∧
        ∀ k v, s.entry? = some (k, v) → ∃ d, t.Displaced s k d) ∧
    ∀ k, (∀ i v, t.entry? i = some (k, v) → t.locate k = i) ∧
      ((∀ v, ¬t.Holds k v) → t.locate k < t.capacity ∧ t.entry? (t.locate k) = none) := by
  intro a t
  have ht : t.Sound := (sound_ofCapacity c).callAll cs
  have hcolumns : t.toColumns = a := toColumns_callAll (ofCapacity c) cs
  have ha : Aligned a.keys a.values := Aligned.callAll (.replicate _ _ rfl) cs
  refine ⟨⟨ha.size_eq, hcolumns ▸ ht.capacity_pos, fun i => (ha.isSome_eq i).symm⟩, hcolumns, ht,
    ⟨?_, ?_⟩, fun k => ?_⟩
  · rw [slotList_eq, List.map_map]
    exact List.map_id _
  · intro s hs
    refine ⟨?_, fun k v h => ht.exists_displaced hs h⟩
    rw [slotList_eq, List.mem_map] at hs
    obtain ⟨i, -, rfl⟩ := hs
    rfl
  · exact ⟨fun i v h => ht.locate_eq h,
      fun h => ⟨locate_lt ht.room k, entry?_locate_eq_none ht.room h⟩⟩

/-- With one home for all keys, at the last of eight slots, three keys run around the end;
when the first is removed, the others move up, and the last of them is one slot from home. -/
theorem sound_callAll_around :
    let t : ProbeTable Nat Nat (fun _ => 7) :=
      (ofCapacity 8).callAll [.add 1 10, .add 2 20, .add 3 30, .remove 1]
    (⟨0, some (3, 30), some 7⟩ ∈ t.slotList ∧
      ∃ d, t.Displaced ⟨0, some (3, 30), some 7⟩ 3 d) ∧
    (t.entry? 0 = some (3, 30) ∧ t.locate 3 = 0) ∧
    (∀ v, ¬t.Holds 1 v) ∧ t.locate 1 < t.capacity ∧ t.entry? (t.locate 1) = none := by
  intro t
  have hlist : t.toList = [(3, 30), (2, 20)] := by decide +kernel
  have hslots : t.slotList = (List.range 8).map fun i =>
      ⟨i, t.entry? i, (t.entry? i).map fun e => t.home e.1⟩ := slotList_eq t
  have hentry : t.entry? 0 = some (3, 30) := by decide +kernel
  have hmem : ⟨0, some (3, 30), some 7⟩ ∈ t.slotList := by
    rw [hslots, List.mem_map]
    exact ⟨0, by decide, by rw [hentry]; rfl⟩
  have hnone : ∀ v, ¬t.Holds 1 v := fun v h => by
    rw [← mem_toList_iff, hlist] at h
    simp at h
  obtain ⟨-, -, -, ⟨-, hshown⟩, hlocate⟩ := sound_callAll_ofCapacity (fun _ => 7) 8
    [.add 1 10, .add 2 20, .add 3 30, .remove 1]
  exact ⟨⟨hmem, (hshown _ hmem).2 _ _ rfl⟩, ⟨hentry, (hlocate 3).1 _ _ hentry⟩, hnone,
    (hlocate 1).2 hnone⟩

end ProbeTable

end Reckoner
