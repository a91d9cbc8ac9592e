import Reckoner.Proofs.ProbeTable.Layout

/-!
# Growing and adding

A table in use is laid out, counts its entries, and is at most half full:
`Reckoner.ProbeTable.Sound`. Half full means that searches end, and that one
doubling always makes room for one more key.

A table grows by placing its entries, one after the other, in an empty table of
twice the capacity. What that does is said for any list of entries with different
keys (`Reckoner.ProbeTable.Layout.placeAll`); the order in which they are placed
decides where they go, but not what is held in the end.
-/

namespace Reckoner

namespace ProbeTable

open Columns

variable {κ υ : Type} {hash : κ → UInt64} {t u w : ProbeTable κ υ hash}

/-- **A table in use**: laid out, with the right count, and at most half full. -/
structure Sound (t : ProbeTable κ υ hash) : Prop extends t.Layout where
  /-- The size is the number of slots in use. -/
  size_eq : t.size = t.occupied
  /-- At least half of the slots are empty. -/
  load : 2 * t.size ≤ t.capacity
  /-- There is a slot. -/
  capacity_pos : 0 < t.capacity

theorem Sound.room (ht : t.Sound) : t.occupied < t.capacity := by
  have hload := ht.load
  have hpos := ht.capacity_pos
  rw [ht.size_eq] at hload
  omega

theorem sound_ofCapacity (c : Nat) : (ofCapacity c : ProbeTable κ υ hash).Sound where
  toLayout := .of_entry?_eq_none (entry?_ofCapacity c)
  size_eq := (occupied_ofCapacity c).symm
  load := Nat.zero_le _
  capacity_pos := by
    rw [capacity_ofCapacity]
    exact Nat.lt_of_lt_of_le Nat.one_pos (Nat.le_max_right c 1)

theorem Sound.clear (ht : t.Sound) : t.clear.Sound where
  toLayout := .of_entry?_eq_none (entry?_clear t)
  size_eq := (occupied_clear t).symm
  load := Nat.zero_le _
  capacity_pos := capacity_clear (t := t) ▸ ht.capacity_pos

theorem not_holds_blank (c n : Nat) (k : κ) (v : υ) :
    ¬(blank c n : ProbeTable κ υ hash).Holds k v := fun ⟨i, hi⟩ => by
  rw [entry?_blank] at hi
  cases hi

theorem not_holds_ofCapacity (c : Nat) (k : κ) (v : υ) :
    ¬(ofCapacity c : ProbeTable κ υ hash).Holds k v := not_holds_blank (max c 1) 0 k v

theorem not_holds_clear (t : ProbeTable κ υ hash) (k : κ) (v : υ) : ¬t.clear.Holds k v := by
  rw [clear_eq_blank]
  exact not_holds_blank t.capacity 0 k v

/-- **The same entries**, perhaps in other slots. -/
structure SameEntries (t u : ProbeTable κ υ hash) : Prop where
  /-- The count is the same. -/
  size_eq : u.size = t.size
  /-- The number of slots in use is the same. -/
  occupied_eq : u.occupied = t.occupied
  /-- The entries are the same. -/
  holds_iff : ∀ {k v}, u.Holds k v ↔ t.Holds k v

theorem SameEntries.refl (t : ProbeTable κ υ hash) : t.SameEntries t := ⟨rfl, rfl, Iff.rfl⟩

theorem SameEntries.trans (h : t.SameEntries u) (h' : u.SameEntries w) : t.SameEntries w :=
  ⟨h'.size_eq.trans h.size_eq, h'.occupied_eq.trans h.occupied_eq, h'.holds_iff.trans h.holds_iff⟩

variable [DecidableEq κ]

/-! ### Placing several entries -/

theorem capacity_placeAll (t : ProbeTable κ υ hash) (es : List (κ × υ)) :
    (t.placeAll es).capacity = t.capacity := by
  induction es generalizing t with
  | nil => rfl
  | cons e es ih => rw [placeAll_cons, ih, capacity_place]

namespace Layout

/-- **Placing entries with different new keys**, for which there is room: the layout
is kept, each of them takes up a slot, and they are held besides what was held. -/
theorem placeAll (ht : t.Layout) (es : List (κ × υ))
    (hroom : t.occupied + es.length ≤ t.capacity) (hkeys : (es.map (·.1)).Nodup)
    (hnew : ∀ e ∈ es, ∀ v, ¬t.Holds e.1 v) :
    (t.placeAll es).Layout ∧ (t.placeAll es).occupied = t.occupied + es.length ∧
      ∀ k v, (t.placeAll es).Holds k v ↔ t.Holds k v ∨ (k, v) ∈ es := by
  induction es generalizing t with
  | nil => exact ⟨ht, rfl, fun k v => by simp [ProbeTable.placeAll]⟩
  | cons e es ih =>
    obtain ⟨l, x⟩ := e
    rw [List.length_cons] at hroom
    have hlt : t.occupied < t.capacity := by omega
    have hl := hnew (l, x) List.mem_cons_self
    obtain ⟨hhead, htail⟩ := List.nodup_cons.mp hkeys
    have hocc := occupied_place_of_eq_none hlt (entry?_locate_eq_none hlt hl) x
    have hnew' : ∀ e ∈ es, ∀ v, ¬(t.place l x).Holds e.1 v := by
      intro e he v hv
      rw [ht.holds_place hlt] at hv
      split at hv
      · next heq => exact hhead (List.mem_map.mpr ⟨e, he, heq⟩)
      · exact hnew e (List.mem_cons_of_mem _ he) v hv
    obtain ⟨hlay, hocc', hholds⟩ := ih (ht.place hlt l x)
      (by rw [hocc, capacity_place]; omega) htail hnew'
    refine ⟨hlay, ?_, fun k v => ?_⟩
    · rw [placeAll_cons, hocc', hocc, List.length_cons]
      omega
    · rw [placeAll_cons, hholds, ht.holds_place hlt, List.mem_cons, Prod.mk.injEq]
      split
      · next hkl =>
        subst hkl
        simp [hl v]
      · next hkl => simp [hkl]

/-- **A table resized** to a capacity with a slot for every entry holds the same
entries. -/
theorem resize (ht : t.Layout) {c : Nat} (hc : t.occupied ≤ c) :
    (t.resize c).Layout ∧ (t.resize c).capacity = c ∧ t.SameEntries (t.resize c) := by
  have hblank : (blank c t.size : ProbeTable κ υ hash).Layout :=
    .of_entry?_eq_none (entry?_blank c t.size)
  have hcap : (blank c t.size : ProbeTable κ υ hash).capacity = c := capacity_blank c t.size
  have hocc : (blank c t.size : ProbeTable κ υ hash).occupied = 0 := occupied_blank c t.size
  have hnone : ∀ k v, ¬(blank c t.size : ProbeTable κ υ hash).Holds k v := not_holds_blank c t.size
  obtain ⟨hlay, hocc', hholds⟩ := hblank.placeAll t.toList
    (by rw [hocc, hcap, length_toList]; omega) ht.nodup_keys fun e _ v => hnone e.1 v
  rw [resize_eq]
  refine ⟨hlay, (capacity_placeAll _ _).trans hcap, size_placeAll _ _, ?_, fun {k v} => ?_⟩
  · exact hocc'.trans (by rw [hocc, length_toList, Nat.zero_add])
  · rw [hholds, mem_toList_iff]
    simp [hnone]

end Layout

/-! ### Adding an entry -/

/-- **Making room** for one more key leaves the table at most half full with it. -/
theorem Sound.reserve (ht : t.Sound) :
    t.reserve.Layout ∧ 2 * (t.size + 1) ≤ t.reserve.capacity ∧ t.SameEntries t.reserve := by
  have hload := ht.load
  have hpos := ht.capacity_pos
  have hroom := ht.room
  rw [reserve_eq]
  split
  · obtain ⟨hlay, hcap, hsame⟩ := ht.toLayout.resize (c := 2 * t.capacity) (by omega)
    exact ⟨hlay, by rw [hcap]; omega, hsame⟩
  · exact ⟨ht.toLayout, by omega, SameEntries.refl t⟩

/-- **Adding returns the value replaced.** -/
theorem fst_add (t : ProbeTable κ υ hash) (k : κ) (v : υ) : (t.add k v).1 = t.find? k := by
  show (t.toColumns.add k v).1 = _
  unfold Columns.add find? Columns.find?
  dsimp only
  split
  · rfl
  · next hkey =>
    rw [isSome_key?] at hkey
    rw [value?_eq, Option.not_isSome_iff_eq_none.mp hkey]
    rfl

/-- **Adding keeps a table sound**, and of the entries it changes that of its key
only. -/
theorem Sound.add (ht : t.Sound) (k : κ) (v : υ) :
    (t.add k v).2.Sound ∧
      ∀ l x, (t.add k v).2.Holds l x ↔ if l = k then x = v else t.Holds l x := by
  rcases entry?_locate ht.room k with he | ⟨old, he⟩
  · -- A new key: the entry is placed in a table that has been given room.
    have hnew : ∀ x, ¬t.Holds k x := fun x ⟨i, hi⟩ => by
      rw [← ht.locate_eq hi, he] at hi
      cases hi
    obtain ⟨hlay, hload, hsame⟩ := ht.reserve
    have hocc : t.reserve.occupied = t.size := hsame.occupied_eq.trans ht.size_eq.symm
    have hroom : t.reserve.occupied < t.reserve.capacity := by omega
    have hnone := entry?_locate_eq_none hroom fun x hx => hnew x (hsame.holds_iff.mp hx)
    have hadd : (t.add k v).2 = { t.reserve.place k v with size := t.size + 1 } := by
      rw [add_of_eq_none he]
    have hplace := hlay.place hroom k v
    have hcap : (t.reserve.place k v).capacity = t.reserve.capacity := capacity_place _ k v
    rw [hadd]
    refine ⟨⟨⟨hplace.unique, hplace.reaches⟩, ?_, hload.trans_eq hcap.symm, ?_⟩, fun l x => ?_⟩
    · exact (hocc ▸ occupied_place_of_eq_none hroom hnone v).symm
    · exact Nat.lt_of_lt_of_le (by omega) (hload.trans_eq hcap.symm)
    · refine (hlay.holds_place hroom).trans ?_
      rw [hsame.holds_iff]
  · -- A key that is there: its entry is replaced where it is.
    have hadd : (t.add k v).2 = t.place k v := by
      rw [add_of_eq_some he]
    rw [hadd]
    refine ⟨⟨ht.place ht.room k v, ?_, ?_, ?_⟩, fun l x => ht.holds_place ht.room⟩
    · rw [size_place, occupied_place_of_eq_some he, ht.size_eq]
    · rw [size_place, capacity_place]
      exact ht.load
    · rw [capacity_place]
      exact ht.capacity_pos

/-- So what is found behind is the value added, and for other keys what was found before. -/
theorem Sound.find?_add (ht : t.Sound) (k : κ) (v : υ) (l : κ) :
    (t.add k v).2.find? l = if l = k then some v else t.find? l := by
  obtain ⟨hsound, hholds⟩ := ht.add k v
  refine Option.ext fun x => ?_
  rw [hsound.find?_eq_some_iff hsound.room, hholds]
  split_ifs
  · rw [Option.some.injEq, eq_comm]
  · rw [ht.find?_eq_some_iff ht.room]

/-- Adding a key keeps the keys that were there before. -/
theorem Sound.contains_add (ht : t.Sound) (k : κ) (v : υ) (l : κ) :
    (t.add k v).2.contains l = (decide (l = k) || t.contains l) := by
  rw [contains_eq_isSome, contains_eq_isSome, ht.find?_add]
  by_cases hlk : l = k
  · simp [hlk]
  · simp [hlk]

end ProbeTable

end Reckoner
