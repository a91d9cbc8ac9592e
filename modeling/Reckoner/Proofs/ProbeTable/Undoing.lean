import Reckoner.Proofs.ProbeTable.Reachable

/-!
# Taking back an addition

A key that has just been added can be removed again without a trace
(`Reckoner.ProbeTable.remove_add_callAll`), although the new entry may have closed the gap
between two runs of entries, and the repair behind it then takes out every entry of the second
run and puts it back.

It puts each of them back where it was. Clearing the slot of the new entry gives the table from
before the addition, and that table is laid out already. And in a table that is laid out, an
entry that is taken out and put back goes where it came from
(`Reckoner.ProbeTable.Layout.reseat_eq`): the slots on the way to it are in use by other keys,
and its own slot is the first empty one. So there is nothing for a repair to do
(`Reckoner.ProbeTable.Layout.repair_eq`), wherever it begins and however far it goes.
-/

namespace Reckoner

namespace ProbeTable

open Columns

variable {κ υ : Type} {hash : κ → UInt64} {t u : ProbeTable κ υ hash}

/-- **A table is its slots and its size.** -/
theorem ext_entry? (hcap : u.capacity = t.capacity) (hsize : u.size = t.size)
    (h : ∀ i, u.entry? i = t.entry? i) : u = t := by
  have hkeys : u.keys = t.keys := Array.ext hcap fun i hu ht => by
    have hkey : u.key? i = t.key? i := by rw [key?_eq, key?_eq, h]
    simpa [key?, Array.getD, hu, ht] using hkey
  have hvalues : u.values = t.values :=
    Array.ext ((u.aligned.size_eq.trans hcap).trans t.aligned.size_eq.symm) fun i hu ht => by
      have hvalue : u.value? i = t.value? i := by rw [value?_eq, value?_eq, h]
      simpa [value?, Array.getD, hu, ht] using hvalue
  obtain ⟨⟨uks, uvs, m⟩, hu⟩ := u
  obtain ⟨⟨tks, tvs, n⟩, ht⟩ := t
  cases hkeys
  cases hvalues
  cases hsize
  rfl

/-- A slot that is given back its content is as it was. -/
theorem write_write_entry? {i : Nat} (hi : i < t.capacity) (e : Option (κ × υ)) :
    (t.write i e).write i (t.entry? i) = t := by
  refine ext_entry? (by rw [capacity_write, capacity_write]) rfl fun j => ?_
  rcases eq_or_ne j i with rfl | hne
  · rw [entry?_write_self (by rwa [capacity_write])]
  · rw [entry?_write_of_ne hne, entry?_write_of_ne hne]

variable [DecidableEq κ]

/-! ### Putting back where there is nothing to repair -/

/-- A search ends at the first slot at which it can end. -/
theorem locate_eq_probe {k : κ} {d : Nat} (hd : d < t.capacity)
    (hs : t.stops k (t.probe (t.home k) d) = true)
    (hgo : ∀ j < d, t.stops k (t.probe (t.home k) j) = false) :
    t.locate k = t.probe (t.home k) d := by
  obtain ⟨hle, hend⟩ := reach_le hd hs
  rcases Nat.lt_or_eq_of_le hle with hlt | heq
  · rw [locate, hgo _ hlt] at hend
    cases hend
  · rw [locate, heq]

namespace Layout

/-- **An entry that has been taken out** is looked for in the slot it was taken from. -/
theorem locate_write_none (ht : t.Layout) {i : Nat} {k : κ} {v : υ}
    (h : t.entry? i = some (k, v)) : (t.write i none).locate k = i := by
  obtain ⟨d, hd, rfl, hway⟩ := ht.reaches h
  have hprobe : ∀ j, (t.write (t.probe (t.home k) d) none).probe
      ((t.write (t.probe (t.home k) d) none).home k) j = t.probe (t.home k) j := fun j => by
    rw [probe_write, home_write]
  refine (locate_eq_probe (d := d) (by rwa [capacity_write]) ?_ fun j hj => ?_).trans (hprobe d)
  · rw [hprobe]
    exact stops_eq_true_iff.mpr (.inl (entry?_write_self (probe_lt (d.zero_le.trans_lt hd) _ _) _))
  · -- another key is in every slot on the way
    have hne : t.probe (t.home k) j ≠ t.probe (t.home k) d :=
      fun hc => hj.ne (probe_inj (hj.trans hd) hd hc)
    rw [hprobe, ← Bool.not_eq_true, stops_eq_true_iff, entry?_write_of_ne hne]
    rintro (hnone | ⟨w, hw⟩)
    · have huse := hway j hj
      rw [InUse, hnone] at huse
      cases huse
    · exact hne (ht.unique hw h)

/-- **An entry put back** is where it was. -/
theorem reseat_eq (ht : t.Layout) (i : Nat) : t.reseat i = t := by
  rcases h : t.entry? i with _ | ⟨k, v⟩
  · exact reseat_of_eq_none h
  · rw [reseat_of_eq_some h, ProbeTable.place, ht.locate_write_none h, ← h]
    exact write_write_entry? (lt_capacity_of_eq_some h) none

/-- **There is nothing to repair.** -/
theorem repair_eq (ht : t.Layout) (n i : Nat) : ProbeTable.repair n i t = t := by
  induction n generalizing i with
  | zero => rfl
  | succ n ih =>
    rw [repair_succ, ht.reseat_eq, ih, ite_self]

end Layout

/-! ### Removing what has been added -/

/-- **An addition taken back**, in any table in use. -/
theorem Sound.remove_add (ht : t.Sound) {k : κ} (hk : t.contains k = false) (v : υ)
    (hroom : 2 * (t.size + 1) ≤ t.capacity) : (t.add k v).2.remove k = (some v, t) := by
  have hnone : t.entry? (t.locate k) = none := by simpa [contains_def] using hk
  have hlt : t.locate k < t.capacity := locate_lt ht.room k
  have hreserve : t.reserve = t := by rw [reserve_eq, if_neg (by omega)]
  let u : ProbeTable κ υ hash := { t.place k v with size := t.size + 1 }
  have hadd : (t.add k v).2 = u := by rw [add_of_eq_none hnone, hreserve]
  have hentry : u.entry? (t.locate k) = some (k, v) := entry?_write_self hlt _
  have hsound : u.Sound := hadd ▸ (ht.add k v).1
  have hback : (t.place k v).write (t.locate k) none = t :=
    hnone ▸ write_write_entry? hlt (some (k, v))
  have hslot : u.locate k = t.locate k := hsound.locate_eq hentry
  have hcleared : { u.write (u.locate k) none with size := u.size - 1 } = t := by
    refine eq_of_toColumns_eq ?_
    rw [hslot]
    show { ((t.place k v).write (t.locate k) none).toColumns with size := t.size } = t.toColumns
    rw [hback]
  rw [hadd, remove_of_eq_some (hslot ▸ hentry), hcleared, ht.repair_eq]

/-- **Removing a key that has just been added leaves no trace.** Whatever the hash and the calls
that made the table: if the table does not have the key, and has room for it without growing,
the removal returns the value added, and the table is the one from before, in every slot, in its
size and in its capacity. -/
theorem remove_add_callAll (hash : κ → UInt64) (c : Nat) (cs : List (Call κ υ)) (k : κ) (v : υ) :
    let t : ProbeTable κ υ hash := (ofCapacity c).callAll cs
    t.contains k = false → 2 * (t.size + 1) ≤ t.capacity →
      (t.add k v).2.remove k = (some v, t) := by
  intro t hk hroom
  exact ((sound_ofCapacity c).callAll cs).remove_add hk v hroom

/-- The home of a number is its remainder. The keys 6 and 8 are at the two ends of eight slots but
for the last, and 14 comes to the last, so that all three run around the end; 8 is taken out and
put back when 14 is removed. -/
theorem remove_add_callAll_gap :
    let t : ProbeTable Nat Nat UInt64.ofNat := (ofCapacity 8).callAll [.add 6 1, .add 8 2]
    (t.slots.toList = [some (8, 2), none, none, none, none, none, some (6, 1), none] ∧
      entry? (t.add 14 3).2 7 = some (14, 3)) ∧
      (t.contains 14 = false ∧ 2 * (t.size + 1) ≤ t.capacity) ∧
      (t.add 14 3).2.remove 14 = (some 3, t) := by
  intro t
  have hk : t.contains 14 = false := by decide +kernel
  have hroom : 2 * (t.size + 1) ≤ t.capacity := by decide +kernel
  refine ⟨by decide +kernel, ⟨hk, hroom⟩, ?_⟩
  exact remove_add_callAll UInt64.ofNat 8 [.add 6 1, .add 8 2] 14 3 hk hroom

end ProbeTable

end Reckoner
