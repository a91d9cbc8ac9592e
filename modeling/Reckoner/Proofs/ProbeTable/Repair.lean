import Reckoner.Proofs.ProbeTable.Growth

/-!
# Removing and repairing

Clearing a slot may cut off the entries behind it from their homes. The repair takes
out every entry up to the next empty slot and puts it back, and while it is on its
way the table is not laid out: entries that it has not come to yet may have empty
slots before them.

The circle is what makes this look hard, and it can be cut open. A table in use has
an empty slot besides the one being cleared, and no way from a home to an entry leads
over an empty slot. So slots are counted from such a slot `e` on, and all ways are
intervals that do not contain `e` (`Reckoner.ProbeTable.Layout.exists_home_probe`).
The repair goes up from the cleared slot and ends at `e` at the latest.

The layout in the middle of a repair, `Reckoner.ProbeTable.Repairing`, then says that
the empty slots before an entry are all behind the repair, and the entry ahead of it.
One step moves one entry toward its home and keeps this
(`Reckoner.ProbeTable.Repairing.Moves.repairing`), and when the repair
stops at an empty slot, no way can lead over that slot either, so that the table is
laid out (`Reckoner.ProbeTable.Repairing.layout`).
-/

namespace Reckoner

namespace ProbeTable

open Columns

variable {κ υ : Type} {hash : κ → UInt64} {t u : ProbeTable κ υ hash} {e : Nat}

/-! ### Ways that do not lead over an empty slot -/

/-- **Counted from an empty slot** the home of a key comes before its slot, and all
slots from the one to the other are in use. -/
theorem Layout.exists_home_probe (ht : t.Layout) (he : e < t.capacity) (hnone : t.entry? e = none)
    {x : Nat} (hx : x < t.capacity) {k : κ} {v : υ} (h : t.entry? (t.probe e x) = some (k, v)) :
    ∃ y, 0 < y ∧ y ≤ x ∧ t.home k = t.probe e y ∧
      ∀ z, y ≤ z → z < x → t.InUse (t.probe e z) := by
  obtain ⟨d, hd, hdx, hchain⟩ := ht.reaches h
  obtain ⟨y, hy, hhome⟩ := exists_probe_eq he (home_lt (e.zero_le.trans_lt he) k)
  have hempty : ¬t.InUse e := by
    rw [InUse, hnone]
    simp
  rw [← hhome, probe_probe] at hdx
  -- The way cannot go around the end: it would lead over `e`.
  have hlt : y + d < t.capacity := by
    by_contra hge
    rcases eq_or_lt_of_le (show t.capacity - y ≤ d by omega) with heq | hlt
    · rw [← heq, Nat.add_sub_cancel' hy.le, probe_capacity he] at hdx
      rw [← hdx, hnone] at h
      cases h
    · have huse := hchain _ hlt
      rw [← hhome, probe_probe, Nat.add_sub_cancel' hy.le, probe_capacity he] at huse
      exact hempty huse
  obtain rfl : y + d = x := probe_inj hlt hx hdx
  have huse : ∀ z, y ≤ z → z < y + d → t.InUse (t.probe e z) := by
    intro z hyz hz
    have hz' := hchain (z - y) (by omega)
    rwa [← hhome, probe_probe, Nat.add_sub_cancel' hyz] at hz'
  refine ⟨y, Nat.pos_of_ne_zero ?_, Nat.le_add_right y d, hhome.symm, huse⟩
  rintro rfl
  rcases Nat.eq_zero_or_pos d with rfl | hpos
  · rw [Nat.add_zero, probe_zero he, hnone] at h
    cases h
  · exact hempty (probe_zero he ▸ huse 0 le_rfl (by omega))

/-- **The layout in the middle of a repair**, which has come to slot `s`. Slots are
counted from the empty slot `e`. -/
structure Repairing (t : ProbeTable κ υ hash) (e s : Nat) : Prop where
  /-- The slot from which slots are counted is one of the table. -/
  lt_capacity : e < t.capacity
  /-- It is empty. -/
  entry?_eq : t.entry? e = none
  /-- No key is in two slots. -/
  unique : ∀ {i j k v w}, t.entry? i = some (k, v) → t.entry? j = some (k, w) → i = j
  /-- Every key is within reach, but for empty slots that are behind the repair while
  the key is ahead of it. -/
  reaches : ∀ {x k v}, x < t.capacity → t.entry? (t.probe e x) = some (k, v) →
    ∃ y, 0 < y ∧ y ≤ x ∧ t.home k = t.probe e y ∧
      ∀ z, y ≤ z → z < x → t.InUse (t.probe e z) ∨ (z < s ∧ s ≤ x)

/-- **Clearing a slot** begins a repair at the next one. -/
theorem Layout.repairing (ht : t.Layout) (he : e < t.capacity) (hnone : t.entry? e = none)
    {x : Nat} (hx : x < t.capacity) : (t.write (t.probe e x) none).Repairing e (x + 1) where
  lt_capacity := by rwa [capacity_write]
  entry?_eq := by
    rcases eq_or_ne e (t.probe e x) with heq | hne
    · rw [← heq, entry?_write_self he]
    · rw [entry?_write_of_ne hne, hnone]
  unique {i j k v w} hi hj := by
    rcases entry?_write_eq_some hi with ⟨-, hc⟩ | ⟨-, hi'⟩
    · cases hc
    · rcases entry?_write_eq_some hj with ⟨-, hc⟩ | ⟨-, hj'⟩
      · cases hc
      · exact ht.unique hi' hj'
  reaches {w k v} hw h := by
    rw [capacity_write] at hw
    rw [probe_write] at h
    rcases entry?_write_eq_some h with ⟨-, hc⟩ | ⟨hne, h'⟩
    · cases hc
    obtain ⟨y, hpos, hyw, hhome, huse⟩ := ht.exists_home_probe he hnone hw h'
    refine ⟨y, hpos, hyw, by rw [home_write, probe_write, hhome], fun z hyz hz => ?_⟩
    rcases eq_or_ne z x with rfl | hzx
    · exact Or.inr ⟨Nat.lt_succ_self z, hz⟩
    · refine Or.inl ?_
      have hne' : t.probe e z ≠ t.probe e x := fun hc => hzx (probe_inj (hz.trans hw) hx hc)
      rw [probe_write, InUse, entry?_write_of_ne hne']
      exact huse z hyz hz

namespace Repairing

variable {s : Nat}

/-- The count plays no part in it. -/
theorem withSize (ht : t.Repairing e s) (m : Nat) :
    ({ t with size := m } : ProbeTable κ υ hash).Repairing e s :=
  ⟨ht.lt_capacity, ht.entry?_eq, ht.unique, ht.reaches⟩

/-- **At an empty slot the repair is done**: no way leads over it. -/
theorem layout (ht : t.Repairing e s) (hs : ¬t.InUse (t.probe e s)) : t.Layout where
  unique := ht.unique
  reaches {i k v} hi := by
    obtain ⟨x, hx, rfl⟩ := exists_probe_eq ht.lt_capacity (lt_capacity_of_eq_some hi)
    obtain ⟨y, hpos, hyx, hhome, huse⟩ := ht.reaches hx hi
    have hsx : s ≠ x := by
      rintro rfl
      rw [InUse, hi] at hs
      exact hs rfl
    refine ⟨x - y, by omega, by rw [hhome, probe_probe, Nat.add_sub_cancel' hyx], fun j hj => ?_⟩
    rw [hhome, probe_probe]
    rcases huse (y + j) (Nat.le_add_right y j) (by omega) with h | ⟨hlt, hle⟩
    · exact h
    · rcases huse s (by omega) (by omega) with h | ⟨hss, -⟩
      · exact absurd h hs
      · exact absurd hss (lt_irrefl s)

variable [DecidableEq κ]

/-- **Where an entry is put back**: at or before the slot it was taken from, which is
empty then, and with all slots from its home to there in use. -/
theorem exists_locate_eq (ht : t.Repairing e s) (hs : s < t.capacity) {k : κ} {v : υ}
    (h : t.entry? (t.probe e s) = some (k, v)) :
    ∃ y p, 0 < y ∧ y ≤ p ∧ p ≤ s ∧ t.home k = t.probe e y ∧
      (t.write (t.probe e s) none).locate k = t.probe e p ∧
      entry? (t.write (t.probe e s) none) (t.probe e p) = none ∧
      ∀ z, y ≤ z → z < p → (t.write (t.probe e s) none).InUse (t.probe e z) := by
  obtain ⟨y, hpos, hys, hhome, -⟩ := ht.reaches hs h
  have hprobe : ∀ j, t.probe (t.home k) j = t.probe e (y + j) := fun j => by
    rw [hhome, probe_probe]
  have hself : entry? (t.write (t.probe e s) none) (t.probe e s) = none :=
    entry?_write_self (lt_capacity_of_eq_some h) none
  have hstop : (t.write (t.probe e s) none).stops k
      ((t.write (t.probe e s) none).probe ((t.write (t.probe e s) none).home k) (s - y)) := by
    rw [probe_write, home_write, hprobe, Nat.add_sub_cancel' hys]
    exact stops_eq_true_iff.mpr (Or.inl hself)
  obtain ⟨hle, hend⟩ := reach_le (by rw [capacity_write]; omega) hstop
  have hloc : (t.write (t.probe e s) none).locate k =
      t.probe e (y + (t.write (t.probe e s) none).reach k) := by
    rw [locate, home_write, probe_write, hprobe]
  refine ⟨y, y + (t.write (t.probe e s) none).reach k, hpos, Nat.le_add_right _ _, by omega,
    hhome, hloc, ?_, fun z hyz hz => ?_⟩
  · rw [← hloc]
    rcases stops_eq_true_iff.mp hend with hnone | ⟨w, hw⟩
    · exact hnone
    · rcases entry?_write_eq_some hw with ⟨-, hc⟩ | ⟨hne, hw'⟩
      · cases hc
      · exact absurd (ht.unique hw' h) hne
  · have huse := inUse_of_lt_reach (show z - y < (t.write (t.probe e s) none).reach k by omega)
    rwa [home_write, probe_write, hprobe, Nat.add_sub_cancel' hyz] at huse

/-- **What one step does**: the entry of slot `s` moves to slot `p`. -/
structure Moves (t u : ProbeTable κ υ hash) (e s p : Nat) (k : κ) (v : υ) : Prop where
  /-- The capacity stays. -/
  capacity_eq : u.capacity = t.capacity
  /-- The count stays. -/
  size_eq : u.size = t.size
  /-- So does the number of slots in use. -/
  occupied_eq : u.occupied = t.occupied
  /-- The entry has been in slot `s`. -/
  entry?_eq : t.entry? (t.probe e s) = some (k, v)
  /-- It does not move away from its home. -/
  le : p ≤ s
  /-- The slot it moves to has been empty, if it is another one. -/
  free : t.probe e p ≠ t.probe e s → t.entry? (t.probe e p) = none
  /-- It is within reach there. -/
  reaches : ∃ y, 0 < y ∧ y ≤ p ∧ t.home k = t.probe e y ∧
    ∀ z, y ≤ z → z < p → u.InUse (t.probe e z)
  /-- All other entries stay where they are. -/
  entry?_iff : ∀ {j d}, u.entry? j = some d ↔
    (j = t.probe e p ∧ d = (k, v)) ∨ (j ≠ t.probe e p ∧ j ≠ t.probe e s ∧ t.entry? j = some d)

/-- A step moves the entry it comes to. -/
theorem exists_moves (ht : t.Repairing e s) (hs : s < t.capacity)
    (huse : t.InUse (t.probe e s)) : ∃ p k v, Moves t (t.reseat (t.probe e s)) e s p k v := by
  obtain ⟨⟨k, v⟩, h⟩ := Option.isSome_iff_exists.mp huse
  obtain ⟨y, p, hpos, hyp, hps, hhome, hloc, hnone, hway⟩ := ht.exists_locate_eq hs h
  have hreseat : t.reseat (t.probe e s) = (t.write (t.probe e s) none).place k v :=
    reseat_of_eq_some h
  have hocc : (t.write (t.probe e s) none).occupied + 1 = t.occupied := by
    have hw := occupied_write (lt_capacity_of_eq_some h) none
    rw [h] at hw
    simpa using hw
  have hroom : (t.write (t.probe e s) none).occupied < (t.write (t.probe e s) none).capacity := by
    have hle := t.occupied_le_capacity
    rw [capacity_write]
    omega
  rw [hreseat]
  refine ⟨p, k, v, ?_, rfl, ?_, h, hps, fun hne => ?_,
    ⟨y, hpos, hyp, hhome, fun z hyz hz => (hway z hyz hz).write⟩, fun {j d} => ?_⟩
  · rw [capacity_place, capacity_write]
  · rw [occupied_place_of_eq_none hroom (hloc ▸ hnone), hocc]
  · rwa [entry?_write_of_ne hne] at hnone
  · rw [entry?_place hroom, hloc]
    refine or_congr Iff.rfl (and_congr_right fun _ => ⟨fun hj => ?_, fun hj => ?_⟩)
    · rcases entry?_write_eq_some hj with ⟨-, hc⟩ | hj'
      · cases hc
      · exact hj'
    · rw [entry?_write_of_ne hj.1, hj.2]

end Repairing

namespace Repairing.Moves

variable {s p : Nat} {k : κ} {v : υ}

/-- A slot other than the one taken from stays in use. -/
theorem inUse (h : Moves t u e s p k v) {j : Nat} (hj : j ≠ t.probe e s) (huse : t.InUse j) :
    u.InUse j := by
  obtain ⟨d, hd⟩ := Option.isSome_iff_exists.mp huse
  rw [InUse, Option.isSome_iff_exists]
  rcases eq_or_ne j (t.probe e p) with rfl | hne
  · exact ⟨(k, v), h.entry?_iff.mpr (Or.inl ⟨rfl, rfl⟩)⟩
  · exact ⟨d, h.entry?_iff.mpr (Or.inr ⟨hne, hj, hd⟩)⟩

theorem sameEntries (h : Moves t u e s p k v) : t.SameEntries u := by
  refine ⟨h.size_eq, h.occupied_eq, fun {l w} => ⟨?_, ?_⟩⟩
  · rintro ⟨j, hj⟩
    rcases h.entry?_iff.mp hj with ⟨-, hd⟩ | ⟨-, -, hj'⟩
    · cases hd
      exact ⟨_, h.entry?_eq⟩
    · exact ⟨j, hj'⟩
  · rintro ⟨j, hj⟩
    rcases eq_or_ne j (t.probe e s) with rfl | hjs
    · rw [h.entry?_eq] at hj
      exact ⟨_, h.entry?_iff.mpr (Or.inl ⟨rfl, (Option.some.inj hj).symm⟩)⟩
    · refine ⟨j, h.entry?_iff.mpr (Or.inr ⟨?_, hjs, hj⟩)⟩
      rintro rfl
      rw [h.free hjs] at hj
      cases hj

theorem unique (h : Moves t u e s p k v) (ht : t.Repairing e s) {i j : Nat} {l : κ} {x y : υ}
    (hi : u.entry? i = some (l, x)) (hj : u.entry? j = some (l, y)) : i = j := by
  rcases h.entry?_iff.mp hi with ⟨rfl, hd⟩ | ⟨-, his, hi'⟩ <;>
    rcases h.entry?_iff.mp hj with ⟨rfl, hd'⟩ | ⟨-, hjs, hj'⟩
  · rfl
  · cases hd
    exact absurd (ht.unique hj' h.entry?_eq) hjs
  · cases hd'
    exact absurd (ht.unique hi' h.entry?_eq) his
  · exact ht.unique hi' hj'

/-- **One step of a repair.** An entry ahead of the step may lose the slot of the step
from its way, which is behind the repair afterwards. -/
theorem repairing (h : Moves t u e s p k v) (ht : t.Repairing e s) (hs : s < t.capacity) :
    u.Repairing e (s + 1) := by
  obtain ⟨y, hpos, hyp, hhome, hway⟩ := h.reaches
  have hp : p < t.capacity := h.le.trans_lt hs
  have hprobe := probe_congr h.capacity_eq
  have hhome' := home_congr h.capacity_eq
  refine ⟨h.capacity_eq ▸ ht.lt_capacity, ?_, h.unique ht, fun {x l w} hx hl => ?_⟩
  · rw [Option.eq_none_iff_forall_ne_some]
    intro d hd
    rcases h.entry?_iff.mp hd with ⟨hep, -⟩ | ⟨-, -, hd'⟩
    · have h0 := probe_inj (by omega) hp ((probe_zero ht.lt_capacity).trans hep)
      omega
    · rw [ht.entry?_eq] at hd'
      cases hd'
  · rw [h.capacity_eq] at hx
    simp only [hprobe, hhome'] at hl ⊢
    rcases h.entry?_iff.mp hl with ⟨hxp, hd⟩ | ⟨-, hxs, hl'⟩
    · cases hd
      obtain rfl : x = p := probe_inj hx hp hxp
      exact ⟨y, hpos, hyp, hhome, fun z hyz hz => Or.inl (hway z hyz hz)⟩
    · obtain ⟨b, hbpos, hbx, hbhome, hb⟩ := ht.reaches hx hl'
      have hne : x ≠ s := fun hc => hxs (by rw [hc])
      refine ⟨b, hbpos, hbx, hbhome, fun z hbz hz => ?_⟩
      rcases hb z hbz hz with huse | ⟨hzs, hsx⟩
      · rcases eq_or_ne z s with rfl | hzs
        · exact Or.inr ⟨Nat.lt_succ_self z, hz⟩
        · exact Or.inl (h.inUse (fun hc => hzs (probe_inj (hz.trans hx) hs hc)) huse)
      · exact Or.inr ⟨by omega, by omega⟩

end Repairing.Moves

namespace Repairing

variable {s : Nat} [DecidableEq κ]

/-- **A whole repair.** It ends at slot `e` at the latest, so going over as many slots
as there are is enough. -/
theorem repair {n : Nat} (ht : t.Repairing e s) (hs : s ≤ t.capacity) (hn : t.capacity < n + s) :
    (ProbeTable.repair n (t.probe e s) t).Layout ∧
      (ProbeTable.repair n (t.probe e s) t).capacity = t.capacity ∧
      t.SameEntries (ProbeTable.repair n (t.probe e s) t) := by
  induction n generalizing t s with
  | zero => omega
  | succ n ih =>
    rw [repair_succ]
    split
    · next huse =>
      have hlt : s < t.capacity := by
        refine lt_of_le_of_ne hs ?_
        rintro rfl
        rw [probe_capacity ht.lt_capacity, ht.entry?_eq] at huse
        cases huse
      obtain ⟨p, k, v, hmove⟩ := ht.exists_moves hlt huse
      have hcap := hmove.capacity_eq
      have hprobe : t.after (t.probe e s) = (t.reseat (t.probe e s)).probe e (s + 1) := by
        rw [after_probe, probe_congr hcap]
      obtain ⟨hlay, hcap', hsame⟩ := ih (hmove.repairing ht hlt) (hcap ▸ hlt) (by omega)
      rw [hprobe]
      exact ⟨hlay, hcap'.trans hcap, hmove.sameEntries.trans hsame⟩
    · next huse => exact ⟨ht.layout huse, rfl, .refl t⟩

end Repairing

/-! ### Removing a key -/

variable [DecidableEq κ]

/-- **Removing returns the value** the key had. -/
theorem fst_remove (t : ProbeTable κ υ hash) (k : κ) : (t.remove k).1 = t.find? k := by
  rcases h : t.entry? (t.locate k) with _ | ⟨l, v⟩
  · rw [remove_of_eq_none h, find?_def, h]
    rfl
  · rw [remove_of_eq_some h, find?_def, h]
    rfl

/-- **Removing keeps a table sound**, and of the entries it takes away that of its key
only. -/
theorem Sound.remove (ht : t.Sound) (k : κ) :
    (t.remove k).2.Sound ∧ ∀ l x, (t.remove k).2.Holds l x ↔ l ≠ k ∧ t.Holds l x := by
  rcases entry?_locate ht.room k with hnone | ⟨v, hv⟩
  · have hremove : (t.remove k).2 = t := by
      rw [remove_of_eq_none hnone]
    rw [hremove]
    refine ⟨ht, fun l x => ⟨fun hl => ⟨?_, hl⟩, fun hl => hl.2⟩⟩
    rintro rfl
    obtain ⟨i, hi⟩ := hl
    rw [ht.locate_eq hi, hi] at hnone
    cases hnone
  · obtain ⟨e, he, hempty⟩ := exists_entry?_eq_none ht.room
    obtain ⟨x, hx, hxk⟩ := exists_probe_eq he (lt_capacity_of_eq_some hv)
    let a : ProbeTable κ υ hash := { t.write (t.locate k) none with size := t.size - 1 }
    have hremove : (t.remove k).2 = repair t.capacity (t.after (t.locate k)) a := by
      rw [remove_of_eq_some hv]
    have hcap : a.capacity = t.capacity := capacity_write t (t.locate k) none
    have hrep : (t.write (t.locate k) none).Repairing e (x + 1) :=
      hxk ▸ ht.repairing he hempty hx
    have ha : a.Repairing e (x + 1) := hrep.withSize _
    have hafter : t.after (t.locate k) = a.probe e (x + 1) := by
      rw [← hxk, after_probe, probe_congr hcap]
    have hocc : (t.write (t.locate k) none).occupied + 1 = t.occupied := by
      have hw := occupied_write (lt_capacity_of_eq_some hv) none
      rw [hv] at hw
      simpa using hw
    obtain ⟨hlay, hcap', hsame⟩ := ha.repair (n := t.capacity) (by omega) (by omega)
    rw [hremove, hafter]
    refine ⟨⟨hlay, ?_, ?_, ?_⟩, fun l w => hsame.holds_iff.trans ⟨?_, ?_⟩⟩
    · have hsize : a.size = t.size - 1 := rfl
      have hocc' : a.occupied = (t.write (t.locate k) none).occupied := rfl
      have heq := ht.size_eq
      rw [hsame.size_eq, hsame.occupied_eq]
      omega
    · have hsize : a.size = t.size - 1 := rfl
      have hload := ht.load
      rw [hsame.size_eq, hcap', hcap]
      omega
    · rw [hcap', hcap]
      exact ht.capacity_pos
    · rintro ⟨i, hi⟩
      rcases entry?_write_eq_some (t := t) hi with ⟨-, hc⟩ | ⟨hne, hi'⟩
      · cases hc
      · exact ⟨fun hlk => hne (hlk ▸ ht.locate_eq hi').symm, i, hi'⟩
    · rintro ⟨hlk, i, hi⟩
      refine ⟨i, (entry?_write_of_ne ?_ none).trans hi⟩
      rintro rfl
      rw [hv] at hi
      cases hi
      exact hlk rfl

end ProbeTable

end Reckoner
