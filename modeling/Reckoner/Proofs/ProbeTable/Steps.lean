import Reckoner.Proofs.ProbeTable.Reachable

/-!
# How far searches and repairs go

A search and a repair both walk around the table until they meet an empty slot, and a repair
writes to the table on its way. Both are followed here step by step.

A search is followed by the list of the slots that it looks at
(`Reckoner.ProbeTable.searched`). All of them but the last are in use, and none of them is looked
at twice, so there is one more of them than entries at the most
(`Reckoner.ProbeTable.Sound.length_searched_le`).

A repair is followed by the list of its passes (`Reckoner.ProbeTable.Repairs`), each of which
takes an entry out of a slot and puts it back. Nothing bounds their number beforehand. While the
repair is on its way, only the slots behind it have changed, from the cleared one on
(`Reckoner.ProbeTable.Underway`): an entry cannot be put back in front of the cleared slot, because
the slots from its home to there are still in use
(`Reckoner.ProbeTable.Underway.exists_locate_eq_probe`). So each pass finds the entry that was in
its slot at first, and the empty slot at the end of the run stops the repair
(`Reckoner.ProbeTable.Sound.exists_repaired`).
-/

namespace Reckoner

namespace ProbeTable

open Columns

variable {κ υ : Type} {hash : κ → UInt64} {t u : ProbeTable κ υ hash}

section Search

variable [DecidableEq κ]

/-! ### Searches -/

/-- **The slots that a search looks at**, from slot `i` on and `n` of them at the most. -/
def searchedFrom (t : ProbeTable κ υ hash) (k : κ) : (n i : Nat) → List Nat
  | 0, _ => []
  | n + 1, i => i :: if t.stops k i then [] else t.searchedFrom k n (t.after i)

/-- **The slots that the search for a key looks at.** -/
def searched (t : ProbeTable κ υ hash) (k : κ) : List Nat :=
  t.searchedFrom k t.capacity (t.home k)

theorem le_reachFrom (t : ProbeTable κ υ hash) (k : κ) (h n j : Nat) :
    j ≤ t.reachFrom k h n j := by
  induction n generalizing j with
  | zero => exact le_rfl
  | succ n ih =>
    rw [reachFrom]
    split
    · exact le_rfl
    · exact (Nat.le_succ j).trans (ih (j + 1))

/-- They are those of the steps up to the one at which the search ends. -/
theorem searchedFrom_probe {k : κ} {h n j d : Nat} (hj : j ≤ d) (hd : d < j + n)
    (hs : t.stops k (t.probe h d) = true) :
    t.searchedFrom k n (t.probe h j) =
      (List.range' j (t.reachFrom k h n j + 1 - j)).map (t.probe h) := by
  induction n generalizing j with
  | zero => omega
  | succ n ih =>
    rw [searchedFrom, reachFrom]
    split
    · rw [Nat.add_sub_cancel_left]
      rfl
    · next hgo =>
      have hne : j ≠ d := fun hc => hgo (hc ▸ hs)
      have hle := t.le_reachFrom k h n (j + 1)
      rw [after_probe, ih (by omega) (by omega),
        show t.reachFrom k h n (j + 1) + 1 - j = t.reachFrom k h n (j + 1) + 1 - (j + 1) + 1 by
          omega, List.range'_succ, List.map_cons]

/-- **A search looks at one slot after the other**, from the home of its key to the slot in
which it ends. -/
theorem searched_eq (hroom : t.occupied < t.capacity) (k : κ) :
    t.searched k = (List.range (t.reach k + 1)).map (t.probe (t.home k)) := by
  have hpos : 0 < t.capacity := (Nat.zero_le _).trans_lt hroom
  obtain ⟨hlt, hend⟩ := reach_lt hroom k
  have h := searchedFrom_probe (n := t.capacity) (Nat.zero_le _) (by omega) hend
  rwa [probe_zero (home_lt hpos k), ← List.range_eq_range'] at h

/-- All slots before the last one are in use, and they are different. -/
theorem reach_le_occupied (hroom : t.occupied < t.capacity) (k : κ) : t.reach k ≤ t.occupied := by
  have hreach := (reach_lt hroom k).1
  have hpos : 0 < t.capacity := (Nat.zero_le _).trans_lt hroom
  have hnodup : ((List.range (t.reach k)).map (t.probe (t.home k))).Nodup := by
    refine List.Nodup.map_on (fun i hi j hj h => ?_) List.nodup_range
    exact probe_inj ((List.mem_range.mp hi).trans hreach) ((List.mem_range.mp hj).trans hreach) h
  have hsubset : (List.range (t.reach k)).map (t.probe (t.home k)) ⊆
      (List.range t.capacity).filter fun i => (t.entry? i).isSome := by
    intro i hi
    obtain ⟨j, hj, rfl⟩ := List.mem_map.mp hi
    exact List.mem_filter.mpr ⟨List.mem_range.mpr (probe_lt hpos _ _),
      inUse_of_lt_reach (List.mem_range.mp hj)⟩
  calc t.reach k = ((List.range (t.reach k)).map (t.probe (t.home k))).length := by simp
    _ ≤ ((List.range t.capacity).filter fun i => (t.entry? i).isSome).length :=
      hnodup.length_le_of_subset hsubset
    _ = t.occupied := by
      rw [← length_toList, toList_eq_filterMap, List.length_filterMap_eq_countP,
        List.countP_eq_length_filter]

/-- **A search looks at one slot more than there are entries**, at the most. -/
theorem Sound.length_searched_le (ht : t.Sound) (k : κ) : (t.searched k).length ≤ t.size + 1 := by
  rw [searched_eq ht.room, List.length_map, List.length_range, ht.size_eq]
  exact Nat.succ_le_succ (reach_le_occupied ht.room k)

end Search

/-! ### Runs -/

/-- **The run from a slot on**: the slot and the next `r` are in use, and the one behind them is
empty. -/
structure Run (t : ProbeTable κ υ hash) (i r : Nat) : Prop where
  /-- The run does not lead around the table. -/
  lt_capacity : r + 1 < t.capacity
  /-- Its slots are in use. -/
  inUse : ∀ j ≤ r, t.InUse (t.probe i j)
  /-- It ends at an empty slot. -/
  entry?_eq : t.entry? (t.probe i (r + 1)) = none

theorem exists_run (hroom : t.occupied < t.capacity) {i : Nat} {d : κ × υ}
    (hi : t.entry? i = some d) : ∃ r, t.Run i r := by
  have hlt := lt_capacity_of_eq_some hi
  obtain ⟨l, hl, hempty⟩ := exists_entry?_eq_none hroom
  obtain ⟨m, hm, rfl⟩ := exists_probe_eq hlt hl
  have hex : ∃ j, t.entry? (t.probe i j) = none := ⟨m, hempty⟩
  have hnone := Nat.find_spec hex
  obtain ⟨r, hr⟩ : ∃ r, Nat.find hex = r + 1 := by
    refine Nat.exists_eq_succ_of_ne_zero fun hzero => ?_
    rw [hzero, probe_zero hlt, hi] at hnone
    cases hnone
  rw [hr] at hnone
  refine ⟨r, hr ▸ (Nat.find_min' hex hempty).trans_lt hm, fun j hj => ?_, hnone⟩
  exact Option.isSome_iff_ne_none.mpr (Nat.find_min hex (by omega))

namespace Run

variable {i r : Nat}

/-- Slots can as well be counted from the empty one at the end of the run. -/
theorem probe_probe (hrun : t.Run i r) (hi : i < t.capacity) (j : Nat) :
    t.probe (t.probe i (r + 1)) (t.capacity - (r + 1) + j) = t.probe i j := by
  have hlt := hrun.lt_capacity
  rw [ProbeTable.probe_probe, ← Nat.add_assoc, Nat.add_sub_cancel' hlt.le,
    ← ProbeTable.probe_probe, probe_capacity hi]

/-- The slots in front of the run, counted so, are not those of the run. -/
theorem probe_ne_of_lt (hrun : t.Run i r) (hi : i < t.capacity) {z j : Nat}
    (hz : z < t.capacity - (r + 1)) (hj : j ≤ r) : t.probe (t.probe i (r + 1)) z ≠ t.probe i j := by
  have hlt := hrun.lt_capacity
  intro h
  have heq := probe_inj (by omega) (by omega) (h.trans (hrun.probe_probe hi j).symm)
  omega

/-- Nor is the slot at the end. -/
theorem probe_ne (hrun : t.Run i r) {j : Nat} (hj : j ≤ r) :
    t.probe i j ≠ t.probe i (r + 1) := fun h => by
  have huse := hrun.inUse j hj
  rw [h, InUse, hrun.entry?_eq] at huse
  cases huse

end Run

variable [DecidableEq κ]

/-! ### Passes -/

/-- **A pass of a repair**: an entry is taken out of a slot and put back. -/
structure Pass (κ υ : Type) where
  /-- The slot that the entry is taken out of. -/
  source : Nat
  /-- The entry. -/
  entry : κ × υ
  /-- The slot that it is put into. -/
  target : Nat

/-- **The passes of a repair** from slot `i` on, which is over when it comes to an empty slot.
The search for the key of an entry taken out ends in an empty slot, and the entry is put there. -/
inductive Repairs : ProbeTable κ υ hash → Nat → List (Pass κ υ) → ProbeTable κ υ hash → Prop
  | stop {t : ProbeTable κ υ hash} {i : Nat} (hstop : t.entry? i = none) : Repairs t i [] t
  | pass {t u : ProbeTable κ υ hash} {i : Nat} {d : κ × υ} {ps : List (Pass κ υ)}
      (hentry : t.entry? i = some d)
      (hfree : entry? (t.write i none) ((t.write i none).locate d.1) = none)
      (hrest : Repairs (t.reseat i) (t.after i) ps u) :
      Repairs t i (⟨i, d, (t.write i none).locate d.1⟩ :: ps) u

/-- **A repair that may go on for longer** than there are passes gets to the same end. -/
theorem Repairs.repair_eq {i : Nat} {ps : List (Pass κ υ)} (h : Repairs t i ps u) {n : Nat}
    (hn : ps.length < n) : ProbeTable.repair n i t = u := by
  induction h generalizing n with
  | stop hstop =>
    cases n with
    | zero => exact absurd hn (Nat.not_lt_zero _)
    | succ n => rw [repair_succ, hstop, if_neg (by simp)]
  | pass hentry _ _ ih =>
    cases n with
    | zero => exact absurd hn (Nat.not_lt_zero _)
    | succ n =>
      rw [repair_succ, hentry, if_pos (by simp)]
      exact ih (Nat.lt_of_succ_lt_succ hn)

/-- A pass writes to the two slots only. -/
theorem entry?_reseat_of_ne {i z : Nat} {d : κ × υ} (hi : t.entry? i = some d) (hz : z ≠ i)
    (hloc : z ≠ (t.write i none).locate d.1) : entry? (t.reseat i) z = t.entry? z := by
  rw [reseat_of_eq_some hi, place, entry?_write_of_ne hloc, entry?_write_of_ne hz]

/-- **A slot between two others**, on the way from the one to the other around the end. -/
def Between (t : ProbeTable κ υ hash) (h p s : Nat) : Prop :=
  ∃ a b, a ≤ b ∧ b < t.capacity ∧ t.probe h a = p ∧ t.probe h b = s

/-- **A pass that stays in the run** of the `r` slots behind slot `i` of a table. -/
structure Pass.Stays (p : Pass κ υ) (t : ProbeTable κ υ hash) (i r : Nat) : Prop where
  /-- The entry is the one that the table has in the slot. -/
  entry?_eq : t.entry? p.source = some p.entry
  /-- It is put back between its home and there. -/
  between : t.Between (t.home p.entry.1) p.target p.source
  /-- That is a slot of the run. -/
  target_mem : ∃ j ≤ r, p.target = t.probe i j

/-- **A repair underway.** In the table `t` slot `i` has been cleared, and the repair has made `u`
of it and come to the slot `j` further on. Slots are counted from the end of the run. -/
structure Underway (t u : ProbeTable κ υ hash) (i r j : Nat) : Prop
    extends u.Repairing (t.probe i (r + 1)) (t.capacity - (r + 1) + j) where
  /-- The capacity stays. -/
  capacity_eq : u.capacity = t.capacity
  /-- So do the slots that the repair has not come to, and all outside the run. -/
  unmoved : ∀ z, (∀ m < j, z ≠ t.probe i m) → u.entry? z = t.entry? z

namespace Underway

variable {i r j : Nat}

omit [DecidableEq κ] in
/-- The entry that the next pass takes out is the one of the table before the removal. -/
theorem entry?_probe (hu : t.Underway u i r j) (hrun : t.Run i r) (hj : j ≤ r) :
    u.entry? (t.probe i j) = t.entry? (t.probe i j) := by
  have hlt := hrun.lt_capacity
  exact hu.unmoved _ fun m hm hc => hm.ne' (probe_inj (by omega) (by omega) hc)

/-- **Where a pass puts an entry back.** That is not in front of the cleared slot: the slots from
the home of its key to there are still in use. -/
theorem exists_locate_eq_probe (hu : t.Underway u i r j) (ht : t.Layout) (hrun : t.Run i r)
    (hi : i < t.capacity) (hj : j ≤ r) {d : κ × υ} (hd : t.entry? (t.probe i j) = some d) :
    entry? (u.write (t.probe i j) none) ((u.write (t.probe i j) none).locate d.1) = none ∧
      ∃ m ≤ j, (u.write (t.probe i j) none).locate d.1 = t.probe i m ∧
        t.Between (t.home d.1) (t.probe i m) (t.probe i j) := by
  obtain ⟨k, v⟩ := d
  have hlt := hrun.lt_capacity
  have hpos : 0 < t.capacity := i.zero_le.trans_lt hi
  obtain ⟨e, he⟩ : ∃ e, e = t.probe i (r + 1) := ⟨_, rfl⟩
  obtain ⟨x, hx⟩ : ∃ x, x = t.capacity - (r + 1) := ⟨_, rfl⟩
  have hprobe : ∀ m, t.probe e (x + m) = t.probe i m := he ▸ hx ▸ hrun.probe_probe hi
  have hrep : u.Repairing e (x + j) := he ▸ hx ▸ hu.toRepairing
  have hnone : t.entry? e = none := he ▸ hrun.entry?_eq
  have hecap : e < t.capacity := he ▸ probe_lt hpos _ _
  obtain ⟨y, p, -, hyp, hps, hhome, hloc, hfree, -⟩ :=
    hrep.exists_locate_eq (by rw [hu.capacity_eq]; omega)
      (by rw [probe_congr hu.capacity_eq, hprobe, hu.entry?_probe hrun hj, hd])
  rw [probe_congr hu.capacity_eq, hprobe] at hloc hfree
  rw [probe_congr hu.capacity_eq] at hloc hfree hhome
  rw [home_congr hu.capacity_eq] at hhome
  obtain ⟨y', -, hys, hhome', hway⟩ := ht.exists_home_probe hecap hnone (x := x + j) (by omega)
    (by rw [hprobe, hd])
  obtain rfl : y = y' := probe_inj (by omega) (by omega) (hhome.symm.trans hhome')
  have hxp : x ≤ p := by
    -- no slot in front of the cleared one has been emptied
    by_contra hpx
    have hout : ∀ m ≤ r, t.probe e p ≠ t.probe i m := fun m hm =>
      he ▸ hrun.probe_ne_of_lt hi (hx ▸ Nat.lt_of_not_le hpx) hm
    have huse := hway p hyp (by omega)
    rw [InUse, ← hu.unmoved _ fun m hm => hout m (by omega),
      ← entry?_write_of_ne (hout j hj) none, hfree] at huse
    cases huse
  obtain ⟨m, rfl⟩ := Nat.exists_eq_add_of_le hxp
  rw [hprobe] at hloc hfree
  refine ⟨hloc ▸ hfree, m, by omega, hloc, x + m - y, x + j - y, by omega, by omega, ?_, ?_⟩
  · rw [hhome, ProbeTable.probe_probe, Nat.add_sub_cancel' hyp, hprobe]
  · rw [hhome, ProbeTable.probe_probe, Nat.add_sub_cancel' hys, hprobe]

/-- **One pass.** -/
theorem exists_pass (hu : t.Underway u i r j) (ht : t.Layout) (hrun : t.Run i r)
    (hi : i < t.capacity) (hj : j ≤ r) :
    ∃ p : Pass κ υ, p.source = t.probe i j ∧ p.Stays t i r ∧
      t.Underway (u.reseat (t.probe i j)) i r (j + 1) ∧
      ∀ {ps w}, Repairs (u.reseat (t.probe i j)) (t.probe i (j + 1)) ps w →
        Repairs u (t.probe i j) (p :: ps) w := by
  have hlt := hrun.lt_capacity
  obtain ⟨d, hd⟩ := Option.isSome_iff_exists.mp (hrun.inUse j hj)
  have hdu : u.entry? (t.probe i j) = some d := (hu.entry?_probe hrun hj).trans hd
  obtain ⟨hfree, m, hm, hloc, hbetween⟩ := hu.exists_locate_eq_probe ht hrun hi hj hd
  have hslot := (probe_congr hu.capacity_eq _ _).trans (hrun.probe_probe hi j)
  obtain ⟨q, k, v, hmove⟩ := hu.exists_moves (by rw [hu.capacity_eq]; omega)
    (by rw [hslot, InUse, hdu]; rfl)
  have hrep := hmove.repairing hu.toRepairing (by rw [hu.capacity_eq]; omega)
  rw [hslot] at hmove hrep
  refine ⟨⟨t.probe i j, d, (u.write (t.probe i j) none).locate d.1⟩, rfl,
    ⟨hd, hloc ▸ hbetween, m, by omega, hloc⟩,
    ⟨hrep, hmove.capacity_eq.trans hu.capacity_eq, fun z hz => ?_⟩, fun h => ?_⟩
  · rw [entry?_reseat_of_ne hdu (hz j (by omega)) (hloc ▸ hz m (by omega)),
      hu.unmoved z fun m hm => hz m (by omega)]
  · refine .pass hdu hfree ?_
    rwa [after, hu.capacity_eq, ← after, after_probe]

/-- **The passes of a repair** take the entries of the run out in order. -/
theorem exists_repairs {n : Nat} (hu : t.Underway u i r j) (ht : t.Layout) (hrun : t.Run i r)
    (hi : i < t.capacity) (hn : j + n = r + 1) :
    ∃ ps w, Repairs u (t.probe i j) ps w ∧
      ps.map Pass.source = (List.range' j n).map (t.probe i) ∧
      (∀ p ∈ ps, p.Stays t i r) ∧ t.Underway w i r (r + 1) := by
  induction n generalizing u j with
  | zero =>
    obtain rfl : j = r + 1 := hn
    exact ⟨[], u, .stop hu.entry?_eq, rfl, by simp, hu⟩
  | succ n ih =>
    obtain ⟨p, hsource, hstays, hnext, hpass⟩ := hu.exists_pass ht hrun hi (by omega)
    obtain ⟨ps, w, hps, hsources, hall, hend⟩ := ih hnext (by omega)
    refine ⟨p :: ps, w, hpass hps, ?_, List.forall_mem_cons.mpr ⟨hstays, hall⟩, hend⟩
    rw [List.map_cons, hsource, hsources, List.range'_succ, List.map_cons]

end Underway

/-! ### Removals -/

/-- **What a removal does** to a table in which slot `i` has the key and `r` slots behind it are
in use: the passes of its repair, and what is left when it is over. -/
structure Repaired (t : ProbeTable κ υ hash) (k : κ) (i r : Nat) (ps : List (Pass κ υ)) : Prop where
  /-- These are the passes of the repair behind the cleared slot. -/
  repairs : Repairs { t.write i none with size := t.size - 1 } (t.after i) ps (t.remove k).2
  /-- There is one for every slot in use behind the cleared one, in order. -/
  map_source_eq : ps.map Pass.source = (List.range' 1 r).map (t.probe i)
  /-- Each stays in the run. -/
  stays : ∀ p ∈ ps, p.Stays t i r
  /-- None fills the empty slot at the end. -/
  target_ne : ∀ p ∈ ps, p.target ≠ t.probe i (r + 1)
  /-- That slot is empty afterwards. -/
  entry?_eq : entry? (t.remove k).2 (t.probe i (r + 1)) = none
  /-- All slots outside the run are as they were. -/
  unmoved : ∀ z, (∀ j ≤ r, z ≠ t.probe i j) → entry? (t.remove k).2 z = t.entry? z

omit [DecidableEq κ] in
/-- **Clearing a slot** puts a repair underway. -/
theorem Layout.underway (ht : t.Layout) {i r : Nat} (hrun : t.Run i r) (hi : i < t.capacity)
    (m : Nat) : t.Underway { t.write i none with size := m } i r 1 := by
  have hlt := hrun.lt_capacity
  have hpos : 0 < t.capacity := i.zero_le.trans_lt hi
  have hrep := ht.repairing (probe_lt hpos _ _) hrun.entry?_eq (x := t.capacity - (r + 1))
    (by omega)
  have hslot : t.probe (t.probe i (r + 1)) (t.capacity - (r + 1)) = i :=
    (hrun.probe_probe hi 0).trans (probe_zero hi)
  rw [hslot] at hrep
  refine ⟨hrep.withSize m, capacity_write t i none,
    fun z hz => entry?_write_of_ne (t := t) ?_ none⟩
  have hne := hz 0 Nat.zero_lt_one
  rwa [probe_zero hi] at hne

/-- **Every removal is over** when its repair comes to the end of the run. -/
theorem Sound.exists_repaired (ht : t.Sound) {i : Nat} {k : κ} {v : υ}
    (h : t.entry? i = some (k, v)) : ∃ r ps, t.Run i r ∧ t.Repaired k i r ps := by
  have hi := lt_capacity_of_eq_some h
  obtain ⟨r, hrun⟩ := exists_run ht.room h
  have hlt := hrun.lt_capacity
  have hu := ht.underway hrun hi (t.size - 1)
  obtain ⟨ps, w, hps, hsources, hstays, hend⟩ :=
    hu.exists_repairs ht.toLayout hrun hi (Nat.add_comm 1 r)
  rw [← after_probe, probe_zero hi] at hps
  have hlen : ps.length = r := by simpa using congrArg List.length hsources
  have hremove : (t.remove k).2 = w := by
    rw [remove_of_eq_some ((ht.locate_eq h).symm ▸ h), ht.locate_eq h]
    exact hps.repair_eq (by omega)
  have hne : ∀ p ∈ ps, p.target ≠ t.probe i (r + 1) := fun p hp => by
    obtain ⟨j, hj, htarget⟩ := (hstays p hp).target_mem
    rw [htarget]
    exact hrun.probe_ne hj
  refine ⟨r, ps, hrun, ⟨hremove ▸ hps, hsources, hstays, hne, ?_, fun z hz => ?_⟩⟩
  · rw [hremove]
    exact hend.entry?_eq
  · rw [hremove]
    exact hend.unmoved z fun j hj => hz j (by omega)

theorem remove_of_contains_eq_false {k : κ} (h : t.contains k = false) :
    t.remove k = (none, t) := by
  exact remove_of_eq_none (by simpa [contains_def] using h)

/-- **How far searches and repairs go.** In any table in use, whatever the hash and the calls that
made it, the search for any key comes to an end, and has looked at one slot more than there are
entries at the most. If the table does not have the key, there is nothing to remove. If it has the
key in slot `i`, the repair makes as many passes as slots are in use between slot `i` and the next
empty one, each takes the entry of the next of these slots and puts it back between its home and
there, the empty slot at the end stays empty, and nothing outside the run changes. -/
theorem steps_callAll (hash : κ → UInt64) (c : Nat) (cs : List (Call κ υ)) (k : κ) :
    let t : ProbeTable κ υ hash := (ofCapacity c).callAll cs
    ((t.searched k).getLast? = some (t.locate k) ∧ t.stops k (t.locate k) = true ∧
      (t.searched k).length ≤ t.size + 1) ∧
    (t.contains k = false → t.remove k = (none, t)) ∧
    ∀ i v, t.entry? i = some (k, v) → ∃ r ps, t.Run i r ∧ t.Repaired k i r ps := by
  intro t
  have ht : t.Sound := (sound_ofCapacity c).callAll cs
  refine ⟨⟨?_, (reach_lt ht.room k).2, ht.length_searched_le k⟩, remove_of_contains_eq_false,
    fun i v h => ht.exists_repaired h⟩
  rw [searched_eq ht.room, List.range_succ, List.map_append, List.map_singleton,
    List.getLast?_concat]
  rfl

/-- The home of a number is its remainder. Four keys are in the last two and the first two of eight
slots. When the first is removed, two of the others move up, one of them around the end and over
the third, which is at home. -/
theorem steps_callAll_around :
    let t : ProbeTable Nat Nat UInt64.ofNat :=
      (ofCapacity 8).callAll [.add 6 1, .add 14 2, .add 8 3, .add 22 4]
    (t.slots.toList =
        [some (8, 3), some (22, 4), none, none, none, none, some (6, 1), some (14, 2)] ∧
      (t.remove 6).2.slots.toList =
        [some (8, 3), none, none, none, none, none, some (14, 2), some (22, 4)]) ∧
      (t.contains 5 = false ∧ t.remove 5 = (none, t)) ∧
      t.entry? 6 = some (6, 1) ∧ ∃ r ps, t.Run 6 r ∧ t.Repaired 6 6 r ps := by
  intro t
  have hnot : t.contains 5 = false := by decide +kernel
  have hentry : t.entry? 6 = some (6, 1) := by decide +kernel
  refine ⟨by decide +kernel, ⟨hnot, ?_⟩, hentry, ?_⟩
  · exact (steps_callAll UInt64.ofNat 8 [.add 6 1, .add 14 2, .add 8 3, .add 22 4] 5).2.1 hnot
  · exact (steps_callAll UInt64.ofNat 8 [.add 6 1, .add 14 2, .add 8 3, .add 22 4] 6).2.2 _ _ hentry

end ProbeTable

end Reckoner
