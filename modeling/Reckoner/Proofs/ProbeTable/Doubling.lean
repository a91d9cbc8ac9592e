import Mathlib.Order.Bounds.Basic
import Reckoner.Proofs.ProbeTable.Reachable

/-!
# How far a table has grown

A table grows by doubling, and it does not shrink. So its capacity tells of its past: it is the
capacity asked for at first, doubled as often as it takes for the greatest number of entries that
the table has ever had to fill no more than half of it, and not once more
(`Reckoner.ProbeTable.capacity_callAll_ofCapacity`).

Whether to double is decided in front of an addition, for new keys only and from the size alone;
the greatest size so far is not stored. It need not be: a table that has been larger than it is has
the capacity for it still, so an addition that makes a table no larger than it has been finds room,
and one that makes it larger makes it larger by one. That is what one call keeps
(`Reckoner.ProbeTable.JustFits.call`).
-/

namespace Reckoner

namespace ProbeTable

/-! ### Doubling as often as it takes -/

/-- **The least sufficient doubling**: the capacity `m` is doubled until `n` entries fill no more
than half of it, and then it is `c`. -/
def DoublesTo (m n c : Nat) : Prop := ∃ k, IsLeast {j | 2 * n ≤ m * 2 ^ j} k ∧ c = m * 2 ^ k

namespace DoublesTo

variable {m n n' c : Nat}

/-- Nothing has to be doubled for no entries. -/
theorem zero (m : Nat) : DoublesTo m 0 m :=
  ⟨0, ⟨Nat.zero_le _, fun _ _ => Nat.zero_le _⟩, (Nat.mul_one m).symm⟩

/-- What is sufficient for more entries is the least that is sufficient for them, too. -/
theorem of_le (h : DoublesTo m n c) (hn : n ≤ n') (hc : 2 * n' ≤ c) : DoublesTo m n' c := by
  obtain ⟨k, ⟨-, hleast⟩, rfl⟩ := h
  exact ⟨k, ⟨hc, fun j hj => hleast (Nat.le_trans (Nat.mul_le_mul_left 2 hn) hj)⟩, rfl⟩

/-- **What is not sufficient is doubled**, once if that is sufficient. -/
theorem double (h : DoublesTo m n c) (hlt : c < 2 * n') (hle : n' ≤ c) :
    DoublesTo m n' (2 * c) := by
  obtain ⟨k, -, rfl⟩ := h
  have hpow : m * 2 ^ (k + 1) = 2 * (m * 2 ^ k) := by rw [Nat.pow_succ']; exact Nat.mul_left_comm ..
  refine ⟨k + 1, ⟨?_, fun j hj => ?_⟩, hpow.symm⟩
  · show 2 * n' ≤ m * 2 ^ (k + 1)
    rw [hpow]
    exact Nat.mul_le_mul_left 2 hle
  · by_contra hjk
    have hpow_le : 2 ^ j ≤ 2 ^ k := Nat.pow_le_pow_right Nat.two_pos (by omega)
    have hj' : 2 * n' ≤ m * 2 ^ j := hj
    have hmul := Nat.mul_le_mul_left m hpow_le
    omega

end DoublesTo

open Columns

variable {κ υ : Type} [DecidableEq κ] {hash : κ → UInt64} {t : ProbeTable κ υ hash} {m n : Nat}

/-! ### Sizes and capacities -/

theorem capacity_resize (t : ProbeTable κ υ hash) (c : Nat) : (t.resize c).capacity = c := by
  rw [resize_eq, capacity_placeAll, capacity_blank]

/-- Reseating an entry changes neither the capacity nor the size. -/
theorem extent_reseat (t : ProbeTable κ υ hash) (i : Nat) :
    (t.reseat i).capacity = t.capacity ∧ (t.reseat i).size = t.size := by
  rcases h : t.entry? i with _ | ⟨k, v⟩
  · rw [reseat_of_eq_none h]
    exact ⟨rfl, rfl⟩
  · rw [reseat_of_eq_some h]
    exact ⟨(capacity_place _ k v).trans (capacity_write t i none), rfl⟩

theorem extent_repair (n i : Nat) (t : ProbeTable κ υ hash) :
    (repair n i t).capacity = t.capacity ∧ (repair n i t).size = t.size := by
  induction n generalizing i t with
  | zero => exact ⟨rfl, rfl⟩
  | succ n ih =>
    rw [repair_succ]
    split
    · obtain ⟨hcap, hsize⟩ := ih (t.after i) (t.reseat i)
      obtain ⟨hcap', hsize'⟩ := t.extent_reseat i
      exact ⟨hcap.trans hcap', hsize.trans hsize'⟩
    · exact ⟨rfl, rfl⟩

/-- **Removing a key** leaves the capacity alone and makes a table no larger. -/
theorem extent_remove (t : ProbeTable κ υ hash) (k : κ) :
    (t.remove k).2.capacity = t.capacity ∧ (t.remove k).2.size ≤ t.size := by
  rcases h : t.entry? (t.locate k) with _ | ⟨l, v⟩
  · rw [remove_of_eq_none h]
    exact ⟨rfl, Nat.le_refl _⟩
  · obtain ⟨hcap, hsize⟩ := extent_repair t.capacity (t.after (t.locate k))
      { t.write (t.locate k) none with size := t.size - 1 }
    rw [remove_of_eq_some h]
    exact ⟨hcap.trans (capacity_write t (t.locate k) none), hsize.trans_le (Nat.sub_le _ 1)⟩

/-- A new key makes a table larger by one. -/
theorem Sound.size_add (ht : t.Sound) (k : κ) (v : υ) :
    (t.add k v).2.size = if t.contains k then t.size else t.size + 1 := by
  rw [contains_def]
  rcases entry?_locate ht.room k with hnone | ⟨old, hold⟩
  · rw [add_of_eq_none hnone, hnone]
    rfl
  · rw [add_of_eq_some hold, hold]
    rfl

/-- **Adding an entry** doubles a table if the key is new and there is no room for it. -/
theorem Sound.capacity_add (ht : t.Sound) (k : κ) (v : υ) :
    (t.add k v).2.capacity =
      if t.contains k ∨ 2 * (t.size + 1) ≤ t.capacity then t.capacity else 2 * t.capacity := by
  rw [contains_def]
  rcases entry?_locate ht.room k with hnone | ⟨old, hold⟩
  · have hreserve : t.reserve.capacity =
        if 2 * (t.size + 1) ≤ t.capacity then t.capacity else 2 * t.capacity := by
      rw [reserve_eq]
      split_ifs with hfull hroom
      · omega
      · exact capacity_resize t (2 * t.capacity)
      · rfl
      · omega
    rw [add_of_eq_none hnone, hnone]
    simp only [Option.isSome_none, Bool.false_eq_true, false_or]
    exact (capacity_place t.reserve k v).trans hreserve
  · rw [add_of_eq_some hold, hold]
    simp only [Option.isSome_some, true_or, if_true, capacity_place]

/-! ### The greatest size so far -/

/-- **The greatest size** that a table has before a sequence of calls, between them and behind
them. -/
def peak (t : ProbeTable κ υ hash) : List (Call κ υ) → Nat
  | [] => t.size
  | c :: cs => max t.size ((t.call c).2.peak cs)

theorem size_le_peak (t : ProbeTable κ υ hash) (cs : List (Call κ υ)) : t.size ≤ t.peak cs := by
  cases cs with
  | nil => exact Nat.le_refl _
  | cons c cs => exact Nat.le_max_left _ _

/-- It is the greatest of the sizes after the first calls, however many these are. -/
theorem isGreatest_peak (t : ProbeTable κ υ hash) (cs : List (Call κ υ)) :
    IsGreatest {n | ∃ ds, ds <+: cs ∧ (t.callAll ds).size = n} (t.peak cs) := by
  induction cs generalizing t with
  | nil =>
    refine ⟨⟨[], List.prefix_rfl, rfl⟩, ?_⟩
    rintro n ⟨ds, hds, rfl⟩
    rw [List.prefix_nil.mp hds]
    exact Nat.le_refl _
  | cons c cs ih =>
    obtain ⟨⟨es, hes, hpeak⟩, hle⟩ := ih (t.call c).2
    constructor
    · rcases Nat.le_total ((t.call c).2.peak cs) t.size with h | h
      · exact ⟨[], List.nil_prefix, (Nat.max_eq_left h).symm⟩
      · exact ⟨c :: es, List.cons_prefix_cons.mpr ⟨rfl, hes⟩,
          hpeak.trans (Nat.max_eq_right h).symm⟩
    · rintro n ⟨ds, hds, rfl⟩
      rcases List.prefix_cons_iff.mp hds with rfl | ⟨ds, rfl, hprefix⟩
      · exact Nat.le_max_left _ _
      · exact Nat.le_trans (hle ⟨ds, hprefix, rfl⟩) (Nat.le_max_right _ _)

/-! ### Sequences of calls -/

/-- **A table that just fits**: it is in use and has been no larger than `n`, and its capacity is
the least doubling of `m` that is sufficient for that. -/
structure JustFits (m n : Nat) (t : ProbeTable κ υ hash) : Prop extends t.Sound where
  /-- It is no larger than it has been. -/
  size_le : t.size ≤ n
  /-- Its capacity is the least that is sufficient for the size it has had. -/
  doublesTo : DoublesTo m n t.capacity

namespace JustFits

omit [DecidableEq κ] in
theorem ofCapacity (c : Nat) : JustFits (max c 1) 0 (ofCapacity c : ProbeTable κ υ hash) where
  toSound := sound_ofCapacity c
  size_le := Nat.le_refl 0
  doublesTo := by
    rw [capacity_ofCapacity]
    exact .zero _

omit [DecidableEq κ] in
/-- A call that keeps the capacity and makes a table no larger. -/
theorem of_size_le {u : ProbeTable κ υ hash} (h : JustFits m n t) (hu : u.Sound)
    (hcap : u.capacity = t.capacity) (hsize : u.size ≤ t.size) : JustFits m (max n u.size) u := by
  have hle := Nat.le_trans hsize h.size_le
  rw [Nat.max_eq_left hle]
  exact ⟨hu, hle, hcap ▸ h.doublesTo⟩

theorem add (h : JustFits m n t) (k : κ) (v : υ) :
    JustFits m (max n (t.add k v).2.size) (t.add k v).2 where
  toSound := (h.toSound.add k v).1
  size_le := Nat.le_max_right _ _
  doublesTo := by
    have hload := (h.toSound.add k v).1.load
    have hle := h.size_le
    have hsufficient : 2 * n ≤ t.capacity := by
      obtain ⟨j, hj, hcap⟩ := h.doublesTo
      exact hcap ▸ hj.1
    rw [h.toSound.capacity_add] at hload ⊢
    split_ifs at hload ⊢ with hroom
    · exact h.doublesTo.of_le (Nat.le_max_left _ _) (by omega)
    · -- a new key without room: the table is as large as it has ever been
      have hpos := h.toSound.capacity_pos
      rw [not_or] at hroom
      rw [h.toSound.size_add, if_neg hroom.1]
      exact h.doublesTo.double (by omega) (by omega)

/-- **One call**: the capacity is still the least that is sufficient. -/
theorem call (h : JustFits m n t) (c : Call κ υ) :
    JustFits m (max n (t.call c).2.size) (t.call c).2 := by
  cases c with
  | add k v => exact h.add k v
  | remove k =>
    obtain ⟨hcap, hsize⟩ := t.extent_remove k
    exact h.of_size_le (h.toSound.remove k).1 hcap hsize
  | clear => exact h.of_size_le h.toSound.clear capacity_clear (Nat.zero_le _)
  | find | contains | size | isEmpty | entries =>
    exact h.of_size_le h.toSound rfl (Nat.le_refl _)

/-- **Any sequence of calls.** -/
theorem callAll (h : JustFits m n t) (cs : List (Call κ υ)) :
    JustFits m (max n (t.peak cs)) (t.callAll cs) := by
  induction cs generalizing t n with
  | nil =>
    rw [peak, Nat.max_eq_left h.size_le]
    exact h
  | cons c cs ih =>
    have hsize := (t.call c).2.size_le_peak cs
    have hle := h.size_le
    have hmax : max n (t.peak (c :: cs)) =
        max (max n (t.call c).2.size) ((t.call c).2.peak cs) := by
      rw [peak]
      omega
    rw [hmax]
    exact ih (h.call c)

end JustFits

/-- **The capacity of a table is the least sufficient doubling** of the one it was made with, for
the greatest size that it has had. Whatever the hash, the capacity asked for at first and the calls
since, no other call than an addition changes the capacity; an addition doubles it once if the key
is new and the table would be more than half full with it, and then the table is at most half
full. -/
theorem capacity_callAll_ofCapacity (hash : κ → UInt64) (c : Nat) (cs : List (Call κ υ)) :
    let t : ProbeTable κ υ hash := (ofCapacity c).callAll cs
    (∃ n k,
      IsGreatest {n | ∃ ds, ds <+: cs ∧
        ((ofCapacity c : ProbeTable κ υ hash).callAll ds).size = n} n ∧
      IsLeast {j | 2 * n ≤ max c 1 * 2 ^ j} k ∧ t.capacity = max c 1 * 2 ^ k) ∧
    (∀ k, (t.remove k).2.capacity = t.capacity) ∧ t.clear.capacity = t.capacity ∧
    ∀ k v,
      (t.add k v).2.capacity = (if t.contains k ∨ 2 * (t.size + 1) ≤ t.capacity then t.capacity
        else 2 * t.capacity) ∧
      2 * (t.add k v).2.size ≤ (t.add k v).2.capacity := by
  intro t
  have ht : JustFits (max c 1) (max 0 (peak (ofCapacity c) cs)) t :=
    (JustFits.ofCapacity c).callAll cs
  rw [Nat.zero_max] at ht
  obtain ⟨k, hk, hcap⟩ := ht.doublesTo
  exact ⟨⟨_, k, isGreatest_peak _ cs, hk, hcap⟩, fun k => (t.extent_remove k).1, capacity_clear,
    fun k v => ⟨ht.toSound.capacity_add k v, (ht.toSound.add k v).1.load⟩⟩

/-- Three slots are enough for one entry, and twice as many for the second and the third. Neither
another value for the third key nor the removals change that. -/
example :
    let cs : List (Call Nat Nat) :=
      [.add 1 10, .add 2 20, .add 3 30, .add 3 40, .remove 1, .remove 2]
    let t : ProbeTable Nat Nat fun _ => 5 := ofCapacity 3
    (t.callAll (cs.take 1)).capacity = 3 ∧ (t.callAll cs).capacity = 6 ∧ t.peak cs = 3 := by
  decide +kernel

end ProbeTable

end Reckoner
