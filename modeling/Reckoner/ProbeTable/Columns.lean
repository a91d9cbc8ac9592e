/-!
# The columns of a table

A table with linear probing keeps its keys in one array and its values in another. The two
places with the same number make up a slot. The hash of a key says in which slot to look for
it first, its *home*; from there the search goes on slot by slot, around the end of the
arrays, until it finds the key or a place without one. The slot of step `j` is
`Reckoner.Columns.probe`, and the number of the step at which the search ends is
`Reckoner.Columns.reach`. A search looks at keys only.

Two things keep searches right. A table is never more than half full: a new key that would
fill it further doubles it first, so a place without a key is always met. And no search may
meet such a place before its key: where a key is removed, the entries behind it, up to the
next empty slot, are taken out and put back one by one (`Reckoner.Columns.repair`).

The two arrays are written to one after the other, and nothing in `Reckoner.Columns` says that
they agree. That they do, `Reckoner.Columns.Aligned`, is kept by every operation, and is proved
of each behind its definition.

The hash is a parameter of the type. Nothing here depends on which one it is.
-/

namespace Reckoner

/-- **The two arrays of a table**, for a given hash of its keys. -/
structure Columns (κ υ : Type) (hash : κ → UInt64) where
  /-- The keys, each in its slot. -/
  keys : Array (Option κ)
  /-- The values, each in the slot of its key. -/
  values : Array (Option υ)
  /-- The number of entries. -/
  size : Nat

namespace Columns

variable {κ υ : Type} {hash : κ → UInt64}

/-! ### Places -/

/-- As many empty slots as are asked for. -/
def blank (capacity size : Nat) : Columns κ υ hash :=
  ⟨.replicate capacity none, .replicate capacity none, size⟩

/-- An empty table of a given capacity, which is at least one. -/
def ofCapacity (capacity : Nat) : Columns κ υ hash := blank (max capacity 1) 0

/-- The number of slots. -/
def capacity (c : Columns κ υ hash) : Nat := c.keys.size

/-- Whether there are no entries. -/
def isEmpty (c : Columns κ υ hash) : Bool := c.size == 0

/-- The key in a slot. -/
def key? (c : Columns κ υ hash) (i : Nat) : Option κ := c.keys.getD i none

/-- The value in a slot. -/
def value? (c : Columns κ υ hash) (i : Nat) : Option υ := c.values.getD i none

/-- Another key, or none, in a slot. -/
def setKey (c : Columns κ υ hash) (i : Nat) (k? : Option κ) : Columns κ υ hash :=
  { c with keys := c.keys.setIfInBounds i k? }

/-- Another value, or none, in a slot. -/
def setValue (c : Columns κ υ hash) (i : Nat) (v? : Option υ) : Columns κ υ hash :=
  { c with values := c.values.setIfInBounds i v? }

/-- The slot behind a slot, around the end. -/
def after (c : Columns κ υ hash) (i : Nat) : Nat := (i + 1) % c.capacity

/-- The slots in order, each with its key and its value. -/
def pairs (c : Columns κ υ hash) : List (Option κ × Option υ) := c.keys.toList.zip c.values.toList

/-- The entry of a slot: there is one if there is a key and a value. -/
def entryOf : Option κ × Option υ → Option (κ × υ)
  | (some k, some v) => some (k, v)
  | _ => none

/-- The entries in the order of their slots. -/
def toList (c : Columns κ υ hash) : List (κ × υ) := c.pairs.filterMap entryOf

/-! ### Searching -/

/-- **The home of a key**: the slot in which the search for it begins. -/
def home (c : Columns κ υ hash) (k : κ) : Nat := (hash k).toNat % c.capacity

/-- The slot looked at in step `j` of a search that begins in slot `h`. -/
def probe (c : Columns κ υ hash) (h j : Nat) : Nat := (h + j) % c.capacity

variable [DecidableEq κ]

/-- Whether a search for a key ends in a slot: it has no key, or it has this one. -/
def stops (c : Columns κ υ hash) (k : κ) (i : Nat) : Bool :=
  match c.key? i with
  | none => true
  | some l => l = k

/-- The first step, from step `j` on and among the next `n`, at which a search that
begins in slot `h` ends. -/
def reachFrom (c : Columns κ υ hash) (k : κ) (h : Nat) : (n j : Nat) → Nat
  | 0, j => j
  | n + 1, j => if c.stops k (c.probe h j) then j else c.reachFrom k h n (j + 1)

/-- The step at which the search for a key ends. No search looks at a slot twice. -/
def reach (c : Columns κ υ hash) (k : κ) : Nat := c.reachFrom k (c.home k) c.capacity 0

/-- **The slot in which the search for a key ends**: the slot that has the key, or the empty
one that it would go into. -/
def locate (c : Columns κ υ hash) (k : κ) : Nat := c.probe (c.home k) (c.reach k)

/-- The value of a key, if the table has the key. -/
def find? (c : Columns κ υ hash) (k : κ) : Option υ := c.value? (c.locate k)

/-- Whether the table has a key. -/
def contains (c : Columns κ υ hash) (k : κ) : Bool := (c.key? (c.locate k)).isSome

/-! ### Adding and growing -/

/-- A key, and what is to be its value, written where the search for the key ends. -/
def place (c : Columns κ υ hash) (k : κ) (v? : Option υ) : Columns κ υ hash :=
  (c.setKey (c.locate k) (some k)).setValue (c.locate k) v?

/-- A slot of another table placed, if it has a key. -/
def placePair (c : Columns κ υ hash) (e : Option κ × Option υ) : Columns κ υ hash :=
  match e.1 with
  | some k => c.place k e.2
  | none => c

/-- The same entries in a table of another capacity, placed in the order of their
slots. -/
def resize (c : Columns κ υ hash) (capacity : Nat) : Columns κ υ hash :=
  c.pairs.foldl placePair (blank capacity c.size)

/-- The table with room for one more key, doubled if it would be more than half full. -/
def reserve (c : Columns κ υ hash) : Columns κ υ hash :=
  if 2 * (c.size + 1) > c.capacity then c.resize (2 * c.capacity) else c

/-- **Adding an entry.** Where there is the key already, its value is replaced, and the value
it had is returned with the table. -/
def add (c : Columns κ υ hash) (k : κ) (v : υ) : Option υ × Columns κ υ hash :=
  let i := c.locate k
  if (c.key? i).isSome then
    (c.value? i, c.setValue i (some v))
  else
    let d := c.reserve.place k (some v)
    (none, { d with size := d.size + 1 })

/-! ### Removing -/

/-- The entry of a slot taken out and put back where the search for its key ends
then. -/
def reseat (c : Columns κ υ hash) (i : Nat) : Columns κ υ hash :=
  match c.key? i with
  | none => c
  | some k => ((c.setKey i none).setValue i none).place k (c.value? i)

/-- **The repair behind a cleared slot**: from slot `i` on, and for `n` slots at the
most, every entry up to the next slot without a key is put back. -/
def repair : (n i : Nat) → Columns κ υ hash → Columns κ υ hash
  | 0, _, c => c
  | n + 1, i, c => if (c.key? i).isSome then repair n (c.after i) (c.reseat i) else c

/-- **Removing a key.** The value it had is returned with the table. -/
def remove (c : Columns κ υ hash) (k : κ) : Option υ × Columns κ υ hash :=
  let i := c.locate k
  if (c.key? i).isSome then
    let d := (c.setKey i none).setValue i none
    (c.value? i, repair d.capacity (d.after i) { d with size := d.size - 1 })
  else
    (none, c)

omit [DecidableEq κ] in
/-- The table without its entries, of the same capacity. -/
def clear (c : Columns κ υ hash) : Columns κ υ hash :=
  ⟨.replicate c.keys.size none, .replicate c.values.size none, 0⟩

/-! ### Slots as they are shown -/

/-- **A slot as it is shown**: its entry, and how far from home the entry is. -/
structure Slot (κ υ : Type) where
  /-- The number of the slot. -/
  index : Nat
  /-- The entry, if there is one. -/
  entry? : Option (κ × υ)
  /-- The home of the key. -/
  home? : Option Nat

/-- The number of steps from the home of a slot's key to the slot, around the end. -/
def Slot.displacement? (s : Slot κ υ) (capacity : Nat) : Option Nat :=
  s.home?.map fun h => (s.index + capacity - h) % capacity

omit [DecidableEq κ] in
/-- All slots in order, the empty ones included. -/
def slotList (c : Columns κ υ hash) : List (Slot κ υ) :=
  c.pairs.zipIdx.map fun (e, i) => ⟨i, entryOf e, e.1.map c.home⟩

/-! ### Arrays that agree -/

/-- **Two arrays agree** if they are of the same length and there is a key in a place of the one
exactly if there is a value in the same place of the other. -/
structure Aligned (ks : Array (Option κ)) (vs : Array (Option υ)) : Prop where
  /-- There are as many places for values as for keys. -/
  size_eq : vs.size = ks.size
  /-- A key has a value. -/
  isSome_eq : ∀ i, (vs.getD i none).isSome = (ks.getD i none).isSome

omit [DecidableEq κ] in
/-- What is in a place after one of the places has been written to. -/
theorem getD_setIfInBounds {α : Type} (as : Array (Option α)) (i j : Nat) (a : Option α) :
    (as.setIfInBounds i a).getD j none =
      if i = j ∧ i < as.size then a else as.getD j none := by
  rw [Array.getD_eq_getD_getElem?, Array.getD_eq_getD_getElem?, Array.getElem?_setIfInBounds]
  by_cases hij : i = j
  · subst hij
    by_cases hi : i < as.size <;> simp [hi]
  · simp [hij]

namespace Aligned

variable {c : Columns κ υ hash} {ks : Array (Option κ)} {vs : Array (Option υ)}

omit [DecidableEq κ] in
theorem replicate (m n : Nat) (h : n = m) :
    Aligned (.replicate m (none : Option κ)) (.replicate n (none : Option υ)) where
  size_eq := by rw [Array.size_replicate, Array.size_replicate, h]
  isSome_eq i := by
    rw [Array.getD_eq_getD_getElem?, Array.getD_eq_getD_getElem?, Array.getElem?_replicate,
      Array.getElem?_replicate]
    split <;> split <;> rfl

omit [DecidableEq κ] in
/-- **Both arrays are written to** in the same place. -/
theorem set (h : Aligned ks vs) (i : Nat) {k? : Option κ} {v? : Option υ}
    (hkv : v?.isSome = k?.isSome) : Aligned (ks.setIfInBounds i k?) (vs.setIfInBounds i v?) where
  size_eq := by rw [Array.size_setIfInBounds, Array.size_setIfInBounds, h.size_eq]
  isSome_eq j := by
    rw [getD_setIfInBounds, getD_setIfInBounds, h.size_eq]
    split
    · exact hkv
    · exact h.isSome_eq j

omit [DecidableEq κ] in
/-- **A value is written** in a place in which there is a key. -/
theorem setValue (h : Aligned ks vs) {i : Nat} (hi : (ks.getD i none).isSome) (v : υ) :
    Aligned ks (vs.setIfInBounds i (some v)) where
  size_eq := by rw [Array.size_setIfInBounds, h.size_eq]
  isSome_eq j := by
    rw [getD_setIfInBounds]
    split
    · next hij => exact hij.1 ▸ hi.symm
    · exact h.isSome_eq j

omit [DecidableEq κ] in
/-- Where there is a key in a slot there is a value. -/
theorem pairs (h : Aligned c.keys c.values) : ∀ e ∈ c.pairs, e.2.isSome = e.1.isSome := by
  intro e he
  obtain ⟨i, hi, rfl⟩ := List.mem_iff_getElem.mp he
  rw [Columns.pairs, List.length_zip, Array.length_toList, Array.length_toList] at hi
  have hkeys : i < c.keys.size := by omega
  have hvalues : i < c.values.size := by omega
  have hslot := h.isSome_eq i
  simpa [Array.getD, hkeys, hvalues, Columns.pairs] using hslot

theorem place (h : Aligned c.keys c.values) (k : κ) {v? : Option υ} (hv : v?.isSome) :
    Aligned (c.place k v?).keys (c.place k v?).values := h.set _ hv

theorem foldl_placePair (h : Aligned c.keys c.values) {es : List (Option κ × Option υ)}
    (hes : ∀ e ∈ es, e.2.isSome = e.1.isSome) :
    Aligned (es.foldl placePair c).keys (es.foldl placePair c).values := by
  induction es generalizing c with
  | nil => exact h
  | cons e es ih =>
    refine ih ?_ fun d hd => hes d (List.mem_cons_of_mem _ hd)
    obtain ⟨_ | k, v?⟩ := e
    · exact h
    · exact h.place k (hes _ List.mem_cons_self)

theorem resize (h : Aligned c.keys c.values) (capacity : Nat) :
    Aligned (c.resize capacity).keys (c.resize capacity).values :=
  foldl_placePair (.replicate capacity capacity rfl) h.pairs

theorem reserve (h : Aligned c.keys c.values) : Aligned c.reserve.keys c.reserve.values := by
  unfold Columns.reserve
  split
  · exact h.resize _
  · exact h

/-- **Adding an entry** keeps the arrays in agreement. -/
theorem add (h : Aligned c.keys c.values) (k : κ) (v : υ) :
    Aligned (c.add k v).2.keys (c.add k v).2.values := by
  unfold Columns.add
  dsimp only
  split
  · next hkey => exact h.setValue hkey v
  · exact h.reserve.place k rfl

theorem reseat (h : Aligned c.keys c.values) (i : Nat) :
    Aligned (c.reseat i).keys (c.reseat i).values := by
  unfold Columns.reseat
  split
  · exact h
  · next k hk =>
    have hcleared : Aligned ((c.setKey i none).setValue i none).keys
      ((c.setKey i none).setValue i none).values := h.set i rfl
    refine hcleared.place k ?_
    rw [value?, h.isSome_eq, ← key?, hk]
    rfl

theorem repair (h : Aligned c.keys c.values) (n i : Nat) :
    Aligned (c.repair n i).keys (c.repair n i).values := by
  induction n generalizing c i with
  | zero => exact h
  | succ n ih =>
    rw [Columns.repair]
    split
    · exact ih (h.reseat i) _
    · exact h

/-- **Removing a key** keeps the arrays in agreement. -/
theorem remove (h : Aligned c.keys c.values) (k : κ) :
    Aligned (c.remove k).2.keys (c.remove k).2.values := by
  unfold Columns.remove
  dsimp only
  split
  · exact repair (h.set _ rfl) _ _
  · exact h

omit [DecidableEq κ] in
theorem clear (h : Aligned c.keys c.values) : Aligned c.clear.keys c.clear.values :=
  .replicate _ _ h.size_eq

end Aligned

end Columns

end Reckoner
