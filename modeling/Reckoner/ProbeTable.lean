import Reckoner.ProbeTable.Columns

/-!
# Tables with linear probing

A table is a pair of columns that agree: where there is a key there is a value, and nowhere
else. An operation on a table is the one on its columns, and the columns it leaves agree
again. So there is no table in which a search finds a key and no value.
-/

namespace Reckoner

/-- **A table with linear probing**, for a given hash of its keys. -/
structure ProbeTable (κ υ : Type) (hash : κ → UInt64) extends Columns κ υ hash where
  /-- The columns agree. -/
  aligned : Columns.Aligned keys values

namespace ProbeTable

variable {κ υ : Type} {hash : κ → UInt64}

/-- The capacity where none is asked for. -/
def defaultCapacity : Nat := 16

/-- An empty table of a given capacity, which is at least one. -/
def ofCapacity (capacity : Nat) : ProbeTable κ υ hash :=
  ⟨.ofCapacity capacity, .replicate _ _ rfl⟩

instance : EmptyCollection (ProbeTable κ υ hash) := ⟨ofCapacity defaultCapacity⟩

instance : Inhabited (ProbeTable κ υ hash) := ⟨∅⟩

/-- The table without its entries, of the same capacity. -/
def clear (t : ProbeTable κ υ hash) : ProbeTable κ υ hash :=
  ⟨t.toColumns.clear, t.aligned.clear⟩

variable [DecidableEq κ]

/-- The value of a key, if the table has the key. -/
def find? (t : ProbeTable κ υ hash) (k : κ) : Option υ := t.toColumns.find? k

/-- Whether the table has a key. -/
def contains (t : ProbeTable κ υ hash) (k : κ) : Bool := t.toColumns.contains k

/-- **Adding an entry**, in place of the one its key has if it has one. The value
replaced is returned with the table. -/
def add (t : ProbeTable κ υ hash) (k : κ) (v : υ) : Option υ × ProbeTable κ υ hash :=
  ((t.toColumns.add k v).1, ⟨(t.toColumns.add k v).2, t.aligned.add k v⟩)

/-- **Removing a key.** The value it had is returned with the table. -/
def remove (t : ProbeTable κ υ hash) (k : κ) : Option υ × ProbeTable κ υ hash :=
  ((t.toColumns.remove k).1, ⟨(t.toColumns.remove k).2, t.aligned.remove k⟩)

end ProbeTable

end Reckoner
