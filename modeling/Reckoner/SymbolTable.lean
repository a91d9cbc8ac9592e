import Reckoner.ProbeTable
import Reckoner.Text.Hash
import Reckoner.Text.Quoted
import Reckoner.Value

/-!
# Tables of variables

The variables of a calculation are kept in a table from names to values. It lives
as long as the calculation: a name gets an entry by the first assignment to it and
nothing in an expression takes one away.

The hash of the names is a parameter, of the table and of all that has such a table in it. It is
`Reckoner.Text.hash` where none is given.
-/

namespace Reckoner

/-- **A table of variables**, with a hash of their names. -/
abbrev SymbolTable (hash : String → UInt64 := Text.hash) : Type := ProbeTable String Value hash

/-- A table of values written on one line, in the order of the slots. -/
def ProbeTable.literal {hash : String → UInt64} (t : ProbeTable String Value hash) : String :=
  "\x7b" ++ ", ".intercalate (t.toList.map fun (k, v) => Text.quote k ++ ": " ++ v.text) ++ "\x7d"

end Reckoner
