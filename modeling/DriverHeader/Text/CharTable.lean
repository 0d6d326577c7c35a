/-! # Tables of characters

A class of characters is given by the ranges of its code points.
-/
namespace DriverHeader

/-- Ranges of code points, both ends included. -/
abbrev CharTable := List (Nat × Nat)

def CharTable.contains (table : CharTable) (c : Char) : Bool :=
  table.any fun range => range.1 ≤ c.toNat && c.toNat ≤ range.2

end DriverHeader
