/-!
# Ranges of code points

A property of characters is given by a table of closed ranges of code points.
-/

namespace WasmUdon

/-- A table of closed ranges of code points. -/
abbrev Ranges := Array (Nat × Nat)

/-- Whether a code point lies in one of the ranges. -/
def Ranges.contains (table : Ranges) (n : Nat) : Bool :=
  table.any fun range => range.1 ≤ n && n ≤ range.2

end WasmUdon
