import WasmUdon.Screen.Wrap

/-!
# Blocks

A block is a text made ready for the screen: tabs are blanks, the lines are wrapped and filled up to
the same width, and the whole is brought to a size.
-/

namespace WasmUdon

/-- The bytes with every tab shown as four blanks. -/
def expandTabs (bs : Bytes) : Bytes :=
  bs.flatMap fun b => if b = 0x09 then [0x20, 0x20, 0x20, 0x20] else [b]

/-- The bytes with every pair of carriage return and line feed joined to a line feed. -/
def joinLineEnds : Bytes → Bytes
  | 0x0D :: 0x0A :: rest => 0x0A :: joinLineEnds rest
  | b :: rest => b :: joinLineEnds rest
  | [] => []

/-- Lines one below the other. -/
def stackLines : List Bytes → Bytes
  | [] => []
  | [l] => l
  | l :: ls => l ++ [10] ++ stackLines ls

/-- Lines filled up with blanks to the same width, which is at least `width`. -/
def alignLines (width : Nat) (lines : List Bytes) : List Bytes :=
  lines.map (padColumns (max width (widest lines)))

/-- The size of a block. A dimension that is zero follows the text. -/
structure BlockSize where
  /-- The columns of every line at least, and for wrapping at most. -/
  width : Nat := 0
  /-- The number of lines at least. -/
  height : Nat := 0
  /-- The columns of every line at most. -/
  maxWidth : Nat := 0
  /-- The number of lines at most. -/
  maxHeight : Nat := 0
  /-- The blanks on both sides of every line of the text, within the width. -/
  padding : Nat := 0
  deriving DecidableEq, Repr

/-- The lines of a text in a block. -/
def BlockSize.arrange (size : BlockSize) (bs : Bytes) : List Bytes :=
  let margin := List.replicate size.padding 0x20
  let rows := wrap (size.width - 2 * size.padding) (joinLineEnds (expandTabs bs))
  let rows := rows.map fun row => margin ++ row ++ margin
  let rows := rows ++ List.replicate (size.height - rows.length) []
  let rows := alignLines size.width rows
  let rows := if size.maxWidth = 0 then rows else rows.map (cutColumns size.maxWidth)
  if size.maxHeight = 0 then rows else rows.take size.maxHeight

/-- A text as a block of its own size. -/
def screenBlock (bs : Bytes) : Bytes := stackLines (BlockSize.arrange {} bs)

end WasmUdon
