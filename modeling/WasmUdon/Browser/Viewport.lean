import WasmUdon.Screen.Block

/-!
# Viewports

A viewport shows a stretch of the lines of a text. Scrolling keeps the stretch inside the lines,
except that a change of the text or the size alone does not move it.
-/

namespace WasmUdon

/-- A text of which a stretch of lines is shown. -/
structure Viewport where
  width : Nat
  height : Nat
  content : Bytes := []
  /-- The number of lines above the stretch. -/
  top : Nat := 0
  deriving DecidableEq, Repr

namespace Viewport

/-- The lines of the text. -/
def lines (v : Viewport) : List Bytes := splitLines (joinLineEnds v.content)

/-- The lowest place of the stretch. -/
def maxTop (v : Viewport) : Nat := v.lines.length - v.height

/-- Shows another text. -/
def setContent (v : Viewport) (content : Bytes) : Viewport := { v with content }

/-- Moves to the first line. -/
def toTop (v : Viewport) : Viewport := { v with top := 0 }

/-- Moves down by a number of lines, unless the end is shown. -/
def down (v : Viewport) (n : Nat) : Viewport :=
  if v.maxTop ≤ v.top then v else { v with top := min (v.top + n) v.maxTop }

/-- Moves up by a number of lines, unless the beginning is shown. -/
def up (v : Viewport) (n : Nat) : Viewport :=
  if v.top = 0 ∨ n = 0 then v else { v with top := min (v.top - n) v.maxTop }

/-- Changes the size. -/
def resize (v : Viewport) (width height : Nat) : Viewport := { v with width, height }

/-- The lines on the screen: as many as the viewport is high, filled up to its width. -/
def view (v : Viewport) : List Bytes :=
  let size : BlockSize :=
    { width := v.width, height := v.height, maxWidth := v.width, maxHeight := v.height }
  size.arrange (stackLines ((v.lines.drop v.top).take v.height))

end Viewport

end WasmUdon
