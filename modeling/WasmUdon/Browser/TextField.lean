import WasmUdon.Screen.Glyph

/-!
# Text fields

A field of one line with a cursor. It shows a window of its value that is at most so many columns
wide and follows the cursor.
-/

namespace WasmUdon

/-- A text field. -/
structure TextField where
  /-- The columns of the window. -/
  width : Nat
  value : List Char := []
  /-- The number of characters in front of the cursor. -/
  cursor : Nat := 0
  /-- The first character shown. -/
  first : Nat := 0
  /-- The number of characters up to the end of the window. -/
  last : Nat := 0
  deriving DecidableEq, Repr

/-- An action on a text field. -/
inductive EditKey
  | insert (c : Char)
  | backspace
  | delete
  | left
  | right
  | home
  | toEnd
  | clearBefore
  | clearAfter
  deriving DecidableEq, Repr

namespace TextField

/-- The columns of characters. -/
def columnsOfChars (cs : List Char) : Nat := columnsOf (text (String.ofList cs))

/-- How many characters fit into `width` columns and one more, `used` of which are taken. -/
def fitForward (width : Nat) : (used : Nat) → List Char → Nat
  | _, [] => 0
  | used, c :: cs =>
    if used ≤ width ∧ used + columns c ≤ width + 1 then fitForward width (used + columns c) cs + 1
    else 0

/-- How many characters from the end fit into `width` columns, the very first one left out. -/
def fitBackward (width : Nat) : (used : Nat) → (reversed : List Char) → Nat
  | used, c :: c' :: cs =>
    if used < width ∧ used + columns c ≤ width then
      fitBackward width (used + columns c) (c' :: cs) + 1
    else 0
  | _, _ => 0

/-- Moves the window so that it shows the cursor. -/
def scroll (f : TextField) : TextField :=
  if columnsOfChars f.value ≤ f.width then { f with first := 0, last := f.value.length }
  else
    let last := min f.last f.value.length
    if f.cursor < f.first then
      { f with
        first := f.cursor
        last := f.cursor + fitForward f.width 0 (f.value.drop f.cursor) }
    else if last ≤ f.cursor then
      { f with
        first := f.cursor - fitBackward f.width 0 (f.value.take f.cursor).reverse
        last := f.cursor }
    else { f with last }

/-- Moves the cursor. -/
def moveTo (f : TextField) (cursor : Nat) : TextField :=
  scroll { f with cursor := min cursor f.value.length }

/-- What is inserted for a typed character: a blank for a tab or a line break, nothing for another
control character or the replacement character. -/
def sanitize (c : Char) : List Char :=
  let n := c.toNat
  if n = 0x09 ∨ n = 0x0A ∨ n = 0x0D then [' ']
  else if n < 0x20 ∨ (0x7F ≤ n ∧ n < 0xA0) ∨ n = 0xFFFD then []
  else [c]

/-- Performs an action. -/
def edit (f : TextField) (key : EditKey) : TextField :=
  let edited :=
    match key with
    | .insert c =>
      let new := sanitize c
      scroll
        { f with
          value := f.value.take f.cursor ++ new ++ f.value.drop f.cursor
          cursor := f.cursor + new.length }
    | .backspace =>
      if f.cursor = 0 then f
      else
        moveTo { f with value := f.value.take (f.cursor - 1) ++ f.value.drop f.cursor }
          (f.cursor - 1)
    | .delete => { f with value := f.value.take f.cursor ++ f.value.drop (f.cursor + 1) }
    | .left => if f.cursor = 0 then f else f.moveTo (f.cursor - 1)
    | .right => if f.cursor < f.value.length then f.moveTo (f.cursor + 1) else f
    | .home => f.moveTo 0
    | .toEnd => f.moveTo f.value.length
    | .clearBefore => moveTo { f with value := f.value.drop f.cursor, first := 0 } 0
    | .clearAfter => moveTo { f with value := f.value.take f.cursor } f.cursor
  edited.scroll

/-- The field on the screen: the window, a blank for a cursor at its end, and blanks up to one
column more than the width. An empty field shows a placeholder. -/
def view (f : TextField) (placeholder : List Char) : List Char :=
  if f.value.isEmpty then
    placeholder ++ List.replicate (f.width + 1 - columnsOfChars placeholder) ' '
  else
    let window := (f.value.take f.last).drop f.first
    let inside := decide (f.cursor - f.first < window.length)
    let used := columnsOfChars window
    let fill := if used ≤ f.width then f.width - used + (if inside then 1 else 0) else 0
    window ++ (if inside then [] else [' ']) ++ List.replicate fill ' '

end TextField

end WasmUdon
