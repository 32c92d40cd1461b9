import WasmUdon.Screen.Glyph
import WasmUdon.Screen.Look
import WasmUdon.Text.Space

/-!
# Wrapping lines

A line that is too wide is broken at blanks and behind hyphens; a word that is too wide for a line
is broken anywhere. Blanks at a break are dropped. `wrap` gives the lines; `wrappedHeight` counts
them by a coarser measure, in which control characters take a column each and a space as many as it
has bytes.
-/

namespace WasmUdon

/-- A text being broken. The bytes of the line, the word and the blanks are kept in reverse. -/
structure WrapState where
  /-- The lines that are done, the last one first. -/
  done : List Bytes := []
  /-- The line being filled. -/
  line : Bytes := []
  lineColumns : Nat := 0
  /-- The word being read. -/
  word : Bytes := []
  wordColumns : Nat := 0
  /-- The blanks between them. -/
  space : Bytes := []
  /-- The look of what is being read. -/
  look : Look := {}
  /-- The look at the end of the line. -/
  lineLook : Look := {}
  deriving DecidableEq, Repr

namespace WrapState

/-- Moves the blanks to the line. -/
def addSpace (s : WrapState) : WrapState :=
  { s with
    line := s.space ++ s.line
    lineColumns := s.lineColumns + s.space.length
    space := [] }

/-- Moves the word to the line, behind the blanks. -/
def addWord (s : WrapState) : WrapState :=
  if s.word.isEmpty then s
  else
    let s := s.addSpace
    { s with
      line := s.word ++ s.line
      lineColumns := s.lineColumns + s.wordColumns
      word := []
      wordColumns := 0
      lineLook := s.look }

/-- Starts a new line and drops the blanks. -/
def newLine (s : WrapState) : WrapState :=
  { s with
    done := (s.line.reverse ++ s.lineLook.close) :: s.done
    line := s.lineLook.reopen.reverse
    lineColumns := 0
    space := [] }

/-- Ends the line. Blanks behind the last word are kept if they fit. -/
def endLine (limit : Nat) (s : WrapState) : WrapState :=
  let s :=
    if s.wordColumns = 0 then
      if limit < s.lineColumns + s.space.length then { s with space := [] } else s.addSpace
    else s
  s.addWord

/-- Adds a piece to the word, breaking the line if it does not fit. -/
def addPiece (limit : Nat) (s : WrapState) (p : Piece) : WrapState :=
  let s := if limit < s.wordColumns + p.columns then s.addWord else s
  let s := { s with word := p.bytes.reverse ++ s.word, wordColumns := s.wordColumns + p.columns }
  if limit < s.lineColumns + s.wordColumns + s.space.length then s.newLine else s

/-- Reads a piece. -/
def read (limit : Nat) (s : WrapState) (p : Piece) : WrapState :=
  if p.bytes = [0x0A] then (s.endLine limit).newLine
  else if p.columns = 0 then
    { s with word := p.bytes.reverse ++ s.word, look := s.look.behind p.bytes }
  else if p.bytes = [0x20] ∧ s.look.hidesBlanks then
    let s := s.addWord
    { s with space := 0x20 :: s.space }
  else if p.bytes = [0x2D] then
    let s := s.addSpace
    if s.lineColumns + s.wordColumns + p.columns ≤ limit then
      let s := s.addWord
      { s with line := 0x2D :: s.line, lineColumns := s.lineColumns + p.columns }
    else s.addPiece limit p
  else s.addPiece limit p

/-- The lines when all pieces are read. -/
def lines (s : WrapState) : List Bytes := (s.line.reverse :: s.done).reverse

end WrapState

/-- The lines of a text, none wider than the limit; without a limit they stay as they are. -/
def wrap (limit : Nat) (bs : Bytes) : List Bytes :=
  if limit = 0 then splitLines bs
  else ((pieces bs).foldl (WrapState.read limit) {} |>.endLine limit).lines

/-! ## The height of a wrapped line -/

/-- A line being measured: the columns of the line, the word and the space between them. -/
structure MeasureState where
  line : Nat := 0
  word : Nat := 0
  space : Nat := 0
  /-- Whether a word has begun, be it of no width. -/
  inWord : Bool := false
  /-- The number of breaks. -/
  breaks : Nat := 0
  deriving DecidableEq, Repr

namespace MeasureState

/-- Moves the space to the line. -/
def addSpace (s : MeasureState) : MeasureState :=
  { s with line := s.line + s.space, space := 0 }

/-- Moves the word to the line, behind the space. -/
def addWord (s : MeasureState) : MeasureState :=
  if s.inWord then
    { s with line := s.line + s.space + s.word, word := 0, space := 0, inWord := false }
  else s

/-- Starts a new line and drops the space. -/
def newLine (s : MeasureState) : MeasureState :=
  { s with line := 0, space := 0, breaks := s.breaks + 1 }

/-- Breaks the line if it is too wide. -/
def fit (limit : Nat) (s : MeasureState) : MeasureState :=
  if limit < s.line + s.word + s.space then s.newLine else s

/-- Reads a single byte that is shown or carried out. -/
def readByte (limit : Nat) (s : MeasureState) (b : UInt8) : MeasureState :=
  if isSpace (Char.ofNat b.toNat) then
    let s := s.addWord
    { s with space := s.space + 1 }
  else if b = 0x2D then
    let s := s.addSpace
    if limit ≤ s.line + s.word then { s with word := s.word + 1, inWord := true }
    else
      let s := s.addWord
      { s with line := s.line + 1 }
  else
    let s := if s.line = limit then s.newLine else s
    let s := { s with word := s.word + 1, inWord := true }
    let s := if s.word = limit then s.addWord else s
    s.fit limit

/-- Reads a glyph. A no-break space is part of a word. -/
def read (limit : Nat) (s : MeasureState) : Glyph → MeasureState
  | .cluster bytes columns =>
    let (c, size) := firstChar bytes
    if isSpace c ∧ c.toNat ≠ 0xA0 then
      let s := s.addWord
      { s with space := s.space + size }
    else
      let s := if limit < s.word + columns then s.addWord else s
      fit limit { s with word := s.word + columns, inWord := true }
  | .shown b | .control b => s.readByte limit b
  | .hidden _ => { s with inWord := true }

end MeasureState

/-- The number of lines that a line is counted for. -/
def wrappedHeight (limit : Nat) (line : Bytes) : Nat :=
  if limit = 0 then 1
  else ((scan line).foldl (MeasureState.read limit) {}).breaks + 1

end WasmUdon
