import WasmUdon.Assembly.Rendering
import WasmUdon.Text.Lowercase
import WasmUdon.Text.Space

/-!
# Entries of the browser

The browser shows a program as a list of entries, one for each declaration and each labelled
block, with the lines that they have in the rendered program. A query keeps the entries whose name
contains it, in any case. How a line is put on the screen is left to a style, of which there is one
for declarations and one for blocks.
-/

namespace WasmUdon

/-- An entry: a declaration or a labelled block. -/
structure Entry where
  name : Bytes
  isCode : Bool
  lines : List Bytes
  deriving DecidableEq, Repr

/-- The entries of declarations. -/
def declarationEntries : List Declaration → Except Error (List Entry)
  | [] => .ok []
  | d :: ds =>
    match d.lines with
    | .error e => .error e
    | .ok lines =>
      (declarationEntries ds).map ({ name := d.name, isCode := false, lines } :: ·)

/-- The lines of instructions. -/
def instructionLines : List Instruction → Except Error (List Bytes)
  | [] => .ok []
  | i :: is =>
    match i.render with
    | .error e => .error e
    | .ok first => (instructionLines is).map ((instructionIndent ++ first) :: ·)

/-- The lines of a label. -/
def labelLines (exported : Bool) (label : Bytes) : List Bytes :=
  (if exported then [declarationIndent ++ text ".export " ++ label] else [])
    ++ [declarationIndent ++ label ++ text ":"]

/-- The entries of labelled blocks. -/
def blockEntries (exported : Bool) : List (Bytes × Block) → Except Error (List Entry)
  | [] => .ok []
  | (label, block) :: rest =>
    match instructionLines block with
    | .error e => .error e
    | .ok lines =>
      (blockEntries exported rest).map
        ({ name := label, isCode := true, lines := labelLines exported label ++ lines } :: ·)

/-- The entries of a program: declarations first, then blocks in the order of their labels. -/
def Program.entries (p : Program) : Except Error (List Entry) :=
  match declarationEntries (p.data.getD []) with
  | .error e => .error e
  | .ok data =>
    match p.code with
    | none => .ok data
    | some code =>
      (blockEntries code.exported (code.map.getD {}).entries).map (data ++ ·)

/-- Whether a list occurs in another one without a gap. -/
def occursIn {α : Type} [BEq α] (needle : List α) : List α → Bool
  | [] => needle.isEmpty
  | a :: rest => needle.isPrefixOf (a :: rest) || occursIn needle rest

/-- The lower-case characters of a byte string. -/
def lowercaseChars (bs : Bytes) : List Char := (Rune.chars (decodeRunes bs)).map lowercase

/-- Whether an entry's name contains the query; spaces around the query do not count. -/
def Entry.matchesQuery (query : List Char) (e : Entry) : Bool :=
  occursIn ((trimSpaces query).map lowercase) (lowercaseChars e.name)

/-- The lines of an entry on the screen. -/
def Entry.content (style : (isCode : Bool) → Bytes → Bytes) (e : Entry) : Bytes :=
  e.lines.flatMap fun l => line (style e.isCode l)

/-- The text of the entries that match a query, and their number. -/
def filterEntries (style : (isCode : Bool) → Bytes → Bytes) (entries : List Entry)
    (query : List Char) : Bytes × Nat :=
  let shown := entries.filter (Entry.matchesQuery query)
  (shown.flatMap (Entry.content style), shown.length)

end WasmUdon
