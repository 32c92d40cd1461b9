import WasmUdon.Bytes
import WasmUdon.CommandLine.Flag
import WasmUdon.Text.Lowercase

/-!
# Suggestions

A word that names no command brings up the commands it may be a slip of: those at most two edits
away and those it is the beginning of, in any case.
-/

namespace WasmUdon

/-- The row of edit distances below `row`, from left to right: `left` is the entry to the left,
`corner` the one above it. -/
def nextDistances {α : Type} [BEq α] (a : α) : (left corner : Nat) → List α → (row : List Nat) →
    List Nat
  | left, corner, b :: bs, above :: row =>
    let entry := if a == b then corner else min (min left above) corner + 1
    entry :: nextDistances a entry above bs row
  | _, _, _, _ => []

/-- The distances of the first `n` elements of one list to every beginning of the other. -/
def distanceRow {α : Type} [BEq α] (target : List α) : (n : Nat) → (row : List Nat) → List α →
    List Nat
  | _, row, [] => row
  | n, row, a :: rest =>
    let row' :=
      match row with
      | [] => []
      | corner :: row => (n + 1) :: nextDistances a (n + 1) corner target row
    distanceRow target (n + 1) row' rest

/-- The least number of insertions, deletions and replacements from one list to another. -/
def editDistance {α : Type} [BEq α] (source target : List α) : Nat :=
  ((distanceRow target 0 (List.range (target.length + 1)) source).getLast?).getD 0

/-- The bytes of a text in lower case. -/
def lowercaseBytes (s : String) : Bytes := text (String.ofList (s.toList.map lowercase))

/-- The commands that may be suggested, in this order. -/
def suggestable : List Command := Command.subcommands.filter (· ≠ .help)

/-- The most edits of a slip. -/
def maxEdits : Nat := 2

/-- The words that a word may be a slip of. -/
def suggestions (word : String) : List String :=
  let typed := lowercaseBytes word
  (suggestable.map Command.name).filter fun known =>
    editDistance typed (lowercaseBytes known) ≤ maxEdits
      || typed.isPrefixOf (lowercaseBytes known)

/-- The suggestions below a message, if there are any. -/
def suggestionText (word : String) : String :=
  match suggestions word with
  | [] => ""
  | words => "\n\nDid you mean this?\n" ++ String.join (words.map fun w => "\t" ++ w ++ "\n")

end WasmUdon
