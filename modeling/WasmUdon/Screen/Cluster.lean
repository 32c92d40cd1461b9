import WasmUdon.Screen.BreakClass
import WasmUdon.Text.Utf8

/-!
# Grapheme clusters

A cluster is a run of code points that is shown as one character. Its columns are those of its
parts, except that an emoji, a flag and a Hangul syllable built from letters are as wide as their
first part, and a variation selector decides the width of the emoji in front of it.
-/

namespace WasmUdon

/-- What the end of a cluster allows to follow. -/
inductive ClusterState
  /-- Marks only. -/
  | any
  /-- A line feed behind a carriage return. -/
  | carriageReturn
  /-- Nothing behind a control character. -/
  | control
  /-- More of a Hangul syllable behind a leading consonant. -/
  | leading
  /-- More of a Hangul syllable behind a vowel. -/
  | vowel
  /-- More of a Hangul syllable behind a trailing consonant. -/
  | trailing
  /-- Any character behind one that belongs to the next. -/
  | prepend
  /-- A joiner behind an emoji. -/
  | pictograph
  /-- Another emoji behind an emoji and a joiner. -/
  | joined
  /-- The second letter of a flag. -/
  | oddRegional
  /-- Marks only, behind a whole flag. -/
  | evenRegional
  deriving DecidableEq, Repr

/-- The end of a cluster behind one more character. -/
def ClusterState.next (s : ClusterState) : BreakClass → ClusterState
  | .carriageReturn => .carriageReturn
  | .lineFeed | .control => .control
  | .leading => .leading
  | .vowel | .openSyllable => .vowel
  | .trailing | .closedSyllable => .trailing
  | .prepend => .prepend
  | .pictograph => .pictograph
  | .regional => if s = .oddRegional then .evenRegional else .oddRegional
  | .extend => if s = .pictograph then .pictograph else .any
  | .joiner => if s = .pictograph then .joined else .any
  | .spacingMark | .other => .any

/-- Whether a character belongs to the cluster in front of it. -/
def ClusterState.joins : ClusterState → BreakClass → Bool
  | .carriageReturn, k => k == .lineFeed
  | .control, _ => false
  | _, .carriageReturn | _, .lineFeed | _, .control => false
  | _, .extend | _, .joiner | _, .spacingMark => true
  | .prepend, _ => true
  | .leading, k => k == .leading || k == .vowel || k == .openSyllable || k == .closedSyllable
  | .vowel, k => k == .vowel || k == .trailing
  | .trailing, k => k == .trailing
  | .joined, k => k == .pictograph
  | .oddRegional, k => k == .regional
  | _, _ => false

/-- The length of a run of bytes and the columns that it takes. -/
structure Extent where
  size : Nat
  columns : Nat
  deriving DecidableEq, Repr

/-- The character that the bytes start with, and the number of its bytes. A byte that starts none
counts as a replacement character. -/
def firstChar (bs : Bytes) : Char × Nat := (decodeChar? bs).getD (Char.ofNat 0xFFFD, 1)

/-- The columns of a cluster with one more character; `first` is the class of its first one. -/
def widen (first : BreakClass) (columns : Nat) (k : BreakClass) (c : Char) : Nat :=
  match first with
  | .pictograph =>
    if c.toNat = 0xFE0E then 1
    else if c.toNat = 0xFE0F then 2
    else columns
  | .regional | .leading => columns
  | _ => columns + k.columns c

/-- What the bytes add to a cluster, after `skip` bytes that belong to it. -/
def clusterFrom (first : BreakClass) :
    ClusterState → (columns skip : Nat) → Bytes → Extent
  | _, columns, _, [] => { size := 0, columns }
  | s, columns, skip + 1, _ :: rest =>
    let e := clusterFrom first s columns skip rest
    { e with size := e.size + 1 }
  | s, columns, 0, b :: rest =>
    let (c, size) := firstChar (b :: rest)
    let k := BreakClass.ofChar c
    if s.joins k then
      let e := clusterFrom first (s.next k) (widen first columns k c) (size - 1) rest
      { e with size := e.size + 1 }
    else { size := 0, columns }

/-- The cluster that the bytes start with. -/
def firstCluster : Bytes → Extent
  | [] => { size := 0, columns := 0 }
  | b :: rest =>
    let (c, size) := firstChar (b :: rest)
    let k := BreakClass.ofChar c
    let e := clusterFrom k (ClusterState.any.next k) (k.columns c) (size - 1) rest
    { e with size := e.size + 1 }

end WasmUdon
