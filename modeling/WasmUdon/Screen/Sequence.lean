import WasmUdon.Screen.Cluster

/-!
# Pieces of a text

For breaking lines, a text is cut into pieces that are never divided: a cluster, a control
character, or a whole control sequence. A sequence that is not finished properly ends in front of
the byte that does not belong to it.
-/

namespace WasmUdon

/-- Where a control sequence stands. `device` marks a device control string, `command` an operating
system command. -/
inductive SequenceState
  /-- Behind the escape character. -/
  | escape
  /-- In front of the parameters. -/
  | marker (device : Bool)
  /-- In the parameters. -/
  | parameters (device : Bool)
  /-- In the intermediate bytes. -/
  | intermediate (device : Bool)
  /-- In the data of a string. -/
  | data (command : Bool)
  deriving DecidableEq, Repr

/-- What a byte does to a control sequence. -/
inductive SequenceStep
  /-- Ends it and belongs to it. -/
  | endsBehind
  /-- Does not belong to it. -/
  | endsBefore
  /-- Belongs to it, and there is more. -/
  | goesOn (s : SequenceState)
  deriving DecidableEq, Repr

namespace SequenceState

/-- A step behind the parameters. -/
def stepIntermediate (device : Bool) (b : UInt8) : SequenceStep :=
  if 0x20 ≤ b ∧ b < 0x30 then .goesOn (.intermediate device)
  else if 0x40 ≤ b ∧ b < 0x7F then if device then .goesOn (.data false) else .endsBehind
  else .endsBefore

/-- A step in the parameters. -/
def stepParameters (device : Bool) (b : UInt8) : SequenceStep :=
  if 0x30 ≤ b ∧ b < 0x3C then .goesOn (.parameters device) else stepIntermediate device b

/-- A step on a byte. -/
def step (s : SequenceState) (b : UInt8) : SequenceStep :=
  match s with
  | .escape =>
    if b = 0x5B then .goesOn (.marker false)
    else if b = 0x50 then .goesOn (.marker true)
    else if b = 0x5D then .goesOn (.data true)
    else if b = 0x58 ∨ b = 0x5E ∨ b = 0x5F then .goesOn (.data false)
    else if 0x20 ≤ b ∧ b < 0x30 then .goesOn .escape
    else if 0x30 ≤ b ∧ b < 0x7F then .endsBehind
    else .endsBefore
  | .marker device =>
    if 0x3C ≤ b ∧ b < 0x40 then .goesOn (.marker device) else stepParameters device b
  | .parameters device => stepParameters device b
  | .intermediate device => stepIntermediate device b
  | .data command =>
    if b = 0x9C ∨ (command ∧ b = 0x07) then .endsBehind
    else if b = 0x18 ∨ b = 0x1A ∨ b = 0x1B then .endsBefore
    else .goesOn (.data command)

/-- How many of the bytes belong to a sequence. An escape character and a backslash end the data of
a string and belong to it. -/
def length : SequenceState → Bytes → Nat
  | _, [] => 0
  | s, b :: rest =>
    match s.step b with
    | .endsBehind => 1
    | .endsBefore =>
      match s, b, rest with
      | .data _, 0x1B, 0x5C :: _ => 2
      | _, _, _ => 0
    | .goesOn s' => length s' rest + 1

end SequenceState

/-- The state behind a byte that starts a control sequence. -/
def sequenceStart? (b : UInt8) : Option SequenceState :=
  if b = 0x1B then some .escape
  else if b = 0x9B then some (.marker false)
  else if b = 0x90 then some (.marker true)
  else if b = 0x9D then some (.data true)
  else if b = 0x98 ∨ b = 0x9E ∨ b = 0x9F then some (.data false)
  else none

/-- A piece of a text. -/
structure Piece where
  bytes : Bytes
  columns : Nat
  deriving DecidableEq, Repr

/-- The extent of the piece that starts with a byte. -/
def firstPiece (b : UInt8) (rest : Bytes) : Extent :=
  match sequenceStart? b with
  | some s => { size := s.length rest + 1, columns := 0 }
  | none =>
    if 0x20 ≤ b ∧ b < 0x7F then { size := 1, columns := 1 }
    else if b < 0xC0 then { size := 1, columns := 0 }
    else firstCluster (b :: rest)

/-- The pieces of a byte string after `skip` bytes, which belong to the piece before. -/
def piecesFrom : (skip : Nat) → Bytes → List Piece
  | _, [] => []
  | skip + 1, _ :: rest => piecesFrom skip rest
  | 0, b :: rest =>
    let e := firstPiece b rest
    { bytes := (b :: rest).take e.size, columns := e.columns } :: piecesFrom (e.size - 1) rest

/-- The pieces of a byte string. -/
def pieces (bs : Bytes) : List Piece := piecesFrom 0 bs

end WasmUdon
