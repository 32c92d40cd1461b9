import WasmUdon.Module.Stream

/-!
# Reading a whole module

A decoder reads the records of a module whose bytes are all there, from an offset on.
`decodeModule` reads them all.
-/

namespace WasmUdon

/-- A module being read record by record. -/
structure Decoder where
  data : Bytes
  /-- The absolute offset of the next byte. -/
  position : Int
  stream : Stream
  deriving DecidableEq, Repr

namespace Decoder

/-- The decoder of a module that starts at `offset`. -/
def ofBytes (data : Bytes) (offset : Int) : Decoder :=
  { data, position := offset, stream := { offset } }

/-- The failure of a decoder that stands outside its bytes. -/
def outside (position : Int) : Error := .decode position "offset outside module bytes"

/-- Reads the next record and moves behind it. -/
def next (d : Decoder) : Except Error Chunk × Decoder :=
  if d.position < 0 ∨ (d.data.length : Int) < d.position then (.error (outside d.position), d)
  else
    match d.stream.step (d.data.drop d.position.toNat) true with
    | (.ok (.record r n), stream) =>
      (.ok (.record r n), { d with position := d.position + n, stream })
    | (result, stream) => (result, { d with stream })

end Decoder

/-- The records of a module that starts at `offset`, the end mark left out, up to the end or the
first failure, and that failure. -/
def walkModule (data : Bytes) (offset : Int) : List Record × Option Error :=
  if offset < 0 ∨ (data.length : Int) < offset then ([], some (Decoder.outside offset))
  else Stream.run { offset } (data.drop offset.toNat)

/-- The records of a module that starts at `offset`, or the first failure. -/
def decodeModule (data : Bytes) (offset : Int) : Except Error (List Record) :=
  match walkModule data offset with
  | (records, none) => .ok records
  | (_, some e) => .error e

end WasmUdon
