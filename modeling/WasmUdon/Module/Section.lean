import WasmUdon.Binary.Leb128

/-!
# Sections and records

A module is a header followed by sections. Each section has an identifier, the size of its payload
and the payload. Reading a module gives a sequence of records: the header, the sections in the
order they are met, and a mark for the end.

All sections but the custom ones appear at most once and in a fixed order, which is not the order
of their identifiers (`SectionId.order`).
-/

namespace WasmUdon

/-- The sections whose payload is a counted vector of entries. -/
inductive VectorKind
  | types
  | imports
  | functions
  | tables
  | memories
  | globals
  | exports
  | elements
  | code
  | data
  | tags
  deriving DecidableEq, Repr

/-- The identifier of a section. -/
inductive SectionId
  | custom
  | start
  | dataCount
  | vector (kind : VectorKind)
  deriving DecidableEq, Repr

namespace SectionId

/-- The byte of an identifier. -/
def code : SectionId → UInt8
  | .custom => 0
  | .vector .types => 1
  | .vector .imports => 2
  | .vector .functions => 3
  | .vector .tables => 4
  | .vector .memories => 5
  | .vector .globals => 6
  | .vector .exports => 7
  | .start => 8
  | .vector .elements => 9
  | .vector .code => 10
  | .vector .data => 11
  | .dataCount => 12
  | .vector .tags => 13

/-- The identifiers, by their bytes. -/
def all : List SectionId :=
  [.custom, .vector .types, .vector .imports, .vector .functions, .vector .tables,
    .vector .memories, .vector .globals, .vector .exports, .start, .vector .elements,
    .vector .code, .vector .data, .dataCount, .vector .tags]

/-- The identifier of a byte. -/
def ofCode? (b : UInt8) : Option SectionId := all[b.toNat]?

/-- The place of a section in the order of sections; custom sections have none. -/
def order : SectionId → Nat
  | .custom => 0
  | .vector .types => 1
  | .vector .imports => 2
  | .vector .functions => 3
  | .vector .tables => 4
  | .vector .memories => 5
  | .vector .tags => 6
  | .vector .globals => 7
  | .vector .exports => 8
  | .start => 9
  | .vector .elements => 10
  | .dataCount => 11
  | .vector .code => 12
  | .vector .data => 13

/-- The name of a section. -/
def name : SectionId → String
  | .custom => "custom"
  | .vector .types => "type"
  | .vector .imports => "import"
  | .vector .functions => "function"
  | .vector .tables => "table"
  | .vector .memories => "memory"
  | .vector .globals => "global"
  | .vector .exports => "export"
  | .start => "start"
  | .vector .elements => "element"
  | .vector .code => "code"
  | .vector .data => "data"
  | .dataCount => "datacount"
  | .vector .tags => "tag"

theorem ofCode?_code (id : SectionId) : ofCode? id.code = some id := by
  rcases id with _ | _ | _ | kind
  · rfl
  · rfl
  · rfl
  · cases kind <;> rfl

end SectionId

/-- The kind of a record. -/
inductive RecordKind
  | header
  | content (id : SectionId)
  | finish
  deriving DecidableEq, Repr

namespace RecordKind

/-- The kinds in the order of their numbers. -/
def all : List RecordKind :=
  [.header, .content .custom, .content (.vector .types), .content (.vector .imports),
    .content (.vector .functions), .content (.vector .tables), .content (.vector .memories),
    .content (.vector .globals), .content (.vector .exports), .content .start,
    .content (.vector .elements), .content (.vector .code), .content (.vector .data),
    .content .dataCount, .content (.vector .tags), .finish]

/-- The kind of a number. -/
def ofNumber? (n : Int) : Option RecordKind := if n < 0 then none else all[n.toNat]?

/-- The name of a kind. -/
def name : RecordKind → String
  | .header => "header"
  | .content id => id.name
  | .finish => "end"

/-- The byte of a section; the header and the end have none. -/
def code? : RecordKind → Option UInt8
  | .content id => some id.code
  | _ => none

end RecordKind

/-- Where a section lies: absolute offsets of its first byte, of its payload, and behind it. -/
structure Frame where
  start : Int
  payload : Int
  stop : Int
  deriving DecidableEq, Repr

/-- The entries of a vector section, not read yet. -/
structure EntryVector where
  count : UInt32
  bytes : Bytes
  /-- The absolute offset of the first byte of the entries. -/
  offset : Int
  deriving DecidableEq, Repr

/-- The size of the header. -/
def headerSize : Nat := 8

/-- A record of a module. -/
inductive Record
  | header (start : Int) (version : UInt32)
  | custom (frame : Frame) (name : String) (data : Bytes)
  | startFunction (frame : Frame) (func : UInt32)
  | dataCount (frame : Frame) (count : UInt32)
  | vector (frame : Frame) (kind : VectorKind) (entries : EntryVector)
  | finish (offset : Int)
  deriving DecidableEq, Repr

namespace Record

/-- The kind of a record. -/
def kind : Record → RecordKind
  | .header _ _ => .header
  | .custom _ _ _ => .content .custom
  | .startFunction _ _ => .content .start
  | .dataCount _ _ => .content .dataCount
  | .vector _ kind _ => .content (.vector kind)
  | .finish _ => .finish

/-- The frame of a section. -/
def frame? : Record → Option Frame
  | .custom frame _ _ | .startFunction frame _ | .dataCount frame _ | .vector frame _ _ =>
    some frame
  | .header _ _ | .finish _ => none

/-- The absolute offset of the first byte of a record. -/
def start : Record → Int
  | .header start _ => start
  | .custom frame _ _ | .startFunction frame _ | .dataCount frame _ | .vector frame _ _ =>
    frame.start
  | .finish offset => offset

/-- The absolute offset behind a record. -/
def stop : Record → Int
  | .header start _ => start + headerSize
  | .custom frame _ _ | .startFunction frame _ | .dataCount frame _ | .vector frame _ _ =>
    frame.stop
  | .finish offset => offset

/-- The size of a record. -/
def size (r : Record) : Int := r.stop - r.start

/-- The number of entries of a vector section. -/
def count? : Record → Option UInt32
  | .vector _ _ entries => some entries.count
  | _ => none

/-- Whether a record marks the end of the module. -/
def isFinish : Record → Bool
  | .finish _ => true
  | _ => false

end Record

end WasmUdon
