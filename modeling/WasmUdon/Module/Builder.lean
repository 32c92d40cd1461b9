import WasmUdon.Module.Section
import WasmUdon.Operator.Opcode

/-!
# Writing modules

The writing side of the container: sections one after the other behind a header, numbers in their
shortest form. Sections are written as given, so a module with wrong identifiers, order or
payloads can be written as well.
-/

namespace WasmUdon

/-- A section to be written. -/
structure RawSection where
  code : UInt8
  payload : Bytes
  deriving DecidableEq, Repr

/-- The eight bytes of the header. -/
def headerBytes : Bytes := [0x00, 0x61, 0x73, 0x6D, 0x01, 0x00, 0x00, 0x00]

/-- A name: its size and its bytes. -/
def writeName (name : String) : Bytes := writeUnsigned (text name).length ++ text name

/-- An operator of an initializer to be written. -/
inductive InitOperator
  | i32 (value : Int32)
  | i64 (value : Int64)
  | f32 (bits : UInt32)
  | f64 (bits : UInt64)
  | globalGet (index : UInt32)
  /-- An operator that is one byte. -/
  | raw (opcode : UInt8)
  deriving DecidableEq, Repr

/-- The bytes of an operator. -/
def InitOperator.write : InitOperator → Bytes
  | .i32 value => Opcode.i32Const :: writeSigned value.toInt
  | .i64 value => Opcode.i64Const :: writeSigned value.toInt
  | .f32 bits => Opcode.f32Const :: toLittleEndian 4 bits.toNat
  | .f64 bits => Opcode.f64Const :: toLittleEndian 8 bits.toNat
  | .globalGet index => Opcode.globalGet :: writeUnsigned index.toNat
  | .raw opcode => [opcode]

/-- The bytes of an initializer: its operators and the closing `end`. -/
def writeInit (ops : List InitOperator) : Bytes :=
  ops.flatMap InitOperator.write ++ [Opcode.blockEnd]

/-- A global to be written: the byte of its type, its mutability and the bytes of its initializer
with the closing `end`. -/
structure RawGlobal where
  type : UInt8
  isMutable : Bool
  init : Bytes
  deriving DecidableEq, Repr

/-- The bytes of a global. -/
def RawGlobal.write (g : RawGlobal) : Bytes :=
  g.type :: (if g.isMutable then 1 else 0) :: g.init

namespace RawSection

/-- A custom section. -/
def custom (name : String) (data : Bytes) : RawSection :=
  { code := SectionId.custom.code, payload := writeName name ++ data }

/-- A global section. -/
def globals (gs : List RawGlobal) : RawSection :=
  { code := (SectionId.vector .globals).code
    payload := writeUnsigned gs.length ++ gs.flatMap RawGlobal.write }

/-- A table section with one table of function references. -/
def table (least : UInt32) : RawSection :=
  { code := (SectionId.vector .tables).code
    payload := writeUnsigned 1 ++ [0x70, 0x00] ++ writeUnsigned least.toNat }

/-- A memory section with one memory. -/
def memory (least : UInt32) : RawSection :=
  { code := (SectionId.vector .memories).code
    payload := writeUnsigned 1 ++ [0x00] ++ writeUnsigned least.toNat }

/-- A start section. -/
def start (func : UInt32) : RawSection :=
  { code := SectionId.start.code, payload := writeUnsigned func.toNat }

/-- The bytes of a section. -/
def write (s : RawSection) : Bytes := s.code :: writeUnsigned s.payload.length ++ s.payload

end RawSection

/-- The bytes of a module. -/
def writeModule (sections : List RawSection) : Bytes :=
  headerBytes ++ sections.flatMap RawSection.write

end WasmUdon
