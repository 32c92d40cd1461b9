/-!
# Value types

The value types of a module, each written as one byte; the two typed references are followed by a
heap type.
-/

namespace WasmUdon

/-- A value type. -/
inductive ValueType
  | i32
  | i64
  | f32
  | f64
  | v128
  | funcref
  | externref
  | anyref
  | eqref
  | i31ref
  | structref
  | arrayref
  | nullref
  | nullexternref
  | nullfuncref
  /-- A nullable reference to a heap type. -/
  | refNull
  /-- A reference to a heap type. -/
  | ref
  deriving DecidableEq, Repr

namespace ValueType

/-- All value types. -/
def all : List ValueType :=
  [.i32, .i64, .f32, .f64, .v128, .funcref, .externref, .anyref, .eqref, .i31ref, .structref,
    .arrayref, .nullref, .nullexternref, .nullfuncref, .refNull, .ref]

/-- The byte of a value type. -/
def code : ValueType → UInt8
  | .i32 => 0x7F
  | .i64 => 0x7E
  | .f32 => 0x7D
  | .f64 => 0x7C
  | .v128 => 0x7B
  | .funcref => 0x70
  | .externref => 0x6F
  | .anyref => 0x6E
  | .eqref => 0x6D
  | .i31ref => 0x6C
  | .structref => 0x6B
  | .arrayref => 0x6A
  | .nullref => 0x71
  | .nullexternref => 0x72
  | .nullfuncref => 0x73
  | .refNull => 0x63
  | .ref => 0x64

/-- The value type of a byte. -/
def ofCode? (b : UInt8) : Option ValueType := all.find? (·.code == b)

/-- The name of a value type. -/
def name : ValueType → String
  | .i32 => "i32"
  | .i64 => "i64"
  | .f32 => "f32"
  | .f64 => "f64"
  | .v128 => "v128"
  | .funcref => "funcref"
  | .externref => "externref"
  | .anyref => "anyref"
  | .eqref => "eqref"
  | .i31ref => "i31ref"
  | .structref => "structref"
  | .arrayref => "arrayref"
  | .nullref => "nullref"
  | .nullexternref => "nullexternref"
  | .nullfuncref => "nullfuncref"
  | .refNull => "ref null"
  | .ref => "ref"

/-- Whether a heap type follows the byte. -/
def hasHeapType : ValueType → Bool
  | .refNull | .ref => true
  | _ => false

/-- The name of the value type of a byte, `unknown` if there is none. -/
def nameOfCode (b : UInt8) : String := ((ofCode? b).map name).getD "unknown"

theorem ofCode?_code (t : ValueType) : ofCode? t.code = some t := by cases t <;> rfl

theorem code_of_ofCode? {b : UInt8} {t : ValueType} (h : ofCode? b = some t) : t.code = b := by
  simpa using List.find?_some h

end ValueType

end WasmUdon
