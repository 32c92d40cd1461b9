import WasmUdon.Bytes
import WasmUdon.Decimal.Floating
import WasmUdon.Text.Quoted

/-!
# Types and literals of assembly programs

A literal is a constant in the text form of its type.
-/

namespace WasmUdon

/-- A type of the assembly language. -/
inductive AsmType
  | int32
  | int64
  | single
  | double
  | string
  /-- A number that stands for no type. -/
  | unknown (code : Int)
  deriving DecidableEq, Repr

namespace AsmType

/-- The type of a number. -/
def ofCode : Int → AsmType
  | 0 => .int32
  | 1 => .int64
  | 2 => .single
  | 3 => .double
  | 4 => .string
  | code => .unknown code

/-- The keyword of a type in declarations. -/
def keyword? : AsmType → Option String
  | .int32 => some "%SystemInt32"
  | .int64 => some "%SystemInt64"
  | .single => some "%SystemSingle"
  | .double => some "%SystemDouble"
  | .string => some "%SystemString"
  | .unknown _ => none

/-- The name of a type in messages. -/
def name : AsmType → String
  | .int32 => "%SystemInt32"
  | .int64 => "%SystemInt64"
  | .single => "%SystemSingle"
  | .double => "%SystemDouble"
  | .string => "%SystemString"
  | .unknown code => "Type(" ++ toString code ++ ")"

end AsmType

/-- A constant in its text form. -/
structure Literal where
  type : AsmType
  text : Bytes
  deriving DecidableEq, Repr

namespace Literal

/-- An integer of 32 bits. -/
def int32 (value : Int32) : Literal := ⟨.int32, WasmUdon.text (toString value.toInt)⟩

/-- An integer of 64 bits. -/
def int64 (value : Int64) : Literal := ⟨.int64, WasmUdon.text (toString value.toInt)⟩

/-- A single precision number, given by its bits. -/
def single (bits : UInt32) : Literal := ⟨.single, WasmUdon.text (formatSingle bits)⟩

/-- A double precision number, given by its bits. -/
def double (bits : UInt64) : Literal := ⟨.double, WasmUdon.text (formatDouble bits)⟩

/-- A string, given by its bytes. -/
def string (value : Bytes) : Literal := ⟨.string, WasmUdon.text (quoteBytes value)⟩

end Literal

end WasmUdon
