import WasmUdon.Bytes
import WasmUdon.Decimal.Floating
import WasmUdon.Operator.Opcode
import WasmUdon.Text.Hex

/-!
# Operators

An operator is an opcode with the immediate that follows it in the module and the offset it was
found at. Which immediate belongs to which opcode is the reader's business; an operator built by
hand may pair any two.
-/

namespace WasmUdon

/-- The immediate of an operator. -/
inductive Immediate
  /-- A block type: `-64` for none, `-1` to `-5` for a value type, else the index of a type. -/
  | block (type : Int)
  | branch (label : UInt32)
  | branchTable (labels : List UInt32) (default : UInt32)
  | call (func : UInt32)
  | callIndirect (type table : UInt32)
  | localIndex (index : UInt32)
  | globalIndex (index : UInt32)
  | tableIndex (index : UInt32)
  | memory (align memory : UInt32) (offset : UInt64)
  | memoryIndex (memory : UInt32)
  | i32 (value : Int32)
  | i64 (value : Int64)
  /-- The bits of a single precision number. -/
  | f32 (bits : UInt32)
  /-- The bits of a double precision number. -/
  | f64 (bits : UInt64)
  | v128 (bytes : Bytes)
  | refNull (heapType : Int)
  | refFunc (func : UInt32)
  /-- The bytes that stand for the types of a typed select. -/
  | select (types : List UInt8)
  deriving DecidableEq, Repr

/-- How messages name the sort of an immediate. -/
def Immediate.sort : Immediate → String
  | .block _ => "wasm.BlockImm"
  | .branch _ => "wasm.BranchImm"
  | .branchTable _ _ => "wasm.BrTableImm"
  | .call _ => "wasm.CallImm"
  | .callIndirect _ _ => "wasm.CallIndirectImm"
  | .localIndex _ => "wasm.LocalImm"
  | .globalIndex _ => "wasm.GlobalImm"
  | .tableIndex _ => "wasm.TableImm"
  | .memory _ _ _ => "wasm.MemoryImm"
  | .memoryIndex _ => "wasm.MemoryIdxImm"
  | .i32 _ => "wasm.I32Imm"
  | .i64 _ => "wasm.I64Imm"
  | .f32 _ => "wasm.F32Imm"
  | .f64 _ => "wasm.F64Imm"
  | .v128 _ => "wasm.V128Imm"
  | .refNull _ => "wasm.RefNullImm"
  | .refFunc _ => "wasm.RefFuncImm"
  | .select _ => "wasm.SelectTypeImm"

/-- An operator. -/
structure Operator where
  opcode : UInt8
  /-- The number of the operator in its family. -/
  sub : UInt32 := 0
  immediate : Option Immediate := none
  offset : Int := 0
  deriving DecidableEq, Repr

namespace Operator

/-- The name of an operator of a family: one of the known names, else the numbers. -/
def familyName (family : UInt8) (sub : UInt32) (known : Option String) : String :=
  known.getD ("0x" ++ hex 2 family.toNat ++ " " ++ toString sub.toNat)

/-- The name of an operator in the text format. -/
def name (op : Operator) : String :=
  if op.opcode = Opcode.miscFamily then
    familyName op.opcode op.sub Opcode.miscNames[op.sub.toNat]?
  else if op.opcode = Opcode.vectorFamily then
    familyName op.opcode op.sub (if op.sub = Opcode.vectorConst then some "v128.const" else none)
  else
    let known :=
      if Opcode.isMemory op.opcode then
        Opcode.memoryNames[op.opcode.toNat - Opcode.firstMemory]?
      else if Opcode.isNumeric op.opcode then
        Opcode.numericNames[op.opcode.toNat - Opcode.firstNumeric]?
      else Opcode.controlName? op.opcode
    known.getD ("0x" ++ hex 2 op.opcode.toNat)

/-- The text of an immediate that is shown behind the name. -/
def argument? : Immediate → Option String
  | .i32 value => some (toString value.toInt)
  | .i64 value => some (toString value.toInt)
  | .f32 bits => some (formatSingle bits)
  | .f64 bits => some (formatDouble bits)
  | .globalIndex index => some (toString index.toNat)
  | .localIndex index => some (toString index.toNat)
  | .call func => some (toString func.toNat)
  | .refFunc func => some (toString func.toNat)
  | _ => none

/-- The text of an operator: its name, and the immediate if it is a constant or an index of a
variable or function. -/
def text (op : Operator) : String :=
  match op.immediate.bind argument? with
  | some argument => op.name ++ " " ++ argument
  | none => op.name

end Operator

end WasmUdon
