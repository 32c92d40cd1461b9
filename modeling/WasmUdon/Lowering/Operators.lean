import WasmUdon.Assembly.Instruction
import WasmUdon.Lowering.Names
import WasmUdon.Operator.Basic
import WasmUdon.ValueType

/-!
# Lowering types and operators

The numeric value types have assembly types, and a few operators have instructions. A constant
becomes a marked constant, since the assembly language has no instruction for it.
-/

namespace WasmUdon

/-- The assembly type of a value type. -/
def ValueType.lower : ValueType → Except Error AsmType
  | .i32 => .ok .int32
  | .i64 => .ok .int64
  | .f32 => .ok .single
  | .f64 => .ok .double
  | type => .error (.unsupportedType type.name)

/-- The assembly type of the value type with a byte. -/
def lowerTypeCode (code : UInt8) : Except Error AsmType :=
  match ValueType.ofCode? code with
  | some type => type.lower
  | none => .error (.unsupportedType (ValueType.nameOfCode code))

/-- Where an operator stands: in the module itself or in a function. -/
inductive Scope
  | module
  | function (name : Bytes)
  deriving DecidableEq, Repr

namespace Operator

/-- The failure of an operator whose immediate does not belong to it. -/
def badImmediate (op : Operator) : Error :=
  let sort := (op.immediate.map Immediate.sort).getD "<nil>"
  .ofFault
    { phase := .interpret, kind := .internal, offset := op.offset
      detail := WasmUdon.text (op.name ++ " carries immediate " ++ sort)
      value := op.immediate.map fun immediate => .text immediate.sort }

/-- The literal of a constant's immediate. -/
def literal? (op : Operator) : Option Literal :=
  match op.immediate with
  | some (.i32 value) => some (.int32 value)
  | some (.i64 value) => some (.int64 value)
  | some (.f32 bits) => some (.single bits)
  | some (.f64 bits) => some (.double bits)
  | _ => none

/-- The instructions for an access to a variable: reading pushes it, writing copies into it. -/
def access (op : Operator) (name : Bytes) : List Instruction :=
  match op.opcode with
  | Opcode.localTee => [.push name, .copy, .push name]
  | Opcode.localSet | Opcode.globalSet => [.push name, .copy]
  | _ => [.push name]

/-- The instructions of an operator. -/
def lower (op : Operator) (scope : Scope) : Except Error (List Instruction) :=
  match op.opcode with
  | Opcode.nop => .ok [.nop]
  | Opcode.blockEnd => .ok []
  | Opcode.drop => .ok [.pop]
  | Opcode.unreachable => .ok [.jumpTo Instruction.haltAddress]
  | Opcode.globalGet | Opcode.globalSet =>
    match op.immediate with
    | some (.globalIndex index) => .ok (op.access (Slot.ofGlobal index).name)
    | _ => .error op.badImmediate
  | Opcode.localGet | Opcode.localSet | Opcode.localTee =>
    match scope with
    | .module => .error (.unsupportedInstruction op.name op.offset)
    | .function function =>
      match op.immediate with
      | some (.localIndex index) => .ok (op.access (Slot.ofLocal function index).name)
      | _ => .error op.badImmediate
  | Opcode.i32Const | Opcode.i64Const | Opcode.f32Const | Opcode.f64Const =>
    match op.literal? with
    | some value => .ok [.mark (some value)]
    | none => .error op.badImmediate
  | _ => .error (.unsupportedInstruction op.name op.offset)

end Operator

end WasmUdon
