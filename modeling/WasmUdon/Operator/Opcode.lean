/-!
# Opcodes

The first byte of an operator. Loads and stores, and the numeric operators without immediate, fill
two contiguous ranges; two bytes open families of operators with a second number.
-/

namespace WasmUdon.Opcode

@[match_pattern] def unreachable : UInt8 := 0x00
@[match_pattern] def nop : UInt8 := 0x01
@[match_pattern] def block : UInt8 := 0x02
@[match_pattern] def loop : UInt8 := 0x03
@[match_pattern] def ifThen : UInt8 := 0x04
@[match_pattern] def elseBranch : UInt8 := 0x05
@[match_pattern] def blockEnd : UInt8 := 0x0B
@[match_pattern] def br : UInt8 := 0x0C
@[match_pattern] def brIf : UInt8 := 0x0D
@[match_pattern] def brTable : UInt8 := 0x0E
@[match_pattern] def ret : UInt8 := 0x0F
@[match_pattern] def call : UInt8 := 0x10
@[match_pattern] def callIndirect : UInt8 := 0x11
@[match_pattern] def drop : UInt8 := 0x1A
@[match_pattern] def select : UInt8 := 0x1B
@[match_pattern] def selectTyped : UInt8 := 0x1C
@[match_pattern] def localGet : UInt8 := 0x20
@[match_pattern] def localSet : UInt8 := 0x21
@[match_pattern] def localTee : UInt8 := 0x22
@[match_pattern] def globalGet : UInt8 := 0x23
@[match_pattern] def globalSet : UInt8 := 0x24
@[match_pattern] def tableGet : UInt8 := 0x25
@[match_pattern] def tableSet : UInt8 := 0x26
@[match_pattern] def memorySize : UInt8 := 0x3F
@[match_pattern] def memoryGrow : UInt8 := 0x40
@[match_pattern] def i32Const : UInt8 := 0x41
@[match_pattern] def i64Const : UInt8 := 0x42
@[match_pattern] def f32Const : UInt8 := 0x43
@[match_pattern] def f64Const : UInt8 := 0x44
@[match_pattern] def refNull : UInt8 := 0xD0
@[match_pattern] def refIsNull : UInt8 := 0xD1
@[match_pattern] def refFunc : UInt8 := 0xD2

/-- The family of saturating conversions. -/
@[match_pattern] def miscFamily : UInt8 := 0xFC

/-- The family of vector operators. -/
@[match_pattern] def vectorFamily : UInt8 := 0xFD

/-- The number of the vector constant in its family. -/
def vectorConst : UInt32 := 0x0C

/-- The first load. -/
def firstMemory : Nat := 0x28

/-- The first numeric operator without immediate. -/
def firstNumeric : Nat := 0x45

/-- The names of loads and stores, from the first load on. -/
def memoryNames : List String :=
  ["i32.load", "i64.load", "f32.load", "f64.load",
    "i32.load8_s", "i32.load8_u", "i32.load16_s", "i32.load16_u",
    "i64.load8_s", "i64.load8_u", "i64.load16_s", "i64.load16_u", "i64.load32_s", "i64.load32_u",
    "i32.store", "i64.store", "f32.store", "f64.store",
    "i32.store8", "i32.store16", "i64.store8", "i64.store16", "i64.store32"]

/-- The names of the numeric operators without immediate. -/
def numericNames : List String :=
  ["i32.eqz", "i32.eq", "i32.ne", "i32.lt_s", "i32.lt_u", "i32.gt_s", "i32.gt_u", "i32.le_s",
    "i32.le_u", "i32.ge_s", "i32.ge_u",
    "i64.eqz", "i64.eq", "i64.ne", "i64.lt_s", "i64.lt_u", "i64.gt_s", "i64.gt_u", "i64.le_s",
    "i64.le_u", "i64.ge_s", "i64.ge_u",
    "f32.eq", "f32.ne", "f32.lt", "f32.gt", "f32.le", "f32.ge",
    "f64.eq", "f64.ne", "f64.lt", "f64.gt", "f64.le", "f64.ge",
    "i32.clz", "i32.ctz", "i32.popcnt", "i32.add", "i32.sub", "i32.mul", "i32.div_s", "i32.div_u",
    "i32.rem_s", "i32.rem_u",
    "i32.and", "i32.or", "i32.xor", "i32.shl", "i32.shr_s", "i32.shr_u", "i32.rotl", "i32.rotr",
    "i64.clz", "i64.ctz", "i64.popcnt", "i64.add", "i64.sub", "i64.mul", "i64.div_s", "i64.div_u",
    "i64.rem_s", "i64.rem_u",
    "i64.and", "i64.or", "i64.xor", "i64.shl", "i64.shr_s", "i64.shr_u", "i64.rotl", "i64.rotr",
    "f32.abs", "f32.neg", "f32.ceil", "f32.floor", "f32.trunc", "f32.nearest", "f32.sqrt",
    "f32.add", "f32.sub", "f32.mul", "f32.div", "f32.min", "f32.max", "f32.copysign",
    "f64.abs", "f64.neg", "f64.ceil", "f64.floor", "f64.trunc", "f64.nearest", "f64.sqrt",
    "f64.add", "f64.sub", "f64.mul", "f64.div", "f64.min", "f64.max", "f64.copysign",
    "i32.wrap_i64", "i32.trunc_f32_s", "i32.trunc_f32_u", "i32.trunc_f64_s", "i32.trunc_f64_u",
    "i64.extend_i32_s", "i64.extend_i32_u", "i64.trunc_f32_s", "i64.trunc_f32_u",
    "i64.trunc_f64_s", "i64.trunc_f64_u",
    "f32.convert_i32_s", "f32.convert_i32_u", "f32.convert_i64_s", "f32.convert_i64_u",
    "f32.demote_f64",
    "f64.convert_i32_s", "f64.convert_i32_u", "f64.convert_i64_s", "f64.convert_i64_u",
    "f64.promote_f32",
    "i32.reinterpret_f32", "i64.reinterpret_f64", "f32.reinterpret_i32", "f64.reinterpret_i64",
    "i32.extend8_s", "i32.extend16_s", "i64.extend8_s", "i64.extend16_s", "i64.extend32_s"]

/-- The names of the saturating conversions. -/
def miscNames : List String :=
  ["i32.trunc_sat_f32_s", "i32.trunc_sat_f32_u", "i32.trunc_sat_f64_s", "i32.trunc_sat_f64_u",
    "i64.trunc_sat_f32_s", "i64.trunc_sat_f32_u", "i64.trunc_sat_f64_s", "i64.trunc_sat_f64_u"]

/-- Whether an opcode is a load or a store. -/
def isMemory (b : UInt8) : Bool :=
  firstMemory ≤ b.toNat && b.toNat < firstMemory + memoryNames.length

/-- Whether an opcode is a numeric operator without immediate. -/
def isNumeric (b : UInt8) : Bool :=
  firstNumeric ≤ b.toNat && b.toNat < firstNumeric + numericNames.length

/-- The name of an opcode outside the two ranges and the two families. -/
def controlName? : UInt8 → Option String
  | unreachable => "unreachable"
  | nop => "nop"
  | block => "block"
  | loop => "loop"
  | ifThen => "if"
  | elseBranch => "else"
  | blockEnd => "end"
  | br => "br"
  | brIf => "br_if"
  | brTable => "br_table"
  | ret => "return"
  | call => "call"
  | callIndirect => "call_indirect"
  | drop => "drop"
  | select => "select"
  | selectTyped => "select"
  | localGet => "local.get"
  | localSet => "local.set"
  | localTee => "local.tee"
  | globalGet => "global.get"
  | globalSet => "global.set"
  | tableGet => "table.get"
  | tableSet => "table.set"
  | memorySize => "memory.size"
  | memoryGrow => "memory.grow"
  | i32Const => "i32.const"
  | i64Const => "i64.const"
  | f32Const => "f32.const"
  | f64Const => "f64.const"
  | refNull => "ref.null"
  | refIsNull => "ref.is_null"
  | refFunc => "ref.func"
  | _ => none

end WasmUdon.Opcode
