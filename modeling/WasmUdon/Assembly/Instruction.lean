import WasmUdon.Assembly.Literal
import WasmUdon.Error
import WasmUdon.Text.Space

/-!
# Instructions

The instructions of an assembly program, with the operand folded in. A marked constant stands for
a value that has no instruction of its own; it lives in programs under construction only and has
no text.
-/

namespace WasmUdon

/-- An instruction. -/
inductive Instruction
  | nop
  | push (name : Bytes)
  | pop
  | jump (target : Bytes)
  | jumpIfFalse (target : Bytes)
  | jumpIndirect (name : Bytes)
  | copy
  /-- A call of a function outside the program. -/
  | foreign (symbol : Bytes)
  /-- A marked constant. -/
  | mark (value : Option Literal)
  /-- A number that stands for no instruction. -/
  | unknown (code : Int) (operand : Bytes)
  deriving DecidableEq, Repr

/-- A sequence of instructions. -/
abbrev Block := List Instruction

namespace Instruction

/-- The instruction names by number. -/
def opcodeNames : List String :=
  ["NOP", "PUSH", "POP", "JUMP", "JUMP_IF_FALSE", "JUMP_INDIRECT", "COPY", "EXTERN", "ANNOTATION"]

/-- The name of the instruction with a number. -/
def opcodeName (code : Int) : String :=
  (if code < 0 then none else opcodeNames[code.toNat]?).getD ("Opcode(" ++ toString code ++ ")")

/-- The instruction with a number, an operand and a value; parts that it does not use are
dropped. -/
def ofCode (code : Int) (operand : Bytes) (value : Option Literal) : Instruction :=
  match code with
  | 0 => .nop
  | 1 => .push operand
  | 2 => .pop
  | 3 => .jump operand
  | 4 => .jumpIfFalse operand
  | 5 => .jumpIndirect operand
  | 6 => .copy
  | 7 => .foreign operand
  | 8 => .mark value
  | code => .unknown code operand

/-- The address that ends the program. -/
def haltAddress : UInt32 := 0xFFFFFFFC

/-- A jump to an absolute address. -/
def jumpTo (address : UInt32) : Instruction :=
  .jump (WasmUdon.text ("0x" ++ hexUpper 8 address.toNat))

/-- An instruction as it is shown, whether it can be rendered or not. -/
def text : Instruction → Bytes
  | .nop => WasmUdon.text "NOP"
  | .push name => WasmUdon.text "PUSH," ++ name
  | .pop => WasmUdon.text "POP"
  | .jump target => WasmUdon.text "JUMP," ++ target
  | .jumpIfFalse target => WasmUdon.text "JUMP_IF_FALSE," ++ target
  | .jumpIndirect name => WasmUdon.text "JUMP_INDIRECT," ++ name
  | .copy => WasmUdon.text "COPY"
  | .foreign symbol => WasmUdon.text ("EXTERN," ++ quoteBytes symbol)
  | .mark none => WasmUdon.text "ANNOTATION"
  | .mark (some value) => WasmUdon.text "ANNOTATION(" ++ value.text ++ WasmUdon.text ")"
  | .unknown code operand => WasmUdon.text (opcodeName code ++ ",") ++ operand

/-- The text of an instruction with an operand, which must not be blank. -/
def renderOperand (name : String) (operand : Bytes) : Except Error Bytes :=
  if isBlank operand then .error (.internal .codegen (name ++ " without operand"))
  else .ok (WasmUdon.text (name ++ ",") ++ operand)

/-- The text of an instruction in a program. -/
def render : Instruction → Except Error Bytes
  | .push name => renderOperand "PUSH" name
  | .jump target => renderOperand "JUMP" target
  | .jumpIfFalse target => renderOperand "JUMP_IF_FALSE" target
  | .jumpIndirect name => renderOperand "JUMP_INDIRECT" name
  | .mark _ => .error (.internal .codegen "annotation cannot be rendered")
  | .unknown code _ => .error (.internal .codegen ("unknown opcode " ++ toString code))
  | instruction => .ok instruction.text

end Instruction

end WasmUdon
