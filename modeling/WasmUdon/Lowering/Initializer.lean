import WasmUdon.Global.Entry
import WasmUdon.Lowering.Operators

/-!
# Lowering initializers

An initializer is run on a stack of what its operators leave: constants and references to earlier
globals. Constants are never pushed by an instruction, so dropping one emits nothing, and nothing
can be copied from one. In the end exactly one value of the declared type is left: a constant
becomes the first value of the variable, a reference is copied into it.

A push that is not a `global.get` names the destination of the copy that follows it within the same
operator. So no destination is left between operators, and every other value is a constant or a
variable with a name and a type: a value that lacks both is never left in the end, whether it is
told by a missing name or, as here, by being a destination. The case is kept, and answers with an
internal error that no initializer brings about.
-/

namespace WasmUdon

/-- The globals met so far: assembly type and mutability, by index. -/
abbrev GlobalEnv := List (AsmType × Bool)

/-- A value on the stack of an initializer. -/
inductive StackValue
  /-- A constant, which no instruction pushed. -/
  | constant (value : Literal)
  /-- A reference to an earlier global. -/
  | reference (type : AsmType)
  /-- The destination of a copy. -/
  | destination
  deriving DecidableEq, Repr

/-- The failure of an operator that does not fit the stack. -/
def Operator.stackError (op : Operator) (detail : String) : Error :=
  .decode op.offset (detail ++ " at " ++ op.name)

/-- The type of the global that a `global.get` in the initializer of global `index` refers to: an
earlier one that never changes. -/
def GlobalEnv.reference (env : GlobalEnv) (index : Nat) (op : Operator) : Except Error AsmType :=
  match op.immediate with
  | some (.globalIndex target) =>
    let name := "global.get " ++ toString target.toNat ++ " in initializer"
    match (if target.toNat < index then env[target.toNat]? else none) with
    | none =>
      .error (.decode op.offset (name ++ " of global " ++ toString index
        ++ " must reference an earlier global"))
    | some (_, true) => .error (.decode op.offset (name ++ " reads a mutable global"))
    | some (type, false) => .ok type
  | _ => .error op.badImmediate

/-- The state of lowering: the instructions emitted, and the stack with its top first. -/
structure InitState where
  block : Block := []
  stack : List StackValue := []
  deriving DecidableEq, Repr

namespace InitState

/-- The state with one more instruction emitted. -/
def emit (s : InitState) (instruction : Instruction) (stack : List StackValue) : InitState :=
  { block := s.block ++ [instruction], stack }

/-- Runs one instruction of an operator; `pushed` is what a push leaves. -/
def instruction (op : Operator) (pushed : StackValue) (s : InitState) :
    Instruction → Except Error InitState
  | .mark (some value) => .ok { s with stack := .constant value :: s.stack }
  | .mark none => .ok s
  | .push name => .ok (s.emit (.push name) (pushed :: s.stack))
  | .pop =>
    match s.stack with
    | [] => .error (op.stackError "stack underflow")
    | .constant _ :: stack => .ok { s with stack }
    | _ :: stack => .ok (s.emit .pop stack)
  | .copy =>
    match s.stack with
    | _ :: .constant _ :: _ =>
      .error (op.stackError "constant cannot be copied into a variable")
    | _ :: _ :: stack => .ok (s.emit .copy stack)
    | _ => .error (op.stackError "stack underflow")
  | instruction => .ok (s.emit instruction s.stack)

/-- Runs the instructions of an operator. -/
def instructions (op : Operator) (pushed : StackValue) :
    InitState → List Instruction → Except Error InitState
  | s, [] => .ok s
  | s, i :: is =>
    match s.instruction op pushed i with
    | .error e => .error e
    | .ok s' => instructions op pushed s' is

/-- What a push of an operator leaves on the stack. -/
def pushedBy (env : GlobalEnv) (index : Nat) (op : Operator) : Except Error StackValue :=
  if op.opcode = Opcode.globalGet then (env.reference index op).map .reference
  else .ok .destination

/-- Runs an operator of the initializer of global `index`. -/
def operator (env : GlobalEnv) (index : Nat) (s : InitState) (op : Operator) :
    Except Error InitState :=
  match pushedBy env index op with
  | .error e => .error e
  | .ok pushed =>
    match op.lower .module with
    | .error e => .error e
    | .ok is => s.instructions op pushed is

/-- Runs the operators of the initializer of global `index`. -/
def operators (env : GlobalEnv) (index : Nat) : InitState → List Operator → Except Error InitState
  | s, [] => .ok s
  | s, op :: ops =>
    match s.operator env index op with
    | .error e => .error e
    | .ok s' => operators env index s' ops

end InitState

/-- The failure of an initializer that leaves a value of another type. -/
def ConstExpr.typeError (expr : ConstExpr) (found declared : AsmType) : Error :=
  .decode expr.offset ("initializer produces " ++ found.name ++ ", global is " ++ declared.name)

/-- Lowers the initializer of global `index`, whose variable has a name and a type: the block that
sets it up, and its first value if that is a constant. -/
def ConstExpr.lower (expr : ConstExpr) (env : GlobalEnv) (index : Nat) (name : Bytes)
    (type : AsmType) : Except Error (Block × Option Literal) :=
  let (ops, failure) := Operator.readAll (.ofBytes expr.bytes expr.offset)
  match InitState.operators env index {} ops, failure with
  | .error e, _ => .error e
  | .ok _, some e => .error e
  | .ok s, none =>
    match s.stack with
    | [.constant value] =>
      if value.type = type then .ok (s.block, some value)
      else .error (expr.typeError value.type type)
    | [.reference found] =>
      if found = type then .ok (s.block ++ [.push name, .copy], none)
      else .error (expr.typeError found type)
    -- not reached, see above
    | [.destination] =>
      .error (.internal .interpret ("initializer of global " ++ toString index
        ++ " leaves an untyped value"))
    | stack =>
      .error (.decode expr.offset ("initializer leaves " ++ toString stack.length
        ++ " values, want 1"))

end WasmUdon
