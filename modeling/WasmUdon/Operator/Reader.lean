import WasmUdon.Binary.Leb128
import WasmUdon.Operator.Basic

/-!
# Reading operators

The opcode decides the layout of the bytes behind it. `Operator.next` reads one operator; whatever
goes wrong comes back as a fault of the decoding phase with an offset. A successful read takes at
least the opcode, so reading operators one after the other ends (`Operator.length_lt_of_next`).
-/

namespace WasmUdon

/-- The layouts of what follows an opcode. -/
inductive Layout
  | nothing
  | blockType
  | label
  | labelTable
  | func
  | typeAndTable
  | typeList
  | localIndex
  | globalIndex
  | tableIndex
  | memoryArgument
  | memoryIndex
  | i32
  | i64
  | f32
  | f64
  | heapType
  | funcReference
  | miscFamily
  | vectorFamily
  deriving DecidableEq, Repr

/-- The layout of an opcode. -/
def Layout.ofOpcode? (opcode : UInt8) : Option Layout :=
  if Opcode.isMemory opcode then some .memoryArgument
  else if Opcode.isNumeric opcode then some .nothing
  else
    match opcode with
    | Opcode.unreachable | Opcode.nop | Opcode.elseBranch | Opcode.blockEnd | Opcode.ret
    | Opcode.drop | Opcode.select | Opcode.refIsNull => some .nothing
    | Opcode.block | Opcode.loop | Opcode.ifThen => some .blockType
    | Opcode.br | Opcode.brIf => some .label
    | Opcode.brTable => some .labelTable
    | Opcode.call => some .func
    | Opcode.callIndirect => some .typeAndTable
    | Opcode.selectTyped => some .typeList
    | Opcode.localGet | Opcode.localSet | Opcode.localTee => some .localIndex
    | Opcode.globalGet | Opcode.globalSet => some .globalIndex
    | Opcode.tableGet | Opcode.tableSet => some .tableIndex
    | Opcode.memorySize | Opcode.memoryGrow => some .memoryIndex
    | Opcode.i32Const => some .i32
    | Opcode.i64Const => some .i64
    | Opcode.f32Const => some .f32
    | Opcode.f64Const => some .f64
    | Opcode.refNull => some .heapType
    | Opcode.refFunc => some .funcReference
    | Opcode.miscFamily => some .miscFamily
    | Opcode.vectorFamily => some .vectorFamily
    | _ => none

namespace Read

/-- Reads a value `n` times. -/
def replicate {α : Type} (r : Read α) : Nat → Read (List α)
  | 0 => return []
  | n + 1 => do
    let a ← r
    let as ← replicate r n
    return a :: as

theorem replicate_forward {α : Type} {r : Read α} (hr : r.Forward) (n : Nat) :
    (replicate r n).Forward := by
  induction n with
  | zero => exact .pure _
  | succ n ih => exact hr.bind fun _ => ih.bind fun _ => .pure _

/-- A vector: a count and that many values. As every value takes a byte or more, a count beyond
the bytes left is refused at once. -/
def vector {α : Type} (operator noun : String) (r : Read α) : Read (List α) := do
  let count ← u32
  let left ← remainingSize
  if left < count.toNat then
    let position ← position
    throw (.decode position (operator ++ " declares " ++ toString count.toNat ++ " " ++ noun
      ++ " in " ++ toString left ++ " bytes"))
  else replicate r count.toNat

theorem vector_forward {α : Type} (operator noun : String) {r : Read α} (hr : r.Forward) :
    (vector operator noun r).Forward := by
  refine u32_forward.bind fun count => remainingSize_forward.bind fun left => ?_
  split
  · exact position_forward.bind fun _ => .throw _
  · exact replicate_forward hr _

/-- The bit of an alignment that announces a memory index. -/
def memoryIndexBit : UInt32 := 0x40

/-- The argument of a load or store: alignment, memory index if announced, offset. -/
def memoryArgument : Read Immediate := do
  let flags ← u32
  let memory ← if flags &&& memoryIndexBit ≠ 0 then u32 else pure 0
  let offset ← u64
  return .memory (flags &&& ~~~memoryIndexBit) memory offset

theorem memoryArgument_forward : memoryArgument.Forward := by
  refine u32_forward.bind fun flags => ?_
  dsimp only
  split
  · exact u32_forward.bind fun _ => u64_forward.bind fun _ => .pure _
  · exact (Forward.pure _).bind fun _ => u64_forward.bind fun _ => .pure _

end Read

/-- An opcode that no operator has. -/
def Error.unknownOpcode (offset : Int) (name : String) : Error :=
  .decode offset ("unknown opcode " ++ name) none (some (.text name))

/-- Reads what follows an opcode found at `offset`: the number in the family and the immediate. -/
def Layout.read (offset : Int) (family : UInt8) : Layout → Read (UInt32 × Option Immediate)
  | .nothing => return (0, none)
  | .blockType => do return (0, some (.block (← Read.s33)))
  | .label => do return (0, some (.branch (← Read.u32)))
  | .labelTable => do
    let labels ← Read.vector "br_table" "labels" Read.u32
    let default ← Read.u32
    return (0, some (.branchTable labels default))
  | .func => do return (0, some (.call (← Read.u32)))
  | .typeAndTable => do
    let type ← Read.u32
    let table ← Read.u32
    return (0, some (.callIndirect type table))
  | .typeList => do return (0, some (.select (← Read.vector "select" "types" Read.byte)))
  | .localIndex => do return (0, some (.localIndex (← Read.u32)))
  | .globalIndex => do return (0, some (.globalIndex (← Read.u32)))
  | .tableIndex => do return (0, some (.tableIndex (← Read.u32)))
  | .memoryArgument => do return (0, some (← Read.memoryArgument))
  | .memoryIndex => do return (0, some (.memoryIndex (← Read.u32)))
  | .i32 => do return (0, some (.i32 (← Read.s32)))
  | .i64 => do return (0, some (.i64 (← Read.s64)))
  | .f32 => do return (0, some (.f32 (← Read.u32le)))
  | .f64 => do return (0, some (.f64 (← Read.u64le)))
  | .heapType => do return (0, some (.refNull (← Read.s33)))
  | .funcReference => do return (0, some (.refFunc (← Read.u32)))
  | .miscFamily => do
    let sub ← Read.u32
    if sub.toNat < Opcode.miscNames.length then return (sub, none)
    else throw (.unknownOpcode offset (Operator.familyName family sub none))
  | .vectorFamily => do
    let sub ← Read.u32
    if sub = Opcode.vectorConst then
      let bs ← Read.bytes 16
      return (sub, some (.v128 bs))
    else throw (.unknownOpcode offset (Operator.familyName family sub none))

theorem Layout.read_forward (offset : Int) (family : UInt8) (layout : Layout) :
    (layout.read offset family).Forward := by
  cases layout <;> unfold Layout.read
  case nothing => exact .pure _
  case blockType => exact Read.s33_forward.bind fun _ => .pure _
  case label => exact Read.u32_forward.bind fun _ => .pure _
  case labelTable =>
    exact (Read.vector_forward _ _ Read.u32_forward).bind fun _ =>
      Read.u32_forward.bind fun _ => .pure _
  case func => exact Read.u32_forward.bind fun _ => .pure _
  case typeAndTable => exact Read.u32_forward.bind fun _ => Read.u32_forward.bind fun _ => .pure _
  case typeList => exact (Read.vector_forward _ _ Read.byte_forward).bind fun _ => .pure _
  case localIndex => exact Read.u32_forward.bind fun _ => .pure _
  case globalIndex => exact Read.u32_forward.bind fun _ => .pure _
  case tableIndex => exact Read.u32_forward.bind fun _ => .pure _
  case memoryArgument => exact Read.memoryArgument_forward.bind fun _ => .pure _
  case memoryIndex => exact Read.u32_forward.bind fun _ => .pure _
  case i32 => exact Read.s32_forward.bind fun _ => .pure _
  case i64 => exact Read.s64_forward.bind fun _ => .pure _
  case f32 => exact Read.u32le_forward.bind fun _ => .pure _
  case f64 => exact Read.u64le_forward.bind fun _ => .pure _
  case heapType => exact Read.s33_forward.bind fun _ => .pure _
  case funcReference => exact Read.u32_forward.bind fun _ => .pure _
  case miscFamily =>
    refine Read.u32_forward.bind fun sub => ?_
    split
    · exact .pure _
    · exact .throw _
  case vectorFamily =>
    refine Read.u32_forward.bind fun sub => ?_
    split
    · exact (Read.bytes_forward 16).bind fun _ => .pure _
    · exact .throw _

namespace Operator

/-- Reads what follows an opcode. -/
def readBehind (offset : Int) (opcode : UInt8) : Read Operator :=
  match Layout.ofOpcode? opcode with
  | none => throw (.unknownOpcode offset ("0x" ++ hex 2 opcode.toNat))
  | some layout => do
    let (sub, immediate) ← layout.read offset opcode
    return { opcode, sub, immediate, offset }

/-- Reads an operator at `offset`, with failures as they come from the bytes. -/
def readAt (offset : Int) : Read Operator := do
  let opcode ← Read.byte
  readBehind offset opcode

/-- Reads the next operator. A failure without a fault of its own gets one, at the position where
reading stopped. -/
def next : Read Operator := fun c =>
  match readAt c.position c with
  | .ok op c' => .ok op c'
  | .error e c' =>
    match e.kind? with
    | some _ => .error e c'
    | none =>
      .error (.decode c'.position ("operator at offset " ++ toString c.position) (some e)) c'

theorem readBehind_forward (offset : Int) (opcode : UInt8) :
    (readBehind offset opcode).Forward := by
  unfold readBehind
  split
  · exact .throw _
  · exact (Layout.read_forward _ _ _).bind fun _ => .pure _

theorem readAt_forward (offset : Int) : (readAt offset).Forward :=
  Read.byte_forward.bind fun _ => readBehind_forward _ _

theorem readAt_of_next {c c' : Cursor} {op : Operator} (h : next c = .ok op c') :
    readAt c.position c = .ok op c' := by
  unfold next at h
  split at h
  · rename_i hr
    rw [hr]
    exact h
  · split at h <;> simp at h

/-- An operator takes at least one byte. -/
theorem length_lt_of_next {c c' : Cursor} {op : Operator} (h : next c = .ok op c') :
    c'.rest.length < c.rest.length := by
  have h := readAt_of_next h
  simp only [readAt, bind, EStateM.bind] at h
  split at h
  · rename_i b c₁ hb
    exact Nat.lt_of_le_of_lt ((readBehind_forward _ _).of_ok h).length_le
      (Read.length_lt_of_byte hb)
  · simp at h

/-- The operators up to the end of the bytes or the first failure, and that failure. -/
def readAll (c : Cursor) : List Operator × Option Error :=
  if c.rest.isEmpty then ([], none)
  else
    match h : next c with
    | .error e _ => ([], some e)
    | .ok op c' =>
      have : c'.rest.length < c.rest.length := length_lt_of_next h
      let (ops, failure) := readAll c'
      (op :: ops, failure)
termination_by c.rest.length

end Operator

end WasmUdon
