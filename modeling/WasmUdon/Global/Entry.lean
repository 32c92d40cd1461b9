import WasmUdon.Module.Section
import WasmUdon.Operator.Reader
import WasmUdon.ValueType

/-!
# Entries of the global section

An entry is a value type, a heap type if the value type asks for one, a mutability flag, and a
constant expression: operators up to the `end` that closes no block. The expression is kept as
bytes and read again when it is lowered.
-/

namespace WasmUdon

/-- The type of a global. -/
structure GlobalType where
  type : ValueType
  /-- The heap type of a typed reference. -/
  heapType : Option Int := none
  isMutable : Bool := false
  deriving DecidableEq, Repr

/-- A constant expression: its bytes with the closing `end`, and their absolute offset. -/
structure ConstExpr where
  bytes : Bytes
  offset : Int
  deriving DecidableEq, Repr

/-- An entry of the global section. -/
structure GlobalEntry where
  type : GlobalType
  init : ConstExpr
  deriving DecidableEq, Repr

/-- Reads the type of a global. -/
def readGlobalType : Read GlobalType := do
  let start ← Read.position
  let code ← Read.byte
  match ValueType.ofCode? code with
  | none =>
    throw (.decode start ("invalid value type 0x" ++ hex 2 code.toNat) none
      (some (.number code.toNat)))
  | some type =>
    let heapType ← if type.hasHeapType then some <$> Read.s33 else pure none
    let flagPosition ← Read.position
    let flag ← Read.byte
    match flag with
    | 0 => return { type, heapType, isMutable := false }
    | 1 => return { type, heapType, isMutable := true }
    | _ => throw (.decode flagPosition ("invalid mutability flag 0x" ++ hex 2 flag.toNat))

/-- Reads the operators of a constant expression inside `depth` open blocks, up to the `end` that
closes none. -/
def scanConstExpr (depth : Nat) : Read (List Operator) := fun c =>
  if c.rest.isEmpty then .error (.decode c.position "constant expression missing end") c
  else
    match h : Operator.next c with
    | .error e c' => .error e c'
    | .ok op c' =>
      have : c'.rest.length < c.rest.length := Operator.length_lt_of_next h
      let continue_ (depth : Nat) : EStateM.Result Error Cursor (List Operator) :=
        match scanConstExpr depth c' with
        | .ok ops c'' => .ok (op :: ops) c''
        | .error e c'' => .error e c''
      if op.opcode = Opcode.block ∨ op.opcode = Opcode.loop ∨ op.opcode = Opcode.ifThen then
        continue_ (depth + 1)
      else if op.opcode = Opcode.blockEnd then
        match depth with
        | 0 => .ok [op] c'
        | depth + 1 => continue_ depth
      else continue_ depth
termination_by c => c.rest.length

/-- Reads a constant expression. -/
def readConstExpr : Read ConstExpr := fun c =>
  match scanConstExpr 0 c with
  | .ok _ c' =>
    .ok { bytes := c.rest.take (c.rest.length - c'.rest.length), offset := c.position } c'
  | .error e c' => .error e c'

/-- Reads an entry, with failures as they come from the bytes. -/
def readGlobalEntry : Read GlobalEntry := do
  let type ← readGlobalType
  let init ← readConstExpr
  return { type, init }

/-- The entries of a global section being read one by one. -/
structure GlobalReader where
  cursor : Cursor
  count : UInt32
  /-- The index of the next entry. -/
  index : Nat := 0
  deriving DecidableEq, Repr

namespace GlobalReader

/-- The reader of the entries of a section. -/
def ofVector (v : EntryVector) : GlobalReader :=
  { cursor := .ofBytes v.bytes v.offset, count := v.count }

/-- Whether entries are left. -/
def hasMore (g : GlobalReader) : Bool := g.index < g.count.toNat

/-- The failure of an entry; one without a fault gets one at the position where reading stopped. -/
def entryError (index : Nat) (e : Error) (position : Int) : Error :=
  let cause := if e.kind?.isSome then e else .decode position "malformed global entry" (some e)
  .invalidEntry "global" index (some cause)

/-- Reads the next entry. -/
def read (g : GlobalReader) : Except Error GlobalEntry × GlobalReader :=
  if g.hasMore then
    match readGlobalEntry g.cursor with
    | .ok entry cursor => (.ok entry, { g with cursor, index := g.index + 1 })
    | .error e cursor => (.error (entryError g.index e cursor.position), { g with cursor })
  else
    (.error (.internal .decode ("read past " ++ toString g.count.toNat ++ " global entries")), g)

/-- Checks that all entries were read and no bytes are left. -/
def finish (g : GlobalReader) : Except Error Unit :=
  if g.hasMore then
    .error (.internal .decode (toString (g.count.toNat - g.index) ++ " of "
      ++ toString g.count.toNat ++ " global entries unread"))
  else if g.cursor.rest.length ≠ 0 then
    .error (.decode g.cursor.position ("global section has " ++ toString g.cursor.rest.length
      ++ " trailing bytes"))
  else .ok ()

end GlobalReader

end WasmUdon
