import WasmUdon.Assembly.Program
import WasmUdon.Lowering.Initializer

/-!
# Lowering sections

The header gives rise to an empty program, and the global section to declarations and the blocks
that set them up, both in the order of the entries. All other sections are refused.
-/

namespace WasmUdon

/-- What the entries met so far were lowered to. -/
structure LoweredGlobals where
  env : GlobalEnv := []
  declarations : List Declaration := []
  code : CodeMap Block := {}
  deriving DecidableEq, Repr

namespace LoweredGlobals

/-- Lowers the entry with an index. -/
def add (s : LoweredGlobals) (index : Nat) (entry : GlobalEntry) : Except Error LoweredGlobals :=
  let name := (Slot.ofGlobal (UInt32.ofNat index)).name
  let lowered : Except Error (AsmType × Block × Option Literal) := do
    let type ← entry.type.type.lower
    let (block, init) ← entry.init.lower s.env index name type
    return (type, block, init)
  match lowered with
  | .error e => .error (.invalidEntry "global" index (some e))
  | .ok (type, block, init) =>
    .ok
      { env := s.env ++ [(type, entry.type.isMutable)]
        declarations := s.declarations ++ [{ name, type, init }]
        code := s.code.set (initLabel name) block }

/-- Reads and lowers the next `n` entries. -/
def addEntries : (n : Nat) → GlobalReader → LoweredGlobals →
    Except Error (GlobalReader × LoweredGlobals)
  | 0, g, s => .ok (g, s)
  | n + 1, g, s =>
    match g.read with
    | (.error e, _) => .error e
    | (.ok entry, g') =>
      match s.add g.index entry with
      | .error e => .error e
      | .ok s' => addEntries n g' s'

end LoweredGlobals

/-- Lowers the entries of a global section. -/
def EntryVector.lowerGlobals (v : EntryVector) (exported : Bool) : Except Error ProgramUnit :=
  match LoweredGlobals.addEntries v.count.toNat (.ofVector v) {} with
  | .error e => .error e
  | .ok (g, s) =>
    match g.finish with
    | .error e => .error e
    | .ok () =>
      .ok
        { kind := .global
          program :=
            { data := some s.declarations, code := some { map := some s.code, exported } } }

/-- Lowers a record of a module. -/
def Record.lower (r : Record) (exported : Bool) : Except Error ProgramUnit :=
  match r with
  | .header _ _ => .ok { kind := .nonGlobal, program := {} }
  | .vector _ .globals entries => entries.lowerGlobals exported
  | _ => .error (.unsupportedSection r.kind.name)

end WasmUdon
