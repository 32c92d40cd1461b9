import WasmUdon.Assembly.Program

/-!
# Workspaces

In a workspace, programs under construction are kept by name, and their data sections, code
sections, code maps and blocks are cells. A program refers to its sections, a code section to its
map, and a map to its blocks. So two programs can share a section, and a change through one of them
is seen through the other. A merge copies sections and maps into cells of the program that is merged
into, but not the blocks: after it, programs share blocks and nothing else.

`Workspace.view` forgets the references and gives the program as it stands.
-/

namespace WasmUdon

/-- A code section, which refers to its map. The map may be missing. -/
structure CodeCell where
  map : Option Nat
  exported : Bool
  deriving DecidableEq, Repr

/-- The sections that a program refers to. -/
structure ProgramRefs where
  data : Option Nat := none
  code : Option Nat := none
  deriving DecidableEq, Repr

/-- Programs under construction and the cells they refer to. -/
structure Workspace where
  data : Array (List Declaration) := #[]
  code : Array CodeCell := #[]
  maps : Array (CodeMap Nat) := #[]
  blocks : Array Block := #[]
  programs : List (String × ProgramRefs) := []
  deriving DecidableEq, Repr

namespace Workspace

/-! ## Looking -/

/-- The sections of the program with a name; a program not mentioned before has none. -/
def refs (w : Workspace) (name : String) : ProgramRefs := (w.programs.lookup name).getD {}

/-- The block in a cell. -/
def block (w : Workspace) (ref : Nat) : Block := w.blocks[ref]?.getD []

/-- The map that a code section refers to. -/
def mapOf? (w : Workspace) (cell : CodeCell) : Option (CodeMap Nat) :=
  cell.map.bind fun ref => w.maps[ref]?

/-- The code section in a cell. -/
def viewCode (w : Workspace) (cell : CodeCell) : CodeSection :=
  { map := (w.mapOf? cell).map fun m => m.map w.block, exported := cell.exported }

/-- The program that refers to sections. -/
def view (w : Workspace) (refs : ProgramRefs) : Program :=
  { data := refs.data.bind fun ref => w.data[ref]?
    code := (refs.code.bind fun ref => w.code[ref]?).map w.viewCode }

/-- The declarations of a program. -/
def declarations? (w : Workspace) (name : String) : Option (List Declaration) :=
  (w.refs name).data.bind fun ref => w.data[ref]?

/-- The cell of the map of the code section in a cell. -/
def mapRef? (w : Workspace) (code : Option Nat) : Option Nat :=
  (code.bind fun ref => w.code[ref]?).bind CodeCell.map

/-- The code map of a program. -/
def map? (w : Workspace) (name : String) : Option (CodeMap Nat) :=
  (w.mapRef? (w.refs name).code).bind fun ref => w.maps[ref]?

/-- The first declaration of a variable. -/
def lookup? (w : Workspace) (name : String) (variable_ : Bytes) : Option Declaration :=
  (w.declarations? name).bind fun ds => ds.find? (·.name == variable_)

/-! ## Cells -/

/-- Makes the program with a name refer to sections. -/
def setRefs (w : Workspace) (name : String) (refs : ProgramRefs) : Workspace :=
  { w with programs := (name, refs) :: w.programs.filter (·.1 != name) }

/-- A new data cell. -/
def newData (w : Workspace) (ds : List Declaration) : Workspace × Nat :=
  ({ w with data := w.data.push ds }, w.data.size)

/-- A new code cell. -/
def newCode (w : Workspace) (cell : CodeCell) : Workspace × Nat :=
  ({ w with code := w.code.push cell }, w.code.size)

/-- A new map. -/
def newMap (w : Workspace) (m : CodeMap Nat) : Workspace × Nat :=
  ({ w with maps := w.maps.push m }, w.maps.size)

/-- A new block. -/
def newBlock (w : Workspace) (b : Block) : Workspace × Nat :=
  ({ w with blocks := w.blocks.push b }, w.blocks.size)

/-- New blocks, set one by one under their labels. -/
def newBlocks (w : Workspace) (m : CodeMap Nat) : List (Bytes × Block) → Workspace × CodeMap Nat
  | [] => (w, m)
  | (label, b) :: rest =>
    let (w, ref) := w.newBlock b
    w.newBlocks (m.set label ref) rest

/-- Changes the data section of a program, if there is one. -/
def modifyData? (w : Workspace) (name : String)
    (f : List Declaration → List Declaration) : Option Workspace :=
  match (w.refs name).data with
  | some ref => if ref < w.data.size then some { w with data := w.data.modify ref f } else none
  | none => none

/-- Changes the code map of a program, if there is one. -/
def modifyMap? (w : Workspace) (name : String) (f : CodeMap Nat → CodeMap Nat) :
    Option Workspace :=
  match w.mapRef? (w.refs name).code with
  | some ref => if ref < w.maps.size then some { w with maps := w.maps.modify ref f } else none
  | none => none

/-! ## Operations -/

/-- Gives a program a new data section. -/
def setData (w : Workspace) (name : String) (ds : List Declaration) : Workspace :=
  let (w, ref) := w.newData ds
  w.setRefs name { w.refs name with data := some ref }

/-- Takes the data section away. -/
def clearData (w : Workspace) (name : String) : Workspace :=
  w.setRefs name { w.refs name with data := none }

/-- Makes a program refer to the data section of another one. -/
def shareData (w : Workspace) (name source : String) : Workspace :=
  w.setRefs name { w.refs name with data := (w.refs source).data }

/-- Appends a declaration. -/
def pushDeclaration? (w : Workspace) (name : String) (d : Declaration) : Option Workspace :=
  w.modifyData? name (· ++ [d])

/-- Gives a program a new code section; without blocks its map is missing. -/
def setCode (w : Workspace) (name : String) (exported : Bool)
    (blocks : Option (List (Bytes × Block))) : Workspace :=
  let (w, map) : Workspace × Option Nat :=
    match blocks with
    | none => (w, none)
    | some blocks =>
      let (w, m) := w.newBlocks {} blocks
      let (w, ref) := w.newMap m
      (w, some ref)
  let (w, ref) := w.newCode { map, exported }
  w.setRefs name { w.refs name with code := some ref }

/-- Takes the code section away. -/
def clearCode (w : Workspace) (name : String) : Workspace :=
  w.setRefs name { w.refs name with code := none }

/-- Makes a program refer to the code section of another one. -/
def shareCode (w : Workspace) (name source : String) : Workspace :=
  w.setRefs name { w.refs name with code := (w.refs source).code }

/-- Sets a new block under a label. -/
def setBlock? (w : Workspace) (name : String) (label : Bytes) (b : Block) : Option Workspace :=
  let (w, ref) := w.newBlock b
  w.modifyMap? name (·.set label ref)

/-- Sets a block that is there already under a label. -/
def placeBlock? (w : Workspace) (name : String) (label : Bytes) (ref : Nat) : Option Workspace :=
  if ref < w.blocks.size then w.modifyMap? name (·.set label ref) else none

/-- Appends an instruction to the block in a cell. -/
def pushInstruction (w : Workspace) (ref : Nat) (i : Instruction) : Workspace :=
  { w with blocks := w.blocks.modify ref (· ++ [i]) }

/-- Merges another data section into a data section, which is copied if there was none. -/
def mergeData (w : Workspace) (own other : Option Nat) : Workspace × Option Nat :=
  match other.bind fun ref => w.data[ref]? with
  | none => (w, own)
  | some ds =>
    match own with
    | some ref => ({ w with data := w.data.modify ref (· ++ ds) }, own)
    | none =>
      let (w, ref) := w.newData ds
      (w, some ref)

/-- A copy of a map, which refers to the same blocks. A map that is missing is copied to an empty
one. -/
def copyMap (w : Workspace) (m : Option (CodeMap Nat)) : Workspace × Nat :=
  w.newMap (CodeMap.merge {} (m.getD {}))

/-- The map of the code section in a cell, which is given an empty one if it has none. -/
def ownMap (w : Workspace) (ref : Nat) : Workspace × Nat :=
  match w.mapRef? (some ref) with
  | some map => (w, map)
  | none =>
    let (w, map) := w.newMap {}
    ({ w with code := w.code.modify ref fun cell => { cell with map := some map } }, map)

/-- Merges another code section into a code section, which is made if there was none. -/
def mergeCode (w : Workspace) (own other : Option Nat) : Workspace × Option Nat :=
  match other.bind fun ref => w.code[ref]? with
  | none => (w, own)
  | some cell =>
    -- where both are one section without a map, it is empty before and after it gets its own
    let more := w.mapOf? cell
    match own with
    | some ref =>
      let (w, map) := w.ownMap ref
      ({ w with
          maps := w.maps.modify map (·.merge (more.getD {}))
          code := w.code.modify ref fun own => { own with exported := cell.exported } }, own)
    | none =>
      let (w, map) := w.copyMap more
      let (w, ref) := w.newCode { map := some map, exported := cell.exported }
      (w, some ref)

/-- Merges the sections of another program into those of a program. -/
def mergeRefs (w : Workspace) (own other : ProgramRefs) : Workspace × ProgramRefs :=
  let (w, data) := w.mergeData own.data other.data
  let (w, code) := w.mergeCode own.code other.code
  (w, { data, code })

/-- Merges another program into a program. -/
def merge (w : Workspace) (name other : String) : Workspace :=
  let (w, refs) := w.mergeRefs (w.refs name) (w.refs other)
  w.setRefs name refs

/-- Merges the code map of another program, which may be missing, into that of a program. -/
def mergeMap? (w : Workspace) (name : String) (other : Option String) : Option Workspace :=
  w.modifyMap? name (·.merge ((other.bind w.map?).getD {}))

/-- Merges programs front to back into a program that starts empty. -/
def mergeAll (w : Workspace) (own : ProgramRefs) : List ProgramRefs → Workspace × ProgramRefs
  | [] => (w, own)
  | other :: rest =>
    let (w, own) := w.mergeRefs own other
    w.mergeAll own rest

/-- Replaces a program by the merge of units, each of which may lack its program. -/
def mergeUnits (w : Workspace) (name : String) (units : List (Option String)) : Workspace :=
  let (w, refs) := w.mergeAll {} ((units.filterMap id).map w.refs)
  w.setRefs name refs

end Workspace

end WasmUdon
