import WasmUdon.Assembly.Rendering
import WasmUdon.Lowering.Section
import WasmUdon.Module.Decoder

/-!
# From a module to a program

The whole way: the records of a module, a unit for each of them, the program of the units, and its
text. Work that was called off fails before the next record is read or lowered.
-/

namespace WasmUdon

/-- The choices of a run. -/
structure Options where
  /-- Where the module starts in the bytes. -/
  offset : Int := 0
  /-- Whether the blocks that set up globals are exported. -/
  exportInit : Bool := false
  /-- Whether the work was called off. -/
  canceled : Bool := false
  deriving DecidableEq, Repr

/-- The units of records up to the first failure, and that failure. -/
def walkUnits (exported : Bool) : List Record → List ProgramUnit × Option Error
  | [] => ([], none)
  | r :: rs =>
    match r.lower exported with
    | .error e => ([], some e)
    | .ok u =>
      let (units, failure) := walkUnits exported rs
      (u :: units, failure)

namespace Options

/-- The records up to the end of the module or the first failure, and that failure. -/
def walk (o : Options) (data : Bytes) : List Record × Option Error :=
  if o.canceled then ([], some .canceled) else walkModule data o.offset

/-- The records of a module. -/
def records (o : Options) (data : Bytes) : Except Error (List Record) :=
  match o.walk data with
  | (records, none) => .ok records
  | (_, some e) => .error e

/-- The units of records. -/
def units (o : Options) (records : List Record) : Except Error (List ProgramUnit) :=
  if o.canceled ∧ records ≠ [] then .error .canceled
  else
    match walkUnits o.exportInit records with
    | (units, none) => .ok units
    | (_, some e) => .error e

/-- The program of a module. -/
def program (o : Options) (data : Bytes) : Except Error Program := do
  let records ← o.records data
  let units ← o.units records
  return mergeUnits units

/-- The text of the program of a module. -/
def assemble (o : Options) (data : Bytes) : Except Error Bytes := do
  let p ← o.program data
  p.render

end Options

/-- The text of the program of a module that starts with the first byte. -/
def assembleModule (data : Bytes) : Except Error Bytes := ({} : Options).assemble data

end WasmUdon
