import WasmUdon.Assembly.CodeMap
import WasmUdon.Assembly.Declaration
import WasmUdon.Assembly.Instruction

/-!
# Programs

A program has a data section and a code section, and each of them may be missing. Programs are
merged: declarations are appended, blocks are set label by label, and the later export flag wins.
A unit is the program that one record of a module gives rise to.
-/

namespace WasmUdon

/-- The code of a program. The map itself may be missing. -/
structure CodeSection where
  map : Option (CodeMap Block)
  /-- Whether every label is made visible from outside. -/
  exported : Bool
  deriving DecidableEq, Repr

/-- An assembly program. -/
structure Program where
  data : Option (List Declaration) := none
  code : Option CodeSection := none
  deriving DecidableEq, Repr

namespace Program

/-- The declarations of two programs. -/
def mergeData : Option (List Declaration) → Option (List Declaration) → Option (List Declaration)
  | data, none => data
  | none, some other => some other
  | some data, some other => some (data ++ other)

/-- The code of two programs. The map is there afterwards if the second program has code. -/
def mergeCode : Option CodeSection → Option CodeSection → Option CodeSection
  | code, none => code
  | code, some other =>
    let own := (code.bind CodeSection.map).getD {}
    some { map := some (own.merge (other.map.getD {})), exported := other.exported }

/-- The program followed by another one. -/
def merge (p other : Program) : Program :=
  { data := mergeData p.data other.data, code := mergeCode p.code other.code }

end Program

/-- Whether a unit holds state of the whole module. -/
inductive UnitKind
  | nonGlobal
  | global
  deriving DecidableEq, Repr

/-- The name of a kind of unit. -/
def UnitKind.name : UnitKind → String
  | .nonGlobal => "non-global"
  | .global => "global"

/-- The kind of unit of a number. -/
def UnitKind.ofCode (code : Int) : UnitKind := if code = 1 then .global else .nonGlobal

/-- What one record of a module gives rise to. -/
structure ProgramUnit where
  kind : UnitKind
  program : Program
  deriving DecidableEq, Repr

/-- The program of units, merged front to back. -/
def mergeUnits (units : List ProgramUnit) : Program :=
  units.foldl (fun p u => p.merge u.program) {}

end WasmUdon
