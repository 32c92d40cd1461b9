import WasmUdon.Bytes

/-!
# Names of variables and blocks

Every local and global variable of a module has a variable of the program, named after its index
and, if it is local, its function. The block that sets up a variable has a label of its own.
-/

namespace WasmUdon

/-- A variable of a module. -/
inductive Slot
  | ofLocal (function : Bytes) (index : UInt32)
  | ofGlobal (index : UInt32)
  deriving DecidableEq, Repr

/-- The name of the variable of the program. -/
def Slot.name : Slot → Bytes
  | .ofLocal function index => text "__" ++ function ++ text "_L" ++ decimal index.toNat
  | .ofGlobal index => text "__G__" ++ decimal index.toNat

/-- The label of the block that sets up the variable with a name. -/
def initLabel (name : Bytes) : Bytes := text "__INIT_" ++ name

end WasmUdon
