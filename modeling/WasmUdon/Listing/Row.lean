import WasmUdon.Module.Section

/-!
# Rows of a listing

A listing describes each record of a module in a row.
-/

namespace WasmUdon

/-- The description of a record. -/
structure ListingRow where
  /-- The number of entries of a vector section. -/
  count : Option Nat := none
  kind : String := ""
  /-- The name of a custom section. -/
  name : String := ""
  /-- The identifier of a section. -/
  id : Option Int := none
  index : Int := 0
  offset : Int := 0
  size : Int := 0
  deriving DecidableEq, Repr

/-- The row of the record with an index. -/
def Record.row (index : Nat) (r : Record) : ListingRow :=
  { count := r.count?.map UInt32.toNat
    kind := r.kind.name
    name :=
      match r with
      | .custom _ name _ => name
      | _ => ""
    id := r.kind.code?.map fun code => (code.toNat : Int)
    index
    offset := r.start
    size := r.size }

/-- The rows of records, in their order. -/
def listRecords (records : List Record) : List ListingRow := records.mapIdx Record.row

end WasmUdon
