import WasmUdon.Error

/-!
# Sources

A source is a module file opened for reading. A file that has bytes is mapped into memory and its
bytes are gone once it is closed; an empty file is never mapped.
-/

namespace WasmUdon

/-- Why a path could not be opened. -/
inductive FileFault
  | notFound
  | notDirectory
  | isDirectory
  | invalidName
  | nameTooLong
  deriving DecidableEq, Repr

/-- The text of a fault. -/
def FileFault.message : FileFault → String
  | .notFound => "no such file or directory"
  | .notDirectory => "not a directory"
  | .isDirectory => "is a directory"
  | .invalidName => "invalid argument"
  | .nameTooLong => "file name too long"

/-- A path that could not be opened. -/
def Error.cannotOpen (path : String) (fault : FileFault) : Error :=
  .note ("open " ++ path ++ ": " ++ fault.message)

/-- A module file opened for reading. -/
structure Source where
  path : String
  /-- The bytes of the file as long as they can be used. -/
  data : Option Bytes
  /-- Whether the bytes are mapped. -/
  isMapped : Bool
  deriving DecidableEq, Repr

namespace Source

/-- The source of a file with bytes. -/
def ofBytes (path : String) (data : Bytes) : Source :=
  { path, data := some data, isMapped := !data.isEmpty }

/-- The bytes at hand. -/
def bytes (s : Source) : Bytes := s.data.getD []

/-- The number of bytes at hand. -/
def size (s : Source) : Nat := s.bytes.length

/-- Gives mapped bytes back; closing twice is as good as once. -/
def close (s : Source) : Source :=
  if s.isMapped then { s with data := none, isMapped := false } else s

/-- The bytes of a source if the module may start at `offset`. A refused source is closed before
its size is told. -/
def moduleBytes (s : Source) (offset : Int) : Except Error Bytes :=
  if offset < 0 ∨ (s.size : Int) < offset then
    .error (.load ("offset " ++ toString offset ++ " outside " ++ toString s.close.size
      ++ "-byte input"))
  else .ok s.bytes

end Source

/-- The failure of a path that holds no source. -/
def Error.noSource (path : String) (fault : FileFault) : Error :=
  .load ("open " ++ path) (some (.cannotOpen path fault))

/-- The failure of a path that holds a directory. -/
def Error.sourceIsDirectory (path : String) : Error := .load (path ++ " is a directory")

end WasmUdon
