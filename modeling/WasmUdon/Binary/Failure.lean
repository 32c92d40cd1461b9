/-!
# Why bytes could not be read

Three things go wrong while bytes are read: they end early, a number does not fit, a name is not
UTF-8. A read failure says where, and in which part of the module.
-/

namespace WasmUdon

/-- Why bytes could not be read. -/
inductive ReadCause
  /-- The input ended early. -/
  | truncated
  /-- A number was too long or too large for its width. -/
  | overflow
  /-- A name was not UTF-8. -/
  | badName
  deriving DecidableEq, Repr

/-- The text of a cause. -/
def ReadCause.message : ReadCause → String
  | .truncated => "unexpected EOF"
  | .overflow => "leb128: overflow"
  | .badName => "invalid UTF-8 in name"

/-- A cause at a position, in a part of the module that may have a name. -/
structure ReadFailure where
  part : String := ""
  position : Int
  cause : ReadCause
  deriving DecidableEq, Repr

namespace ReadFailure

/-- The text of a failure. -/
def message (f : ReadFailure) : String :=
  "wasm: " ++ (if f.part.isEmpty then "" else f.part ++ " ")
    ++ "at position " ++ toString f.position ++ ": " ++ f.cause.message

/-- Whether the input ended early. -/
def isTruncated (f : ReadFailure) : Bool := f.cause = .truncated

end ReadFailure

end WasmUdon
