import WasmUdon.Binary.Failure
import WasmUdon.Text.Quoted

/-!
# Errors

An error is a chain of layers, the outermost first: each layer is caused by the next one. Most
layers are faults, which say in which phase and of which kind something went wrong, where, and
with which value; a chain may end in a cause of another sort, such as input that ended early.

`Error.message` is the one place where an error becomes text. `Error.kind?` looks at the outermost
fault only, while `Error.isDecode` looks through the whole chain.
-/

namespace WasmUdon

/-- The phase of work in which a fault arose. -/
inductive Phase
  | decode
  | interpret
  | merge
  | codegen
  | load
  /-- A phase with a name of its own. -/
  | other (name : String)
  deriving DecidableEq, Repr

/-- The name of a phase. -/
def Phase.name : Phase → String
  | .decode => "decode"
  | .interpret => "interpret"
  | .merge => "merge"
  | .codegen => "codegen"
  | .load => "load"
  | .other name => name

/-- The phase with a given name. -/
def Phase.ofName (name : String) : Phase :=
  ([.decode, .interpret, .merge, .codegen, .load].find? (·.name == name)).getD (.other name)

/-- The kind of a fault. -/
inductive FaultKind
  | invalidData
  | unsupportedSection
  | unsupportedInstruction
  | unsupportedType
  | internal
  /-- A kind with a name of its own. -/
  | other (name : String)
  deriving DecidableEq, Repr

/-- The name of a kind. -/
def FaultKind.name : FaultKind → String
  | .invalidData => "invalid_data"
  | .unsupportedSection => "unsupported_section"
  | .unsupportedInstruction => "unsupported_instruction"
  | .unsupportedType => "unsupported_type"
  | .internal => "internal"
  | .other name => name

/-- The kind with a given name. -/
def FaultKind.ofName (name : String) : FaultKind :=
  ([.invalidData, .unsupportedSection, .unsupportedInstruction, .unsupportedType,
    .internal].find? (·.name == name)).getD (.other name)

/-- The value a fault is about. -/
inductive FaultValue
  | text (s : String)
  | number (n : Int)
  deriving DecidableEq, Repr

/-- The offset of a fault that has no place in the module. -/
def noOffset : Int := -1

/-- What went wrong at one layer. -/
structure Fault where
  phase : Phase
  kind : FaultKind
  path : List Bytes := []
  /-- The absolute offset in the module; negative if there is none. -/
  offset : Int := noOffset
  detail : Bytes := []
  value : Option FaultValue := none
  deriving DecidableEq, Repr

/-- One layer of an error. -/
inductive Layer
  | fault (f : Fault)
  /-- A remark in front of the cause. -/
  | context (detail : String)
  /-- The input ended early. -/
  | truncated
  /-- A number too long or too large for its width; the position after the last byte read. -/
  | overflow (position : Int)
  /-- A name that is not UTF-8; the position after its last byte. -/
  | badName (position : Int)
  /-- The work was called off. -/
  | canceled
  /-- A failure known by its text only. -/
  | note (message : String)
  deriving DecidableEq, Repr

/-- An error: its outermost layer and the causes under it. -/
structure Error where
  outer : Layer
  causes : List Layer := []
  deriving DecidableEq, Repr

/-- The text of a fault without its cause. -/
def Fault.summary (f : Fault) : Bytes :=
  text ("[" ++ f.phase.name ++ "] " ++ f.kind.name)
    ++ (if f.path.isEmpty then [] else text " at " ++ (text ".").intercalate f.path)
    ++ (if f.offset < 0 then [] else text (" at offset " ++ toString f.offset))
    ++ (if f.detail.isEmpty then [] else text ": " ++ f.detail)

/-- The text of a layer around the text of its cause. -/
def Layer.message : Layer → Option Bytes → Bytes
  | .fault f, none => f.summary
  | .fault f, some cause => f.summary ++ text " (caused by: " ++ cause ++ text ")"
  | .context detail, none => text (detail ++ ": %!w(<nil>)")
  | .context detail, some cause => text (detail ++ ": ") ++ cause
  | .truncated, _ => text ReadCause.truncated.message
  | .overflow position, _ =>
    text ("at position " ++ toString position ++ ": " ++ ReadCause.overflow.message)
  | .badName position, _ =>
    text ("at position " ++ toString position ++ ": " ++ ReadCause.badName.message)
  | .canceled, _ => text "context canceled"
  | .note message, _ => text message

/-- The text of a chain of layers. -/
def Layer.chainMessage : Layer → List Layer → Bytes
  | layer, [] => layer.message none
  | layer, cause :: causes => layer.message (some (cause.chainMessage causes))

namespace Error

/-- The layers of an error, the outermost first. -/
def layers (e : Error) : List Layer := e.outer :: e.causes

/-- The full text of an error. -/
def message (e : Error) : Bytes := e.outer.chainMessage e.causes

/-- The cause of the outermost layer. -/
def cause? (e : Error) : Option Error :=
  match e.causes with
  | [] => none
  | outer :: causes => some { outer, causes }

/-- The layers of a cause that may be missing. -/
def layersOf : Option Error → List Layer
  | none => []
  | some e => e.layers

/-- A fault around a cause that may be missing. -/
def ofFault (f : Fault) (cause : Option Error := none) : Error :=
  { outer := .fault f, causes := layersOf cause }

/-- The input ended early. -/
def truncated : Error := { outer := .truncated }

/-- A number did not fit. -/
def overflow (position : Int) : Error := { outer := .overflow position }

/-- A name was not UTF-8. -/
def badName (position : Int) : Error := { outer := .badName position }

/-- The work was called off. -/
def canceled : Error := { outer := .canceled }

/-- A failure known by its text. -/
def note (message : String) : Error := { outer := .note message }

/-! ## Faults by kind -/

/-- Malformed module bytes. -/
def decode (offset : Int) (detail : String) (cause : Option Error := none)
    (value : Option FaultValue := none) : Error :=
  ofFault { phase := .decode, kind := .invalidData, offset, detail := text detail, value } cause

/-- A section that cannot be lowered. -/
def unsupportedSection (name : String) : Error :=
  ofFault
    { phase := .interpret, kind := .unsupportedSection
      detail := text ("unsupported section kind " ++ quote name), value := some (.text name) }

/-- An operator that cannot be lowered. -/
def unsupportedInstruction (name : String) (offset : Int) : Error :=
  ofFault
    { phase := .interpret, kind := .unsupportedInstruction, offset
      detail := text ("unsupported instruction " ++ quote name), value := some (.text name) }

/-- A value type that cannot be lowered. -/
def unsupportedType (name : String) : Error :=
  ofFault
    { phase := .interpret, kind := .unsupportedType
      detail := text ("unsupported type " ++ name), value := some (.text name) }

/-- A broken assumption of this library or of its caller. -/
def internal (phase : Phase) (detail : String) : Error :=
  ofFault { phase, kind := .internal, detail := text detail }

/-- A fault around a cause. -/
def wrap (phase : Phase) (kind : FaultKind) (cause : Option Error) (detail : String) : Error :=
  ofFault { phase, kind, detail := text detail } cause

/-- A module that could not be loaded. -/
def load (detail : String) (cause : Option Error := none) : Error :=
  ofFault { phase := .load, kind := .invalidData, detail := text detail } cause

/-! ## Questions about an error -/

/-- The outermost fault. -/
def fault? (e : Error) : Option Fault :=
  e.layers.findSome? fun
    | .fault f => some f
    | _ => none

/-- The kind of the outermost fault. -/
def kind? (e : Error) : Option FaultKind := e.fault?.map Fault.kind

/-- Whether some layer is a fault of this phase and kind. -/
def hasFault (e : Error) (phase : Phase) (kind : FaultKind) : Bool :=
  e.layers.any fun
    | .fault f => f.phase = phase ∧ f.kind = kind
    | _ => false

/-- Whether malformed module bytes are among the causes. -/
def isDecode (e : Error) : Bool := e.hasFault .decode .invalidData

/-- Whether the outermost fault is of this kind. -/
def isKind (e : Error) (kind : FaultKind) : Bool := e.kind? = some kind

/-- Whether input that ended early is among the causes. -/
def isTruncated (e : Error) : Bool := e.layers.any (· = .truncated)

/-- Whether the error matches a target: some layer is a fault of the target's phase and kind, or
both ended early. A target of another sort matches nothing. -/
def isLike (e target : Error) : Bool :=
  match target.outer with
  | .fault f => e.hasFault f.phase f.kind
  | .truncated => e.isTruncated
  | _ => false

/-- An entry of a section that could not be read or lowered. Kind and offset are those of the
outermost fault of the cause. -/
def invalidEntry (section_ : String) (index : Int) (cause : Option Error) : Error :=
  let inner := cause.bind fault?
  ofFault
    { phase := .interpret
      kind := (inner.map Fault.kind).getD .invalidData
      path := [text section_, text (toString index)]
      offset := (inner.map Fault.offset).getD noOffset
      detail := text (section_ ++ " entry " ++ toString index)
      value := some (.number index) } cause

end Error

end WasmUdon
