import WasmUdon.Assembly.Literal
import WasmUdon.Error

/-!
# Declarations

A declaration names a variable, gives its type and, if there is one, its first value. It may be
exported or kept in step over the network.
-/

namespace WasmUdon

/-- How a variable is kept in step. -/
inductive SyncMode
  | none
  | linear
  | smooth
  /-- A number that stands for no mode. -/
  | unknown (code : Int)
  deriving DecidableEq, Repr

namespace SyncMode

/-- The mode of a number. -/
def ofCode : Int → SyncMode
  | 0 => .none
  | 1 => .linear
  | 2 => .smooth
  | code => .unknown code

/-- The number of a mode. -/
def code : SyncMode → Int
  | .none => 0
  | .linear => 1
  | .smooth => 2
  | .unknown code => code

/-- The name of a mode. -/
def name? : SyncMode → Option String
  | .none => some "none"
  | .linear => some "linear"
  | .smooth => some "smooth"
  | .unknown _ => Option.none

end SyncMode

/-- The sort of attribute of a declaration. -/
inductive AttributeKind
  | none
  | exported
  | synced
  /-- A number that stands for no attribute. -/
  | unknown (code : Int)
  deriving DecidableEq, Repr

namespace AttributeKind

/-- The attribute of a number. -/
def ofCode : Int → AttributeKind
  | 0 => .none
  | 1 => .exported
  | 2 => .synced
  | code => .unknown code

/-- The number of an attribute. -/
def code : AttributeKind → Int
  | .none => 0
  | .exported => 1
  | .synced => 2
  | .unknown code => code

end AttributeKind

/-- The attribute of a declaration; the mode counts for synced variables only. -/
structure Attribute where
  kind : AttributeKind := .none
  sync : SyncMode := .none
  deriving DecidableEq, Repr

/-- A declaration. -/
structure Declaration where
  name : Bytes
  type : AsmType
  init : Option Literal := none
  attr : Attribute := {}
  deriving DecidableEq, Repr

/-- The blanks in front of declarations and labels. -/
def declarationIndent : Bytes := text "    "

/-- A line of a program. -/
def line (content : Bytes) : Bytes := content ++ [10]

/-- The line that makes a name visible from outside. -/
def exportLine (name : Bytes) : Bytes := line (declarationIndent ++ text ".export " ++ name)

namespace Declaration

/-- The line of the attribute, if there is one. -/
def renderAttribute (d : Declaration) : Except Error Bytes :=
  match d.attr.kind with
  | .none => .ok []
  | .exported => .ok (exportLine d.name)
  | .synced =>
    match d.attr.sync.name? with
    | some mode =>
      .ok (line (declarationIndent ++ text ".sync " ++ d.name ++ text (", " ++ mode)))
    | none =>
      .error (.internal .codegen ("unknown sync mode " ++ toString d.attr.sync.code))
  | .unknown code => .error (.internal .codegen ("unknown attribute kind " ++ toString code))

/-- The text of the first value. -/
def initText (d : Declaration) : Bytes :=
  match d.init with
  | some value => value.text
  | none => text "null"

/-- The line of the variable. -/
def renderVariable (d : Declaration) : Except Error Bytes :=
  match d.type with
  | .unknown code => .error (.internal .codegen ("unknown type " ++ toString code))
  | type =>
    .ok (line (declarationIndent ++ d.name ++ text (": " ++ type.name ++ ", ") ++ d.initText))

/-- The text of a declaration, the line of its attribute first. -/
def render (d : Declaration) : Except Error Bytes :=
  match d.renderAttribute with
  | .error e => .error e
  | .ok front =>
    match d.renderVariable with
    | .error e => .error e
    | .ok back => .ok (front ++ back)

/-- The lines of a declaration, without the final line feed. -/
def lines (d : Declaration) : Except Error (List Bytes) :=
  d.render.map fun bs => splitLines bs.dropLast

end Declaration

end WasmUdon
