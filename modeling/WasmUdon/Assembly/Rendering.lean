import WasmUdon.Assembly.Program

/-!
# Rendering

The text of a program: the data section between its two marker lines, then the code section
between its own, each label followed by its instructions. Rendering fails at the first declaration
or instruction that has no text, and then there is no text at all.
-/

namespace WasmUdon

/-- The blanks in front of instructions. -/
def instructionIndent : Bytes := text "        "

/-- A fault at the item of a program that could not be rendered. -/
def Error.atItem (path : List Bytes) (detail : Bytes) (cause : Error) : Error :=
  .ofFault { phase := .codegen, kind := .internal, path, detail } (some cause)

/-- The text of declarations, the first of which has number `i`. -/
def renderDeclarations (i : Nat) : List Declaration → Except Error Bytes
  | [] => .ok []
  | d :: ds =>
    match d.render with
    | .error e => .error (.atItem [text "data", decimal i] (text "declaration " ++ d.name) e)
    | .ok first => (renderDeclarations (i + 1) ds).map (first ++ ·)

/-- The text of the instructions under a label, the first of which has number `i`. -/
def renderInstructions (label : Bytes) (i : Nat) : List Instruction → Except Error Bytes
  | [] => .ok []
  | instruction :: rest =>
    match instruction.render with
    | .error e =>
      .error (.atItem [label, decimal i]
        (text "instruction " ++ decimal i ++ text " of " ++ label) e)
    | .ok first =>
      (renderInstructions label (i + 1) rest).map (line (instructionIndent ++ first) ++ ·)

/-- The lines of a label. -/
def renderLabel (exported : Bool) (label : Bytes) : Bytes :=
  (if exported then exportLine label else []) ++ line (declarationIndent ++ label ++ text ":")

/-- The text of labelled blocks. -/
def renderBlocks (exported : Bool) : List (Bytes × Block) → Except Error Bytes
  | [] => .ok []
  | (label, block) :: rest =>
    match renderInstructions label 0 block with
    | .error e => .error e
    | .ok body => (renderBlocks exported rest).map (renderLabel exported label ++ body ++ ·)

namespace Program

/-- The text of the data section. -/
def renderData (p : Program) : Except Error Bytes :=
  match p.data with
  | none => .ok []
  | some ds =>
    (renderDeclarations 0 ds).map fun body =>
      line (text ".data_start") ++ body ++ line (text ".data_end")

/-- The text of the code section. -/
def renderCode (p : Program) : Except Error Bytes :=
  match p.code with
  | none => .ok []
  | some code =>
    (renderBlocks code.exported (code.map.getD {}).entries).map fun body =>
      line (text ".code_start") ++ body ++ line (text ".code_end")

/-- The text of a program. -/
def render (p : Program) : Except Error Bytes :=
  match p.renderData with
  | .error e => .error e
  | .ok data => p.renderCode.map (data ++ ·)

end Program

/-- Renders a program that may be missing, and counts the bytes written: none if rendering
fails. -/
def writeProgram (p : Option Program) : Nat × Bytes × Option Error :=
  match (p.getD {}).render with
  | .ok bs => (bs.length, bs, none)
  | .error e => (0, [], some e)

end WasmUdon
