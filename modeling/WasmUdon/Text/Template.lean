import WasmUdon.Text.Quoted

/-!
# Templates

Messages with places for arguments: `%d` takes a number, `%s` a text, `%q` a text in quotation
marks, `%02x` a number in hexadecimal with two digits or more, and `%%` is a percent sign. A place
that does not fit its argument says so in the message.
-/

namespace WasmUdon

/-- An argument of a template. -/
inductive TemplateArg
  | number (n : Int)
  | text (s : String)
  deriving DecidableEq, Repr

/-- The name of the sort of an argument. -/
def TemplateArg.sort : TemplateArg → String
  | .number _ => "int"
  | .text _ => "string"

/-- The plain text of an argument. -/
def TemplateArg.plain : TemplateArg → String
  | .number n => toString n
  | .text s => s

/-- A number in hexadecimal, the sign counted in the width. -/
def hexInt (width : Nat) (n : Int) : String :=
  if n < 0 then "-" ++ hex (width - 1) n.natAbs else hex width n.natAbs

/-- An argument at a place, given the flags and the letter of the place. -/
def TemplateArg.place (arg : TemplateArg) (width : Nat) (verb : Char) : String :=
  match verb, arg with
  | 'd', .number n => toString n
  | 'x', .number n => hexInt width n
  | 'x', .text s =>
    String.ofList (zeroPad width ((WasmUdon.text s).flatMap fun b => (hex 2 b.toNat).toList))
  | 's', .text s => s
  | 'q', .text s => quote s
  | 'q', .number n =>
    quoteChar (if 0 ≤ n ∧ n.toNat.isValidChar then Char.ofNat n.toNat else Char.ofNat 0xFFFD)
  | verb, arg =>
    "%!" ++ String.ofList [verb] ++ "(" ++ arg.sort ++ "=" ++ arg.plain ++ ")"

/-- The arguments that no place took. -/
def extraArgs (args : List TemplateArg) : String :=
  if args.isEmpty then ""
  else "%!(EXTRA " ++ ", ".intercalate (args.map fun a => a.sort ++ "=" ++ a.plain) ++ ")"

/-- The text of a template from a state on: outside a place, or inside one after its digits. -/
def fillFrom : (place : Option Nat) → List Char → List TemplateArg → String
  | none, [], args => extraArgs args
  | some _, [], args => "%!(NOVERB)" ++ extraArgs args
  | none, c :: rest, args =>
    if c = '%' then fillFrom (some 0) rest args
    else String.ofList [c] ++ fillFrom none rest args
  | some width, c :: rest, args =>
    if c = '%' then "%" ++ fillFrom none rest args
    else if c.isDigit then fillFrom (some (width * 10 + (c.toNat - 48))) rest args
    else
      match args with
      | [] => "%!" ++ String.ofList [c] ++ "(MISSING)" ++ fillFrom none rest []
      | arg :: args => arg.place width c ++ fillFrom none rest args

/-- The text of a template; without arguments it is taken as it is. -/
def fillTemplate (template : String) (args : List TemplateArg) : String :=
  if args.isEmpty then template else fillFrom none template.toList args

end WasmUdon
