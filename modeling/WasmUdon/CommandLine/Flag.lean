import WasmUdon.CommandLine.Value

/-!
# Flags and commands

The flags of the command line, the commands that take them, and the settings they make. A switch
needs no value; any other flag takes the word behind it unless a value is joined to it.
-/

namespace WasmUdon

/-- A flag. -/
inductive Flag
  | verbose
  | offset
  | out
  | verify
  | exportInit
  | csv
  | help
  | version
  deriving DecidableEq, Repr

namespace Flag

/-- The long name of a flag. -/
def name : Flag → String
  | .verbose => "verbose"
  | .offset => "offset"
  | .out => "out"
  | .verify => "verify"
  | .exportInit => "export-init"
  | .csv => "csv"
  | .help => "help"
  | .version => "version"

/-- The letter of a flag. -/
def letter? : Flag → Option Char
  | .verbose => some 'v'
  | .out => some 'o'
  | .help => some 'h'
  | _ => none

/-- Whether a flag needs no value. -/
def isSwitch : Flag → Bool
  | .offset | .out => false
  | _ => true

/-- How messages name a flag. -/
def title (f : Flag) : String :=
  match f.letter? with
  | some c => "-" ++ String.ofList [c] ++ ", --" ++ f.name
  | none => "--" ++ f.name

end Flag

/-- A command. -/
inductive Command
  /-- The program itself. -/
  | top
  | assemble
  | list
  | browse
  /-- Explains the commands. -/
  | help
  /-- Explains how a shell completes command lines. -/
  | completion
  deriving DecidableEq, Repr

namespace Command

/-- The name of the program. -/
def programName : String := "wasm2uasm"

/-- The word of a command. -/
def name : Command → String
  | .top => programName
  | .assemble => "translate"
  | .list => "sections"
  | .browse => "view"
  | .help => "help"
  | .completion => "completion"

/-- The commands below the program. -/
def subcommands : List Command := [.assemble, .list, .browse, .help, .completion]

/-- The command of a word. -/
def ofName? (word : String) : Option Command := subcommands.find? (·.name == word)

/-- The flags that every command takes. -/
def sharedFlags : List Flag := [.verbose, .offset]

/-- The flags of a command. -/
def flags : Command → List Flag
  | .top => sharedFlags ++ [.help, .version]
  | .assemble => sharedFlags ++ [.out, .verify, .exportInit, .help]
  | .list => sharedFlags ++ [.csv, .help]
  | .browse => sharedFlags ++ [.exportInit, .help]
  | .help | .completion => sharedFlags ++ [.help]

end Command

/-- What the flags of a command line say. -/
structure Settings where
  verbose : Bool := false
  offset : Int := 0
  out : String := ""
  verify : Bool := false
  exportInit : Bool := false
  csv : Bool := false
  help : Bool := false
  version : Bool := false
  deriving DecidableEq, Repr

namespace Settings

/-- The failure of a value that a flag does not take. -/
def badValue (f : Flag) (value reader : String) (fault : ValueFault) : Error :=
  .note ("invalid argument " ++ quote value ++ " for " ++ quote f.title ++ " flag: strconv."
    ++ reader ++ ": parsing " ++ quote value ++ ": " ++ fault.message)

/-- Sets a switch. -/
def setSwitch (s : Settings) (f : Flag) (value : Bool) : Settings :=
  match f with
  | .verbose => { s with verbose := value }
  | .verify => { s with verify := value }
  | .exportInit => { s with exportInit := value }
  | .csv => { s with csv := value }
  | .help => { s with help := value }
  | .version => { s with version := value }
  | .offset | .out => s

/-- Sets a flag to a value; the last value of a flag counts. -/
def set (s : Settings) (f : Flag) (value : String) : Except Error Settings :=
  match f with
  | .out => .ok { s with out := value }
  | .offset =>
    match readInteger value with
    | .ok n => .ok { s with offset := n }
    | .error fault => .error (badValue f value "ParseInt" fault)
  | f =>
    match readSwitch value with
    | .ok b => .ok (s.setSwitch f b)
    | .error fault => .error (badValue f value "ParseBool" fault)

end Settings

end WasmUdon
