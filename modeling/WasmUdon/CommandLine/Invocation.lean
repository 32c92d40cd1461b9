import WasmUdon.CommandLine.Parse
import WasmUdon.CommandLine.Suggestion

/-!
# Invocations

The words of a command line are read in two rounds. The first one looks for the word of a command
and knows only the flags that every command takes: a long flag or a single letter that is not a
known switch is taken to have a value behind it. The second round reads the flags of that command.
-/

namespace WasmUdon

/-- What is done with a module. -/
inductive Task
  /-- Assembles it, to a file if a path is given. -/
  | assemble (exportInit : Bool) (out : Option String)
  | list (csv : Bool)
  | browse (exportInit : Bool)
  deriving DecidableEq, Repr

/-- What a command line asks for. -/
inductive Invocation
  | usage
  | version
  /-- A task on the module that starts at an offset of a file; a verbose one keeps a journal. -/
  | onModule (task : Task) (path : String) (offset : Int) (verbose : Bool)
  deriving DecidableEq, Repr

/-- Whether the first round takes a word for a flag with its value in the next word. -/
def takesNextWord (s : String) : Bool :=
  match Word.ofString s with
  | .long body =>
    !body.contains '=' &&
      !Command.sharedFlags.any fun f => f.isSwitch && f.name == String.ofList body
  | .letters [c] =>
    c.toNat < 0x80 && c != '=' &&
      !Command.sharedFlags.any fun f => f.isSwitch && f.letter? == some c
  | _ => false

/-- Whether the first round takes a word for a command or an argument. -/
def isPlainWord (s : String) : Bool := s.toList.head?.any (· != '-')

/-- The first word that may name a command, with the words in front of it and behind it. -/
def findCommandWord : List String → Option (List String × String × List String)
  | [] => none
  | s :: rest =>
    if s = "--" then none
    else if takesNextWord s then
      match rest with
      | value :: next :: rest =>
        (findCommandWord (next :: rest)).map fun (front, word, back) =>
          (s :: value :: front, word, back)
      | _ => none
    else if isPlainWord s then some ([], s, rest)
    else (findCommandWord rest).map fun (front, word, back) => (s :: front, word, back)
termination_by words => words.length

/-- The failure of a word that names no command. -/
def Error.unknownCommand (word : String) : Error :=
  .note ("unknown command " ++ quote word ++ " for " ++ quote Command.programName
    ++ suggestionText word)

/-- The command of a command line and the words that are left for it. -/
def selectCommand (words : List String) : Except Error (Command × List String) :=
  match findCommandWord words with
  | none => .ok (.top, words)
  | some (front, word, back) =>
    match Command.ofName? word with
    | some command => .ok (command, front ++ back)
    | none => .error (.unknownCommand word)

/-- The task of a command under settings; the program itself and its explanations have none. -/
def Command.task? (s : Settings) : Command → Option Task
  | .top | .help | .completion => none
  | .assemble => some (.assemble s.exportInit (if s.out = "" then none else some s.out))
  | .list => some (.list s.csv)
  | .browse => some (.browse s.exportInit)

/-- What a command line asks for. A bad flag is told before a wrong number of arguments. -/
def Invocation.ofWords (words : List String) : Except Error Invocation :=
  match selectCommand words with
  | .error e => .error e
  | .ok (command, words) =>
    match readWords command.flags {} words with
    | .error e => .error e
    | .ok { settings, arguments } =>
      if settings.help then .ok .usage
      else if settings.version then .ok .version
      else
        match command.task? settings, arguments with
        | none, _ => .ok .usage
        | some task, [path] => .ok (.onModule task path settings.offset settings.verbose)
        | some _, arguments =>
          .error (.note ("accepts 1 arg(s), received " ++ toString arguments.length))

end WasmUdon
