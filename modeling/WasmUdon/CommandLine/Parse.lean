import WasmUdon.Bytes
import WasmUdon.CommandLine.Flag

/-!
# Reading flags and arguments

Flags and arguments may stand in any order; two dashes alone end the flags. A long flag is joined
to its value by an equals sign or takes the word behind it. Letters may be grouped behind one dash;
the rest of a group is the value of the first letter in it that is no switch.
-/

namespace WasmUdon

/-- Settings and arguments read so far. -/
structure ParsedWords where
  settings : Settings := {}
  arguments : List String := []
  deriving DecidableEq, Repr

/-- What stands in front of the first equals sign, and behind it if there is one. -/
def splitEquals : List Char → List Char × Option (List Char)
  | [] => ([], none)
  | c :: rest =>
    if c = '=' then ([], some rest)
    else
      let (front, back) := splitEquals rest
      (c :: front, back)

/-- The value of a switch that is given without one. -/
def switchedOn : String := "true"

/-- Reads a long flag, whose word is two dashes and `body`, and tells whether it took the word
behind it. -/
def readLongFlag (flags : List Flag) (s : Settings) (body : List Char) (following : Option String) :
    Except Error (Settings × Bool) :=
  let word := "--" ++ String.ofList body
  match body with
  | [] | '-' :: _ | '=' :: _ => .error (.note ("bad flag syntax: " ++ word))
  | body =>
    let (front, joined) := splitEquals body
    let name := String.ofList front
    match flags.find? (·.name == name), joined, following with
    | none, _, _ => .error (.note ("unknown flag: --" ++ name))
    | some f, some value, _ => (s.set f (String.ofList value)).map (·, false)
    | some f, none, following =>
      if f.isSwitch then (s.set f switchedOn).map (·, false)
      else
        match following with
        | some value => (s.set f value).map (·, true)
        | none => .error (.note ("flag needs an argument: " ++ word))

/-- A letter in a message: the character whose number is the first byte of the letter. -/
def quoteLetter (c : Char) : String :=
  quoteChar (Char.ofNat (((text (String.ofList [c])).head?.map UInt8.toNat).getD 0))

/-- Reads a group of letters, and tells whether the last one took the word behind the group. A
group, or the rest of one, that starts with `test.` is passed over. -/
def readLetters (flags : List Flag) (following : Option String) (s : Settings) :
    List Char → Except Error (Settings × Bool)
  | [] => .ok (s, false)
  | c :: rest =>
    let group := String.ofList (c :: rest)
    if "test.".toList.isPrefixOf (c :: rest) then .ok (s, false)
    else
      match flags.find? (·.letter? == some c) with
      | none =>
        .error (.note ("unknown shorthand flag: " ++ quoteLetter c ++ " in -" ++ group))
      | some f =>
        match rest with
        | '=' :: v :: value => (s.set f (String.ofList (v :: value))).map (·, false)
        | rest =>
          if f.isSwitch then
            match s.set f switchedOn with
            | .error e => .error e
            | .ok s' => readLetters flags following s' rest
          else
            match rest, following with
            | [], some value => (s.set f value).map (·, true)
            | [], none =>
              .error (.note ("flag needs an argument: " ++ quoteLetter c ++ " in -" ++ group))
            | value, _ => (s.set f (String.ofList value)).map (·, false)

/-- A word of a command line. -/
inductive Word
  | argument
  /-- Two dashes alone. -/
  | endOfFlags
  | long (body : List Char)
  | letters (group : List Char)
  deriving DecidableEq, Repr

/-- The sort of a word; a dash alone is an argument. -/
def Word.ofString (s : String) : Word :=
  match s.toList with
  | ['-', '-'] => .endOfFlags
  | '-' :: '-' :: body => .long body
  | '-' :: c :: rest => .letters (c :: rest)
  | _ => .argument

/-- Reads the words of a command. -/
def readWords (flags : List Flag) (p : ParsedWords) : List String → Except Error ParsedWords
  | [] => .ok p
  | word :: rest =>
    let continue_ (read : Except Error (Settings × Bool)) : Except Error ParsedWords :=
      match read, rest with
      | .error e, _ => .error e
      | .ok (settings, true), _ :: rest => readWords flags { p with settings } rest
      | .ok (settings, _), rest => readWords flags { p with settings } rest
    match Word.ofString word with
    | .argument => readWords flags { p with arguments := p.arguments ++ [word] } rest
    | .endOfFlags => .ok { p with arguments := p.arguments ++ rest }
    | .long body => continue_ (readLongFlag flags p.settings body rest.head?)
    | .letters group => continue_ (readLetters flags rest.head? p.settings group)
termination_by words => words.length

end WasmUdon
