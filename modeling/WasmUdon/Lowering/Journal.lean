import WasmUdon.Lowering.Pipeline

/-!
# The journal of a run

What a run reports while it goes from a module to the text of a program: every record as it is
read, then all of them again when the module has been read, every unit, the merged program and
the size of the text, up to the step that failed.
-/

namespace WasmUdon

/-- A field of an entry of the journal. -/
inductive JournalField
  | text (s : String)
  | number (n : Int)
  deriving DecidableEq, Repr

/-- An entry of the journal. -/
structure JournalEntry where
  message : String
  fields : List (String × JournalField)
  deriving DecidableEq, Repr

/-- A failure as a field. -/
def Error.journalField (e : Error) : String × JournalField := ("error", .text (display e.message))

/-- The kind of a record as a field. -/
def Record.journalField (r : Record) : String × JournalField := ("kind", .text r.kind.name)

/-- The size of the payload of a record, if it is a section. -/
def Record.journalPayload (r : Record) : List JournalEntry :=
  match r.frame? with
  | none => []
  | some frame =>
    [{ message := "section parsed"
       fields := [r.journalField, ("offset", .number frame.start),
         ("size", .number (frame.stop - frame.payload))] }]

/-- A record as it is read. -/
def Record.journalRead (r : Record) : List JournalEntry :=
  r.journalPayload ++
    [{ message := "decoded"
       fields := [r.journalField, ("consumed", .number r.size), ("position", .number r.stop)] }]

/-- A record of a module that has been read. -/
def Record.journalListed (r : Record) : JournalEntry :=
  { message := "decoded section"
    fields := [r.journalField, ("offset", .number r.start), ("consumed", .number r.size)] }

/-- The sizes of the sections of a program. -/
def Program.journalFields (p : Program) : List (String × JournalField) :=
  (match p.data with
    | some ds => [("declarations", .number ds.length)]
    | none => [])
  ++ (match p.code with
    | some code => [("blocks", .number (code.map.getD {}).size)]
    | none => [])

/-- The units of records, and the failure if there is one. -/
def journalUnits (exported : Bool) : List Record → List JournalEntry
  | [] => []
  | r :: rs =>
    match r.lower exported with
    | .error e => [{ message := "interpret failed", fields := [r.journalField, e.journalField] }]
    | .ok u =>
      { message := "unit produced"
        fields := [r.journalField, ("unit", .text u.kind.name)] ++ u.program.journalFields }
      :: journalUnits exported rs

/-- The merged program and its text. -/
def journalProgram (units : List ProgramUnit) : List JournalEntry :=
  let p := mergeUnits units
  { message := "merged", fields := ("units", .number units.length) :: p.journalFields } ::
    match p.render with
    | .ok bs => [{ message := "rendered", fields := [("bytes", .number bs.length)] }]
    | .error _ => []

/-- The journal of reading the records of a module. -/
def Options.journalReading (o : Options) (data : Bytes) : List JournalEntry :=
  match o.walk data with
  | (records, some e) =>
    records.flatMap Record.journalRead
      ++ [{ message := "decode failed", fields := [e.journalField] }]
  | (records, none) =>
    let stop := (records.getLast?.map Record.stop).getD o.offset
    records.flatMap Record.journalRead ++ (Record.finish stop).journalRead
      ++ records.map Record.journalListed

/-- The journal of a run. -/
def Options.journal (o : Options) (data : Bytes) : List JournalEntry :=
  o.journalReading data
    ++ match o.walk data with
      | (_, some _) => []
      | (records, none) =>
        journalUnits o.exportInit records
          ++ match walkUnits o.exportInit records with
            | (units, none) => journalProgram units
            | (_, some _) => []

/-- The text of a field. -/
def JournalField.render : JournalField → String
  | .text s => quote s
  | .number n => toString n

/-- An entry as a line: the message, then every field with its name. -/
def JournalEntry.render (entry : JournalEntry) : String :=
  " ".intercalate
    (entry.message :: entry.fields.map fun (name, field) => name ++ "=" ++ field.render)

end WasmUdon
