import WasmUdon.Browser.Terminal
import WasmUdon.CommandLine.Invocation
import WasmUdon.Files.Tree
import WasmUdon.Listing.Csv
import WasmUdon.Listing.Table
import WasmUdon.Lowering.Journal

/-!
# Running commands

A task turns the bytes of a module into text to print or to write to a file. `FileTree.execute`
runs a whole command line in a file tree.
-/

namespace WasmUdon

/-- What a command brings about. -/
structure Report where
  printed : Bytes := []
  /-- A file to be written: its path and its bytes. -/
  written : Option (String × Bytes) := none
  deriving DecidableEq, Repr

/-- The entries of the program of a module file. -/
def Source.entries (s : Source) (offset : Int) (exportInit : Bool) : Except Error (List Entry) := do
  let data ← s.moduleBytes offset
  let p ← ({ offset, exportInit } : Options).program data
  p.entries

/-- What is printed when no task is asked for. -/
def usageText : String :=
  "wasm2uasm - translate WebAssembly modules to Udon Assembly\n\nUsage:\n"
    ++ String.join ([Command.assemble, .list, .browse].map fun c =>
        "  " ++ Command.programName ++ " " ++ c.name ++ " [path to module]\n")

/-- The version of the program. -/
def versionText : String := Command.programName ++ " version <unknown>\n"

namespace Task

/-- Performs a task on a module file. -/
def run (s : Source) (offset : Int) : Task → Except Error Report
  | .assemble exportInit out => do
    let data ← s.moduleBytes offset
    let result ← ({ offset, exportInit } : Options).assemble data
    match out with
    | none => return { printed := result }
    | some path => return { written := some (path, result) }
  | .list csv => do
    let data ← s.moduleBytes offset
    let records ← ({ offset } : Options).records data
    let rows := listRecords records
    let printed := if csv then text (csvListing rows) else tableListing .plain rows ++ [0x0A]
    return { printed }
  | .browse exportInit => do
    let entries ← s.entries offset exportInit
    let browser := (Browser.start terminal s.path).update terminal (.ofLoad (.ok entries))
    return { printed := text (browser.view ++ "\n") }

/-- The journal of a task on a module file. -/
def journal (s : Source) (offset : Int) (task : Task) : List JournalEntry :=
  match s.moduleBytes offset, task with
  | .error _, _ => []
  | .ok data, .assemble exportInit _ => ({ offset, exportInit } : Options).journal data
  | .ok data, .list _ => ({ offset } : Options).journalReading data
  | .ok data, .browse exportInit => ({ offset, exportInit } : Options).journal data

end Task

namespace Invocation

/-- The module file that a command line asks for. -/
def path? : Invocation → Option String
  | .onModule _ path _ _ => some path
  | _ => none

/-- Performs what a command line asks for; `source` is the module file, if it can be opened. -/
def run (source : Except Error Source) : Invocation → Except Error Report
  | .usage => .ok { printed := text usageText }
  | .version => .ok { printed := text versionText }
  | .onModule task _ offset _ => do
    let s ← source
    task.run s offset

/-- The journal of what a command line asks for. -/
def journal (source : Except Error Source) : Invocation → List JournalEntry
  | .onModule task _ offset true =>
    match source with
    | .error _ => []
    | .ok s => task.journal s offset
  | _ => []

end Invocation

/-- The end of a run: what was printed, why it failed if it did, and the files afterwards. -/
structure Outcome where
  printed : Bytes := []
  failure : Option Error := none
  tree : FileTree
  deriving DecidableEq, Repr

/-- Runs a command line. -/
def FileTree.execute (t : FileTree) (words : List String) : Outcome :=
  let report : Except Error Report := do
    let invocation ← Invocation.ofWords words
    invocation.run (t.openSource (invocation.path?.getD ""))
  match report with
  | .error e => { failure := some e, tree := t }
  | .ok { printed, written := none } => { printed, tree := t }
  | .ok { printed, written := some (path, data) } =>
    match t.write path data with
    | .error e => { printed, failure := some e, tree := t }
    | .ok tree => { printed, tree }

end WasmUdon
