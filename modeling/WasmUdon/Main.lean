import WasmUdon.CommandLine.Run

/-!
# The program

Reads the module file that the command line names, runs the command, prints and writes what it
brings about. A failure goes to the error output and makes the exit code one.
-/

namespace WasmUdon

/-- The number by which the file system refuses a directory. -/
def directoryRefusal : UInt32 := 21

/-- The fault behind a failure of the file system. -/
def FileFault.ofIOError : IO.Error → FileFault
  | .inappropriateType _ code _ => if code = directoryRefusal then .isDirectory else .notDirectory
  | .invalidArgument _ _ _ => .invalidName
  | _ => .notFound

/-- Opens a module file. -/
def openSource (path : String) : IO (Except Error Source) := do
  try
    let data ← IO.FS.readBinFile path
    return .ok (.ofBytes path data.data.toList)
  catch e =>
    match FileFault.ofIOError e with
    | .isDirectory => return .error (.sourceIsDirectory path)
    | fault => return .error (.noSource path fault)

/-- Writes a file. -/
def writeTarget (path : String) (data : Bytes) : IO (Except Error Unit) := do
  try
    IO.FS.writeBinFile path ⟨data.toArray⟩
    return .ok ()
  catch e => return .error (.cannotOpen path (.ofIOError e))

/-- Tells about a failure. -/
def reportFailure (e : Error) : IO UInt32 := do
  IO.eprintln ("Error: " ++ display e.message)
  return 1

/-- Runs a command line. -/
def runWords (words : List String) : IO UInt32 := do
  match Invocation.ofWords words with
  | .error e => reportFailure e
  | .ok invocation =>
    let source ← openSource (invocation.path?.getD "")
    for entry in invocation.journal source do
      IO.eprintln entry.render
    match invocation.run source with
    | .error e => reportFailure e
    | .ok report =>
      let out ← IO.getStdout
      out.write ⟨report.printed.toArray⟩
      out.flush
      match report.written with
      | none => return 0
      | some (path, data) =>
        match ← writeTarget path data with
        | .error e => reportFailure e
        | .ok () => return 0

end WasmUdon

/-- The entry of the program. -/
def main (words : List String) : IO UInt32 := WasmUdon.runWords words
