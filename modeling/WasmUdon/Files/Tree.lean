import WasmUdon.Files.Source

/-!
# File trees

A working directory with its files and directories. A path is followed name by name: a blank name
or a dot stays where it is, two dots go up, and nothing lies below a file. Outside the working
directory there are directories but nothing to be found in them.
-/

namespace WasmUdon

/-- The names on the way from the working directory to a place, the last one first. -/
abbrev Place := List String

/-- The files and directories below a working directory. -/
structure FileTree where
  files : List (Place × Bytes) := []
  directories : List Place := []
  deriving DecidableEq, Repr

/-- What a path leads to. -/
inductive Node
  /-- The working directory or a directory below it. -/
  | directory (place : Place)
  /-- A directory that is not below the working directory. -/
  | outside
  | file (data : Bytes)
  deriving DecidableEq, Repr

/-- The names of a path. -/
def pathNames (path : String) : List String :=
  let pieces := path.toList.foldr
    (fun c names =>
      match c, names with
      | '/', names => [] :: names
      | c, [] => [[c]]
      | c, name :: names => (c :: name) :: names)
    ([[]] : List (List Char))
  pieces.map String.ofList

/-- The place of a path that goes straight down. -/
def Place.ofPath (path : String) : Place := (pathNames path).reverse

/-- The size of the longest name. -/
def maxNameSize : Nat := 255

/-- The size of the longest path. -/
def maxPathSize : Nat := 4095

namespace FileTree

/-- The tree of files and directories given by their paths. A directory lies wherever a file or a
directory lies below it. -/
def ofPaths (files : List (String × Bytes)) (directories : List String) : FileTree :=
  { files := files.map fun (path, data) => (Place.ofPath path, data)
    directories := directories.map Place.ofPath }

/-- Whether some file or directory lies at a place or below it. -/
def hasDirectory (t : FileTree) (place : Place) : Bool :=
  t.directories.any (place.isSuffixOf ·) || t.files.any fun f => place.isSuffixOf (f.1.drop 1)

/-- What lies at a place. -/
def node? (t : FileTree) (place : Place) : Option Node :=
  match t.files.lookup place with
  | some data => some (.file data)
  | none => if place.isEmpty ∨ t.hasDirectory place then some (.directory place) else none

/-- Follows one name. -/
def enter (t : FileTree) (node : Node) (name : String) : Except FileFault Node :=
  match node with
  | .file _ => .error .notDirectory
  | .outside =>
    if name = "" ∨ name = "." ∨ name = ".." then .ok .outside else .error .notFound
  | .directory place =>
    if name = "" ∨ name = "." then .ok (.directory place)
    else if name = ".." then
      match place with
      | [] => .ok .outside
      | _ :: above => .ok (.directory above)
    else if maxNameSize < name.utf8ByteSize then .error .nameTooLong
    else
      match t.node? (name :: place) with
      | some node => .ok node
      | none => .error .notFound

/-- Follows names one after the other. -/
def follow (t : FileTree) : Node → List String → Except FileFault Node
  | node, [] => .ok node
  | node, name :: names =>
    match t.enter node name with
    | .error fault => .error fault
    | .ok node' => t.follow node' names

/-- Where a path starts. -/
def startOf (path : String) : Node :=
  if path.toList.head? = some '/' then .outside else .directory []

/-- Refuses paths that no file system takes. -/
def checkPath (path : String) : Except FileFault Unit :=
  if path.toList.any (·.toNat = 0) then .error .invalidName
  else if path = "" then .error .notFound
  else if maxPathSize < path.utf8ByteSize then .error .nameTooLong
  else .ok ()

/-- What a path leads to. -/
def resolve (t : FileTree) (path : String) : Except FileFault Node :=
  match checkPath path with
  | .error fault => .error fault
  | .ok () => t.follow (startOf path) (pathNames path)

/-- Opens a module file. -/
def openSource (t : FileTree) (path : String) : Except Error Source :=
  match t.resolve path with
  | .error fault => .error (.noSource path fault)
  | .ok (.file data) => .ok (.ofBytes path data)
  | .ok _ => .error (.sourceIsDirectory path)

/-- The bytes of the file at a path. -/
def read? (t : FileTree) (path : String) : Option Bytes :=
  match t.resolve path with
  | .ok (.file data) => some data
  | _ => none

/-- Sets the bytes of a file. -/
def setFile (t : FileTree) (place : Place) (data : Bytes) : FileTree :=
  { t with files := (place, data) :: t.files.filter (·.1 != place) }

/-- The place that a file with a name gets below a node. A file may be there already, but no
directory. -/
def target (t : FileTree) (node : Node) (name : String) : Except FileFault Place :=
  match node with
  | .file _ => .error .notDirectory
  | .outside => .error .notFound
  | .directory place =>
    if maxNameSize < name.utf8ByteSize then .error .nameTooLong
    else
      match t.node? (name :: place) with
      | some (.directory _) => .error .isDirectory
      | _ => .ok (name :: place)

/-- The place that writing to a path fills: the way up to the last name has to be there, and the
last name has to be one of a file. -/
def targetOf (t : FileTree) (path : String) : Except FileFault Place :=
  match checkPath path with
  | .error fault => .error fault
  | .ok () =>
    let names := pathNames path
    let named := (names.reverse.dropWhile (· = "")).reverse
    match t.follow (startOf path) named.dropLast with
    | .error fault => .error fault
    | .ok node =>
      let name := named.getLast?.getD "."
      match node with
      | .file _ => .error .notDirectory
      | node =>
        if named.length < names.length ∨ name = "." ∨ name = ".." then .error .isDirectory
        else t.target node name

/-- Writes a file. -/
def write (t : FileTree) (path : String) (data : Bytes) : Except Error FileTree :=
  match t.targetOf path with
  | .error fault => .error (.cannotOpen path fault)
  | .ok place => .ok (t.setFile place data)

end FileTree

end WasmUdon
