import DiagnosticReport.Files.Access

/-!
# Files as a value

A tree of files as a value, with the two operations that the program asks of files. A path is
followed part by part, from the working directory or, if it starts with a slash, from the root:
every part but the last has to be a directory, `.` stays, and `..` goes back, but not beyond the
root.
-/

namespace DiagnosticReport

/-- What stands at a place. -/
inductive FileNode where
  | directory
  | file (contents : ByteArray)

namespace FileNode

/-- Whether a directory stands there. -/
def isDirectory : FileNode → Bool
  | .directory => true
  | .file _ => false

/-- Whether a file with these contents stands there. -/
def holds (contents : ByteArray) : FileNode → Bool
  | .directory => false
  | .file held => held.data == contents.data

end FileNode

/-- Files and directories, each with the names that lead to it from the root. -/
structure FileTree where
  /-- The places with what stands there; the root is not among them. -/
  nodes : List (List String × FileNode) := []
  /-- The place of the working directory. -/
  cwd : List String := []

namespace FileTree

/-- The number of bytes that a name may have. -/
def nameLimit : Nat := 255

/-- The number of bytes that a path may have. -/
def pathLimit : Nat := 4095

/-- What stands at a place; the root is a directory. -/
def node? (t : FileTree) (place : List String) : Option FileNode :=
  if place = [] then some .directory else t.nodes.lookup place

/-- Puts something at a place. -/
def put (t : FileTree) (place : List String) (node : FileNode) : FileTree :=
  { t with nodes := (place, node) :: t.nodes.filter fun entry => entry.1 != place }

/-- The place that a name leads to from a directory. -/
def enter (place : List String) (name : String) : List String :=
  if name = "." then place
  else if name = ".." then place.dropLast
  else place ++ [name]

/-- What is found at a place, if anything; no place has a name that is too long. -/
def find (t : FileTree) (place : List String) : Except FileError (Option FileNode) :=
  if place.getLast?.any fun name => nameLimit < name.utf8ByteSize then .error .nameTooLong
  else .ok (t.node? place)

/-- The place that names lead to, one after the other. Whether something stands at the last place
has not been asked yet. -/
def walk (t : FileTree) (place : List String) : List String → Except FileError (List String)
  | [] => .ok place
  | name :: names =>
    match t.find place with
    | .error e => .error e
    | .ok none => .error .notFound
    | .ok (some (.file _)) => .error .notDirectory
    | .ok (some .directory) => walk t (enter place name) names

/-- The parts of a path. -/
def names (path : String) : List String :=
  ((path.toList.splitOn '/').filter fun name => !name.isEmpty).map String.ofList

/-- Whether a path asks for a directory by a slash at its end. -/
def endsInSlash (path : String) : Bool :=
  path.toList.getLast? == some '/'

/-- The place that a path leads to. -/
def locate (t : FileTree) (path : String) : Except FileError (List String) :=
  if path.toList.contains '\x00' then .error .containsNul
  else if path = "" then .error .notFound
  else if pathLimit < path.utf8ByteSize then .error .nameTooLong
  else t.walk (if path.toList.head? = some '/' then [] else t.cwd) (names path)

/-- The contents of a file. -/
def read (t : FileTree) (path : String) : Except FileError ByteArray := do
  match ← t.find (← t.locate path) with
  | none => .error .notFound
  | some .directory => .error .isDirectory
  | some (.file contents) =>
    if endsInSlash path then .error .notDirectory else .ok contents

/-- The files after a file has been written, which need not exist before. A path that ends in a
slash is refused before anything is looked for at its place. -/
def written (t : FileTree) (path : String) (contents : ByteArray) : Except FileError FileTree := do
  let place ← t.locate path
  if endsInSlash path then .error .isDirectory
  else
    match ← t.find place with
    | some .directory => .error .isDirectory
    | _ => .ok (t.put place (.file contents))

/-- Replaces the contents of a file, which need not exist: the outcome, and the files afterwards,
which are the same if it failed. -/
def write (t : FileTree) (path : String) (contents : ByteArray) :
    Except FileError Unit × FileTree :=
  match t.written path contents with
  | .error e => (.error e, t)
  | .ok after => (.ok (), after)

/-- The operations on a tree that is carried along. -/
def access : FileAccess (StateM FileTree) where
  read path := do return (← get).read path
  write path contents := modifyGet fun t => t.write path contents

/-- Puts something at a place and directories on the way to it where there is nothing. -/
def plant (t : FileTree) (place : List String) (node : FileNode) : FileTree :=
  let parents := (List.range place.length).map fun n => place.take n
  let grown := parents.foldl (fun t place =>
    if (t.node? place).isSome then t else t.put place .directory) t
  grown.put place node

/-- A tree with nothing but a working directory. -/
def start (cwd : List String) : FileTree :=
  { plant {} cwd .directory with cwd }

/-- The files below the working directory that are new or have other contents than before, with
the paths that lead to them. -/
def changes (before after : FileTree) : List (String × ByteArray) :=
  after.nodes.filterMap fun (place, node) =>
    match node with
    | .directory => none
    | .file contents =>
      if (before.node? place).any (FileNode.holds contents) || !after.cwd.isPrefixOf place then none
      else some ("/".intercalate (place.drop after.cwd.length), contents)

end FileTree

end DiagnosticReport
