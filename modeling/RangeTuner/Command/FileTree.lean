import RangeTuner.Command.Files

/-! Files kept in memory, as a tree of directories. Paths lead from the root of the tree; the
directories around the root exist, with nothing in them but what is put there. Names and paths
are limited in length, as file systems limit them.
-/

namespace RangeTuner.Command

/-- The names that lead from the root to a file or a directory, behind two dots for every
directory around the root that has to be gone through.
-/
abbrev Place := List String

/-- Files with their bytes, and the directories besides the root and those around it. -/
structure FileTree where
  files : List (Place × ByteArray)
  directories : List Place

/-- What stands at a place. -/
inductive Node where
  | directory
  | file (bytes : ByteArray)

namespace FileTree

/-- A tree without files. -/
def empty : FileTree :=
  ⟨[], []⟩

/-- What stands at a place, if anything does. -/
def node? (t : FileTree) (place : Place) : Option Node :=
  if place.all (· = "..") || t.directories.contains place then some .directory
  else (t.files.lookup place).map .file

/-- The most bytes of a name. -/
def longestName : Nat :=
  255

/-- The most bytes of a path. -/
def longestPath : Nat :=
  4095

/-- The directory that a directory lies in. -/
def outside (here : Place) : Place :=
  if here.all (· = "..") then ".." :: here else here.dropLast

/-- The place that one step leads to from a directory. -/
def step (here : Place) (name : String) : Except FileFault Place :=
  if name = "." then .ok here
  else if name = ".." then .ok (outside here)
  else if longestName < name.utf8ByteSize then .error .longName
  else .ok (here ++ [name])

/-- The place that steps lead to from a directory; each of them but the last has to lead to a
directory.
-/
def follow (t : FileTree) (here : Place) : List String → Except FileFault Place
  | [] => .ok here
  | [last] => step here last
  | name :: next :: rest => do
      let there ← step here name
      match t.node? there with
      | some .directory => follow t there (next :: rest)
      | some (.file _) => .error .noDirectory
      | none => .error .absent

/-- The path of the file that is always empty and loses what is written to it. -/
def nullDevice : String :=
  "/dev/null"

/-- The place that a path leads to; of what does not lie around the root nothing is known. -/
def place (t : FileTree) (path : String) : Except FileFault Place :=
  if longestPath < path.utf8ByteSize then .error .longName
  else if Path.isAbsolute path then .error .absent
  else t.follow [] (Path.steps path)

/-- The bytes of a file. -/
def read (t : FileTree) (path : String) : Except FileFault ByteArray :=
  if path = nullDevice then .ok .empty
  else do
    match t.node? (← t.place path) with
    | none => .error .absent
    | some .directory => .error .directory
    | some (.file bytes) =>
        if Path.endsWithSlash path then .error .noDirectory else .ok bytes

/-- The tree with the bytes of a file written. -/
def put (t : FileTree) (place : Place) (bytes : ByteArray) : FileTree :=
  { t with files := (place, bytes) :: t.files.filter fun entry => entry.1 ≠ place }

/-- The tree with a file written, which is made where it is missing. -/
def write (t : FileTree) (path : String) (bytes : ByteArray) : Except FileFault FileTree :=
  if path = nullDevice then .ok t
  else do
    let place ← t.place path
    match t.node? place with
    | some .directory => .error .directory
    | _ => if Path.endsWithSlash path then .error .directory else .ok (t.put place bytes)

/-- The tree with a directory made, inside one that exists. -/
def makeDirectory (t : FileTree) (path : String) : Except FileFault FileTree := do
  let place ← t.place path
  match t.node? place with
  | some _ => .error .present
  | none => .ok { t with directories := place :: t.directories }

/-- The path leads to a directory. -/
def isDirectory (t : FileTree) (path : String) : Bool :=
  match (t.place path).toOption.bind t.node? with
  | some .directory => true
  | _ => false

/-- The files in a directory and below it, or a file itself. -/
def list (t : FileTree) (path : String) : List String :=
  match t.place path with
  | .error _ => []
  | .ok place =>
      match t.node? place with
      | none => []
      | some (.file _) => if Path.endsWithSlash path then [] else [path]
      | some .directory =>
          t.files.filterMap fun entry =>
            let inside := entry.1.drop place.length
            if place.isPrefixOf entry.1 && inside.head? ≠ some ".." then
              some (Path.join path ("/".intercalate inside))
            else none

/-- The outcome of an operation that changes the tree. -/
def change (operation : FileTree → Except FileFault FileTree)
    : StateM FileTree (Except FileFault Unit) := do
  match operation (← get) with
  | .ok t =>
      set t
      return .ok ()
  | .error fault => return .error fault

/-- Operations on a tree that is handed on. -/
def operations (now : String) : Files (StateM FileTree) where
  read path := return (← get).read path
  write path text := change fun t => t.write path text.toUTF8
  makeDirectory path := change fun t => t.makeDirectory path
  isDirectory path := return (← get).isDirectory path
  list path := return (← get).list path
  now := return now

/-- Puts files into the tree, with the directories that they lie in. -/
def putAll (entries : List (String × ByteArray)) : StateM FileTree Unit :=
  entries.forM fun (path, bytes) => do
    let _ ← (operations "").ensureDirectories (Path.parent path)
    let _ ← change fun t => t.write path bytes

/-- The tree of a list of files. -/
def ofList (entries : List (String × ByteArray)) : FileTree :=
  ((putAll entries).run empty).2

end FileTree

end RangeTuner.Command
