/-! Paths of files, as commands take and show them: steps with slashes between them. A step is
the name of something inside a directory, or two dots for the directory that this one lies in,
or a single dot for the directory itself; the names of a path are its steps but single dots.
-/

namespace RangeTuner.Command.Path

/-- The parts between slashes of a path whose current part so far, backwards, is `part`. -/
def partsFrom (part : List Char) : List Char → List (List Char)
  | [] => [part.reverse]
  | '/' :: s => part.reverse :: partsFrom [] s
  | c :: s => partsFrom (c :: part) s

/-- The steps of a path, in order. -/
def steps (path : String) : List String :=
  ((partsFrom [] path.toList).filter (· ≠ [])).map .ofList

/-- The names of a path, in order. -/
def names (path : String) : List String :=
  (steps path).filter (· ≠ ".")

/-- The path starts at the root of all files. -/
def isAbsolute (path : String) : Bool :=
  path.toList.head? = some '/'

/-- The path ends with a slash, so that only a directory can be meant. -/
def endsWithSlash (path : String) : Bool :=
  path.toList.getLast? = some '/'

/-- The path of something inside a directory. -/
def join (directory name : String) : String :=
  if isAbsolute name then name
  else if directory.isEmpty || endsWithSlash directory then directory ++ name
  else directory ++ "/" ++ name

/-- A path, backwards, without the slashes and single dots at its end; a dot that the path
starts with stays.
-/
def dropEmptySteps : List Char → List Char
  | '/' :: path => dropEmptySteps path
  | '.' :: '/' :: path => dropEmptySteps path
  | path => path

/-- The path of the directory that a path lies in; empty for a single step. -/
def parent (path : String) : String :=
  let named := dropEmptySteps path.toList.reverse
  let inside := dropEmptySteps (named.dropWhile (· ≠ '/'))
  if inside.isEmpty && isAbsolute path then "/" else .ofList inside.reverse

/-- A path and the paths of at most `count` directories around it, the innermost first. -/
def outwards : Nat → String → List String
  | 0, _ => []
  | count + 1, path => if path.isEmpty then [] else path :: outwards count (parent path)

/-- A path and the paths of all directories that it lies in, the innermost first. -/
def ancestors (path : String) : List String :=
  outwards ((names path).length + 1) path

/-- The part of a file's name after its last dot; a dot at the start begins no such part. -/
def extension? (path : String) : Option String :=
  match (names path).getLast? with
  | none => none
  | some name =>
      let backwards := name.toList.reverse
      match backwards.dropWhile (· ≠ '.') with
      | '.' :: _ :: _ =>
          if name = ".." then none
          else some (.ofList (backwards.takeWhile (· ≠ '.')).reverse)
      | _ => none

/-- The path from a directory to something inside it. -/
def below (directory path : String) : String :=
  "/".intercalate ((names path).drop (names directory).length)

/-- The order of paths: name by name. -/
def before : List String → List String → Bool
  | [], _ => true
  | _ :: _, [] => false
  | a :: as, b :: bs => if a = b then before as bs else a < b

/-- Paths in order. -/
def sorted (paths : List String) : List String :=
  paths.mergeSort fun a b => before (names a) (names b)

end RangeTuner.Command.Path
