import RangeTuner.Command.Path

/-! Files as commands use them, in whatever way they are kept. -/

namespace RangeTuner.Command

/-- Why a file could not be used. -/
inductive FileFault where
  | absent
  | present
  | directory
  | noDirectory
  | longName
  /-- The bytes of the file are no text. -/
  | noText
  | other (message : String)
deriving DecidableEq, Repr

/-- The words of a fault. -/
def FileFault.message : FileFault → String
  | .absent => "No such file or directory (os error 2)"
  | .present => "File exists (os error 17)"
  | .directory => "Is a directory (os error 21)"
  | .noDirectory => "Not a directory (os error 20)"
  | .longName => "File name too long (os error 36)"
  | .noText => "stream did not contain valid UTF-8"
  | .other message => message

/-- The operations on files that commands are made of. -/
structure Files (m : Type → Type) where
  /-- The bytes of a file. -/
  read : String → m (Except FileFault ByteArray)
  /-- Writes a text to a file, in the place of what the file held. -/
  write : String → String → m (Except FileFault Unit)
  /-- Makes a directory inside one that exists. -/
  makeDirectory : String → m (Except FileFault Unit)
  /-- Whether the path leads to a directory. -/
  isDirectory : String → m Bool
  /-- The files in a directory and the directories below it, or a file itself. -/
  list : String → m (List String)
  /-- The current time as reports show it. -/
  now : m String

/-- The text of a file's bytes. -/
def textOf (bytes : ByteArray) : Except FileFault String :=
  match String.fromUTF8? bytes with
  | some text => .ok text
  | none => .error .noText

namespace Files

variable {m : Type → Type} [Monad m]

/-- The text of a file. -/
def readText (files : Files m) (path : String) : m (Except FileFault String) := do
  return (← files.read path).bind textOf

/-- Makes a directory; it is no fault that it exists. -/
def ensureDirectory (files : Files m) (path : String) : m (Except FileFault Unit) := do
  match ← files.makeDirectory path with
  | .ok () => return .ok ()
  | .error fault => return if ← files.isDirectory path then .ok () else .error fault

/-- Makes the first of several directories, of which each lies in the next one. Where that is
absent it is made first, and stays if the directory itself cannot be made then.
-/
def ensureFirst (files : Files m) : List String → m (Except FileFault Unit)
  | [] => return .ok ()
  | path :: around => do
      match ← files.ensureDirectory path with
      | .error .absent =>
          match ← ensureFirst files around with
          | .ok () => files.ensureDirectory path
          | .error fault => return .error fault
      | outcome => return outcome

/-- Makes a directory, and the ones it lies in, where they are missing. -/
def ensureDirectories (files : Files m) (path : String) : m (Except FileFault Unit) :=
  files.ensureFirst (Path.ancestors path)

end Files

end RangeTuner.Command
