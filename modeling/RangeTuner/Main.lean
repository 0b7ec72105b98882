import RangeTuner.Command.Run
import Std.Time

/-! The program: the command line over the files of the machine. -/

namespace RangeTuner

open RangeTuner.Command

/-- Why an operation of the machine failed; some operations tell the number of the failure with
its sign turned.
-/
def Command.FileFault.ofSystem : IO.Error → FileFault
  | .noFileOrDirectory _ _ _ => .absent
  | .alreadyExists _ _ _ => .present
  | .inappropriateType _ code details =>
      if code = 21 ∨ code = -21 then .directory
      else if code = 20 ∨ code = -20 then .noDirectory
      else .other details
  | .invalidArgument _ code details =>
      if code = 36 ∨ code = -36 then .longName else .other details
  | error => .other (toString error)

/-- An operation of the machine, with its failure as a value. -/
def tried {α : Type} (operation : IO α) : IO (Except FileFault α) := do
  try
    return .ok (← operation)
  catch error =>
    return .error (FileFault.ofSystem error)

/-- The files at a path and below it; what cannot be listed is left out. -/
partial def listFiles (path : String) : IO (List String) := do
  try
    let entries ← (← IO.FS.realPath path).readDir
    let listed ← entries.toList.mapM fun entry => do
      let inside := Path.join path entry.fileName
      match (← entry.path.symlinkMetadata).type with
      | .dir => listFiles inside
      | .file => return [inside]
      | _ => return []
    return listed.flatten
  catch _ =>
    return []

/-- The file at a path, or the files below it. -/
def listAt (path : String) : IO (List String) := do
  try
    match (← (← IO.FS.realPath path).metadata).type with
    | .dir => listFiles path
    | .file => return if Path.endsWithSlash path then [] else [path]
    | _ => return []
  catch _ =>
    return []

/-- The path leads to a directory. -/
def isDirectory (path : String) : IO Bool := do
  try
    return (← (← IO.FS.realPath path).metadata).type == .dir
  catch _ =>
    return false

/-- The current time. -/
def currentTime : IO String := do
  let moment ← Std.Time.Timestamp.now
  return (Std.Time.DateTime.ofTimestampWithZone moment .UTC).format
    "uuuu-MM-dd'T'HH:mm:ss.SSSSSSSSS'Z'"

/-- The files of the machine. -/
def systemFiles : Files IO where
  read path := tried (IO.FS.readBinFile path)
  write path text := tried (IO.FS.writeFile path text)
  makeDirectory path := tried (IO.FS.createDir path)
  isDirectory path := isDirectory path
  list := listAt
  now := currentTime

end RangeTuner

/-- Runs the command line of the program. -/
def main (arguments : List String) : IO UInt32 := do
  let outcome ← RangeTuner.Command.run RangeTuner.systemFiles arguments
  (← IO.getStdout).putStr outcome.out
  (← IO.getStderr).putStr outcome.err
  return outcome.exit.toUInt32
