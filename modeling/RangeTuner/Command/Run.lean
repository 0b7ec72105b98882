import RangeTuner.Command.Files
import RangeTuner.Command.Help
import RangeTuner.Command.Listing
import RangeTuner.Exchange.Bank
import RangeTuner.Exchange.Report

/-! The commands at work. They are written over any way to keep files, print as they go, and end
at the first failure; what was printed before it stays.
-/

namespace RangeTuner.Command

open RangeTuner.Learning RangeTuner.Source RangeTuner.Spec

/-- The lines printed so far. -/
structure Console where
  out : String
  err : String

/-- Why a command failed: what it was doing, and below that, what caused the failure. -/
structure Failure where
  causes : List String

/-- What a command does: it uses files, prints, and may fail. -/
abbrev Procedure (m : Type → Type) := ExceptT Failure (StateT Console m)

/-- What came of a command line. -/
structure Outcome where
  exit : Nat
  out : String
  err : String

/-- The causes on one line. -/
def Failure.inLine (failure : Failure) : String :=
  ": ".intercalate failure.causes

/-- The causes as they are told at the end of a program, the outermost on the first line. -/
def Failure.text (failure : Failure) : String :=
  match failure.causes with
  | [] => "Error\n"
  | [only] => "Error: " ++ only ++ "\n"
  | outer :: causes =>
      "Error: " ++ outer ++ "\n\nCaused by:\n" ++ .join (causes.map fun c => "    " ++ c ++ "\n")

/-- The words of a fault of the engine. -/
def faultText (fault : Fault) : String :=
  fault.message?.getD "the text is not the data it should be"

namespace Procedure

variable {m : Type → Type} [Monad m] {α : Type}

/-- Prints lines. -/
def print (lines : List String) : Procedure m Unit :=
  modify fun console => { console with out := console.out ++ .join (lines.map (· ++ "\n")) }

/-- Prints a line beside the output proper. -/
def note (line : String) : Procedure m Unit :=
  modify fun console => { console with err := console.err ++ line ++ "\n" }

/-- An operation on files, which fails in the course of what the context says. -/
def file (context : String) (operation : m (Except FileFault α)) : Procedure m α := do
  match ← (operation : StateT Console m (Except FileFault α)) with
  | .ok a => return a
  | .error fault => throw ⟨[context, fault.message]⟩

/-- A result of the engine, whose fault is a failure. -/
def result (outcome : Except Fault α) : Procedure m α :=
  match outcome with
  | .ok a => return a
  | .error fault => throw ⟨[faultText fault]⟩

/-- A result of the engine, whose fault is a failure in the course of what the context says. -/
def resultIn (context : String) (outcome : Except Fault α) : Procedure m α :=
  match outcome with
  | .ok a => return a
  | .error fault => throw ⟨[context, faultText fault]⟩

/-- The procedure's value or its failure, which ends nothing. -/
def attempt (procedure : Procedure m α) : Procedure m (Except Failure α) := do
  try
    return .ok (← procedure)
  catch failure =>
    return .error failure

end Procedure

open Procedure

variable {m : Type → Type} [Monad m] (files : Files m)

/-- The text of a source. -/
def readSource (path : String) : Procedure m (List Char) := do
  return (← file ("reading source " ++ path) (files.readText path)).toList

/-- The text of a specification; one that cannot be read is left out. -/
def readSpec (path : Option String) : Procedure m (Option (List Char)) := do
  match path with
  | none => return none
  | some path =>
      match ← (files.readText path : StateT Console m (Except FileFault String)) with
      | .ok text => return some text.toList
      | .error _ => return none

/-- The settings of a file, standard ones for none. -/
def readSettings (path : Option String) : Procedure m EngineSettings := do
  match path with
  | none => return .standard
  | some path =>
      let context := "loading engine config " ++ path
      let text ← file context (files.readText path)
      resultIn context (EngineSettings.ofText text.toList)

/-- The bank of a file. -/
def readBank (path : String) : Procedure m Bank := do
  let context := "loading classifier bank " ++ path
  let bytes ← file context (files.read path)
  resultIn context (Bank.loadBytes bytes)

/-- The session that options set up: its bank is loaded, or else trained. -/
def setUp (options : EngineOptions) : Procedure m Session := do
  let settings ← readSettings files options.config
  let settings := { settings with threshold := options.threshold.getD settings.threshold }
  let settings ← result settings.checked
  let bank ← match options.bank with
    | some path => readBank files path
    | none => result (Bank.trained settings.training)
  result (Session.ofSettings bank settings)

/-- Prints the features of a source. -/
def features (source : String) : Procedure m Unit := do
  let text ← readSource files source
  print (("Features of " ++ source) :: Listing.figures (Features.extract text).values)

/-- Prints the facts of a specification. -/
def facts (spec config : Option String) : Procedure m Unit := do
  let settings ← readSettings files config
  print (Listing.facts (settings.spec.read (← readSpec files spec)))

/-- The text of a report made now. -/
def reportText (analysis : Analysis) : Procedure m String := do
  let now ← (files.now : StateT Console m String)
  return (analysis.report now).writeIndented

/-- Prints the analysis of a source, for people or as data. -/
def analyze (source : String) (spec : Option String) (json : Bool) (engine : EngineOptions)
    : Procedure m Unit := do
  let text ← readSource files source
  let session ← setUp files engine
  let analysis ← result (session.analyze (← readSpec files spec) text)
  if json then print [← reportText files analysis]
  else print (("Analyzing " ++ source) :: Listing.analysis analysis)

/-- Rewrites a source. -/
def optimize (source : String) (spec : Option String) (out : String) (report : Option String)
    (engine : EngineOptions)
    : Procedure m Unit := do
  let text ← readSource files source
  let session ← setUp files engine
  let optimized ← result (session.optimize (← readSpec files spec) text)
  file ("writing " ++ out) (files.write out (.ofList optimized.output))
  if let some path := report then
    file ("writing report " ++ path)
      (files.write path (← reportText files optimized.analysis))
    note ("wrote " ++ path)
  print (("Optimizing " ++ source) :: Listing.provenance optimized.provenance)
  note ("wrote " ++ out ++ " (" ++ toString optimized.applied ++ " applied)")

/-- Rewrites one of the sources of a directory. -/
def optimizeOne (session : Session) (facts : Facts) (specDigest : Option String)
    (source target : String)
    : Procedure m Nat := do
  let text ← file ("reading " ++ source) (files.readText source)
  let optimized ← result (session.optimizeUnder facts specDigest text.toList)
  let directory := Path.parent target
  file ("creating " ++ directory) (files.ensureDirectories directory)
  file ("writing " ++ target) (files.write target (.ofList optimized.output))
  return optimized.applied

/-- The line on one of the sources of a directory. -/
def batchLine (source : String) : Except Failure Nat → String
  | .ok applied => "  ok " ++ source ++ " (" ++ toString applied ++ " applied)"
  | .error failure => "  failed " ++ source ++ ": " ++ failure.inLine

/-- Rewrites all sources of a directory; one that fails does not keep others from it. -/
def batch (directory : String) (spec : Option String) (out : String) (engine : EngineOptions)
    : Procedure m Unit := do
  let session ← setUp files engine
  let spec ← readSpec files spec
  let listed ← (files.list directory : StateT Console m (List String))
  let sources := Path.sorted (listed.filter fun path => Path.extension? path = some "c")
  if sources.isEmpty then throw ⟨["no .c sources under " ++ directory]⟩
  file ("creating " ++ out) (files.ensureDirectories out)
  let facts := session.facts spec
  let specDigest := Session.specDigest spec
  print ["Optimizing " ++ toString sources.length ++ " sources from " ++ directory]
  let results ← sources.mapM fun source => do
    let target := Path.join out (Path.below directory source)
    return (source, ← attempt (optimizeOne files session facts specDigest source target))
  print (results.map fun (source, result) => batchLine source result)
  let failed := results.countP fun entry => !entry.2.isOk
  if 0 < failed then
    throw ⟨[toString failed ++ " of " ++ toString results.length ++ " sources failed"]⟩

/-- Trains a bank and saves it. -/
def train (out : String) (config : Option String) : Procedure m Unit := do
  let settings ← readSettings files config
  let bank ← result (Bank.trained settings.training)
  let context := "saving classifier bank " ++ out
  let saved ← resultIn context bank.save
  file context (files.write out saved)
  if let some summary := bank.summary then print (Listing.training summary)
  note ("wrote " ++ out)

/-- Does what a command line asks for. -/
def perform : Request → Procedure m Unit
  | .features source => features files source
  | .facts spec config => facts files spec config
  | .analyze source spec json engine => analyze files source spec json engine
  | .optimize source spec out report engine => optimize files source spec out report engine
  | .batch directory spec out engine => batch files directory spec out engine
  | .train out config => train files out config
  | .help page =>
      modify fun console => { console with out := console.out ++ Help.text page }
  | .version => modify fun console => { console with out := console.out ++ Help.version }

/-- Runs a command line. -/
def run (arguments : List String) : m Outcome := do
  match Request.ofArguments arguments with
  | .error problem => return ⟨2, "", Help.refusal problem⟩
  | .ok request =>
      let (result, console) ← ((perform files request).run).run ⟨"", ""⟩
      match result with
      | .ok () => return ⟨0, console.out, console.err⟩
      | .error failure => return ⟨1, console.out, console.err ++ failure.text⟩

end RangeTuner.Command
