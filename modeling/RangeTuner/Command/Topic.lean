/-! The commands and what each of them takes: one operand at most, and options by name. An option
without a placeholder is a switch.
-/

namespace RangeTuner.Command

/-- What the value of an option has to be. -/
inductive ValueKind where
  | path
  | number
deriving DecidableEq, Repr

/-- An option of a command. -/
structure OptionRule where
  name : String
  letter : Option Char
  /-- The kind of the option's value, unless it is a switch. -/
  value : Option ValueKind
  isRequired : Bool
  about : String
deriving DecidableEq, Repr

namespace OptionRule

/-- A switch. -/
def switch (name : String) (letter : Option Char) (about : String) : OptionRule :=
  ⟨name, letter, none, false, about⟩

/-- An option that may be given a path. -/
def path (name : String) (about : String) : OptionRule :=
  ⟨name, none, some .path, false, about⟩

/-- How much is logged; every command takes this switch. -/
def verbose : OptionRule :=
  switch "verbose" (some 'v') "Log at debug level (RUST_LOG takes precedence)"

/-- Asks for help; every command takes this switch. -/
def help : OptionRule :=
  switch "help" (some 'h') "Print help"

/-- Asks for the version. -/
def version : OptionRule :=
  switch "version" (some 'V') "Print version"

/-- The specification. -/
def spec : OptionRule :=
  path "spec" ""

/-- The settings of the engine. -/
def config : OptionRule :=
  path "config" "Engine configuration (JSON); omitted keys keep their defaults"

/-- The settings of the engine, without a description. -/
def plainConfig : OptionRule :=
  path "config" ""

/-- The options of commands that set up an engine. -/
def engine : List OptionRule := [
  config,
  path "bank" "Load a classifier bank written by `rangeopt train` instead of training",
  ⟨"threshold", none, some .number, false,
    "Override the gate threshold (confidence must strictly exceed it)"⟩]

end OptionRule

/-- The commands. -/
inductive Topic where
  | features
  | facts
  | analyze
  | optimize
  | batch
  | train
deriving DecidableEq, Repr

namespace Topic

/-- The commands in the order that they are listed. -/
def all : List Topic :=
  [features, facts, analyze, optimize, batch, train]

/-- The command's name. -/
def name : Topic → String
  | features => "features"
  | facts => "facts"
  | analyze => "analyze"
  | optimize => "optimize"
  | batch => "batch"
  | train => "train"

/-- The command of a name. -/
def ofName? (name : String) : Option Topic :=
  all.find? fun topic => topic.name = name

/-- What the command does. -/
def about : Topic → String
  | features => "Print the code features extracted from a source file"
  | facts => "Print the facts derived from a specification (defaults when absent)"
  | analyze => "Predict and gate every optimization for a source file"
  | optimize => "Rewrite a source file and annotate it with provenance"
  | batch => "Optimize every `.c` file under a directory in parallel"
  | train => "Train the classifier bank and save it as JSON"

/-- The operand that the command needs, if it takes one. -/
def operand? : Topic → Option String
  | features | analyze | optimize => some "source"
  | batch => some "dir"
  | facts | train => none

/-- The options of the command besides those that all of them take. -/
def ownOptions : Topic → List OptionRule
  | features => []
  | facts => [.spec, .plainConfig]
  | analyze => .spec :: .switch "json" none "Emit the full report as JSON" :: OptionRule.engine
  | optimize =>
      .spec
        :: ⟨"out", some 'o', some .path, true, "Output path for the rewritten source"⟩
        :: .path "report" "Also write the analysis report as JSON"
        :: OptionRule.engine
  | batch => .spec :: ⟨"out-dir", none, some .path, true, ""⟩ :: OptionRule.engine
  | train => [⟨"out", some 'o', some .path, true, ""⟩, .plainConfig]

/-- All options of the command as they are listed: the switch for logging follows the first of its
own options, and help comes last.
-/
def options (topic : Topic) : List OptionRule :=
  topic.ownOptions.take 1 ++ .verbose :: topic.ownOptions.drop 1 ++ [.help]

/-- The options that stand in front of a command. -/
def commonOptions : List OptionRule :=
  [.verbose, .help, .version]

end Topic

end RangeTuner.Command
