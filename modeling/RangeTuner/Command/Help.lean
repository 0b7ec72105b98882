import RangeTuner.Command.Arguments
import RangeTuner.Decimal.Digits

/-! Help on the commands: what each does, how it is called, and what it takes. Descriptions stand
in a column of their own.
-/

namespace RangeTuner.Command.Help

open RangeTuner.Decimal

/-- The program's name. -/
def program : String :=
  "rangeopt"

/-- The program's version. -/
def version : String :=
  program ++ " 0.3.0\n"

/-- A name in capitals and angle brackets. -/
def placeholder (name : String) : String :=
  "<" ++ .ofList (name.toList.map fun c => if c = '-' then '_' else c.toUpper) ++ ">"

/-- An option as it is written, with its value. -/
def signature (rule : OptionRule) : String :=
  "--" ++ rule.name ++ if rule.value.isSome then " " ++ placeholder rule.name else ""

/-- An option with its letter in front, or with blanks in the place of one. -/
def fullSignature (rule : OptionRule) : String :=
  (match rule.letter with
    | some letter => .ofList ['-', letter, ',', ' ']
    | none => "    ") ++ signature rule

/-- Entries of two columns: a name and its description. -/
def table (entries : List (String × String)) : List String :=
  let column := (entries.map fun entry => entry.1.length).foldl max 0 + 4
  entries.map fun (name, about) =>
    .ofList (padEnd column (' ' :: ' ' :: name.toList)) ++ about

/-- A titled table, with a blank line in front of it; nothing where it has no entries. -/
def part (title : String) (entries : List (String × String)) : List String :=
  if entries.isEmpty then [] else ["", title ++ ":"] ++ table entries

/-- The entries of options. -/
def optionEntries (rules : List OptionRule) : List (String × String) :=
  rules.map fun rule => (fullSignature rule, rule.about)

/-- What asking for help does. -/
def aboutHelp : String :=
  "Print this message or the help of the given subcommand(s)"

/-- The commands that help is asked on, as they are written. -/
def commandNames : String :=
  "[COMMAND]..."

/-- How the program is called. -/
def usage : HelpPage → String
  | .program => "Usage: " ++ program ++ " [OPTIONS] <COMMAND>"
  | .command topic =>
      let required := topic.ownOptions.filter OptionRule.isRequired
      " ".intercalate (["Usage:", program, topic.name, "[OPTIONS]"]
        ++ required.map signature ++ topic.operand?.toList.map placeholder)
  | .help => "Usage: " ++ program ++ " help " ++ commandNames

/-- The lines of help. -/
def lines (page : HelpPage) : List String :=
  match page with
  | .program =>
      [program ++ ": range-specification guided optimization of C sources", "", usage page]
        ++ part "Commands" (Topic.all.map (fun topic => (topic.name, topic.about))
          ++ [("help", aboutHelp)])
        ++ part "Options" (optionEntries Topic.commonOptions)
  | .command topic =>
      [topic.about, "", usage page]
        ++ part "Arguments" (topic.operand?.toList.map fun name => (placeholder name, ""))
        ++ part "Options" (optionEntries topic.options)
  | .help =>
      [aboutHelp, "", usage page]
        ++ part "Arguments" [(commandNames, "Print help for the subcommand(s)")]

/-- The text of help. -/
def text (page : HelpPage) : String :=
  .join ((lines page).map (· ++ "\n"))

/-- The words of a problem with the arguments. -/
def describe : UsageProblem → String
  | .noCommand => "a command is required"
  | .unknownCommand name => "there is no command " ++ name
  | .unexpected argument => "unexpected argument " ++ argument
  | .repeated option => "--" ++ option ++ " is given more than once"
  | .missingValue option => "--" ++ option ++ " needs a value"
  | .invalidValue option => "the value of " ++ option ++ " is not valid"
  | .missing what => "missing: " ++ what

/-- The message for refused arguments. -/
def refusal (problem : UsageProblem) : String :=
  "error: " ++ describe problem ++ "\n\n" ++ usage .program ++ "\n"

end RangeTuner.Command.Help
