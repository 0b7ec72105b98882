import RangeTuner.Command.Topic
import RangeTuner.Decimal.Reading

/-! Command lines: what a list of arguments asks for. Options may stand on either side of the
operand, their values follow them or are joined to them by a sign of equality, switches with a
single letter may be run together, and after two hyphens everything is an operand.
-/

namespace RangeTuner.Command

open RangeTuner.Decimal

/-- Why arguments are refused. -/
inductive UsageProblem where
  | noCommand
  | unknownCommand (name : String)
  | unexpected (argument : String)
  | repeated (option : String)
  | missingValue (option : String)
  | invalidValue (option : String)
  | missing (what : String)
deriving DecidableEq, Repr

/-- Why reading arguments ends before their end. -/
inductive Stop where
  | usage (problem : UsageProblem)
  | help
  | version
deriving DecidableEq, Repr

/-- What arguments give: switches, options with their values, and operands, the last ones first.
-/
structure Given where
  switches : List String
  values : List (String × String)
  operands : List String

/-- Reading in progress: the option whose value comes next, and whether only operands follow. -/
structure Progress where
  given : Given
  awaiting : Option OptionRule
  operandsOnly : Bool

/-- Nothing read yet. -/
def Progress.start : Progress :=
  ⟨⟨[], [], []⟩, none, false⟩

/-- The number that a text writes, one that is not finite included. -/
def number? (text : String) : Option Float :=
  let (negative, rest) := splitSign text.toList
  let sign (x : Float) := if negative then -x else x
  let word := String.ofList (rest.map Char.toLower)
  if word = "nan" then some (sign (0.0 / 0.0))
  else if word = "inf" ∨ word = "infinity" then some (sign (1.0 / 0.0))
  else
    match Literal.ofPrefix? text.toList with
    | some (literal, []) => some literal.toFloat
    | _ => none

/-- The text is a value of the kind. -/
def ValueKind.accepts : ValueKind → String → Bool
  | .path, text => !text.isEmpty
  | .number, text => (number? text).isSome

namespace Given

/-- The option was given before. -/
def has (given : Given) (name : String) : Bool :=
  given.switches.contains name || (given.values.lookup name).isSome

/-- One more switch. -/
def switchOn (given : Given) (rule : OptionRule) : Except Stop Given :=
  if rule = .help then .error .help
  else if rule = .version then .error .version
  else if given.has rule.name then .error (.usage (.repeated rule.name))
  else .ok { given with switches := rule.name :: given.switches }

/-- One more option with its value. -/
def setValue (given : Given) (rule : OptionRule) (value : String) : Except Stop Given :=
  if given.has rule.name then .error (.usage (.repeated rule.name))
  else if rule.value.all fun kind => !kind.accepts value then
    .error (.usage (.invalidValue rule.name))
  else .ok { given with values := (rule.name, value) :: given.values }

/-- One more operand, of which there may be so many. -/
def addOperand (given : Given) (most : Nat) (operand : String) : Except Stop Given :=
  if most ≤ given.operands.length then .error (.usage (.unexpected operand))
  else if operand.isEmpty then .error (.usage (.invalidValue "operand"))
  else .ok { given with operands := operand :: given.operands }

end Given

/-- Options by the letters of one argument: switches, and at the end an option whose value is the
rest of the argument or the next one.
-/
def readLetters (rules : List OptionRule) (p : Progress) : List Char → Except Stop Progress
  | [] => .ok p
  | letter :: rest =>
      match rules.find? fun rule => rule.letter = some letter with
      | none => .error (.usage (.unexpected (.ofList ['-', letter])))
      | some rule =>
          if rule.value.isNone then do
            readLetters rules { p with given := ← p.given.switchOn rule } rest
          else
            match rest with
            | [] => .ok { p with awaiting := some rule }
            | '=' :: value => do return { p with given := ← p.given.setValue rule (.ofList value) }
            | value => do return { p with given := ← p.given.setValue rule (.ofList value) }

/-- An option by its name, with a value after a sign of equality or without one. -/
def readName (rules : List OptionRule) (p : Progress) (argument : List Char)
    : Except Stop Progress :=
  let name := String.ofList (argument.takeWhile (· ≠ '='))
  let value? := (argument.dropWhile (· ≠ '=')).tail?
  match rules.find? fun rule => rule.name = name with
  | none => .error (.usage (.unexpected ("--" ++ name)))
  | some rule =>
      match rule.value, value? with
      | none, none => do return { p with given := ← p.given.switchOn rule }
      | none, some _ => .error (.usage (.unexpected ("--" ++ .ofList argument)))
      | some _, none => .ok { p with awaiting := some rule }
      | some _, some value => do
          return { p with given := ← p.given.setValue rule (.ofList value) }

/-- One more argument, of a command with these options and at most so many operands. -/
def readArgument (rules : List OptionRule) (most : Nat) (p : Progress) (argument : String)
    : Except Stop Progress :=
  if p.operandsOnly then do return { p with given := ← p.given.addOperand most argument }
  else
    match p.awaiting, argument.toList with
    | some rule, '-' :: _ :: _ => .error (.usage (.missingValue rule.name))
    | some rule, _ => do
        return { p with given := ← p.given.setValue rule argument, awaiting := none }
    | none, ['-', '-'] => .ok { p with operandsOnly := true }
    | none, '-' :: '-' :: option => readName rules p option
    | none, '-' :: letter :: more => readLetters rules p (letter :: more)
    | none, _ => do return { p with given := ← p.given.addOperand most argument }

/-- All arguments of a command. -/
def readArguments (rules : List OptionRule) (most : Nat) (arguments : List String)
    : Except Stop Given := do
  let p ← arguments.foldlM (readArgument rules most) .start
  match p.awaiting with
  | some rule => .error (.usage (.missingValue rule.name))
  | none => return p.given

/-- The switches and options that set up an engine. -/
structure EngineOptions where
  config : Option String
  bank : Option String
  threshold : Option Float

/-- What help may be asked on: the program, one of its commands, or the asking itself. -/
inductive HelpPage where
  | program
  | command (topic : Topic)
  | help
deriving DecidableEq, Repr

/-- What a command line asks for. -/
inductive Request where
  | features (source : String)
  | facts (spec config : Option String)
  | analyze (source : String) (spec : Option String) (json : Bool) (engine : EngineOptions)
  | optimize (source : String) (spec : Option String) (out : String) (report : Option String)
      (engine : EngineOptions)
  | batch (directory : String) (spec : Option String) (out : String) (engine : EngineOptions)
  | train (out : String) (config : Option String)
  | help (page : HelpPage)
  | version

namespace Given

/-- The value of an option, if it was given. -/
def value? (given : Given) (name : String) : Option String :=
  given.values.lookup name

/-- The value of an option that has to be given. -/
def value (given : Given) (name : String) : Except UsageProblem String :=
  match given.value? name with
  | some value => .ok value
  | none => .error (.missing name)

/-- The operand, which has to be given. -/
def operand (given : Given) : Except UsageProblem String :=
  match given.operands with
  | operand :: _ => .ok operand
  | [] => .error (.missing "operand")

/-- The options that set up an engine. -/
def engine (given : Given) : EngineOptions where
  config := given.value? "config"
  bank := given.value? "bank"
  threshold := (given.value? "threshold").bind number?

/-- The request for a command. -/
def request (given : Given) : Topic → Except UsageProblem Request
  | .features => do return .features (← given.operand)
  | .facts => return .facts (given.value? "spec") (given.value? "config")
  | .analyze => do
      return .analyze (← given.operand) (given.value? "spec") (given.has "json") given.engine
  | .optimize => do
      return .optimize (← given.operand) (given.value? "spec") (← given.value "out")
        (given.value? "report") given.engine
  | .batch => do
      return .batch (← given.operand) (given.value? "spec") (← given.value "out-dir")
        given.engine
  | .train => do return .train (← given.value "out") (given.value? "config")

end Given

namespace Request

/-- The request of a command's arguments. -/
def ofTopic (topic : Topic) (arguments : List String) : Except UsageProblem Request :=
  match readArguments topic.options (if topic.operand?.isSome then 1 else 0) arguments with
  | .ok given => given.request topic
  | .error (.usage problem) => .error problem
  | .error .help => .ok (.help (.command topic))
  | .error .version => .ok .version

/-- The request for help on the commands that are named. -/
def ofHelp : List String → Except UsageProblem Request
  | [] => .ok (.help .program)
  | [name] =>
      match Topic.ofName? name with
      | some topic => .ok (.help (.command topic))
      | none => if name = "help" then .ok (.help .help) else .error (.unknownCommand name)
  | name :: _ => .error (.unknownCommand name)

/-- The request of arguments that start with the name of a command. -/
def ofCommand (name : String) (arguments : List String) : Except UsageProblem Request :=
  if name = "help" then ofHelp arguments
  else
    match Topic.ofName? name with
    | some topic => ofTopic topic arguments
    | none => .error (.unknownCommand name)

/-- The argument is no option. -/
def isName (argument : String) : Bool :=
  match argument.toList with
  | '-' :: _ :: _ => false
  | _ => true

/-- The request of a command line, some options of which were read. -/
def ofArgumentsFrom (p : Progress) : List String → Except UsageProblem Request
  | [] => .error .noCommand
  | argument :: rest =>
      if isName argument then ofCommand argument rest
      else
        match readArgument Topic.commonOptions 0 p argument with
        | .error (.usage problem) => .error problem
        | .error .help => .ok (.help .program)
        | .error .version => .ok .version
        | .ok p => if p.operandsOnly then .error .noCommand else ofArgumentsFrom p rest

/-- The request of a command line. -/
def ofArguments (arguments : List String) : Except UsageProblem Request :=
  ofArgumentsFrom .start arguments

end Request

end RangeTuner.Command
