import RangeTuner.Rewrite.Engine

/-! Provenance: a header comment that tells, for every optimization, whether it was applied and
why not if it was not, followed by the includes that every output needs. Annotating an annotated
text replaces its header.
-/

namespace RangeTuner

open RangeTuner.Rewrite RangeTuner.Text

/-- What became of an optimization. -/
inductive Fate where
  | applied
  /-- Approved, but the facts did not authorize the edit. -/
  | preconditionFailed
  /-- Approved and authorized, but the text had nothing to edit. -/
  | noMatch
  /-- Not approved by the gate. -/
  | gate (verdict : Verdict)
deriving DecidableEq, Repr

/-- The words of a fate. -/
def Fate.describe : Fate → String
  | .applied => "applied"
  | .preconditionFailed => "approved, precondition not met"
  | .noMatch => "approved, no matching code"
  | .gate verdict => verdict.label

/-- The fate of an approved optimization with an edit record, or without one. -/
def Fate.ofOutcome? : Option EditOutcome → Fate
  | some .applied => .applied
  | some .preconditionFailed => .preconditionFailed
  | some .noMatch | none => .noMatch

/-- The record of one optimization in a header. -/
structure ProvenanceEntry where
  optimization : Optimization
  fate : Fate
  confidence : Float
  explanation : String

namespace ProvenanceEntry

/-- The edit of an optimization was made. -/
def isApplied (entry : ProvenanceEntry) : Bool :=
  entry.fate = .applied

/-- The outcome that is recorded for an optimization, the first of several. -/
def outcomeOf? (edits : List Edit) (optimization : Optimization) : Option EditOutcome :=
  (edits.find? fun edit => edit.optimization = optimization).map Edit.outcome

/-- The record of a decision of the gate. -/
def ofDecision (edits : List Edit) (decision : GateDecision) : ProvenanceEntry where
  optimization := decision.optimization
  fate :=
    if decision.isApproved then .ofOutcome? (outcomeOf? edits decision.optimization)
    else .gate decision.verdict
  confidence := decision.confidence
  explanation := decision.rationale

/-- The records of all decisions of the gate, in their order. -/
def all (report : GateReport) (edits : List Edit) : List ProvenanceEntry :=
  report.decisions.map (ofDecision edits)

end ProvenanceEntry

namespace Provenance

/-- The line that tells a header. -/
def title : String :=
  " * rangeopt provenance"

/-- The last lines of a header. -/
def closing : String :=
  " * end rangeopt provenance\n */\n"

/-- The headers that every output includes. -/
def requiredHeaders : List String :=
  ["stdio.h", "math.h", "stdbool.h", "time.h", "stdlib.h", "string.h"]

/-- A text that closes no comment: a blank is put into every end of one. -/
def harmless : List Char → List Char
  | '*' :: '/' :: s => '*' :: ' ' :: '/' :: harmless s
  | c :: s => c :: harmless s
  | [] => []

/-- The lines of one record. -/
def entryLines (bullet : String) (entry : ProvenanceEntry) : List String :=
  (" *   " ++ bullet ++ " " ++ entry.optimization.id ++ " [" ++ entry.fate.describe
    ++ "] confidence " ++ Optimization.percent entry.confidence)
  :: if entry.explanation.isEmpty then []
    else [" *       " ++ .ofList (harmless entry.explanation.toList)]

/-- The lines of a group of records. -/
def groupLines (name bullet : String) (entries : List ProvenanceEntry) : List String :=
  (" * " ++ name ++ " (" ++ toString entries.length ++ "):")
  :: if entries.isEmpty then [" *   (none)"] else entries.flatMap (entryLines bullet)

/-- The lines of a header before its closing. -/
def headerLines (entries : List ProvenanceEntry) : List String :=
  ["/*", title, " *"]
    ++ groupLines "applied" "+" (entries.filter ProvenanceEntry.isApplied)
    ++ [" *"]
    ++ groupLines "not applied" "-" (entries.filter fun entry => !entry.isApplied)
    ++ [" *"]

/-- The header of a list of records, with a blank line after it. -/
def header (entries : List ProvenanceEntry) : List Char :=
  ((headerLines entries).flatMap fun line => line.toList ++ ['\n'])
    ++ closing.toList ++ ['\n']

/-- The text without line feeds at its start. -/
def dropLineFeeds (text : List Char) : List Char :=
  text.dropWhile (· == '\n')

/-- The beginning of a header. -/
def openingLines : List Char :=
  ("/*\n" ++ title ++ "\n").toList

/-- The text without the header it starts with, if it does. -/
def strip (text : List Char) : List Char :=
  let trimmed := dropLineFeeds text
  if (after? openingLines trimmed).isSome then
    match splitAtFirst? closing.toList trimmed with
    | some (_, rest) => dropLineFeeds rest
    | none => text
  else text

/-- An include; what is found is the name of the included header, blanks around it left out. -/
def includeLine : Idiom (List Char) where
  opening := .lineStart
  scan := do
    ZoneConstants.gap
    Scanner.literal "#"
    ZoneConstants.gap
    Scanner.literal "include"
    Scanner.blanks
    let _ ← Scanner.one fun c => c == '<' || c == '"'
    let name ← Scanner.run1 fun c => c ≠ '>' && c ≠ '"'
    let _ ← Scanner.one fun c => c == '>' || c == '"'
    return trim name

/-- The required headers that a text does not include, in the order they are required. -/
def missing (required : List String) (text : List Char) : List String :=
  let present := includeLine.findAll text
  required.filter fun header => header.toList ∉ present

/-- The lines that include headers, with a blank line after them; nothing for none. -/
def includeBlock (headers : List String) : List Char :=
  if headers.isEmpty then []
  else (headers.flatMap fun header => ("#include <" ++ header ++ ">\n").toList) ++ ['\n']

/-- The text under a new header and the includes it lacks, its old header left out. -/
def annotate (required : List String) (entries : List ProvenanceEntry) (text : List Char)
    : List Char :=
  let body := strip text
  header entries ++ includeBlock (missing required body) ++ body

end Provenance

end RangeTuner
