import RangeTuner.Digest
import RangeTuner.EngineSettings
import RangeTuner.Provenance
import RangeTuner.Source.Extraction

/-! A session: a bank of learners at work under checked settings. It analyses sources against a
specification, and rewrites and annotates them according to the analysis.
-/

namespace RangeTuner

open RangeTuner.Learning RangeTuner.Rewrite RangeTuner.Source RangeTuner.Spec

/-- All that one analysis produced. -/
structure Analysis where
  sourceDigest : String
  /-- The digest of the specification, if there was one. -/
  specDigest : Option String
  features : Features
  facts : Facts
  predictions : PerOptimization Prediction
  gate : GateReport
  summary : Summary

/-- A source rewritten, with the analysis behind it and what was done. -/
structure Optimized where
  output : List Char
  analysis : Analysis
  edits : List Edit
  provenance : List ProvenanceEntry

/-- The number of optimizations that edited the source. -/
def Optimized.applied (optimized : Optimized) : Nat :=
  optimized.provenance.countP ProvenanceEntry.isApplied

/-- A bank, trained or not, with the settings it works under. -/
structure Session where
  bank : Bank
  thresholds : Thresholds
  gate : Gate
  templates : Rewrite.Settings

namespace Session

/-- The session of a bank under some settings, unless they have a problem. -/
def ofSettings (bank : Bank) (settings : EngineSettings) : Except Fault Session := do
  let settings ← settings.checked
  return {
    bank := bank
    thresholds := settings.spec
    gate := ← Gate.ofThreshold settings.threshold
    templates := settings.templates }

/-- The facts of a specification, if there is one. -/
def facts (session : Session) (spec : Option (List Char)) : Facts :=
  session.thresholds.read spec

/-- The digest of a specification, if there is one. -/
def specDigest (spec : Option (List Char)) : Option String :=
  spec.map fun text => Digest.ofText (.ofList text)

/-- The analysis of a source under known facts. -/
def analyzeUnder (session : Session) (facts : Facts) (specDigest : Option String)
    (source : List Char)
    : Except Fault Analysis := do
  let features := Features.extract source
  let predictions ← session.bank.predict ⟨features, facts⟩
  let gate := session.gate.report predictions
  return {
    sourceDigest := Digest.ofText (.ofList source)
    specDigest := specDigest
    features := features
    facts := facts
    predictions := predictions
    gate := gate
    summary := .compute predictions gate }

/-- The analysis of a source against a specification. -/
def analyze (session : Session) (spec : Option (List Char)) (source : List Char)
    : Except Fault Analysis :=
  session.analyzeUnder (session.facts spec) (specDigest spec) source

/-- The source rewritten and annotated according to its analysis. -/
def rewrite (session : Session) (source : List Char) (analysis : Analysis) : Optimized :=
  let transformed := Rewrite.apply session.templates analysis.facts analysis.gate source
  let provenance := ProvenanceEntry.all analysis.gate transformed.edits
  {
    output := Provenance.annotate Provenance.requiredHeaders provenance transformed.text
    analysis := analysis
    edits := transformed.edits
    provenance := provenance }

/-- The source analysed and rewritten under known facts. -/
def optimizeUnder (session : Session) (facts : Facts) (specDigest : Option String)
    (source : List Char)
    : Except Fault Optimized :=
  (session.analyzeUnder facts specDigest source).map (session.rewrite source)

/-- The source analysed and rewritten against a specification. -/
def optimize (session : Session) (spec : Option (List Char)) (source : List Char)
    : Except Fault Optimized :=
  (session.analyze spec source).map (session.rewrite source)

end Session

end RangeTuner
