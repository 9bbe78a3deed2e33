import Immutability.Report.Encoding
import Immutability.Text.Quoted
import Immutability.Text.Style

/-!
# Reports

A report puts together the assessments of many classes.

* `ReportMode` chooses the assessments to show, and `Summary` counts all of them;
* `Report` is what is written as JSON by `Report.toJson` and `Report.text` and read by
  `Report.ofJson?`;
* `Report.pretty` is a report for people.
-/

namespace Immutability

/-- Which assessments a report shows. -/
inductive ReportMode where
  | all
  /-- Those of classes that may be used as values. -/
  | immutable
  /-- All others. -/
  | mutable
  deriving DecidableEq, Repr

namespace ReportMode

/-- The word for a mode. -/
def keyword : ReportMode → String
  | all => "all"
  | immutable => "immutable"
  | mutable => "mutable"

/-- The complaint about a word that names no mode. -/
def unknown (word : String) : String :=
  s!"invalid report mode {Text.quote word}, must be 'all', 'immutable' or 'mutable'"

/-- The mode with this keyword, whatever its case. -/
def parse? (word : String) : Option ReportMode :=
  match Text.lower (Text.trim word) with
  | "all" => some all
  | "immutable" => some immutable
  | "mutable" => some mutable
  | _ => none

/-- Whether an assessment is shown. -/
def includes (m : ReportMode) (a : Assessment) : Bool :=
  match m with
  | all => true
  | immutable => a.verdict.isAcceptable
  | mutable => !a.verdict.isAcceptable

end ReportMode

/-- The number of classes with each verdict, and of the checks that failed. -/
structure Summary where
  analysed : Nat
  immutable : Nat
  effectivelyImmutable : Nat
  notImmutable : Nat
  couldNotAnalyse : Nat
  errors : Nat
  deriving DecidableEq, Repr

namespace Summary

/-- The summary of all assessments, shown or not. -/
def ofResults (results : List Assessment) (errors : List CheckFailure) : Summary where
  analysed := results.length
  immutable := results.countP (·.verdict == .immutable)
  effectivelyImmutable := results.countP (·.verdict == .effectivelyImmutable)
  notImmutable := results.countP (·.verdict == .notImmutable)
  couldNotAnalyse := results.countP (·.verdict == .couldNotAnalyse)
  errors := errors.length

/-- Whether every class may be used as a value. -/
def passed (s : Summary) : Bool := s.notImmutable == 0 && s.couldNotAnalyse == 0

def toJson (s : Summary) : Json :=
  .obj [("analysed", .num s.analysed), ("immutable", .num s.immutable),
    ("effectively_immutable", .num s.effectivelyImmutable), ("not_immutable", .num s.notImmutable),
    ("could_not_analyse", .num s.couldNotAnalyse), ("errors", .num s.errors)]

def ofJson? (v : Json) : Option Summary := do
  let [analysed, immutable, effectively, not, couldNot, errors] ← v.members?
    ["analysed", "immutable", "effectively_immutable", "not_immutable", "could_not_analyse",
      "errors"] | none
  let analysed ← Json.required? Json.count? analysed
  let immutable ← Json.required? Json.count? immutable
  let effectivelyImmutable ← Json.required? Json.count? effectively
  let notImmutable ← Json.required? Json.count? not
  let couldNotAnalyse ← Json.required? Json.count? couldNot
  let errors ← Json.required? Json.count? errors
  return { analysed, immutable, effectivelyImmutable, notImmutable, couldNotAnalyse, errors }

end Summary

/-- The version of the program that writes reports. -/
def version : String := "0.1.0"

/-- The assessments that are shown, and the summary of all. -/
structure Report where
  version : String
  classpath : List String
  results : List Assessment
  errors : List CheckFailure
  summary : Summary
  deriving DecidableEq, Repr

namespace Report

/-- The report on the given assessments. -/
def ofResults (classpath : List String) (mode : ReportMode) (results : List Assessment)
    (errors : List CheckFailure) : Report where
  version := Immutability.version
  classpath := classpath
  results := results.filter mode.includes
  errors := errors
  summary := .ofResults results errors

/-! ### JSON -/

/-- An empty list of errors is not written. -/
def toJson (r : Report) : Json :=
  .obj ([("version", .str r.version), ("classpath", .arr (r.classpath.map Json.str)),
      ("results", .arr (r.results.map Assessment.toJson))] ++
    (if r.errors.isEmpty then [] else [("errors", .arr (r.errors.map CheckFailure.toJson))]) ++
    [("summary", r.summary.toJson)])

def ofJson? (v : Json) : Option Report := do
  let [version, classpath, results, errors, summary] ← v.members?
    ["version", "classpath", "results", "errors", "summary"] | none
  let version ← Json.required? Json.string? version
  let classpath ← Json.required? (Json.list? Json.string?) classpath
  let results ← Json.required? (Json.list? Assessment.ofJson?) results
  let errors ← Json.withDefault? [] (Json.list? CheckFailure.ofJson?) errors
  let summary ← Json.required? Summary.ofJson? summary
  return { version, classpath, results, errors, summary }

/-- The JSON text of a report, which ends its last line. -/
def text (r : Report) : String := r.toJson.pretty 0 ++ "\n"

/-! ### For people -/

open Text (Style)

def bold : Style := { bold := true }
def dimmed : Style := { dimmed := true }
def red : Style := { colour := some .red }
def green : Style := { colour := some .green }
def yellow : Style := { colour := some .yellow }
def blue : Style := { colour := some .blue }

/-- The style of a verdict. -/
def verdictStyle : Verdict → Style
  | .immutable => green
  | .effectivelyImmutable => { green with dimmed := true }
  | .notImmutable => red
  | .couldNotAnalyse => yellow

/-- A finding takes two lines. -/
def prettyFinding (colours : Bool) (f : Finding) : String :=
  "      " ++ dimmed.paintWide colours 34 f.reason.keyword ++
    blue.paint colours f.location.display ++ "\n        " ++ f.message ++ "\n"

/-- The verdict and the class, followed by the findings and an empty line if there are any. -/
def prettyResult (colours : Bool) (a : Assessment) : String :=
  "  " ++ (verdictStyle a.verdict).paintWide colours 22 a.verdict.keyword ++ " " ++
    bold.paint colours a.className.text ++ "\n" ++
    String.join (a.findings.map (prettyFinding colours)) ++
    (if a.findings.isEmpty then "" else "\n")

/-- A failure takes one line. -/
def prettyFailure (colours : Bool) (f : CheckFailure) : String :=
  "    " ++ blue.paint colours f.className.text ++ " " ++
    dimmed.paint colours ("[" ++ f.checker ++ "]") ++ " " ++ f.description ++ "\n"

/-- The failures, if there are any, under a heading. -/
def prettyFailures (colours : Bool) (errors : List CheckFailure) : String :=
  if errors.isEmpty then ""
  else
    "  " ++ bold.paint colours "Analysis errors" ++ s!" ({errors.length}):\n" ++
      String.join (errors.map (prettyFailure colours)) ++ "\n"

/-- A count with its name. -/
def prettyCount (name : String) (n : Nat) : String :=
  "    " ++ Text.padRight 24 name ++ Text.padLeft 5 (toString n) ++ "\n"

/-- The counts, and whether every class may be used as a value. -/
def prettySummary (colours : Bool) (s : Summary) : String :=
  "\n  " ++ bold.paint colours "Summary:" ++ "\n" ++ prettyCount "analysed" s.analysed ++
    prettyCount "immutable" s.immutable ++
    prettyCount "effectively immutable" s.effectivelyImmutable ++
    prettyCount "not immutable" s.notImmutable ++
    prettyCount "could not analyse" s.couldNotAnalyse ++
    (if s.errors = 0 then "" else prettyCount "errors" s.errors) ++ "\n  " ++
    (if s.passed then green.paint colours "✓ PASS" else red.paint colours "✗ FAIL") ++ "\n"

/-- The report for people, with or without the summary. -/
def pretty (r : Report) (colours withSummary : Bool) : String :=
  "\n  " ++ Style.paint { bold := true, colour := some .cyan } colours "mutcheck" ++
    " v" ++ r.version ++ "\n\n  " ++ dimmed.paint colours "Classpath: " ++
    ", ".intercalate r.classpath ++ "\n\n" ++
    String.join (r.results.map (prettyResult colours)) ++ prettyFailures colours r.errors ++
    (if withSummary then prettySummary colours r.summary else "")

end Report

end Immutability
