import Immutability.Finding

/-!
# Verdicts

* `Verdict` is the answer for a class, `Assessment` the answer with the findings behind it, and
  `CheckFailure` the record of a check that could not be made;
* `Verdict.ofFindings` draws the verdict from the findings, and `Assessment.conclude` draws an
  assessment from findings and failures;
* `Dependency` is what a class learns about another one, and `Dependency.reasonFor` the reason it
  gives to doubt the class that depends on it.
-/

namespace Immutability

/-- The answer for a class. -/
inductive Verdict where
  | immutable
  | effectivelyImmutable
  | notImmutable
  | couldNotAnalyse
  deriving DecidableEq, Repr

namespace Verdict

/-- The word for a verdict in reports. -/
def keyword : Verdict → String
  | immutable => "IMMUTABLE"
  | effectivelyImmutable => "EFFECTIVELY_IMMUTABLE"
  | notImmutable => "NOT_IMMUTABLE"
  | couldNotAnalyse => "COULD_NOT_ANALYSE"

/-- The verdict with exactly this keyword. -/
def ofKeyword? : String → Option Verdict
  | "IMMUTABLE" => some immutable
  | "EFFECTIVELY_IMMUTABLE" => some effectivelyImmutable
  | "NOT_IMMUTABLE" => some notImmutable
  | "COULD_NOT_ANALYSE" => some couldNotAnalyse
  | _ => none

/-- The complaint about a word that names no verdict. -/
def unknown (word : String) : String := s!"unknown verdict: {word}"

/-- The verdict with this keyword or a synonym of it, whatever its case, with hyphens for
underscores if need be. -/
def parse? (word : String) : Option Verdict :=
  match Text.underscored (Text.upper (Text.trim word)) with
  | "MUTABLE" => some notImmutable
  | "COULD_NOT_ANALYZE" => some couldNotAnalyse
  | other => ofKeyword? other

/-- Whether a class with this verdict may be used as a value. -/
def isAcceptable : Verdict → Bool
  | immutable | effectivelyImmutable => true
  | notImmutable | couldNotAnalyse => false

/-- The verdict drawn from the findings of the checks, of which some may have failed. -/
def ofFindings (findings : List Finding) (failed : Bool) : Verdict :=
  if failed then couldNotAnalyse
  else if findings.isEmpty then immutable
  else if findings.all (·.reason.isSoft) then effectivelyImmutable
  else notImmutable

end Verdict

/-- The record of a check that could not be made. -/
structure CheckFailure where
  className : ClassName
  checker : String
  description : String
  deriving DecidableEq, Repr

/-- A failure as one line. -/
def CheckFailure.display (f : CheckFailure) : String :=
  s!"{f.className} [{f.checker}]: {f.description}"

/-- The verdict for a class and the findings behind it. -/
structure Assessment where
  className : ClassName
  verdict : Verdict
  findings : List Finding
  deriving DecidableEq, Repr

namespace Assessment

/-- The assessment of an immutable class. -/
def immutable (name : ClassName) : Assessment := ⟨name, .immutable, []⟩

/-- The message of a configured verdict that brings none of its own. -/
def hardcodedMessage : String := "Result hardcoded in configuration."

/-- A configured assessment. Every verdict but the best carries a finding that says so. -/
def hardcoded (name : ClassName) (verdict : Verdict) (message : Option String) : Assessment :=
  match verdict with
  | .immutable => immutable name
  | verdict => ⟨name, verdict, [⟨.hardcoded, .cls name, message.getD hardcodedMessage⟩]⟩

/-- The assessment drawn from the outcome of the checks. -/
def conclude (name : ClassName) (findings : List Finding) (failures : List CheckFailure) :
    Assessment :=
  let failed := failures.map fun f =>
    { reason := .cannotAnalyse, location := .cls name
      message := f.checker ++ " failed: " ++ f.description : Finding }
  let all := findings ++ failed
  ⟨name, .ofFindings all !failures.isEmpty, all⟩

/-- The assessment of a class that could not be read. -/
def couldNotAnalyse (name : ClassName) (description : String) : Assessment :=
  ⟨name, .couldNotAnalyse, [⟨.cannotAnalyse, .cls name, description⟩]⟩

/-- Whether some finding has the given reason. -/
def hasReason (a : Assessment) (r : Reason) : Bool := a.findings.any (·.reason == r)

/-- The findings with the given reason. -/
def findingsOf (a : Assessment) (r : Reason) : List Finding := a.findings.filter (·.reason == r)

/-- Whether two assessments say the same, whatever the order of their findings. -/
def agrees (a b : Assessment) : Bool :=
  a.className == b.className && a.verdict == b.verdict &&
    a.findings.all (b.findings.contains ·) && b.findings.all (a.findings.contains ·)

end Assessment

/-- What a class learns about another one: an assessment, or that the other class is itself waiting
for this one. -/
inductive Dependency where
  | resolved (assessment : Assessment)
  | cyclic
  deriving DecidableEq, Repr

/-- The reason that a dependency gives to doubt the class that depends on it; `hard` is the one for
a dependency that is known to be mutable. Of an effectively immutable dependency only the doubts
about its own dependencies are passed on. -/
def Dependency.reasonFor (d : Dependency) (hard : Reason) : Option Reason :=
  match d with
  | .cyclic => some .cyclicReference
  | .resolved a =>
    match a.verdict with
    | .immutable => none
    | .notImmutable => some hard
    | .effectivelyImmutable => [Reason.cyclicReference, .cannotAnalyse].find? a.hasReason
    | .couldNotAnalyse => some .cannotAnalyse

end Immutability
