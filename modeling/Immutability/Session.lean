import Immutability.Check.All
import Immutability.Source

/-!
# Sessions

A session serves a series of requests for the verdicts of classes. It remembers every verdict, so
that a class is analysed at most once, and it follows the path of the classes that wait for each
other, so that classes which refer to each other come to an end.

* `Session` is what a session remembers; `Session.cached?` looks up a verdict;
* `Abort` is the end of a request under the policy `failFast`;
* `Analyser` joins a source with a configuration, and `Analyser.runChecks` makes all checks of a
  class;
* `Analyser.assess` analyses a class that has not been analysed yet, and `Analyser.resolve` answers
  a check that asks about a class;
* `Analyser.analyse` and `Analyser.analyseAll` serve requests.

The recursion of `assess` ends because the path holds distinct readable classes, of which a source
has finitely many.
-/

namespace Immutability

/-- The end of a request at the first failure. -/
structure Abort where
  className : ClassName
  checker : String
  description : String
  /-- The classes that were analysed before, in the order of their completion. -/
  analysed : List ClassName
  deriving DecidableEq, Repr

/-- The wording of an abort. -/
def Abort.message (a : Abort) : String :=
  s!"analysis of {a.className} aborted in {a.checker}: {a.description}"

/-- What a session remembers. -/
structure Session where
  /-- The verdicts found so far, in the order in which they were completed. -/
  ledger : List (ClassName × Assessment)
  /-- The failures recorded so far. -/
  failures : List CheckFailure
  /-- The classes asked of the source so far, the last one first. -/
  reads : List ClassName

namespace Session

/-- A session that has served no request. -/
def empty : Session := ⟨[], [], []⟩

/-- The classes analysed so far, in the order of their completion. -/
def analysed (s : Session) : List ClassName := s.ledger.map (·.1)

/-- A verdict found earlier. -/
def cached? (s : Session) (name : ClassName) : Option Assessment := s.ledger.lookup name

/-- The session with one more verdict, on a class that has none yet. -/
def store (s : Session) (name : ClassName) (a : Assessment) : Session :=
  { s with ledger := s.ledger ++ [(name, a)] }

/-- The session with more failures. -/
def record (s : Session) (failures : List CheckFailure) : Session :=
  { s with failures := s.failures ++ failures }

/-- The session with one more question to the source. -/
def noteRead (s : Session) (name : ClassName) : Session := { s with reads := name :: s.reads }

end Session

/-- Work in a session, which may be aborted. What the session has learnt by then is kept. -/
abbrev Analysis := ExceptT Abort (StateM Session)

/-- What all checks together have found out about a class. -/
structure Outcome where
  findings : List Finding
  failures : List CheckFailure

namespace Outcome

/-- Nothing yet. -/
def empty : Outcome := ⟨[], []⟩

/-- The outcome with more findings, none of them twice. -/
def add (o : Outcome) (findings : List Finding) : Outcome :=
  { o with
    findings := findings.foldl (fun all f => if f ∈ all then all else all ++ [f]) o.findings }

/-- The outcome with one more failure. -/
def fail (o : Outcome) (f : CheckFailure) : Outcome := { o with failures := o.failures ++ [f] }

end Outcome

/-- The name under which a class that cannot be read is reported. -/
def classReader : String := "class_reader"

/-- The source and the configuration of a session. -/
structure Analyser where
  source : ClassSource
  config : Configuration

namespace Analyser

/-- End the request. -/
def abort {α : Type} (name : ClassName) (checker description : String) : Analysis α := do
  throw ⟨name, checker, description, (← get).analysed⟩

/-- Read a class. -/
def read (an : Analyser) (name : ClassName) : Analysis (Except ReadError ClassFacts) := do
  modify (·.noteRead name)
  return an.source.read name

/-- Read a class on behalf of a check, which does not care why it cannot be read. -/
def factsOf (an : Analyser) (name : ClassName) : Analysis (Option ClassFacts) :=
  return (← an.read name).toOption

/-- Make one check of a class, with the outcome of those before it. -/
def runCheck (an : Analyser) (path : AnalysisPath) (facts : ClassFacts)
    (resolve : ClassName → Analysis Dependency) (o : Outcome) (check : Check) :
    Analysis Outcome := do
  match ← (check.examine ⟨an.config, path⟩ facts).run.run an.factsOf resolve with
  | .ok findings => return o.add findings
  | .error e =>
    match an.config.policy with
    | .failFast => abort facts.name check.name e.message
    | .carryOn => return o.fail ⟨facts.name, check.name, e.message⟩

/-- Make the given checks of a class, one after the other. -/
def runChecks (an : Analyser) (path : AnalysisPath) (facts : ClassFacts)
    (resolve : ClassName → Analysis Dependency) (checks : List Check) : Analysis Outcome :=
  checks.foldlM (an.runCheck path facts resolve) .empty

/-- The verdict on a class whose facts are known; the path ends with the class. -/
def judge (an : Analyser) (path : AnalysisPath) (name : ClassName) (facts : ClassFacts)
    (resolve : ClassName → Analysis Dependency) : Analysis Assessment := do
  let o ← an.runChecks path facts resolve Check.all
  modify (·.record o.failures)
  let a := Assessment.conclude name o.findings o.failures
  modify (·.store name a)
  return a

/-- The verdict on a class that cannot be read. -/
def judgeUnreadable (an : Analyser) (name : ClassName) (e : ReadError) : Analysis Assessment := do
  match an.config.policy with
  | .failFast => abort name classReader e.message
  | .carryOn =>
    modify (·.record [⟨name, classReader, e.message⟩])
    let a := Assessment.couldNotAnalyse name e.message
    modify (·.store name a)
    return a

/-- Answer a check that asks about a class: from the configuration, from the session, or by
analysing the class, unless it is on the path. -/
def resolveWith (an : Analyser) (path : AnalysisPath) (name : ClassName)
    (assess : name ∉ path → Analysis Assessment) : Analysis Dependency := do
  match an.config.hardcoded? name with
  | some a => return .resolved a
  | none =>
    match (← get).cached? name with
    | some a => return .resolved a
    | none => if h : name ∈ path then return .cyclic else return .resolved (← assess h)

/-- Analyse a class on behalf of the last class of the path. -/
def assess (an : Analyser) (path : AnalysisPath) (name : ClassName) (fresh : name ∉ path) :
    Analysis Assessment := do
  modify (·.noteRead name)
  match h : an.source.read name with
  | .error e => an.judgeUnreadable name e
  | .ok facts =>
    have := ClassSource.unread_append_lt h fresh
    an.judge (path ++ [name]) name facts fun other =>
      an.resolveWith (path ++ [name]) other fun fresh => assess an (path ++ [name]) other fresh
termination_by an.source.unread path

/-- Answer a check that asks about a class. -/
def resolve (an : Analyser) (path : AnalysisPath) (name : ClassName) : Analysis Dependency :=
  an.resolveWith path name (an.assess path name)

/-- The verdict on a class. -/
def analyse (an : Analyser) (name : ClassName) : Analysis Assessment := do
  match an.config.hardcoded? name with
  | some a => return a
  | none =>
    match (← get).cached? name with
    | some a => return a
    | none => an.assess [] name (by simp)

/-- The verdicts on several classes, one after the other, up to the first abort. -/
def analyseAll (an : Analyser) (names : List ClassName) : Analysis (List Assessment) :=
  names.mapM an.analyse

end Analyser

end Immutability
