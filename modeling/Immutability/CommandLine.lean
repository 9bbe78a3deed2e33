import Immutability.ClassList
import Immutability.Classpath
import Immutability.CommandLine.Template
import Immutability.Configuration.Document
import Immutability.Pattern.Parse
import Immutability.Report
import Immutability.Session

/-!
# Running a command

A command sees the files as a tree and answers with an outcome.

* `Problem` and `Failure` are the ways in which a command ends early;
* `Outcome` is what a command prints, its exit code and the file it writes;
* `check` and `init` run the two commands, and `run` runs either.
-/

namespace Immutability.CommandLine

/-- A mistake that a command reports. -/
inductive Problem where
  | format (word : String)
  | report (word : String)
  | configuration (cause : DocumentError)
  | aborted (cause : Abort)
  | template (name : String)
  | outputExists (path : String)

/-- The wording of a mistake. -/
def Problem.message : Problem → String
  | format word => s!"Error: invalid format {Text.quote word}, must be 'pretty' or 'json'"
  | report word => s!"Error: {ReportMode.unknown word}"
  | configuration cause => s!"Error: invalid configuration: {cause.message}"
  | aborted cause => s!"Error: {cause.message}"
  | template name =>
    let known := ", ".intercalate (Template.all.map (·.name))
    s!"Unknown template {Text.quote name}; choose one of {known}"
  | outputExists path => s!"{path} already exists, not overwriting it"

/-- A reason that keeps a command from its work. -/
inductive Failure where
  | classpath (cause : ClasspathError)
  | classList (path : String)
  | pattern (text : String)
  | write (cause : WriteError)
  deriving DecidableEq, Repr

/-- The wording of a failure. -/
def Failure.message : Failure → String
  | classpath cause => cause.message
  | classList path => s!"failed to read class list {path}"
  | pattern text => s!"invalid --match pattern {Text.quote text}"
  | write cause => cause.message

/-- How a command ends early. -/
inductive Stop where
  | problem (p : Problem)
  | failure (f : Failure)

/-- A text and the path of the file it is written to. -/
structure Written where
  path : String
  text : String
  deriving DecidableEq, Repr

/-- What a command does. What it writes is an attempt if it fails. -/
structure Outcome where
  exitCode : Nat
  output : String := ""
  errors : String := ""
  failure : Option Failure := none
  written : Option Written := none

/-- The outcome of a command that ends early. -/
def Stop.outcome : Stop → Outcome
  | problem p => { exitCode := 2, errors := p.message ++ "\n" }
  | failure f => { exitCode := 2, failure := some f }

/-! ### Analysing classes -/

/-- The configuration file that is used if none is given. -/
def discover? (t : FileTree) : Option String :=
  (configurationNames.map ("./" ++ ·)).find? fun path => (t.file? path).isSome

/-- The settings in the file at a path. -/
def readSettings (t : FileTree) (path : String) : Except DocumentError Settings :=
  match (t.file? path).bind FileContent.text? with
  | some text => Settings.parse path text
  | none => .error (.unreadable path)

/-- The configuration of an analysis: that of the configuration file, the presets on top, and the
policy last. Without file and presets, the standard library is known. -/
def configuration (t : FileTree) (o : CheckOptions) : Except DocumentError Configuration := do
  let path := match o.config with
    | some path => some path
    | none => discover? t
  let settings ← match path with
    | some path => readSettings t path
    | none => pure .empty
  let c ← (settings.apply .default).mapError .invalid
  let c ← o.presets.foldlM
    (fun c word => return c.merge (← (Settings.preset word).mapError .invalid)) c
  let c := if path.isNone && o.presets.isEmpty then c.merge .jdk else c
  return if o.failFast then { c with policy := .failFast } else c

/-- The classes listed in the file at a path. -/
def listedClasses (t : FileTree) : Option String → Except Failure (List ClassName)
  | none => .ok []
  | some path =>
    match (t.file? path).bind FileContent.text? with
    | some text => .ok (classList text)
    | none => .error (.classList path)

/-- The classes to analyse: those asked for, or all of the classpath, as far as they match. -/
def selectClasses (t : FileTree) (o : CheckOptions) (source : ClassSource) :
    Except Failure (List ClassName) := do
  let named := o.classes.map ClassName.ofString ++ (← listedClasses t o.classList)
  let candidates := if named.isEmpty then source.classes else named
  match o.pattern with
  | none => return ClassName.sortDistinct candidates
  | some text =>
    match Pattern.parse? text with
    | none => throw (.pattern text)
    | some p => return ClassName.sortDistinct (candidates.filter fun n => p.isMatch n.text)

/-- The outcome of an analysis. -/
def reportOutcome (colours : Bool) (o : CheckOptions) (mode : ReportMode)
    (results : List Assessment) (errors : List CheckFailure) : Outcome :=
  let report := Report.ofResults o.classpath mode results errors
  { exitCode := if report.summary.passed then 0 else 1
    output := if o.format = "json" then report.text else report.pretty colours o.summary }

/-- Analyse classes and report on them. -/
def checkClasses (colours : Bool) (t : FileTree) (o : CheckOptions) : Except Stop Outcome := do
  if o.format ≠ "pretty" && o.format ≠ "json" then throw (.problem (.format o.format))
  let some mode := ReportMode.parse? o.report | throw (.problem (.report o.report))
  let config ← (configuration t o).mapError fun e => .problem (.configuration e)
  let classpath ← (Classpath.ofPaths t o.classpath).mapError fun e => .failure (.classpath e)
  let source := classpath.source
  let classes ← (selectClasses t o source).mapError .failure
  if classes.isEmpty then
    return { exitCode := 0, errors := "Warning: no classes to analyse\n" }
  match ((Analyser.mk source config).analyseAll classes).run.run .empty with
  | (.ok results, session) => return reportOutcome colours o mode results session.failures
  | (.error abort, _) => throw (.problem (.aborted abort))

def check (colours : Bool) (t : FileTree) (o : CheckOptions) : Outcome :=
  match checkClasses colours t o with
  | .ok outcome => outcome
  | .error stop => stop.outcome

/-! ### Writing a configuration file -/

/-- Write a template. A file that exists is left alone. -/
def writeTemplate (t : FileTree) (o : InitOptions) : Except Stop Outcome := do
  if o.list then return { exitCode := 0, output := Template.listing }
  let some template := Template.named? o.template | throw (.problem (.template o.template))
  if t.contains o.output then throw (.problem (.outputExists o.output))
  let written := some ⟨o.output, template.text⟩
  match (t.write o.output template.text).2 with
  | .error e => return { exitCode := 2, failure := some (.write e), written }
  | .ok () =>
    return {
      exitCode := 0
      output := s!"Wrote {o.output} from the {template.name} template.\n" ++
        s!"Use it with: mutcheck check --classpath <dir-or-jar> --config {o.output}\n"
      written }

def init (t : FileTree) (o : InitOptions) : Outcome :=
  match writeTemplate t o with
  | .ok outcome => outcome
  | .error stop => stop.outcome

/-- Run a command on the files of a tree, and print with or without colours. -/
def run (colours : Bool) (t : FileTree) : Command → Outcome
  | .check o => check colours t o
  | .init o => init t o

/-- The files after a command has been run. -/
def Outcome.files (r : Outcome) (t : FileTree) : FileTree :=
  match r.written with
  | none => t
  | some w => (t.write w.path w.text).1

end Immutability.CommandLine
