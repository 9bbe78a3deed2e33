import Immutability.CommandLine.Invocation
import Immutability.Text.Style

/-!
# Templates

Configuration files to start from.

* `Template` is a file with its name and description;
* `Template.all` are the templates, `Template.named?` finds one and `Template.listing` lists them.
-/

namespace Immutability.CommandLine

/-- A configuration file to start from. -/
structure Template where
  name : String
  description : String
  lines : List String
  deriving DecidableEq, Repr

namespace Template

/-- The text of the file. -/
def text (t : Template) : String := String.join (t.lines.map (· ++ "\n"))

def minimal : Template where
  name := "minimal"
  description := "JDK preset, carry on past unreadable classes"
  lines := [
    "# mutcheck configuration",
    "#",
    "# Classes not on the classpath cannot be analysed. Hardcode a result for",
    "# them here, or load a preset that already knows them.",
    "",
    "exception_policy: carry_on",
    "",
    "presets:",
    "  - jdk",
    "",
    "hardcoded: []",
    "#  - class: com.example.Money",
    "#    result: immutable",
    "#  - class: com.example.Registry",
    "#    result: not_immutable",
    "#    reason: mutable_type_to_field",
    "#    message: \"Backed by a concurrent map\""]

def guava : Template where
  name := "guava"
  description := "JDK and Guava presets with Guava collection idioms"
  lines := [
    "# mutcheck configuration for code using Guava's immutable collections.",
    "#",
    "# Values returned by ImmutableList.copyOf and friends are typed as Guava's",
    "# immutable collections, which the guava preset already knows about.",
    "",
    "exception_policy: carry_on",
    "",
    "presets:",
    "  - jdk",
    "  - guava",
    "",
    "collection_idioms:",
    "  - field_type: java.util.NavigableSet",
    "    copy_methods:",
    "      - java.util.TreeSet.<init>",
    "    wrap_methods:",
    "      - java.util.Collections.unmodifiableNavigableSet",
    "  - field_type: java.util.NavigableMap",
    "    copy_methods:",
    "      - java.util.TreeMap.<init>",
    "    wrap_methods:",
    "      - java.util.Collections.unmodifiableNavigableMap"]

def strict : Template where
  name := "strict"
  description := "Fail fast, no presets: every dependency must be on the classpath"
  lines := [
    "# Strict mutcheck configuration: no presets, stop at the first class that",
    "# cannot be analysed.",
    "",
    "exception_policy: fail_fast",
    "",
    "presets: []",
    "",
    "hardcoded:",
    "  - class: java.lang.Object",
    "    result: immutable",
    "  - class: java.lang.String",
    "    result: immutable"]

def all : List Template := [minimal, guava, strict]

/-- The template with this name. -/
def named? (name : String) : Option Template := all.find? (·.name == name)

/-- One template on a line; a star marks the one that is used if none is given. -/
def listing : String :=
  String.join (all.map fun t =>
    (if t.name == defaultTemplate then "*" else " ") ++ " " ++ Text.padRight 8 t.name ++ " " ++
      t.description ++ "\n")

end Template

end Immutability.CommandLine
