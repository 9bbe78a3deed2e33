import Immutability.Configuration.Preset
import Immutability.Idiom
import Immutability.Verdict

/-!
# Configurations

* `Policy` says what a failed check means for the whole request;
* `Configuration` holds the verdicts that are given rather than found, the policy, and the
  collection idioms;
* `Configuration.hardcode`, `merge` and `addIdiom` extend a configuration, and keep at most one
  verdict per class and one idiom per field type.
-/

namespace Immutability

/-- What to do when a check fails. -/
inductive Policy where
  /-- Abort the whole request. -/
  | failFast
  /-- Record the failure and go on. -/
  | carryOn
  deriving DecidableEq, Repr

/-- The word for a policy in configuration files. -/
def Policy.keyword : Policy → String
  | failFast => "fail_fast"
  | carryOn => "carry_on"

/-- The policy with exactly this keyword. -/
def Policy.ofKeyword? : String → Option Policy
  | "fail_fast" => some failFast
  | "carry_on" => some carryOn
  | _ => none

/-- Everything that steers an analysis. -/
structure Configuration where
  hardcoded : List Assessment
  policy : Policy
  idioms : List Idiom
  deriving DecidableEq, Repr

namespace Configuration

/-- No given verdicts, the standard idioms, and failures that are recorded. -/
def default : Configuration := ⟨[], .carryOn, Idiom.defaults⟩

/-- The verdict given for a class. -/
def hardcoded? (c : Configuration) (name : ClassName) : Option Assessment :=
  c.hardcoded.find? (·.className == name)

/-- The idiom for a field type. -/
def idiom? (c : Configuration) (fieldType : ClassName) : Option Idiom :=
  c.idioms.find? (·.fieldType == fieldType)

/-- The configuration with a given verdict, in place of any other for the same class. -/
def hardcode (c : Configuration) (a : Assessment) : Configuration :=
  { c with hardcoded := c.hardcoded.filter (·.className != a.className) ++ [a] }

/-- The configuration with a given verdict, unless there is one for the same class. -/
def hardcodeNew (c : Configuration) (a : Assessment) : Configuration :=
  match c.hardcoded? a.className with
  | some _ => c
  | none => { c with hardcoded := c.hardcoded ++ [a] }

/-- The verdict that a preset gives for a class it declares mutable. -/
def presetMutable (preset : Preset) (name : ClassName) : Assessment :=
  .hardcoded name .notImmutable
    (some s!"{name} is a known mutable type ({preset.keyword} preset)")

/-- The verdicts that a preset gives. -/
def presetAssessments (preset : Preset) : List Assessment :=
  preset.immutableClasses.map .immutable ++ preset.mutableClasses.map (presetMutable preset)

/-- The configuration with the verdicts of a preset for the classes that have none yet. -/
def merge (c : Configuration) (preset : Preset) : Configuration :=
  (presetAssessments preset).foldl hardcodeNew c

/-- The configuration with an idiom, in place of any other for the same field type. -/
def addIdiom (c : Configuration) (i : Idiom) : Configuration :=
  { c with idioms := c.idioms.filter (·.fieldType != i.fieldType) ++ [i] }

/-- The configuration used when none is given. -/
def outOfTheBox : Configuration := default.merge .jdk

end Configuration

end Immutability
