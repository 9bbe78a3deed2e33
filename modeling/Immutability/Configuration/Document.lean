import Immutability.Configuration.Settings
import Immutability.Yaml.Parse

/-!
# Configuration files

The YAML form of settings.

* `Settings.ofYaml?` reads settings from a document;
* `Settings.parse` reads and checks the text of a configuration file, and `DocumentError` says why
  it is refused;
* `configurationNames` are the names under which a configuration file is looked for.
-/

namespace Immutability

/-- A policy is written as its keyword. -/
def Policy.ofYaml? (a : Yaml.Anchors) (v : Yaml) : Option Policy :=
  (v.keyword? a).bind ofKeyword?

def HardcodedEntry.ofYaml? (a : Yaml.Anchors) (v : Yaml) : Option HardcodedEntry := do
  let [cls, result, reason, message] ←
    v.members? ["class", "result", "reason", "message"] a | none
  let cls ← Yaml.required? Yaml.text? a cls
  let result ← Yaml.required? Yaml.text? a result
  let reason ← Yaml.withDefault? none (Yaml.optional? Yaml.text?) a reason
  let message ← Yaml.withDefault? none (Yaml.optional? Yaml.text?) a message
  return { cls, result, reason, message }

def IdiomEntry.ofYaml? (a : Yaml.Anchors) (v : Yaml) : Option IdiomEntry := do
  let [fieldType, copy, wrap, copyAndWrap] ←
    v.members? ["field_type", "copy_methods", "wrap_methods", "copy_and_wrap_methods"] a | none
  let fieldType ← Yaml.required? Yaml.text? a fieldType
  let copy ← Yaml.withDefault? [] (Yaml.list? Yaml.text?) a copy
  let wrap ← Yaml.withDefault? [] (Yaml.list? Yaml.text?) a wrap
  let copyAndWrap ← Yaml.withDefault? [] (Yaml.list? Yaml.text?) a copyAndWrap
  return { fieldType, copy, wrap, copyAndWrap }

/-- Why a configuration file is refused. -/
inductive DocumentError where
  | unreadable (path : String)
  | unparsable (path : String)
  | invalid (cause : SettingsError)
  deriving DecidableEq, Repr

/-- The wording of a refusal. -/
def DocumentError.message : DocumentError → String
  | unreadable path => s!"failed to read {path}"
  | unparsable path => s!"failed to parse {path}"
  | invalid cause => cause.message

namespace Settings

def ofYaml? (a : Yaml.Anchors) (v : Yaml) : Option Settings := do
  let [policy, presets, hardcoded, idioms, replace] ← v.members?
    ["exception_policy", "presets", "hardcoded", "collection_idioms", "replace_default_idioms"] a
    | none
  let policy ← Yaml.withDefault? none (Yaml.optional? Policy.ofYaml?) a policy
  let presets ← Yaml.withDefault? [] (Yaml.list? Yaml.text?) a presets
  let hardcoded ← Yaml.withDefault? [] (Yaml.list? HardcodedEntry.ofYaml?) a hardcoded
  let idioms ← Yaml.withDefault? [] (Yaml.list? IdiomEntry.ofYaml?) a idioms
  let replaceDefaultIdioms ← Yaml.withDefault? false Yaml.bool? a replace
  return { policy, presets, hardcoded, idioms, replaceDefaultIdioms }

/-- The valid settings in the text of the file at the given path. -/
def parse (path text : String) : Except DocumentError Settings := do
  let some s := (Yaml.parse? text).bind fun (a, v) => ofYaml? a v | throw (.unparsable path)
  s.validate.mapError .invalid
  return s

end Settings

/-- The names under which a configuration file is looked for, in order. -/
def configurationNames : List String := ["mutcheck.yaml", ".mutcheck.yaml"]

end Immutability
