import Immutability.Configuration
import Immutability.Json
import Immutability.Text.Quoted

/-!
# Settings

The contents of a configuration file, as written by its author.

* `Settings` and its entries hold the texts of the file;
* `HardcodedEntry.assessment` and `IdiomEntry.idiom` read these texts, and `SettingsError` says why
  one is refused;
* `Settings.validate` checks a whole file, and `Settings.apply` puts it on top of a configuration;
* `Settings.ofJson?` and `Settings.toJson` are the JSON form of a file.
-/

namespace Immutability

/-- A verdict for one class. -/
structure HardcodedEntry where
  cls : String
  result : String
  reason : Option String
  message : Option String
  deriving DecidableEq, Repr

/-- A collection idiom, with methods written `owner.name`. -/
structure IdiomEntry where
  fieldType : String
  copy : List String
  wrap : List String
  copyAndWrap : List String
  deriving DecidableEq, Repr

/-- The contents of a configuration file. -/
structure Settings where
  policy : Option Policy
  presets : List String
  hardcoded : List HardcodedEntry
  idioms : List IdiomEntry
  /-- Whether to drop the standard idioms. -/
  replaceDefaultIdioms : Bool
  deriving DecidableEq, Repr

/-- Why settings are refused. -/
inductive SettingsError where
  | unknownVerdict (word cls : String)
  | unknownReason (word cls : String)
  | reasonForImmutable (cls : String)
  | invalidMethod (text : String)
  | unknownPreset (word : String)
  | unlistedPreset (word : String)
  | emptyClass
  | repeatedClass (cls : String)
  | uselessIdiom (fieldType : String)
  deriving DecidableEq, Repr

/-- The wording of a refusal. -/
def SettingsError.message : SettingsError → String
  | unknownVerdict word cls => s!"{Verdict.unknown word} (class {cls})"
  | unknownReason word cls => s!"{Reason.unknown word} (class {cls})"
  | reasonForImmutable cls => s!"class {cls} is hardcoded immutable but lists a reason"
  | invalidMethod text => s!"invalid method {Text.quote text}, expected owner.name"
  | unknownPreset word => Preset.unknown word
  | unlistedPreset word =>
    let all := ", ".intercalate (Preset.all.map Preset.keyword)
    s!"unknown preset {Text.quote word}, expected one of: {all}"
  | emptyClass => "hardcoded entry with empty class name"
  | repeatedClass cls => s!"class {cls} is hardcoded more than once"
  | uselessIdiom fieldType =>
    s!"collection idiom for {fieldType} has neither wrap_methods nor copy_and_wrap_methods"

/-- The assessment that an entry describes. -/
def HardcodedEntry.assessment (e : HardcodedEntry) : Except SettingsError Assessment :=
  let name := ClassName.ofString e.cls
  let message := e.message.getD Assessment.hardcodedMessage
  match Verdict.parse? e.result with
  | none => .error (.unknownVerdict e.result e.cls)
  | some .immutable =>
    if e.reason.isSome then .error (.reasonForImmutable e.cls) else .ok (.immutable name)
  | some verdict =>
    match e.reason with
    | none => .ok ⟨name, verdict, [⟨.hardcoded, .cls name, message⟩]⟩
    | some word =>
      match Reason.parse? word with
      | none => .error (.unknownReason word e.cls)
      | some reason => .ok ⟨name, verdict, [⟨reason, .cls name, message⟩]⟩

/-- The idiom that an entry describes. -/
def IdiomEntry.idiom (e : IdiomEntry) : Except SettingsError Idiom := do
  let pattern := fun text =>
    match MethodPattern.parse? text with
    | some p => Except.ok p
    | none => Except.error (SettingsError.invalidMethod text)
  let copy ← e.copy.mapM pattern
  let wrap ← e.wrap.mapM pattern
  let copyAndWrap ← e.copyAndWrap.mapM pattern
  return ⟨.ofString e.fieldType, copy, wrap, copyAndWrap⟩

namespace Settings

/-- Settings that change nothing. -/
def empty : Settings := ⟨none, [], [], [], false⟩

/-- Every entry is well formed, and no class has two of them. -/
def validateHardcoded (seen : List ClassName) : List HardcodedEntry → Except SettingsError Unit
  | [] => .ok ()
  | e :: entries => do
    if (Text.trimChars e.cls.toList).isEmpty then throw .emptyClass
    let _ ← e.assessment
    let name := ClassName.ofString e.cls
    if name ∈ seen then throw (.repeatedClass e.cls)
    validateHardcoded (name :: seen) entries

/-- An idiom that wraps nothing is of no use. -/
def validateIdiom (e : IdiomEntry) : Except SettingsError Unit := do
  if e.wrap.isEmpty && e.copyAndWrap.isEmpty then throw (.uselessIdiom e.fieldType)
  let _ ← e.idiom
  return ()

/-- A preset has to be known. -/
def validatePreset (word : String) : Except SettingsError Unit :=
  if (Preset.parse? word).isNone then throw (.unlistedPreset word) else return ()

/-- Check presets, verdicts and idioms, in this order. -/
def validate (s : Settings) : Except SettingsError Unit := do
  s.presets.forM validatePreset
  validateHardcoded [] s.hardcoded
  s.idioms.forM validateIdiom

/-- The preset with the given name. -/
def preset (word : String) : Except SettingsError Preset :=
  match Preset.parse? word with
  | some p => .ok p
  | none => .error (.unknownPreset word)

/-- The configuration with these settings on top. Verdicts go in before the presets, which never
replace an entry. -/
def apply (s : Settings) (c : Configuration) : Except SettingsError Configuration := do
  let c := { c with policy := s.policy.getD c.policy }
  let c ← s.hardcoded.foldlM (fun c e => return c.hardcode (← e.assessment)) c
  let c ← s.presets.foldlM (fun c word => return c.merge (← preset word)) c
  let c := if s.replaceDefaultIdioms then { c with idioms := [] } else c
  s.idioms.foldlM (fun c e => return c.addIdiom (← e.idiom)) c

end Settings

/-! ### JSON form -/

/-- A policy is written as its keyword. -/
def Policy.ofJson? (v : Json) : Option Policy := v.keyword?.bind ofKeyword?

namespace HardcodedEntry

def ofJson? (v : Json) : Option HardcodedEntry := do
  let [cls, result, reason, message] ← v.members? ["class", "result", "reason", "message"] | none
  let cls ← Json.required? Json.string? cls
  let result ← Json.required? Json.string? result
  let reason ← Json.withDefault? none (Json.optional? Json.string?) reason
  let message ← Json.withDefault? none (Json.optional? Json.string?) message
  return { cls, result, reason, message }

def toJson (e : HardcodedEntry) : Json :=
  let optional := fun text : Option String => text.elim Json.null Json.str
  .obj [("class", .str e.cls), ("result", .str e.result), ("reason", optional e.reason),
    ("message", optional e.message)]

end HardcodedEntry

namespace IdiomEntry

def ofJson? (v : Json) : Option IdiomEntry := do
  let [fieldType, copy, wrap, copyAndWrap] ←
    v.members? ["field_type", "copy_methods", "wrap_methods", "copy_and_wrap_methods"] | none
  let fieldType ← Json.required? Json.string? fieldType
  let copy ← Json.withDefault? [] (Json.list? Json.string?) copy
  let wrap ← Json.withDefault? [] (Json.list? Json.string?) wrap
  let copyAndWrap ← Json.withDefault? [] (Json.list? Json.string?) copyAndWrap
  return { fieldType, copy, wrap, copyAndWrap }

def toJson (e : IdiomEntry) : Json :=
  let texts := fun items : List String => Json.arr (items.map .str)
  .obj [("field_type", .str e.fieldType), ("copy_methods", texts e.copy),
    ("wrap_methods", texts e.wrap), ("copy_and_wrap_methods", texts e.copyAndWrap)]

end IdiomEntry

namespace Settings

def ofJson? (v : Json) : Option Settings := do
  let [policy, presets, hardcoded, idioms, replace] ← v.members?
    ["exception_policy", "presets", "hardcoded", "collection_idioms", "replace_default_idioms"]
    | none
  let policy ← Json.withDefault? none (Json.optional? Policy.ofJson?) policy
  let presets ← Json.withDefault? [] (Json.list? Json.string?) presets
  let hardcoded ← Json.withDefault? [] (Json.list? HardcodedEntry.ofJson?) hardcoded
  let idioms ← Json.withDefault? [] (Json.list? IdiomEntry.ofJson?) idioms
  let replaceDefaultIdioms ← Json.withDefault? false Json.bool? replace
  return { policy, presets, hardcoded, idioms, replaceDefaultIdioms }

def toJson (s : Settings) : Json :=
  .obj [("exception_policy", s.policy.elim Json.null fun p => .str p.keyword),
    ("presets", .arr (s.presets.map .str)),
    ("hardcoded", .arr (s.hardcoded.map HardcodedEntry.toJson)),
    ("collection_idioms", .arr (s.idioms.map IdiomEntry.toJson)),
    ("replace_default_idioms", .bool s.replaceDefaultIdioms)]

end Settings

end Immutability
