import Immutability.Json
import Immutability.Verdict

/-!
# Assessments as JSON

Findings, assessments and failures in the notation of reports: each type has a writer `toJson` and
a reader `ofJson?`.
-/

namespace Immutability

/-- A class name is written in its dotted form. -/
def ClassName.toJson (n : ClassName) : Json := .str n.text

/-- Any spelling of a class name can be read. -/
def ClassName.ofJson? (v : Json) : Option ClassName := v.string?.map .ofString

namespace Location

/-- A location is written as an object that starts with its kind. -/
def toJson : Location → Json
  | cls name => .obj [("kind", .str "class"), ("class", name.toJson)]
  | field c name => .obj [("kind", .str "field"), ("class", c.toJson), ("field", .str name)]
  | method c name descriptor instruction =>
    .obj ([("kind", .str "method"), ("class", c.toJson), ("method", .str name),
        ("descriptor", .str descriptor)] ++
      match instruction with
      | some i => [("instruction", .num i)]
      | none => [])

/-- A location is read from an object, or from a list that starts with the kind. -/
def ofJson? (v : Json) : Option Location := do
  let (kind, details) ← match v with
    | .obj members => (Json.lookups? ["kind"] members).map fun found => (found.head?.join, v)
    | .arr (kind :: rest) => some (some kind, .arr rest)
    | _ => none
  match ← Json.required? Json.string? kind with
  | "class" =>
    let [owner] ← details.members? ["class"] | none
    return cls (← Json.required? ClassName.ofJson? owner)
  | "field" =>
    let [owner, name] ← details.members? ["class", "field"] | none
    let owner ← Json.required? ClassName.ofJson? owner
    return field owner (← Json.required? Json.string? name)
  | "method" =>
    let [owner, name, descriptor, instruction] ←
      details.members? ["class", "method", "descriptor", "instruction"] | none
    let owner ← Json.required? ClassName.ofJson? owner
    let name ← Json.required? Json.string? name
    let descriptor ← Json.required? Json.string? descriptor
    let instruction ← Json.withDefault? none (Json.optional? Json.count?) instruction
    return method owner name descriptor instruction
  | _ => none

end Location

namespace Reason

def toJson (r : Reason) : Json := .str r.keyword

def ofJson? (v : Json) : Option Reason := v.keyword?.bind ofKeyword?

end Reason

namespace Finding

def toJson (f : Finding) : Json :=
  .obj [("message", .str f.message), ("location", f.location.toJson), ("reason", f.reason.toJson)]

def ofJson? (v : Json) : Option Finding := do
  let [message, location, reason] ← v.members? ["message", "location", "reason"] | none
  let message ← Json.required? Json.string? message
  let location ← Json.required? Location.ofJson? location
  let reason ← Json.required? Reason.ofJson? reason
  return { reason, location, message }

end Finding

namespace Verdict

def toJson (v : Verdict) : Json := .str v.keyword

def ofJson? (v : Json) : Option Verdict := v.keyword?.bind ofKeyword?

end Verdict

namespace Assessment

def toJson (a : Assessment) : Json :=
  .obj [("class_name", a.className.toJson), ("is_immutable", a.verdict.toJson),
    ("reasons", .arr (a.findings.map Finding.toJson))]

def ofJson? (v : Json) : Option Assessment := do
  let [name, verdict, findings] ← v.members? ["class_name", "is_immutable", "reasons"] | none
  let className ← Json.required? ClassName.ofJson? name
  let verdict ← Json.required? Verdict.ofJson? verdict
  let findings ← Json.required? (Json.list? Finding.ofJson?) findings
  return { className, verdict, findings }

end Assessment

namespace CheckFailure

def toJson (f : CheckFailure) : Json :=
  .obj [("class_name", f.className.toJson), ("checker_name", .str f.checker),
    ("description", .str f.description)]

def ofJson? (v : Json) : Option CheckFailure := do
  let [name, checker, description] ←
    v.members? ["class_name", "checker_name", "description"] | none
  let className ← Json.required? ClassName.ofJson? name
  let checker ← Json.required? Json.string? checker
  let description ← Json.required? Json.string? description
  return { className, checker, description }

end CheckFailure

end Immutability
