/-!
# YAML

* `Yaml` is a value of a YAML document: scalars, sequences, mappings, and references to values that
  have been named before;
* `Yaml.Anchors` are the named values;
* `Yaml.text?`, `Yaml.members?` and the functions between them read the values of known shapes.
-/

namespace Immutability

/-- How a scalar is written: without quotes, in quotes, or as a block of lines. -/
inductive ScalarStyle where
  | plain
  | quoted
  | literal
  | folded
  deriving DecidableEq, Repr

/-- A YAML value. The empty plain scalar stands for a missing value. A scalar may have a tag in
front; those of collections do not matter. -/
inductive Yaml where
  | scalar (style : ScalarStyle) (tag : Option String) (text : String)
  | sequence (items : List Yaml)
  | mapping (members : List (Yaml × Yaml))
  | reference (anchor : Nat)
  deriving Inhabited

namespace Yaml

/-- The values that aliases stand for. -/
abbrev Anchors := List (Nat × Yaml)

/-- The value that an alias stands for; any other value stands for itself. -/
def Anchors.resolve? (a : Anchors) : Yaml → Option Yaml
  | reference anchor => a.lookup anchor
  | v => some v

/-- A value that is not there. -/
def missing : Yaml := scalar .plain none ""

/-- The tag of the value that stands for none. -/
def nullTag : String := "tag:yaml.org,2002:null"

/-- The tag of truth values. -/
def boolTag : String := "tag:yaml.org,2002:bool"

/-- Whether a word stands for none. -/
def isNullWord (word : String) : Bool := ["~", "null", "Null", "NULL"].contains word

/-- The text of a scalar. -/
def text? (a : Anchors) (v : Yaml) : Option String :=
  match a.resolve? v with
  | some (scalar _ _ s) => some s
  | _ => none

/-- The name in a tag of its own, which starts with an exclamation mark. -/
def localName? (tag : String) : Option String :=
  match tag.toList with
  | '!' :: name => some (String.ofList name)
  | _ => none

/-- A keyword: the text of a scalar, or the tag of a missing value. -/
def keyword? (a : Anchors) (v : Yaml) : Option String :=
  match a.resolve? v with
  | some (scalar style tag s) =>
    match tag.bind localName? with
    | none => some s
    | some name => if style = .plain && (s.isEmpty || isNullWord s) then some name else none
  | _ => none

/-- A truth value. -/
def bool? (a : Anchors) (v : Yaml) : Option Bool :=
  match a.resolve? v with
  | some (scalar style tag s) =>
    if style = .plain || (style = .literal && tag = some boolTag) then
      if ["true", "True", "TRUE"].contains s then some true
      else if ["false", "False", "FALSE"].contains s then some false
      else none
    else none
  | _ => none

/-- A list of values that all have the same shape; a missing value is an empty list. -/
def list? {α : Type} (item? : Anchors → Yaml → Option α) (a : Anchors) (v : Yaml) :
    Option (List α) :=
  match a.resolve? v with
  | some (sequence items) => items.mapM (item? a)
  | some (scalar .plain _ "") => some []
  | _ => none

/-- An optional value. The tag of none allows for nothing else. -/
def optional? {α : Type} (item? : Anchors → Yaml → Option α) (a : Anchors) (v : Yaml) :
    Option (Option α) :=
  match a.resolve? v with
  | some (scalar .plain none s) =>
    if s.isEmpty || isNullWord s then some none else (item? a v).map some
  | some (scalar .plain (some tag) s) =>
    if tag = nullTag then (if isNullWord s then some none else none) else (item? a v).map some
  | _ => (item? a v).map some

/-- The values of the given keys, none of which may occur twice, in the order of the keys. Other
keys do not count; a missing value has none of the keys. -/
def members? (keys : List String) (a : Anchors) (v : Yaml) : Option (List (Option Yaml)) :=
  match a.resolve? v with
  | some (mapping members) => do
    let members ← members.mapM fun m => (m.1.text? a).map (·, m.2)
    if keys.all fun key => members.countP (·.1 == key) ≤ 1 then
      some (keys.map fun key => members.lookup key)
    else none
  | some (scalar .plain _ "") => some (keys.map fun _ => none)
  | _ => none

/-- The value of a member that must be there. -/
def required? {α : Type} (item? : Anchors → Yaml → Option α) (a : Anchors)
    (member : Option Yaml) : Option α :=
  member.bind (item? a)

/-- The value of a member that may be left out. -/
def withDefault? {α : Type} (default : α) (item? : Anchors → Yaml → Option α) (a : Anchors)
    (member : Option Yaml) : Option α :=
  match member with
  | none => some default
  | some v => item? a v

end Yaml

end Immutability
