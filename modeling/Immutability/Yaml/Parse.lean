import Immutability.Yaml.Scan

/-!
# Reading YAML

* `Properties` are the anchor and the tag in front of a value;
* `node` reads a value, and the functions beside it the rest of a collection;
* `Yaml.parse?` reads the document of a text.
-/

namespace Immutability.Yaml

/-- A value with a name: the number that stands for the name, and how many have been named
before. -/
structure Anchored where
  anchor : Nat
  order : Nat
  value : Yaml

/-- The state of the parser: the tokens that are left, the numbers of the names, how many values
have been named, and those of them that have been read. -/
structure ParserState where
  tokens : List Token
  names : List (String × Nat)
  named : Nat
  values : List Anchored

/-- A step of the parser. -/
abbrev NodeParser := StateT ParserState Option

namespace NodeParser

/-- The next token. -/
def peek : NodeParser (Option Token) := return (← get).tokens.head?

/-- Move behind the next token. -/
def skip : NodeParser Unit := modify fun s => { s with tokens := s.tokens.tail }

/-- Move behind a token, if it is the next one. -/
def skipIf (t : Token) : NodeParser Bool := do
  if (← peek) = some t then
    skip
    return true
  return false

/-- Whether the next token is one of the given ones. -/
def isAt (ts : List Token) : NodeParser Bool := return (← peek).any ts.contains

end NodeParser

open NodeParser

/-! ### Anchors and tags -/

/-- The texts that the handles of tags stand for. -/
abbrev Handles := List (String × String)

/-- The handles that are always known. -/
def standardHandles : Handles := [("!", "!"), ("!!", "tag:yaml.org,2002:")]

/-- The tag with the given handle. -/
def fullTag? (handles : Handles) (handle suffix : String) : Option String :=
  if handle.isEmpty then some suffix else (handles.lookup handle).map (· ++ suffix)

/-- What may stand in front of a value. -/
structure Properties where
  anchor : Option String
  tag : Option String

/-- The anchor here, if there is one. -/
def anchorHere : NodeParser (Option String) := do
  match ← peek with
  | some (.anchor name) =>
    skip
    return some name
  | _ => return none

/-- The tag here, if there is one. -/
def tagHere (handles : Handles) : NodeParser (Option String) := do
  match ← peek with
  | some (.tag handle suffix) =>
    skip
    return some (← fullTag? handles handle suffix)
  | _ => return none

/-- The anchor and the tag here, in any order. -/
def properties (handles : Handles) : NodeParser Properties := do
  match ← anchorHere with
  | some name => return ⟨some name, ← tagHere handles⟩
  | none =>
    match ← tagHere handles with
    | some tag => return ⟨← anchorHere, some tag⟩
    | none => return ⟨none, none⟩

/-- Give a name to the value that starts here. A name that is used again gets the next number,
too. -/
def beginAnchor (name : String) : NodeParser (Nat × Nat) := do
  let s ← get
  let anchor := s.names.length
  let others := s.names.filter (·.1 != name)
  set { s with names := others ++ [(name, anchor)], named := s.named + 1 }
  return (anchor, s.named)

/-- Remember the value that has been given a name. -/
def endAnchor (anchor order : Nat) (value : Yaml) : NodeParser Unit :=
  modify fun s => { s with values := ⟨anchor, order, value⟩ :: s.values }

/-! ### Values -/

/-- A scalar, for which a mere exclamation mark is no tag. -/
def scalarWith (tag : Option String) (style : ScalarStyle) (text : String) : Yaml :=
  scalar style (if tag = some "!" then none else tag) text

mutual

/-- The value here. `inBlock` says whether it can be a block collection, and `isMember` whether it
is the key or the value of one, so that its items may be in the same column. -/
def node (handles : Handles) (inBlock isMember : Bool) : Nat → NodeParser Yaml
  | 0 => failure
  | fuel + 1 => do
    match ← peek with
    | some (.reference name) =>
      skip
      return .reference (← (← get).names.lookup name)
    | _ =>
      let p ← properties handles
      match p.anchor with
      | none => content handles p inBlock isMember fuel
      | some name =>
        let (anchor, order) ← beginAnchor name
        let value ← content handles p inBlock isMember fuel
        endAnchor anchor order value
        return value

/-- The value behind its anchor and tag; it can be missing only if there is one of them. -/
def content (handles : Handles) (p : Properties) (inBlock isMember : Bool) : Nat → NodeParser Yaml
  | 0 => failure
  | fuel + 1 => do
    match ← peek with
    | some (.scalar style text) =>
      skip
      return scalarWith p.tag style text
    | some .openSequence =>
      skip
      return .sequence (← flowItems handles true fuel)
    | some .openMapping =>
      skip
      return .mapping (← flowMembers handles true fuel)
    | t =>
      if t = some .item && isMember then return .sequence (← looseItems handles fuel)
      else if t = some .blockSequence && inBlock then
        skip
        return .sequence (← blockItems handles fuel)
      else if t = some .blockMapping && inBlock then
        skip
        return .mapping (← blockMembers handles fuel)
      else if p.anchor.isSome || p.tag.isSome then return .scalar .plain p.tag ""
      else failure

/-- The value here, unless one of the given tokens follows. -/
def nodeUnless (handles : Handles) (ends : List Token) (inBlock isMember : Bool) :
    Nat → NodeParser Yaml
  | 0 => failure
  | fuel + 1 => do
    if ← isAt ends then return missing
    node handles inBlock isMember fuel

/-- The rest of a block sequence. -/
def blockItems (handles : Handles) : Nat → NodeParser (List Yaml)
  | 0 => failure
  | fuel + 1 => do
    if ← skipIf .item then
      let item ← nodeUnless handles [.item, .blockEnd] true false fuel
      return item :: (← blockItems handles fuel)
    else if ← skipIf .blockEnd then return []
    else failure

/-- The rest of a sequence in the column of the mapping around it. -/
def looseItems (handles : Handles) : Nat → NodeParser (List Yaml)
  | 0 => failure
  | fuel + 1 => do
    if ← skipIf .item then
      let item ← nodeUnless handles [.item, .key, .value, .blockEnd] true false fuel
      return item :: (← looseItems handles fuel)
    else return []

/-- The rest of a block mapping. -/
def blockMembers (handles : Handles) : Nat → NodeParser (List (Yaml × Yaml))
  | 0 => failure
  | fuel + 1 => do
    if ← skipIf .key then
      let key ← nodeUnless handles [.key, .value, .blockEnd] true true fuel
      let value ←
        if ← skipIf .value then nodeUnless handles [.key, .value, .blockEnd] true true fuel
        else pure missing
      return (key, value) :: (← blockMembers handles fuel)
    else if ← skipIf .blockEnd then return []
    else failure

/-- The rest of a sequence in brackets. A key with its value is an item, too; if the key is missing,
the token in place of it is lost. -/
def flowItems (handles : Handles) (first : Bool) : Nat → NodeParser (List Yaml)
  | 0 => failure
  | fuel + 1 => do
    if ← skipIf .closeSequence then return []
    if !first then
      if !(← skipIf .comma) then failure
    if ← skipIf .closeSequence then return []
    if ← skipIf .key then
      let key ←
        if ← isAt [.value, .comma, .closeSequence] then do
          skip
          pure missing
        else node handles false false fuel
      let value ←
        if ← skipIf .value then nodeUnless handles [.comma, .closeSequence] false false fuel
        else pure missing
      return .mapping [(key, value)] :: (← flowItems handles false fuel)
    let item ← node handles false false fuel
    return item :: (← flowItems handles false fuel)

/-- The rest of a mapping in brackets. -/
def flowMembers (handles : Handles) (first : Bool) : Nat → NodeParser (List (Yaml × Yaml))
  | 0 => failure
  | fuel + 1 => do
    if ← skipIf .closeMapping then return []
    if !first then
      if !(← skipIf .comma) then failure
    if ← skipIf .closeMapping then return []
    if ← skipIf .key then
      let key ← nodeUnless handles [.value, .comma, .closeMapping] false false fuel
      let value ←
        if ← skipIf .value then nodeUnless handles [.comma, .closeMapping] false false fuel
        else pure missing
      return (key, value) :: (← flowMembers handles false fuel)
    let key ← node handles false false fuel
    return (key, missing) :: (← flowMembers handles false fuel)

end

/-! ### Documents -/

/-- The directives here, with the handles they explain. There is one version at most, and each
handle is explained once. -/
def directives (hasVersion : Bool) (handles : Handles) : Nat → NodeParser (Bool × Handles)
  | 0 => failure
  | fuel + 1 => do
    match ← peek with
    | some (.version major minor) =>
      if hasVersion || major ≠ 1 || (minor ≠ 1 && minor ≠ 2) then failure
      skip
      directives true handles fuel
    | some (.tagHandle handle lead) =>
      if (handles.lookup handle).isSome then failure
      skip
      directives hasVersion (handles ++ [(handle, lead)]) fuel
    | _ => return (hasVersion, handles)

/-- Move behind the ends of a document. -/
def skipEnds : Nat → NodeParser Unit
  | 0 => failure
  | fuel + 1 => do
    if ← skipIf .documentEnd then skipEnds fuel

/-- The only document of the tokens, which may be empty. -/
def document (fuel : Nat) : NodeParser Yaml := do
  if (← peek).isNone then return missing
  let (hasVersion, own) ← directives false [] fuel
  let handles := own ++ standardHandles
  let isExplicit ← skipIf .documentStart
  if !isExplicit && (hasVersion || !own.isEmpty) then failure
  let bare := isExplicit &&
    (match ← peek with
    | none | some .documentStart | some .documentEnd => true
    | some (.version _ _) | some (.tagHandle _ _) => true
    | _ => false)
  let value ← if bare then pure missing else node handles true false fuel
  skipEnds fuel
  if (← peek).isSome then failure
  return value

/-- The value of an anchor: of those with the same number, the last one counts. -/
def latest (values : List Anchored) (anchor : Nat) : Option Yaml :=
  (values.foldl (fun best v =>
    if v.anchor ≠ anchor || best.any (v.order < ·.order) then best else some v)
    (none : Option Anchored)).map (·.value)

/-- The document that a text holds, and the values that its aliases stand for. -/
def parse? (text : String) : Option (Anchors × Yaml) := do
  let tokens ← tokens? text
  let (value, s) ← (document (4 * tokens.length + 4)).run ⟨tokens, [], 0, []⟩
  let anchors := (s.values.map (·.anchor)).eraseDups.filterMap fun anchor =>
    (latest s.values anchor).map (anchor, ·)
  return (anchors, value)

end Immutability.Yaml
