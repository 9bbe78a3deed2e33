import Immutability.Pattern.Brackets

/-!
# The notation of patterns

* `Pattern.GroupStart` is what a parenthesis opens;
* `Pattern.body?` reads alternatives, groups, repetitions, sets of characters and places;
* `Pattern.parse?` reads a pattern.
-/

namespace Immutability.Pattern

/-! ### Repetitions -/

/-- The digits at the start of a text. -/
def digits (f : Flags) : Nat → List Char → List Char × List Char
  | 0, cs => ([], cs)
  | fuel + 1, cs =>
    match cs with
    | c :: rest =>
      if c.isDigit then
        let (ds, rest) := digits f fuel (skipSpace f rest)
        (c :: ds, rest)
      else ([], cs)
    | [] => ([], [])

/-- The natural number at the start of a text, with any blanks around it. -/
def count? (f : Flags) (cs : List Char) : Option (Nat × List Char) :=
  let cs := cs.dropWhile Text.isBlank
  let (ds, rest) := digits f cs.length cs
  let n := ds.foldl (fun n c => n * 10 + (c.toNat - '0'.toNat)) 0
  if ds.isEmpty || 0xFFFFFFFF < n then none
  else some (n, skipSpace f (rest.dropWhile Text.isBlank))

/-- The bounds of a repetition in braces, behind the opening one. -/
def bounds? (f : Flags) (cs : List Char) : Option ((Nat × Option Nat) × List Char) := do
  let (least, rest) ← count? f (skipSpace f cs)
  match rest with
  | '\x7d' :: rest => return ((least, some least), skipSpace f rest)
  | ',' :: rest =>
    match skipSpace f rest with
    | '\x7d' :: rest => return ((least, none), skipSpace f rest)
    | rest =>
      let (most, rest) ← count? f rest
      match rest with
      | '\x7d' :: rest =>
        if least ≤ most then return ((least, some most), skipSpace f rest) else none
      | _ => none
  | _ => none

/-- The text after a question mark that asks for a short match. -/
def dropLazy : List Char → List Char
  | '?' :: rest => rest
  | rest => rest

/-! ### Sequences and choices -/

/-- An item of a sequence. A change of flags is an item that cannot be repeated. -/
abbrev Item := Nested (Option Pattern)

/-- The last item repeated. -/
def repeatLast? (items : List Item) (p : Pattern → Pattern) : Option (List Item) :=
  match items with
  | ⟨some q, depth⟩ :: items => some (⟨some (p q), depth + 1⟩ :: items)
  | _ => none

/-- The sequence of the items, which come last first. -/
def ofItems (items : List Item) : Nested Pattern :=
  ⟨sequence (items.reverse.filterMap (·.value)),
    if items.length ≤ 1 then deepest items else deepest items + 1⟩

/-- The choice between alternatives, which come last first. -/
def ofAlternatives (ps : List (Nested Pattern)) : Nested Pattern :=
  ⟨choice (ps.reverse.map (·.value)), if ps.length ≤ 1 then deepest ps else deepest ps + 1⟩

/-! ### Groups -/

/-- The start of a group, behind its parenthesis: a change of flags, or a group with its flags and,
if it has one, its name. -/
inductive GroupStart where
  | change (f : Flags) (rest : List Char)
  | group (f : Flags) (name : Option String) (rest : List Char)

/-- Whether a character may stand in the name of a group. -/
def isNameChar (first : Bool) (c : Char) : Bool :=
  c == '_' || (Text.isWordChar c && !(first && Text.isDigitChar c)) ||
    (!first && ['.', '[', ']'].contains c)

/-- The name of a group, and the text behind it. -/
def groupName? (cs : List Char) : Option (String × List Char) :=
  let name := cs.takeWhile (· ≠ '>')
  match cs.drop name.length with
  | _ :: rest =>
    if name.head?.any (isNameChar true) && name.all (isNameChar false) then
      some (String.ofList name, rest)
    else none
  | [] => none

def groupStart? (f : Flags) (cs : List Char) : Option GroupStart :=
  match skipSpace f cs with
  | '?' :: 'P' :: '<' :: rest => (groupName? rest).map fun r => .group f (some r.1) r.2
  | '?' :: '<' :: rest => (groupName? rest).map fun r => .group f (some r.1) r.2
  | '?' :: rest => do
    let (g, after) ← flags? f rest
    match after with
    | ':' :: after => return .group g none after
    | ')' :: after => if rest.head? = some ')' then none else return .change g after
    | _ => none
  | rest => some (.group f none rest)

/-! ### Patterns -/

/-- What a pattern has been read up to: the names of its groups, and the text behind it. -/
structure Reading where
  names : List String
  rest : List Char

/-- The place of the start or the end of a text, or of its lines. -/
def lineStart (f : Flags) : Place := if f.multiline then .lineStart f.returns else .textStart

@[inherit_doc lineStart]
def lineEnd (f : Flags) : Place := if f.multiline then .lineEnd f.returns else .textEnd

/-- The characters that the dot matches. -/
def dot (f : Flags) : CharSet :=
  if f.dotAll then .complement .none
  else if f.returns then .complement (.union (.single '\n') (.single '\r'))
  else .complement (.single '\n')

/-- The pattern of an escape. -/
def ofEscape (f : Flags) : Escape → Pattern
  | .char c => set ((CharSet.single c).foldedIf f.anyCase)
  | .set s => set s
  | .place p => place p

/-- The pattern up to a closing parenthesis or the end: `before` are the alternatives before this
one and `items` its items so far, both last first. Groups have different names. -/
def body? (f : Flags) (names : List String) (before : List (Nested Pattern)) (items : List Item) :
    Nat → List Char → Option (Nested Pattern × Reading)
  | 0, _ => none
  | fuel + 1, cs =>
    let finish := fun rest => some (ofAlternatives (ofItems items :: before), ⟨names, rest⟩)
    let push := fun p rest => body? f names before (⟨some p, 0⟩ :: items) fuel rest
    let again := fun p rest =>
      (repeatLast? items p).bind fun items => body? f names before items fuel rest
    match skipSpace f cs with
    | [] => finish []
    | ')' :: rest => finish (')' :: rest)
    | '|' :: rest => body? f names (ofItems items :: before) [] fuel rest
    | '*' :: rest => again star (dropLazy rest)
    | '+' :: rest => again (fun p => seq p (star p)) (dropLazy rest)
    | '?' :: rest => again optional (dropLazy rest)
    | '\x7b' :: rest => do
      let ((least, most), rest) ← bounds? f rest
      again (repeated · least most) (dropLazy rest)
    | '(' :: rest => do
      match ← groupStart? f rest with
      | .change g rest => body? g names before (⟨none, 0⟩ :: items) fuel rest
      | .group g name rest =>
        if name.any names.contains then none
        let (p, r) ← body? g (name.toList ++ names) [] [] fuel rest
        match r.rest with
        | ')' :: rest => body? f r.names before (⟨some p.value, p.depth + 1⟩ :: items) fuel rest
        | _ => none
    | '[' :: rest => do
      let (s, rest) ← brackets? f (2 * rest.length + 2) rest
      body? f names before (⟨some (set s.value), s.depth⟩ :: items) fuel rest
    | '\\' :: rest => do
      let (e, rest) ← escape? f rest
      push (ofEscape f e) rest
    | '^' :: rest => push (place (lineStart f)) rest
    | '$' :: rest => push (place (lineEnd f)) rest
    | '.' :: rest => push (set (dot f)) rest
    | c :: rest => push (ofEscape f (.char c)) rest

/-- The number of levels that a pattern may be nested. -/
def deepestNesting : Nat := 250

/-- The pattern that a text is the notation of. -/
def parse? (text : String) : Option Pattern := do
  let cs := text.toList
  let (p, r) ← body? {} [] [] [] (cs.length + 1) cs
  if r.rest.isEmpty && p.depth ≤ deepestNesting then some p.value else none

end Immutability.Pattern
