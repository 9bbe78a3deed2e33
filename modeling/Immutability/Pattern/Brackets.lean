import Immutability.Pattern.Escape

/-!
# Sets of characters in brackets

A set in brackets lists characters, ranges and other sets. Its parts may be combined with the
operators for intersection, difference and symmetric difference, from left to right.

* `Nested` is something together with the number of levels it is nested;
* `Pattern.SetItems` is the part of a set that has been read;
* `Pattern.brackets?` reads a set.
-/

namespace Immutability.Pattern

/-- Something with the number of levels below it. -/
structure Nested (α : Type) where
  value : α
  depth : Nat

/-- The depth of the deepest. -/
def deepest {α : Type} (xs : List (Nested α)) : Nat := xs.foldr (fun x n => max x.depth n) 0

/-- An operator between sets. -/
inductive SetOperator where
  | intersection
  | difference
  | symmetricDifference
  deriving DecidableEq, Repr

/-- The combination of two sets. -/
def SetOperator.apply : SetOperator → CharSet → CharSet → CharSet
  | intersection => .inter
  | difference => .difference
  | symmetricDifference => .symmetricDifference

/-- The operator at the start of a text, and the text behind it. -/
def setOperator? : List Char → Option (SetOperator × List Char)
  | '&' :: '&' :: rest => some (.intersection, rest)
  | '-' :: '-' :: rest => some (.difference, rest)
  | '~' :: '~' :: rest => some (.symmetricDifference, rest)
  | _ => none

/-- The part of a set that has been read: what is before the last operator, and the items behind
it, the last one first. -/
structure SetItems where
  before : Option (Nested CharSet × SetOperator)
  items : List (Nested CharSet)

namespace SetItems

/-- No items. -/
def none : SetItems := ⟨.none, []⟩

/-- One more item. -/
def push (s : SetItems) (item : Nested CharSet) : SetItems := { s with items := item :: s.items }

/-- The union of the items behind the last operator. -/
def union (s : SetItems) : Nested CharSet :=
  match s.items with
  | [] => ⟨.none, 0⟩
  | [item] => item
  | items => ⟨items.foldl (fun s i => .union i.value s) .none, deepest items + 1⟩

/-- The set of all that has been read. Operators see through case, if it does not matter. -/
def all (s : SetItems) (anyCase : Bool) : Nested CharSet :=
  match s.before with
  | .none => s.union
  | some (left, operator) =>
    let right := s.union
    ⟨operator.apply (left.value.foldedIf anyCase) (right.value.foldedIf anyCase),
      max left.depth right.depth + 1⟩

/-- The items with an operator behind them. -/
def operate (s : SetItems) (anyCase : Bool) (operator : SetOperator) : SetItems :=
  ⟨some (s.all anyCase, operator), []⟩

end SetItems

/-- The set with a name between colons and brackets, from the opening bracket on. -/
def namedSet? (f : Flags) (cs : List Char) : Option (CharSet × List Char) := do
  let '[' :: ':' :: rest := cs | none
  let (negated, rest) := match rest with
    | '^' :: rest => (true, rest)
    | rest => (false, rest)
  let name := rest.takeWhile (· ≠ ':')
  let ':' :: ']' :: rest := rest.drop name.length | none
  let s ← CharSet.named? (String.ofList name)
  return ((s.foldedIf f.anyCase).negatedIf negated, rest)

/-- A character or an escape in a set. -/
def setItem? (f : Flags) (cs : List Char) : Option (Escape × List Char) :=
  match cs with
  | [] => none
  | '\\' :: rest => escape? f rest
  | c :: rest => some (.char c, rest)

/-- The set of an item, which is not a place. -/
def itemSet? : Escape → Option CharSet
  | .char c => some (.single c)
  | .set s => some s
  | .place _ => none

/-- The character of an item. -/
def itemChar? : Escape → Option Char
  | .char c => some c
  | _ => none

/-- A character, a range or an escape in a set. A hyphen makes a range, unless the closing bracket
or another hyphen follows it. -/
def setRange? (f : Flags) (cs : List Char) : Option (CharSet × List Char) := do
  let (first, rest) ← setItem? f cs
  let single := (itemSet? first).map (·, skipSpace f rest)
  match skipSpace f rest with
  | [] => none
  | '-' :: rest =>
    let behind := skipSpace f rest
    if behind.head? = some ']' || behind.head? = some '-' then single
    else
      let (last, rest) ← setItem? f behind
      let low ← itemChar? first
      let high ← itemChar? last
      if low ≤ high then some (.range low high, rest) else none
  | _ => single

/-- The hyphens at the start of a set, which stand for themselves. -/
def leadingHyphens (f : Flags) (s : SetItems) : Nat → List Char → SetItems × List Char
  | 0, cs => (s, cs)
  | fuel + 1, cs =>
    match cs with
    | '-' :: rest => leadingHyphens f (s.push ⟨.single '-', 0⟩) fuel (skipSpace f rest)
    | _ => (s, cs)

/-- The start of a set behind its opening bracket: whether it is negated, and the items that stand
for themselves only there, which are hyphens, or a closing bracket. -/
def openBrackets (f : Flags) (cs : List Char) : Bool × SetItems × List Char :=
  let (negated, cs) := match skipSpace f cs with
    | '^' :: rest => (true, skipSpace f rest)
    | rest => (false, rest)
  match leadingHyphens f .none cs.length cs with
  | (⟨_, []⟩, ']' :: rest) => (negated, SetItems.none.push ⟨.single ']', 0⟩, skipSpace f rest)
  | (items, cs) => (negated, items, cs)

mutual

/-- The rest of a set, up to its closing bracket. -/
def setItems? (f : Flags) (s : SetItems) : Nat → List Char → Option (Nested CharSet × List Char)
  | 0, _ => none
  | fuel + 1, cs =>
    match skipSpace f cs with
    | [] => none
    | ']' :: rest => some (s.all f.anyCase, rest)
    | '[' :: rest =>
      match namedSet? f ('[' :: rest) with
      | some (named, rest) => setItems? f (s.push ⟨named, 0⟩) fuel rest
      | none => do
        let (inner, rest) ← brackets? f fuel rest
        setItems? f (s.push inner) fuel rest
    | cs =>
      match setOperator? cs with
      | some (operator, rest) => setItems? f (s.operate f.anyCase operator) fuel rest
      | none => do
        let (item, rest) ← setRange? f cs
        setItems? f (s.push ⟨item, 0⟩) fuel rest

/-- A set behind its opening bracket. -/
def brackets? (f : Flags) : Nat → List Char → Option (Nested CharSet × List Char)
  | 0, _ => none
  | fuel + 1, cs => do
    let (negated, items, cs) := openBrackets f cs
    let (s, rest) ← setItems? f items fuel cs
    return (⟨(s.value.foldedIf f.anyCase).negatedIf negated, s.depth + 1⟩, rest)

end

end Immutability.Pattern
