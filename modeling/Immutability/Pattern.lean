import Immutability.CharSet

/-!
# Patterns

Regular expressions over characters.

* `Place` is a place in a text that a pattern can ask for, and `Pattern` a regular expression;
* `Pattern.ends` lists the places in a text at which a match ends that starts at a given place;
* `Pattern.isMatch` asks for a match anywhere in a text.
-/

namespace Immutability

/-- A place in a text. With `returns`, carriage returns end a line, too. -/
inductive Place where
  | textStart
  | textEnd
  | lineStart (returns : Bool)
  | lineEnd (returns : Bool)
  /-- The start or the end of a word. -/
  | boundary
  /-- Neither the start nor the end of a word. -/
  | noBoundary
  | wordStart
  | wordEnd
  | notAfterWord
  | notBeforeWord
  deriving DecidableEq, Repr

namespace Place

/-- Whether a place is between the two characters, which are missing at the ends of the text. -/
def isBetween (before after : Option Char) : Place → Bool
  | textStart => before.isNone
  | textEnd => after.isNone
  | lineStart false => before.isNone || before == some '\n'
  | lineStart true =>
    before.isNone || before == some '\n' || (before == some '\r' && after != some '\n')
  | lineEnd false => after.isNone || after == some '\n'
  | lineEnd true =>
    after.isNone || after == some '\r' || (after == some '\n' && before != some '\r')
  | boundary => before.any Text.isWordChar != after.any Text.isWordChar
  | noBoundary => before.any Text.isWordChar == after.any Text.isWordChar
  | wordStart => !before.any Text.isWordChar && after.any Text.isWordChar
  | wordEnd => before.any Text.isWordChar && !after.any Text.isWordChar
  | notAfterWord => !before.any Text.isWordChar
  | notBeforeWord => !after.any Text.isWordChar

end Place

/-- A regular expression. -/
inductive Pattern where
  | empty
  | set (s : CharSet)
  | place (p : Place)
  | seq (a b : Pattern)
  | alt (a b : Pattern)
  | star (a : Pattern)
  deriving DecidableEq, Repr

namespace Pattern

/-- The elements that can be reached from `frontier` by the given step, together with those already
seen. Each round but the last one finds a new element. -/
def closure (step : Nat → List Nat) : Nat → List Nat → List Nat → List Nat
  | 0, seen, _ => seen
  | rounds + 1, seen, frontier =>
    let found := (frontier.flatMap step).eraseDups.filter fun i => !seen.contains i
    if found.isEmpty then seen else closure step rounds (seen ++ found) found

/-- The places at which a match ends that starts at the given place. -/
def ends (text : Array Char) : Pattern → Nat → List Nat
  | empty, i => [i]
  | set s, i => if (text[i]?).any s.contains then [i + 1] else []
  | place p, i =>
    let before := if i = 0 then none else text[i - 1]?
    if p.isBetween before text[i]? then [i] else []
  | seq a b, i => ((a.ends text i).flatMap (b.ends text)).eraseDups
  | alt a b, i => (a.ends text i ++ b.ends text i).eraseDups
  | star a, i => closure (a.ends text) (text.size + 1) [i] [i]

/-- Whether some part of the text matches. -/
def isMatch (p : Pattern) (text : String) : Bool :=
  let chars := text.toList.toArray
  (List.range (chars.size + 1)).any fun i => !(p.ends chars i).isEmpty

/-- The sequence of patterns. -/
def sequence (ps : List Pattern) : Pattern :=
  match ps with
  | [] => empty
  | [p] => p
  | p :: ps => seq p (sequence ps)

/-- The choice between patterns. -/
def choice (ps : List Pattern) : Pattern :=
  match ps with
  | [] => empty
  | [p] => p
  | p :: ps => alt p (choice ps)

/-- A pattern or nothing. -/
def optional (p : Pattern) : Pattern := alt p empty

/-- A pattern several times: at least `least` times, and at most `most` times if given. -/
def repeated (p : Pattern) (least : Nat) (most : Option Nat) : Pattern :=
  let rest := match most with
    | none => star p
    | some most => (List.range (most - least)).foldl (fun q _ => optional (seq p q)) empty
  seq (sequence (List.replicate least p)) rest

end Pattern

end Immutability
