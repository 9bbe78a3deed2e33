import Immutability.ClassName

/-!
# Lists of classes

A list of classes in a text has one name on a line; a hash sign starts a comment.
-/

namespace Immutability

/-- The parts of a text between separators. -/
def splitChars (separator : Char) : List Char → List (List Char)
  | [] => [[]]
  | c :: cs =>
    if c = separator then [] :: splitChars separator cs
    else
      match splitChars separator cs with
      | [] => [[c]]
      | part :: parts => (c :: part) :: parts

/-- The name on a line, without comment and surrounding blanks, if there is one. -/
def nameOnLine? (line : List Char) : Option ClassName :=
  let name := Text.trimChars (line.takeWhile (· ≠ '#'))
  if name.isEmpty then none else some (.ofString (String.ofList name))

/-- The names on the lines of a text. -/
def classList (text : String) : List ClassName :=
  (splitChars '\n' text.toList).filterMap nameOnLine?

end Immutability
