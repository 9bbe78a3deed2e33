/-!
# Places in a YAML text

* `normalizeBreaks` writes all common line breaks as line feeds, so that every line break is one
  character;
* `Mark` is the position of a character, and `Cursor` a position together with what is behind it;
* `Cursor.skipGap` moves over blanks, comments and line breaks between tokens.
-/

namespace Immutability.Yaml

/-! ### Characters -/

/-- Whether a character may stand in a document. -/
def isAllowed (c : Char) : Bool :=
  ['\t', '\n', '\r', '\u0085'].contains c || (' ' ≤ c && c ≤ '~') ||
    ('\u00a0' ≤ c && c ≠ '\ufffe' && c ≠ '\uffff')

/-- The text with every common line break written as a line feed. -/
def normalizeBreaks : List Char → List Char
  | [] => []
  | '\r' :: '\n' :: rest => '\n' :: normalizeBreaks rest
  | '\r' :: rest => '\n' :: normalizeBreaks rest
  | '\u0085' :: rest => '\n' :: normalizeBreaks rest
  | c :: rest => c :: normalizeBreaks rest

/-- Whether a character breaks a line. -/
def isBreak (c : Char) : Bool := c == '\n' || c == '\u2028' || c == '\u2029'

/-- Whether a character separates words on a line. -/
def isBlankChar (c : Char) : Bool := c == ' ' || c == '\t'

/-- Whether a text starts with white space, or is at its end. -/
def startsBlank : List Char → Bool
  | [] => true
  | c :: _ => isBlankChar c || isBreak c

/-- Whether a character structures a collection in brackets. -/
def isFlowMark (c : Char) : Bool := [',', '[', ']', '\x7b', '\x7d'].contains c

/-- Whether a character may stand in the name of an anchor. -/
def isNameChar (c : Char) : Bool := c.isAlphanum || c == '_' || c == '-'

/-- Whether a line starts with the marker of a document. -/
def isMarker : List Char → Bool
  | '-' :: '-' :: '-' :: rest => startsBlank rest
  | '.' :: '.' :: '.' :: rest => startsBlank rest
  | _ => false

/-! ### Places -/

/-- The position of a character in a text: in bytes from its start, and by line and column. -/
structure Mark where
  index : Nat
  line : Nat
  column : Nat
  deriving DecidableEq, Repr

/-- The position after a character. -/
def Mark.after (m : Mark) (c : Char) : Mark :=
  if isBreak c then ⟨m.index + c.utf8Size, m.line + 1, 0⟩
  else ⟨m.index + c.utf8Size, m.line, m.column + 1⟩

/-- A place in a text. -/
structure Cursor where
  rest : List Char
  mark : Mark
  deriving Repr

namespace Cursor

/-- The place after the given number of characters. -/
def advance (c : Cursor) : Nat → Cursor
  | 0 => c
  | n + 1 =>
    match c.rest with
    | [] => c
    | x :: rest => advance ⟨rest, c.mark.after x⟩ n

/-- The place at which the given characters are left. -/
def advanceTo (c : Cursor) (rest : List Char) : Cursor := c.advance (c.rest.length - rest.length)

/-- The place after all characters of a kind. -/
def skip (c : Cursor) (p : Char → Bool) : Cursor := c.advance (c.rest.takeWhile p).length

/-- Whether the text is at its end. -/
def atEnd (c : Cursor) : Bool := c.rest.isEmpty

/-- Whether the line is at its end. -/
def atLineEnd (c : Cursor) : Bool := c.rest.head?.all isBreak

/-- The end of the line, if there are only blanks and a comment up to it. -/
def lineEnd? (c : Cursor) : Option Cursor :=
  let c := c.skip isBlankChar
  let c := if c.rest.head? = some '#' then c.skip fun x => !isBreak x else c
  if c.atLineEnd then some c else none

end Cursor

/-- The next place that is neither white space nor comment, and whether a key may start there. Tabs
are white space inside brackets, and on a line on which no key may start. A line may start with a
byte order mark. -/
def skipGapFrom (inFlow keyAllowed comment : Bool) (m : Mark) : List Char → Cursor × Bool
  | [] => (⟨[], m⟩, keyAllowed)
  | c :: rest =>
    if isBreak c then skipGapFrom inFlow (keyAllowed || !inFlow) false (m.after c) rest
    else if comment || c = '#' then skipGapFrom inFlow keyAllowed true (m.after c) rest
    else if c = ' ' || (c = '\t' && (inFlow || !keyAllowed)) || (c = '\ufeff' && m.column = 0) then
      skipGapFrom inFlow keyAllowed false (m.after c) rest
    else (⟨c :: rest, m⟩, keyAllowed)

def Cursor.skipGap (c : Cursor) (inFlow keyAllowed : Bool) : Cursor × Bool :=
  skipGapFrom inFlow keyAllowed false c.mark c.rest

end Immutability.Yaml
