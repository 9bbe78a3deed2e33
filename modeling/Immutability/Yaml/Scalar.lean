import Immutability.Text.Hexadecimal
import Immutability.Yaml.Cursor

/-!
# Scalars of YAML

* `Gap` is the white space inside a scalar, and `Gap.text` what is left of it after folding: blanks
  stay, a line feed becomes a blank, and of more line feeds all but the first stay;
* `plain?` and `quoted?` read a scalar without and with quotes.
-/

namespace Immutability.Yaml

/-- White space inside a scalar. -/
inductive Gap where
  /-- Blanks on a line, the last one first. -/
  | blanks (cs : List Char)
  /-- A line break, unless it is escaped, and those of empty lines, the last one first. -/
  | lines (first : Option Char) (empty : List Char)

namespace Gap

/-- No white space. -/
def none : Gap := blanks []

/-- Whether there is any white space. -/
def isNone : Gap → Bool
  | blanks [] => true
  | _ => false

/-- One more line break. -/
def newline (c : Char) : Gap → Gap
  | blanks _ => lines (some c) []
  | lines first empty => lines first (c :: empty)

/-- One more blank, which does not count at the start of a line. -/
def blank (c : Char) : Gap → Gap
  | blanks cs => blanks (c :: cs)
  | lines first empty => lines first empty

/-- What is left of the white space, the last character first. -/
def text : Gap → List Char
  | blanks cs => cs
  | lines (some '\n') [] => [' ']
  | lines (some '\n') empty => empty
  | lines first empty => empty ++ first.toList

/-- Whether the white space contains a line break. -/
def isBroken : Gap → Bool
  | blanks _ => false
  | lines _ _ => true

end Gap

/-! ### Plain scalars -/

/-- Whether a plain scalar can start here. -/
def startsPlain (inFlow : Bool) : List Char → Bool
  | [] => false
  | c :: rest =>
    if c = '-' then !rest.head?.any isBlankChar
    else if c = '?' || c = ':' then !inFlow && !startsBlank rest
    else !(isBlankChar c || isBreak c || isFlowMark c ||
      ['#', '&', '*', '!', '|', '>', '\'', '"', '%', '@', '\x60'].contains c)

/-- Whether a character must not touch the colon before it inside brackets. -/
def isShy (c : Char) : Bool := c == '?' || isFlowMark c

/-- The rest of a plain scalar: `done` is what has been read, the last character first, and `gap`
the white space after it. A line in a column before `low` does not belong to the scalar, except
inside brackets, and tabs cannot indent it up to there. The answer is the text, whether a line break
follows it, and the place behind the white space. -/
def plainFrom? (inFlow : Bool) (low : Nat) (done : List Char) (gap : Gap) (m : Mark) :
    List Char → Option (List Char × Bool × Cursor)
  | [] => some (done.reverse, gap.isBroken, ⟨[], m⟩)
  | c :: rest =>
    if isBreak c then plainFrom? inFlow low done (gap.newline c) (m.after c) rest
    else if isBlankChar c then
      if c = '\t' && gap.isBroken && m.column < low then none
      else plainFrom? inFlow low done (gap.blank c) (m.after c) rest
    else if (!gap.isNone && c = '#') || (gap.isBroken && !inFlow && m.column < low) ||
        (gap.isBroken && m.column = 0 && isMarker (c :: rest)) then
      some (done.reverse, gap.isBroken, ⟨c :: rest, m⟩)
    else if inFlow && c = ':' && rest.head?.any isShy then none
    else if (c = ':' && startsBlank rest) || (inFlow && isFlowMark c) then
      some (done.reverse, gap.isBroken, ⟨c :: rest, m⟩)
    else plainFrom? inFlow low (c :: (gap.text ++ done)) .none (m.after c) rest

def plain? (inFlow : Bool) (low : Nat) (c : Cursor) : Option (String × Bool × Cursor) :=
  (plainFrom? inFlow low [] .none c.mark c.rest).map fun r => (String.ofList r.1, r.2)

/-! ### Scalars in quotes -/

/-- A character of a scalar in quotes. -/
inductive Piece where
  /-- A character that is subject to folding. -/
  | raw (c : Char)
  /-- A character that is not. -/
  | literal (c : Char)
  /-- A line break that leaves no trace. -/
  | join
  deriving Repr

/-- The text of the pieces after folding. -/
def foldPieces (gap : Gap) : List Piece → List Char
  | [] => gap.text.reverse
  | .raw c :: ps =>
    if isBreak c then foldPieces (gap.newline c) ps
    else if isBlankChar c then foldPieces (gap.blank c) ps
    else gap.text.reverse ++ c :: foldPieces .none ps
  | .literal c :: ps => gap.text.reverse ++ c :: foldPieces .none ps
  | .join :: ps => gap.text.reverse ++ foldPieces (.lines .none []) ps

/-- The pieces of a scalar up to its closing quote, and the text behind it. -/
abbrev Pieces := Option (List Piece × List Char)

/-- The pieces with one more in front. -/
def Pieces.push (p : Piece) (ps : Pieces) : Pieces := ps.map fun r => (p :: r.1, r.2)

/-- Whether the marker of a document follows a line break. It must not stand in quotes. -/
def breaksOff (c : Char) (rest : List Char) : Bool := isBreak c && isMarker rest

/-- The pieces of a scalar in single quotes, in which two quotes stand for one. -/
def singlePieces : List Char → Pieces
  | [] => none
  | '\'' :: '\'' :: rest => (singlePieces rest).push (.literal '\'')
  | '\'' :: rest => some ([], rest)
  | c :: rest => if breaksOff c rest then none else (singlePieces rest).push (.raw c)

/-- The character that a letter stands for after a backslash. -/
def escapedChar? : Char → Option Char
  | '0' => some '\x00'
  | 'a' => some '\x07'
  | 'b' => some '\x08'
  | 't' => some '\t'
  | '\t' => some '\t'
  | 'n' => some '\n'
  | 'v' => some '\x0b'
  | 'f' => some '\x0c'
  | 'r' => some '\r'
  | 'e' => some '\x1b'
  | ' ' => some ' '
  | '"' => some '"'
  | '/' => some '/'
  | '\\' => some '\\'
  | 'N' => some '\u0085'
  | '_' => some '\u00a0'
  | 'L' => some '\u2028'
  | 'P' => some '\u2029'
  | _ => none

/-- The number with the given hexadecimal digits. -/
def hexNumber? (cs : List Char) : Option Nat :=
  cs.foldlM (fun n c => return n * 16 + (← Text.hexDigit? c)) 0

/-- The character whose code has the given hexadecimal digits. -/
def codeChar? (cs : List Char) : Option Char := do
  let n ← hexNumber? cs
  if n.isValidChar then some (Char.ofNat n) else none

/-- The pieces of a scalar in double quotes, in which a backslash starts an escape. -/
def doublePieces : List Char → Pieces
  | [] => none
  | '"' :: rest => some ([], rest)
  | '\\' :: 'x' :: a :: b :: rest =>
    (codeChar? [a, b]).bind fun c => (doublePieces rest).push (.literal c)
  | '\\' :: 'u' :: a :: b :: c :: d :: rest =>
    (codeChar? [a, b, c, d]).bind fun c => (doublePieces rest).push (.literal c)
  | '\\' :: 'U' :: a :: b :: c :: d :: e :: f :: g :: h :: rest =>
    (codeChar? [a, b, c, d, e, f, g, h]).bind fun c => (doublePieces rest).push (.literal c)
  | '\\' :: c :: rest =>
    if isBreak c then
      if isMarker rest then none else (doublePieces rest).push .join
    else (escapedChar? c).bind fun c => (doublePieces rest).push (.literal c)
  | c :: rest => if breaksOff c rest then none else (doublePieces rest).push (.raw c)

/-- A scalar in quotes, behind the opening one. -/
def quoted? (pieces : List Char → Pieces) (c : Cursor) : Option (String × Cursor) := do
  let (ps, rest) ← pieces c.rest
  return (String.ofList (foldPieces .none ps), c.advanceTo rest)

end Immutability.Yaml
