import Immutability.Yaml.Block
import Immutability.Yaml.Scalar
import Immutability.Yaml.Token

/-!
# The tokens of a YAML text

The scanner finds the block collections by their columns, and the keys by the colons behind them.

* `KeyCandidate` is a token that may turn out to start a key;
* `Scanner` is the state of the scanner, and `Scanner.token?` reads the next token;
* `tokens?` lists the tokens of a text.
-/

namespace Immutability.Yaml

/-- A token that may turn out to start a key. At the column of a block mapping, it has to be one. -/
structure KeyCandidate where
  required : Bool
  /-- The number of tokens before it. -/
  number : Nat
  mark : Mark
  deriving Repr

/-- Whether no colon can make it a key any more: a key is on one line, and not too long. -/
def KeyCandidate.isStale (k : KeyCandidate) (m : Mark) : Bool :=
  k.mark.line < m.line || k.mark.index + 1024 < m.index

/-- The state of the scanner. -/
structure Scanner where
  cursor : Cursor
  /-- The tokens so far, the last one first. -/
  tokens : List Token
  /-- The columns of the open block collections, the innermost first. -/
  columns : List Nat
  /-- The candidate inside the innermost brackets. -/
  candidate : Option KeyCandidate
  /-- The candidates outside of each pair of brackets, the innermost first. -/
  outer : List (Option KeyCandidate)
  /-- Whether a key may start here. -/
  keyAllowed : Bool

namespace Scanner

/-- The scanner at the start of a text. -/
def start (text : List Char) : Scanner := ⟨⟨text, ⟨0, 0, 0⟩⟩, [], [], none, [], true⟩

/-- Whether the scanner is inside brackets. -/
def inFlow (s : Scanner) : Bool := !s.outer.isEmpty

/-- The column of the scanner. -/
def column (s : Scanner) : Nat := s.cursor.mark.column

/-- The first column that is inside the innermost block collection. -/
def low (s : Scanner) : Nat :=
  match s.columns with
  | [] => 0
  | column :: _ => column + 1

/-- Add a token that takes the given number of characters. -/
def emit (s : Scanner) (t : Token) (length : Nat) : Scanner :=
  { s with tokens := t :: s.tokens, cursor := s.cursor.advance length }

/-- Insert a token after the given number of tokens. -/
def insert (s : Scanner) (t : Token) (number : Nat) : Scanner :=
  let behind := s.tokens.length - number
  { s with tokens := s.tokens.take behind ++ t :: s.tokens.drop behind }

/-- Open a block collection, whose token has the given number, unless there is one in the column
already. -/
def openBlock (s : Scanner) (t : Token) (column number : Nat) : Scanner :=
  if !s.inFlow && s.low ≤ column then
    { s.insert t number with columns := column :: s.columns }
  else s

/-- Close the block collections from a column on. -/
def closeBlocks (s : Scanner) (column : Nat) : Scanner :=
  if s.inFlow then s
  else
    let closed := s.columns.takeWhile (column ≤ ·)
    { s with
      tokens := closed.map (fun _ => .blockEnd) ++ s.tokens
      columns := s.columns.drop closed.length }

/-! ### Keys -/

/-- Drop a candidate, which must not have to be a key. -/
def dropCandidate? (s : Scanner) : Option Scanner :=
  if s.candidate.any (·.required) then none else some { s with candidate := none }

/-- Remember that a key may start here. -/
def saveCandidate? (s : Scanner) : Option Scanner :=
  if s.keyAllowed then
    let required := !s.inFlow && s.columns.head? = some s.column
    s.dropCandidate?.map ({ · with candidate := some ⟨required, s.tokens.length, s.cursor.mark⟩ })
  else some s

/-- The candidate, if it is not stale; a stale one must not have to be a key. -/
def freshen? (m : Mark) : Option KeyCandidate → Option (Option KeyCandidate)
  | none => some none
  | some k => if k.isStale m then (if k.required then none else some none) else some (some k)

/-- Drop all stale candidates. -/
def dropStale? (s : Scanner) : Option Scanner := do
  let candidate ← freshen? s.cursor.mark s.candidate
  let outer ← s.outer.mapM (freshen? s.cursor.mark)
  return { s with candidate, outer }

/-! ### Tokens -/

/-- Move to the next token, and close the block collections that end before it. -/
def settle? (s : Scanner) : Option Scanner := do
  let (cursor, keyAllowed) := s.cursor.skipGap s.inFlow s.keyAllowed
  let s ← dropStale? { s with cursor, keyAllowed }
  return s.closeBlocks (s.column + 1)

/-- A token that ends everything before it, up to the level of the document. -/
def boundary? (s : Scanner) : Option Scanner :=
  (s.closeBlocks 0).dropCandidate?.map ({ · with keyAllowed := false })

/-- A directive. -/
def directiveToken? (s : Scanner) : Option Scanner := do
  let s ← s.boundary?
  let (t, cursor) ← directive? s.cursor
  return { s with tokens := t :: s.tokens, cursor }

/-- An opening bracket. -/
def opening? (s : Scanner) (t : Token) : Option Scanner := do
  let s ← s.saveCandidate?
  return { s with candidate := none, outer := s.candidate :: s.outer, keyAllowed := true }.emit t 1

/-- A closing bracket. -/
def closing? (s : Scanner) (t : Token) : Option Scanner := do
  let s ← s.dropCandidate?
  let s := match s.outer with
    | [] => s
    | candidate :: outer => { s with candidate, outer }
  return { s with keyAllowed := false }.emit t 1

/-- A comma inside brackets. -/
def comma? (s : Scanner) : Option Scanner := do
  let s ← s.dropCandidate?
  return { s with keyAllowed := true }.emit .comma 1

/-- Open a block collection here, where a key may start, unless inside brackets. -/
def openHere? (s : Scanner) (t : Token) : Option Scanner :=
  if s.inFlow then some s
  else if s.keyAllowed then some (s.openBlock t s.column s.tokens.length)
  else none

/-- The dash of an item. -/
def item? (s : Scanner) : Option Scanner := do
  let s ← (← s.openHere? .blockSequence).dropCandidate?
  return { s with keyAllowed := true }.emit .item 1

/-- The question mark of a key. -/
def key? (s : Scanner) : Option Scanner := do
  let s ← (← s.openHere? .blockMapping).dropCandidate?
  return { s with keyAllowed := !s.inFlow }.emit .key 1

/-- The colon of a value. The candidate, if there is one, is its key. -/
def value? (s : Scanner) : Option Scanner :=
  match s.candidate with
  | some k =>
    let s := (s.insert .key k.number).openBlock .blockMapping k.mark.column k.number
    some ({ s with candidate := none, keyAllowed := false }.emit .value 1)
  | none => do
    let s ← s.openHere? .blockMapping
    return { s with keyAllowed := !s.inFlow }.emit .value 1

/-- Whether the name of an anchor ends here. -/
def endsName (rest : List Char) : Bool :=
  startsBlank rest || rest.head?.any ['?', ':', ',', ']', '\x7d', '%', '@', '\x60'].contains

/-- An anchor or an alias. -/
def name? (s : Scanner) (t : String → Token) : Option Scanner := do
  let s ← s.saveCandidate?
  let name := s.cursor.rest.tail.takeWhile isNameChar
  if name.isEmpty || !endsName (s.cursor.rest.tail.drop name.length) then none
  return { s with keyAllowed := false }.emit (t (String.ofList name)) (name.length + 1)

/-- A tag. -/
def tagToken? (s : Scanner) : Option Scanner := do
  let s ← s.saveCandidate?
  let (t, cursor) ← tag? s.inFlow s.cursor
  return { s with tokens := t :: s.tokens, cursor, keyAllowed := false }

/-- A block of lines. -/
def blockToken? (s : Scanner) (style : ScalarStyle) : Option Scanner := do
  let s ← s.dropCandidate?
  let (text, cursor) ← block? (style = .folded) s.low (s.cursor.advance 1)
  return { s with tokens := .scalar style text :: s.tokens, cursor, keyAllowed := true }

/-- A scalar in quotes. -/
def quotedToken? (s : Scanner) (pieces : List Char → Pieces) : Option Scanner := do
  let s ← s.saveCandidate?
  let (text, cursor) ← quoted? pieces (s.cursor.advance 1)
  return { s with tokens := .scalar .quoted text :: s.tokens, cursor, keyAllowed := false }

/-- A scalar without quotes. After a line break, a key may start. -/
def plainToken? (s : Scanner) : Option Scanner := do
  let s ← s.saveCandidate?
  let (text, isBroken, cursor) ← plain? s.inFlow s.low s.cursor
  return { s with tokens := .scalar .plain text :: s.tokens, cursor, keyAllowed := isBroken }

/-- The token at the place of the scanner. -/
def token? (s : Scanner) : Option Scanner :=
  match s.cursor.rest with
  | [] => none
  | c :: rest =>
    if s.column = 0 && c = '%' then s.directiveToken?
    else if s.column = 0 && isMarker (c :: rest) then
      s.boundary?.map (·.emit (if c = '-' then .documentStart else .documentEnd) 3)
    else if c = '-' && startsBlank rest then s.item?
    else if c = '?' && (s.inFlow || startsBlank rest) then s.key?
    else if c = ':' && (s.inFlow || startsBlank rest) then s.value?
    else
      match c with
      | '[' => s.opening? .openSequence
      | '\x7b' => s.opening? .openMapping
      | ']' => s.closing? .closeSequence
      | '\x7d' => s.closing? .closeMapping
      | ',' => s.comma?
      | '*' => s.name? .reference
      | '&' => s.name? .anchor
      | '!' => s.tagToken?
      | '\'' => s.quotedToken? singlePieces
      | '"' => s.quotedToken? doublePieces
      | '|' => if s.inFlow then none else s.blockToken? .literal
      | '>' => if s.inFlow then none else s.blockToken? .folded
      | _ => if startsPlain s.inFlow (c :: rest) then s.plainToken? else none

/-- All tokens of the text; `fuel` is more than their number. -/
def run? : Nat → Scanner → Option (List Token)
  | 0, _ => none
  | fuel + 1, s => do
    let s ← s.settle?
    if s.cursor.atEnd then return (← s.boundary?).tokens.reverse
    run? fuel (← s.token?)

end Scanner

/-- The tokens of a text. -/
def tokens? (text : String) : Option (List Token) :=
  if text.toList.all isAllowed then
    let chars := normalizeBreaks text.toList
    (Scanner.start chars).run? (chars.length + 1)
  else none

end Immutability.Yaml
