import Immutability.Yaml
import Immutability.Yaml.Cursor
import Immutability.Text.Hexadecimal

/-!
# Tokens of YAML

* `Token` is a token of a document;
* `tag?` and `directive?` read the tokens of tags and directives.
-/

namespace Immutability.Yaml

/-- A token. The start and the end of a block collection have no character of their own, and the
mark of a key is mostly left out. -/
inductive Token where
  | version (major minor : Nat)
  | tagHandle (handle lead : String)
  | documentStart
  | documentEnd
  | blockSequence
  | blockMapping
  | blockEnd
  | openSequence
  | closeSequence
  | openMapping
  | closeMapping
  | item
  | comma
  | key
  | value
  | reference (name : String)
  | anchor (name : String)
  | tag (handle suffix : String)
  | scalar (style : ScalarStyle) (text : String)
  deriving DecidableEq, Repr

/-! ### Tags -/

/-- The byte after a percent sign, and the text behind it. -/
def percentByte? : List Char → Option (Nat × List Char)
  | '%' :: a :: b :: rest => do
    let high ← Text.hexDigit? a
    let low ← Text.hexDigit? b
    return (16 * high + low, rest)
  | _ => none

/-- The number of bytes that follow the first one of a character, and the bits in that one. -/
def leadByte? (byte : Nat) : Option (Nat × Nat) :=
  if byte < 0x80 then some (0, byte)
  else if byte / 0x20 = 0x6 then some (1, byte % 0x20)
  else if byte / 0x10 = 0xE then some (2, byte % 0x10)
  else if byte / 0x08 = 0x1E then some (3, byte % 0x08)
  else none

/-- The remaining bytes of a character whose code starts with the given bits. -/
def moreBytes? (code : Nat) (cs : List Char) : Nat → Option (Nat × List Char)
  | 0 => some (code, cs)
  | n + 1 => do
    let (byte, rest) ← percentByte? cs
    if byte / 0x40 ≠ 0x2 then none
    moreBytes? (0x40 * code + byte % 0x40) rest n

/-- A character of a tag. -/
def isTagChar (c : Char) : Bool :=
  isNameChar c || [';', '/', '?', ':', '@', '&', '=', '+', '$', '.', '%', '!', '~', '*', '\'', '(',
    ')'].contains c

/-- A character of a tag in angle brackets. -/
def isVerbatimChar (c : Char) : Bool := isTagChar c || [',', '[', ']'].contains c

/-- The characters of a tag, `fuel` of them at most, in which percent signs start the bytes of
others. -/
def tagChars? (allowed : Char → Bool) : Nat → List Char → Option (List Char × List Char)
  | 0, cs => some ([], cs)
  | fuel + 1, cs =>
    match cs with
    | [] => some ([], [])
    | c :: rest =>
      if c = '%' then do
        let (byte, next) ← percentByte? cs
        let (more, bits) ← leadByte? byte
        let (code, next) ← moreBytes? bits next more
        let (tail, next) ← tagChars? allowed fuel next
        return (Char.ofNat code :: tail, next)
      else if allowed c then do
        let (tail, next) ← tagChars? allowed fuel rest
        return (c :: tail, next)
      else some ([], cs)

/-- The handle of a tag, from its exclamation mark on: a name between two of them, or only a part of
the tag. -/
def tagHandle (cs : List Char) : List Char × List Char :=
  let name := cs.tail.takeWhile isNameChar
  match cs.tail.dropWhile isNameChar with
  | '!' :: rest => ('!' :: name ++ ['!'], rest)
  | rest => ('!' :: name, rest)

/-- Whether a handle is complete. -/
def isHandle (handle : List Char) : Bool := 1 < handle.length && handle.getLast? = some '!'

/-- The tag at a place: its handle, which may be empty, the rest of it, and what is behind it. -/
def tagParts? (cs : List Char) : Option (String × String × List Char) := do
  match cs with
  | '!' :: '<' :: rest =>
    let (suffix, rest) ← tagChars? isVerbatimChar rest.length rest
    if suffix.isEmpty then none
    match rest with
    | '>' :: rest => return ("", String.ofList suffix, rest)
    | _ => none
  | _ =>
    let (handle, rest) := tagHandle cs
    let (suffix, rest) ← tagChars? isTagChar rest.length rest
    if isHandle handle then
      if suffix.isEmpty then none
      return (String.ofList handle, String.ofList suffix, rest)
    let suffix := handle.tail ++ suffix
    return if suffix.isEmpty then ("", "!", rest) else ("!", String.ofList suffix, rest)

/-- The tag at a place, which is followed by white space, or inside brackets by a comma. -/
def tag? (inFlow : Bool) (c : Cursor) : Option (Token × Cursor) := do
  let (handle, suffix, rest) ← tagParts? c.rest
  if startsBlank rest || (inFlow && rest.head? = some ',') then
    some (.tag handle suffix, c.advanceTo rest)
  else none

/-! ### Directives -/

/-- A number of at most nine digits. -/
def versionNumber? (cs : List Char) : Option (Nat × List Char) :=
  let digits := cs.takeWhile Char.isDigit
  if digits.isEmpty || 9 < digits.length then none
  else some (digits.foldl (fun n d => 10 * n + (d.toNat - '0'.toNat)) 0, cs.drop digits.length)

/-- The version of the language. -/
def version? (cs : List Char) : Option (Token × List Char) := do
  let (major, rest) ← versionNumber? cs
  let '.' :: rest := rest | none
  let (minor, rest) ← versionNumber? rest
  return (.version major minor, rest)

/-- The meaning of a handle. -/
def handleMeaning? (cs : List Char) : Option (Token × List Char) := do
  if cs.head? ≠ some '!' then none
  let (handle, rest) := tagHandle cs
  if !(isHandle handle || handle = ['!']) || !rest.head?.any isBlankChar then none
  let rest := rest.dropWhile isBlankChar
  let (lead, rest) ← tagChars? isVerbatimChar rest.length rest
  if lead.isEmpty || !startsBlank rest then none
  return (.tagHandle (String.ofList handle) (String.ofList lead), rest)

/-- The directive at a place, which takes a line. -/
def directive? (c : Cursor) : Option (Token × Cursor) := do
  let body := c.rest.tail
  let name := body.takeWhile isNameChar
  let rest := body.drop name.length
  if !startsBlank rest then none
  let rest := rest.dropWhile isBlankChar
  let (token, rest) ← match String.ofList name with
    | "YAML" => version? rest
    | "TAG" => handleMeaning? rest
    | _ => none
  let c ← (c.advanceTo rest).lineEnd?
  return (token, c.advance 1)

end Immutability.Yaml
