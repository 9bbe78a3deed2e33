import Immutability.Pattern
import Immutability.Text.Hexadecimal

/-!
# Flags and escapes of patterns

* `Pattern.Flags` is how a part of a pattern is meant, and `Pattern.flags?` reads a change of it;
* `Pattern.skipSpace` moves over the white space that does not count;
* `Pattern.escape?` reads what stands behind a backslash.
-/

namespace Immutability.Pattern

/-- How a part of a pattern is meant. -/
structure Flags where
  /-- Whether letters match those that differ by case only. -/
  anyCase : Bool := false
  /-- Whether lines have a start and an end, too. -/
  multiline : Bool := false
  /-- Whether the dot matches line breaks. -/
  dotAll : Bool := false
  /-- Whether carriage returns end a line. -/
  returns : Bool := false
  /-- Whether white space and comments do not count. -/
  spaced : Bool := false
  deriving DecidableEq, Repr

namespace Flags

/-- The flags with one switched on or off. Whether matches are short does not matter here. -/
def switch (on : Bool) (f : Flags) : Char → Flags
  | 'i' => { f with anyCase := on }
  | 'm' => { f with multiline := on }
  | 's' => { f with dotAll := on }
  | 'R' => { f with returns := on }
  | 'x' => { f with spaced := on }
  | _ => f

end Flags

/-- The flags after the letters in front of a colon or closing parenthesis; letters behind a hyphen
switch a flag off. No letter comes twice, and characters cannot be switched to bytes. -/
def flags? (f : Flags) (cs : List Char) : Option (Flags × List Char) :=
  let letters := cs.takeWhile fun c => c ≠ ':' && c ≠ ')'
  let on := letters.takeWhile (· ≠ '-')
  let off := (letters.dropWhile (· ≠ '-')).drop 1
  if letters.eraseDups.length < letters.length || letters.getLast? = some '-' ||
      !letters.all ['i', 'm', 's', 'U', 'u', 'x', 'R', '-'].contains || off.contains 'u' then
    none
  else some (off.foldl (Flags.switch false) (on.foldl (Flags.switch true) f),
    cs.drop letters.length)

/-- The text behind white space and comments. -/
def skipComments (inComment : Bool) : List Char → List Char
  | [] => []
  | c :: rest =>
    if inComment then skipComments (c ≠ '\n') rest
    else if Text.isBlank c then skipComments false rest
    else if c = '#' then skipComments true rest
    else c :: rest

/-- The text behind the white space that does not count. -/
def skipSpace (f : Flags) (cs : List Char) : List Char :=
  if f.spaced then skipComments false cs else cs

/-! ### Escapes -/

/-- What an escape stands for. -/
inductive Escape where
  | char (c : Char)
  | set (s : CharSet)
  | place (p : Place)
  deriving DecidableEq, Repr

/-- The given number of hexadecimal digits. -/
def hexDigits? (f : Flags) : Nat → List Char → Option (List Char × List Char)
  | 0, cs => some ([], cs)
  | n + 1, cs =>
    match cs with
    | [] => none
    | c :: rest => (hexDigits? f n (skipSpace f rest)).map fun r => (c :: r.1, r.2)

/-- The hexadecimal digits up to a closing brace. -/
def bracedDigits? (f : Flags) : Nat → List Char → Option (List Char × List Char)
  | 0, _ => none
  | fuel + 1, cs =>
    match skipSpace f cs with
    | [] => none
    | '\x7d' :: rest => some ([], skipSpace f rest)
    | c :: rest => (bracedDigits? f fuel rest).map fun r => (c :: r.1, r.2)

/-- The character whose code is given in hexadecimal, with a fixed number of digits or in braces. -/
def hexEscape? (f : Flags) (digits : Nat) (cs : List Char) : Option (Char × List Char) := do
  let (ds, rest) ← match skipSpace f cs with
    | '\x7b' :: cs => bracedDigits? f (cs.length + 1) cs
    | cs => hexDigits? f digits cs
  if ds.isEmpty then none
  let n ← ds.foldlM (fun n c => return n * 16 + (← Text.hexDigit? c)) 0
  if n.isValidChar then some (Char.ofNat n, rest) else none

/-- The place that a name in braces stands for. -/
def namedPlace? : String → Option Place
  | "start" => some .wordStart
  | "end" => some .wordEnd
  | "start-half" => some .notAfterWord
  | "end-half" => some .notBeforeWord
  | _ => none

/-- A letter or a hyphen. -/
def isPlaceChar (c : Char) : Bool := c.isAlpha || c == '-'

/-- The name of a place up to a closing brace. -/
def placeName (f : Flags) : Nat → List Char → List Char × List Char
  | 0, cs => ([], cs)
  | fuel + 1, cs =>
    match cs with
    | c :: rest =>
      if isPlaceChar c then
        let (name, rest) := placeName f fuel (skipSpace f rest)
        (c :: name, rest)
      else ([], cs)
    | [] => ([], [])

/-- A boundary of words, or another place that is named in braces behind it. Braces with a number
ask for a repetition. -/
def boundary? (f : Flags) (cs : List Char) : Option (Place × List Char) :=
  match cs with
  | '\x7b' :: rest =>
    let inner := skipSpace f rest
    if inner.head?.any isPlaceChar then
      match placeName f inner.length inner with
      | (name, '\x7d' :: rest) => (namedPlace? (String.ofList name)).map (·, rest)
      | _ => none
    else if inner.isEmpty then none
    else some (.boundary, cs)
  | _ => some (.boundary, cs)

/-- What stands behind a backslash. Sets cannot be given by a property of their characters. -/
def escape? (f : Flags) (cs : List Char) : Option (Escape × List Char) :=
  let coded := fun digits rest => (hexEscape? f digits rest).map fun r => (Escape.char r.1, r.2)
  match cs with
  | [] => none
  | 'd' :: rest => some (.set .digit, rest)
  | 'D' :: rest => some (.set (.complement .digit), rest)
  | 'w' :: rest => some (.set .word, rest)
  | 'W' :: rest => some (.set (.complement .word), rest)
  | 's' :: rest => some (.set .blank, rest)
  | 'S' :: rest => some (.set (.complement .blank), rest)
  | 'n' :: rest => some (.char '\n', rest)
  | 't' :: rest => some (.char '\t', rest)
  | 'r' :: rest => some (.char '\r', rest)
  | 'f' :: rest => some (.char '\x0c', rest)
  | 'v' :: rest => some (.char '\x0b', rest)
  | 'a' :: rest => some (.char '\x07', rest)
  | 'x' :: rest => coded 2 rest
  | 'u' :: rest => coded 4 rest
  | 'U' :: rest => coded 8 rest
  | 'A' :: rest => some (.place .textStart, rest)
  | 'z' :: rest => some (.place .textEnd, rest)
  | 'b' :: rest => (boundary? f rest).map fun r => (.place r.1, r.2)
  | 'B' :: rest => some (.place .noBoundary, rest)
  | '<' :: rest => some (.place .wordStart, rest)
  | '>' :: rest => some (.place .wordEnd, rest)
  | c :: rest => if c.toNat < 0x80 && !c.isAlphanum then some (.char c, rest) else none

end Immutability.Pattern
