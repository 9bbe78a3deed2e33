import Immutability.Json

/-!
# The notation of JSON

What a JSON text means: it is split into tokens, and a value is put together from the tokens.

* `Json.tokens?` splits a text into tokens;
* `Json.Frame` is a list or an object of which a value is still to come, and `Json.value?` and
  `Json.close?` put a value together inside a stack of such frames;
* `Json.parse?` is the value that a text is the notation of;
* `Json.Reads` says that a reader of JSON text follows the notation, and `Json.FitsIn` which values
  it must not refuse.
-/

namespace Immutability.Json

/-! ### Tokens -/

/-- A piece of JSON text. -/
inductive Token where
  | scalar (v : Json)
  | openList
  | closeList
  | openObject
  | closeObject
  | comma
  | colon

/-- The number with four hexadecimal digits. -/
def hexCode? (a b c d : Char) : Option Nat := do
  let high := (← Text.hexDigit? a) * 16 + (← Text.hexDigit? b)
  let low := (← Text.hexDigit? c) * 16 + (← Text.hexDigit? d)
  return high * 0x100 + low

/-- The character that a letter stands for after a backslash. -/
def escaped? : Char → Option Char
  | '"' => some '"'
  | '\\' => some '\\'
  | '/' => some '/'
  | 'b' => some '\x08'
  | 'f' => some '\x0c'
  | 'n' => some '\n'
  | 'r' => some '\r'
  | 't' => some '\t'
  | _ => none

/-- The codes of a string up to its closing quote, and the text behind it. -/
def stringCodes? : List Char → Option (List Nat × List Char)
  | [] => none
  | '"' :: rest => some ([], rest)
  | '\\' :: 'u' :: a :: b :: c :: d :: rest =>
    match hexCode? a b c d, stringCodes? rest with
    | some code, some (codes, rest) => some (code :: codes, rest)
    | _, _ => none
  | '\\' :: c :: rest =>
    match escaped? c, stringCodes? rest with
    | some c, some (codes, rest) => some (c.toNat :: codes, rest)
    | _, _ => none
  | c :: rest =>
    if c.toNat < 0x20 ∨ c = '\\' then none
    else
      match stringCodes? rest with
      | some (codes, rest) => some (c.toNat :: codes, rest)
      | none => none

theorem length_stringCodes? {cs rest : List Char} {codes : List Nat}
    (h : stringCodes? cs = some (codes, rest)) : rest.length < cs.length := by
  fun_induction stringCodes? cs generalizing codes rest <;> simp at h ⊢ <;> grind

/-- The characters with the given codes. A character outside the first plane may be given by two
codes, of which neither stands alone. -/
def joinCodes? : List Nat → Option (List Char)
  | [] => some []
  | code :: codes =>
    if 0xD800 ≤ code ∧ code ≤ 0xDBFF then
      match codes with
      | low :: codes =>
        if 0xDC00 ≤ low ∧ low ≤ 0xDFFF then
          (joinCodes? codes).map
            (Char.ofNat (0x10000 + (code - 0xD800) * 0x400 + (low - 0xDC00)) :: ·)
        else none
      | [] => none
    else if 0xDC00 ≤ code ∧ code ≤ 0xDFFF then none
    else (joinCodes? codes).map (Char.ofNat code :: ·)

/-- The value of a digit. -/
def digit? (c : Char) : Option Nat :=
  if '0' ≤ c ∧ c ≤ '9' then some (c.toNat - '0'.toNat) else none

/-- The number written with the given digits, without a zero in front. -/
def natural? (cs : List Char) : Option Nat :=
  match cs with
  | [] => none
  | '0' :: _ :: _ => none
  | cs => cs.foldlM (fun n c => return n * 10 + (← digit? c)) 0

/-- The value of a word. Numbers other than integers cannot be read. -/
def word? (cs : List Char) : Option Json :=
  match cs with
  | ['n', 'u', 'l', 'l'] => some null
  | ['t', 'r', 'u', 'e'] => some (bool true)
  | ['f', 'a', 'l', 's', 'e'] => some (bool false)
  | ['-', '0'] => none
  | '-' :: cs => (natural? cs).map fun n => num (-n)
  | cs => (natural? cs).map fun n => num n

/-- Whether a character belongs to a word. -/
def isWordChar (c : Char) : Bool := c.isAlphanum || c == '-' || c == '+' || c == '.'

/-- Whether a character may stand between tokens. -/
def isSpace (c : Char) : Bool := c == ' ' || c == '\n' || c == '\r' || c == '\t'

/-- The token that consists of one character. -/
def mark? : Char → Option Token
  | '[' => some .openList
  | ']' => some .closeList
  | '\x7b' => some .openObject
  | '\x7d' => some .closeObject
  | ',' => some .comma
  | ':' => some .colon
  | _ => none

/-- The tokens of a text. -/
def tokens? (cs : List Char) : Option (List Token) :=
  match cs with
  | [] => some []
  | c :: rest =>
    if isSpace c then tokens? rest
    else if c = '"' then
      match _h : stringCodes? rest with
      | some (codes, rest') =>
        match joinCodes? codes with
        | some s => (tokens? rest').map (.scalar (str (String.ofList s)) :: ·)
        | none => none
      | none => none
    else
      match mark? c with
      | some t => (tokens? rest).map (t :: ·)
      | none =>
        if isWordChar c then do
          let v ← word? (c :: rest.takeWhile isWordChar)
          (tokens? (rest.dropWhile isWordChar)).map (.scalar v :: ·)
        else none
termination_by cs.length
decreasing_by
  · simp
  · have := length_stringCodes? _h
    simp
    omega
  · simp
  · have := (List.dropWhile_suffix isWordChar (l := rest)).length_le
    simp
    omega

/-! ### Values -/

/-- A list or an object of which a value is still to come; what was read before it comes last
first. -/
inductive Frame where
  | list (before : List Json)
  | object (before : List (String × Json)) (key : String)

mutual

/-- The value that the tokens make up together with the open frames, of which the innermost expects
a value. -/
def value? (stack : List Frame) : List Token → Option Json
  | .scalar v :: rest => close? v stack rest
  | .openList :: .closeList :: rest => close? (arr []) stack rest
  | .openList :: rest => value? (.list [] :: stack) rest
  | .openObject :: .closeObject :: rest => close? (obj []) stack rest
  | .openObject :: .scalar (str key) :: .colon :: rest => value? (.object [] key :: stack) rest
  | _ => none

/-- The value that the tokens make up when the innermost frame has just been given a value. -/
def close? (v : Json) (stack : List Frame) : List Token → Option Json
  | [] => if stack.isEmpty then some v else none
  | .comma :: .scalar (str key) :: .colon :: rest =>
    match stack with
    | .object before k :: stack => value? (.object ((k, v) :: before) key :: stack) rest
    | _ => none
  | .comma :: rest =>
    match stack with
    | .list before :: stack => value? (.list (v :: before) :: stack) rest
    | _ => none
  | .closeList :: rest =>
    match stack with
    | .list before :: stack => close? (arr (v :: before).reverse) stack rest
    | _ => none
  | .closeObject :: rest =>
    match stack with
    | .object before k :: stack => close? (obj ((k, v) :: before).reverse) stack rest
    | _ => none
  | _ => none

end

/-- The value that a text is the notation of. -/
def parse? (text : String) : Option Json := (tokens? text.toList).bind (value? [])

/-! ### Readers -/

/-- The value is nested at most `depth` deep, and its numbers are machine words, signed if they are
negative. -/
def FitsIn : Nat → Json → Prop
  | 0, arr _ | 0, obj _ => False
  | depth + 1, arr items => ∀ v ∈ items, FitsIn depth v
  | depth + 1, obj members => ∀ m ∈ members, FitsIn depth m.2
  | _, num n => -0x8000000000000000 ≤ n ∧ n < 0x10000000000000000
  | _, _ => True

/-- The reader finds the value that a text is the notation of. It may refuse a text whose value is
nested deep or has large numbers. -/
def Reads (read : String → Option Json) : Prop :=
  ∀ text v, parse? text = some v → v.FitsIn 127 → read text = some v

end Immutability.Json
