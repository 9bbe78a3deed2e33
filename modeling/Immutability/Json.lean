import Immutability.Text.Hexadecimal

/-!
# JSON

* `Json` is a JSON value; the members of an object keep their order;
* `Json.pretty` writes a value over several lines, indented by two spaces;
* `Json.members?` and the functions behind it read the values of known shapes.
-/

namespace Immutability

/-- A JSON value. All numbers are integers. -/
inductive Json where
  | null
  | bool (b : Bool)
  | num (n : Int)
  | str (s : String)
  | arr (items : List Json)
  | obj (members : List (String × Json))
  deriving Inhabited

namespace Json

/-! ### Writing -/

/-- A character as it stands in a JSON string. -/
def escapeChar (c : Char) : String :=
  if c = '"' then "\\\""
  else if c = '\\' then "\\\\"
  else if c = '\n' then "\\n"
  else if c = '\r' then "\\r"
  else if c = '\t' then "\\t"
  else if c = '\x08' then "\\b"
  else if c = '\x0c' then "\\f"
  else if c.toNat < 0x20 then "\\u00" ++ Text.hexByte c.toNat
  else c.toString

/-- A string in JSON notation. -/
def quote (s : String) : String := "\"" ++ String.join (s.toList.map escapeChar) ++ "\""

/-- The blanks in front of a line at the given depth. -/
def indentation (depth : Nat) : String := String.ofList (List.replicate (2 * depth) ' ')

/-- Items on lines of their own between two delimiters. -/
def bracketed (depth : Nat) (opening closing : String) (items : List String) : String :=
  if items.isEmpty then opening ++ closing
  else
    let line := fun item => indentation (depth + 1) ++ item
    opening ++ "\n" ++ ",\n".intercalate (items.map line) ++ "\n" ++ indentation depth ++ closing

mutual

/-- A value in JSON notation, with every item of a list or object on lines of its own. -/
def pretty (depth : Nat) : Json → String
  | null => "null"
  | bool b => if b then "true" else "false"
  | num n => toString n
  | str s => quote s
  | arr items => bracketed depth "[" "]" (prettyItems (depth + 1) items)
  | obj members => bracketed depth "\x7b" "\x7d" (prettyMembers (depth + 1) members)

/-- The items of a list. -/
def prettyItems (depth : Nat) : List Json → List String
  | [] => []
  | v :: vs => pretty depth v :: prettyItems depth vs

/-- The members of an object. -/
def prettyMembers (depth : Nat) : List (String × Json) → List String
  | [] => []
  | (key, v) :: ms => (quote key ++ ": " ++ pretty depth v) :: prettyMembers depth ms

end

/-! ### Reading values of a known shape -/

/-- The values of the given keys, none of which may occur twice, in the order of the keys. Other
keys do not count. -/
def lookups? (keys : List String) (members : List (String × Json)) : Option (List (Option Json)) :=
  if keys.all fun key => members.countP (·.1 == key) ≤ 1 then
    some (keys.map fun key => members.lookup key)
  else none

/-- The values of a record with the given keys, in the order of the keys. A record is written as an
object or as the list of its leading values. -/
def members? (keys : List String) : Json → Option (List (Option Json))
  | obj members => lookups? keys members
  | arr items =>
    if items.length ≤ keys.length then
      some (items.map some ++ List.replicate (keys.length - items.length) none)
    else none
  | _ => none

/-- The text of a string. -/
def string? : Json → Option String
  | str s => some s
  | _ => none

/-- One of a fixed set of words, written as a string or as the only key of an object whose value
is null. -/
def keyword? : Json → Option String
  | str s => some s
  | obj [(key, null)] => some key
  | _ => none

/-- A truth value. -/
def bool? : Json → Option Bool
  | bool b => some b
  | _ => none

/-- A count, below 2^64. -/
def count? : Json → Option Nat
  | num (.ofNat n) => if n < UInt64.size then some n else none
  | _ => none

/-- A list of values that all have the same shape. -/
def list? {α : Type} (item? : Json → Option α) : Json → Option (List α)
  | arr items => items.mapM item?
  | _ => none

/-- An optional value; `null` stands for none. -/
def optional? {α : Type} (item? : Json → Option α) : Json → Option (Option α)
  | null => some none
  | v => (item? v).map some

/-- The value of a member that must be there. -/
def required? {α : Type} (item? : Json → Option α) (member : Option Json) : Option α :=
  member.bind item?

/-- The value of a member that may be left out. -/
def withDefault? {α : Type} (default : α) (item? : Json → Option α) (member : Option Json) :
    Option α :=
  match member with
  | none => some default
  | some v => item? v

end Json

end Immutability
