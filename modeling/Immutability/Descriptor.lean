import Immutability.ClassName
import Immutability.Text.Quoted

/-!
# Types and their descriptors

* `Primitive`, `FieldType` and `Signature` are the types of values, fields and methods;
* `FieldType.scan` reads one type off the front of a text, `FieldType.parse` a whole text, and
  `Signature.parse` the descriptor of a method;
* `DescriptorError` says why a descriptor is refused, and `DescriptorError.message` words it.

An array type keeps the text of its descriptor, so two spellings of one array type differ.
-/

namespace Immutability

/-- The primitive types. -/
inductive Primitive where
  | byte | char | double | float | int | long | short | boolean
  deriving DecidableEq, Repr

namespace Primitive

/-- The letter that stands for a primitive type in descriptors. -/
def letter : Primitive → Char
  | byte => 'B'
  | char => 'C'
  | double => 'D'
  | float => 'F'
  | int => 'I'
  | long => 'J'
  | short => 'S'
  | boolean => 'Z'

/-- The primitive type that a letter stands for. -/
def ofLetter? : Char → Option Primitive
  | 'B' => some byte
  | 'C' => some char
  | 'D' => some double
  | 'F' => some float
  | 'I' => some int
  | 'J' => some long
  | 'S' => some short
  | 'Z' => some boolean
  | _ => none

/-- The keyword of a primitive type. -/
def keyword : Primitive → String
  | byte => "byte"
  | char => "char"
  | double => "double"
  | float => "float"
  | int => "int"
  | long => "long"
  | short => "short"
  | boolean => "boolean"

/-- Whether a value of the type fills two local slots. -/
def isWide : Primitive → Bool
  | long | double => true
  | _ => false

@[simp] theorem ofLetter?_letter (p : Primitive) : ofLetter? p.letter = some p := by
  cases p <;> rfl

end Primitive

/-- The type of a field: primitive, a class or interface, or an array given by its descriptor. -/
inductive FieldType where
  | primitive (type : Primitive)
  | object (name : ClassName)
  | array (descriptor : String)
  deriving DecidableEq, Repr

/-- The type of a method; no result stands for `void`. -/
structure Signature where
  parameters : List FieldType
  result : Option FieldType
  deriving DecidableEq, Repr

/-- Why a text is not a descriptor. -/
inductive DescriptorError where
  /-- No type is left to read. -/
  | empty
  /-- The class name at the front of the text has no end. -/
  | unterminated (text : String)
  /-- No type starts with this character. -/
  | unexpected (c : Char)
  /-- The text goes on behind its type. -/
  | trailing (text : String)
  /-- A method descriptor that does not open its parameters. -/
  | unopened (text : String)
  /-- A method descriptor that does not close its parameters. -/
  | unclosed (text : String)
  | parameter (text : String) (cause : DescriptorError)
  | result (text : String) (cause : DescriptorError)
  deriving DecidableEq, Repr

/-- The wording of a refusal. -/
def DescriptorError.message : DescriptorError → String
  | empty => "empty descriptor"
  | unterminated text => "unterminated class descriptor " ++ Text.quote text
  | unexpected c => "unexpected descriptor character " ++ Text.quoteChar c
  | trailing text => "trailing characters in field descriptor " ++ Text.quote text
  | unopened text => "method descriptor " ++ Text.quote text ++ " must start with '('"
  | unclosed text => "method descriptor " ++ Text.quote text ++ " has no ')'"
  | parameter text cause => "invalid parameter in " ++ Text.quote text ++ ": " ++ cause.message
  | result text cause => "invalid return type in " ++ Text.quote text ++ ": " ++ cause.message

namespace FieldType

/-- Read a type that is not an array off the front of a text. -/
def scanElement (cs : List Char) : Except DescriptorError (FieldType × List Char) :=
  match cs with
  | [] => .error .empty
  | c :: rest =>
    match Primitive.ofLetter? c with
    | some p => .ok (.primitive p, rest)
    | none =>
      if c = 'L' then
        match rest.dropWhile (· ≠ ';') with
        | [] => .error (.unterminated (String.ofList cs))
        | _ :: after =>
          .ok (.object (.ofString (String.ofList (rest.takeWhile (· ≠ ';')))), after)
      else .error (.unexpected c)

/-- Read a type off the front of a text; the text of an array type is the part that was read. -/
def scan (cs : List Char) : Except DescriptorError (FieldType × List Char) := do
  let element := cs.dropWhile (· = '[')
  let (type, rest) ← scanElement element
  if cs.length = element.length then return (type, rest)
  return (.array (String.ofList (cs.take (cs.length - rest.length))), rest)

/-- Reading consumes at least one character. -/
theorem scanElement_length {cs rest : List Char} {t : FieldType}
    (h : scanElement cs = .ok (t, rest)) : rest.length < cs.length := by
  cases cs with
  | nil => simp [scanElement] at h
  | cons c cs =>
    simp only [scanElement] at h
    split at h
    · cases h; simp
    · split at h
      · have hs : (cs.dropWhile (· ≠ ';')).length ≤ cs.length :=
          (List.dropWhile_suffix _).length_le
        split at h
        · cases h
        · rename_i heq
          cases h
          rw [heq] at hs
          simp only [List.length_cons] at hs ⊢
          omega
      · cases h

theorem scan_length {cs rest : List Char} {t : FieldType} (h : scan cs = .ok (t, rest)) :
    rest.length < cs.length := by
  have hs : (cs.dropWhile (· = '[')).length ≤ cs.length := (List.dropWhile_suffix _).length_le
  simp only [scan, bind, Except.bind] at h
  split at h
  · cases h
  · rename_i p hp
    have hl := scanElement_length hp
    split at h <;> (cases h; omega)

/-- Read a text that is one type and nothing else. -/
def parse (descriptor : String) : Except DescriptorError FieldType := do
  let (type, rest) ← scan descriptor.toList
  if rest.isEmpty then return type
  throw (.trailing descriptor)

/-- Whether a value of the type fills two local slots. -/
def isWide : FieldType → Bool
  | primitive p => p.isWide
  | _ => false

/-- The number of local slots that a value of the type fills. -/
def slots (t : FieldType) : Nat := if t.isWide then 2 else 1

/-- The type of the elements of an array. -/
def element? : FieldType → Option FieldType
  | array descriptor => (parse (String.ofList (descriptor.toList.drop 1))).toOption
  | _ => none

/-- The type in the notation of source code, with a pair of brackets for each array dimension. -/
def display : FieldType → String
  | primitive p => p.keyword
  | object name => name.text
  | array descriptor =>
    let element := (descriptor.toList.drop 1).dropWhile (· = '[')
    let brackets := String.join (List.replicate (descriptor.length - element.length) "[]")
    match scanElement element with
    | .ok (.primitive p, []) => p.keyword ++ brackets
    | .ok (.object name, []) => name.text ++ brackets
    | _ => "array"

/-- Read a text that is a sequence of types. -/
def scanAll (cs : List Char) : Except DescriptorError (List FieldType) :=
  match cs with
  | [] => .ok []
  | c :: cs =>
    match _h : scan (c :: cs) with
    | .error e => .error e
    | .ok (type, rest) => (scanAll rest).map (type :: ·)
termination_by cs.length
decreasing_by exact scan_length _h

end FieldType

namespace Signature

/-- Read the descriptor of a method. The first closing parenthesis ends its parameters. -/
def parse (descriptor : String) : Except DescriptorError Signature :=
  match descriptor.toList with
  | '(' :: body =>
    match body.dropWhile (· ≠ ')') with
    | [] => .error (.unclosed descriptor)
    | _ :: result => do
      let parameters ← (FieldType.scanAll (body.takeWhile (· ≠ ')'))).mapError
        (.parameter descriptor)
      if result = ['V'] then return ⟨parameters, none⟩
      let type ← (FieldType.parse (String.ofList result)).mapError (.result descriptor)
      return ⟨parameters, some type⟩
  | _ => .error (.unopened descriptor)

/-- The number of local slots that the parameters fill. -/
def parameterSlots (s : Signature) : Nat :=
  s.parameters.foldr (fun type slots => type.slots + slots) 0

end Signature

end Immutability
