import Immutability.Instruction
import Immutability.Text.Decimal

/-!
# Constant pools

The constants and symbolic references of a class file.

* `PoolEntry` is one entry, and `Pool` the numbered entries;
* `Pool.text`, `Pool.className`, `Pool.fieldRef` and their like resolve an entry by its number;
* `PoolError` says why an entry cannot be resolved.
-/

namespace Immutability.ClassFile

/-- An entry of a constant pool. The numbers in it are those of other entries. -/
inductive PoolEntry where
  /-- An unused number: the first one, and the one behind a constant of eight bytes. -/
  | empty
  | utf8 (text : String)
  | integer (value : Int)
  | float (bits : UInt32)
  | long (value : Int)
  | double (bits : UInt64)
  | cls (name : Nat)
  | string (text : Nat)
  | field (owner nameAndType : Nat)
  | method (owner nameAndType : Nat)
  | interfaceMethod (owner nameAndType : Nat)
  | nameAndType (name descriptor : Nat)
  | methodHandle (kind reference : Nat)
  | methodType (descriptor : Nat)
  | dynamic (bootstrap nameAndType : Nat)
  | invokeDynamic (bootstrap nameAndType : Nat)
  | module (name : Nat)
  | package (name : Nat)
  deriving DecidableEq, Repr

/-- The entries of a constant pool by their numbers. -/
abbrev Pool := Array PoolEntry

/-- A record with named fields, as messages show it. -/
def displayRecord (name : String) (fields : List (String × String)) : String :=
  name ++ " \x7b " ++ ", ".intercalate (fields.map fun f => f.1 ++ ": " ++ f.2) ++ " \x7d"

/-- An entry as messages show it. -/
def PoolEntry.display : PoolEntry → String
  | empty => "Empty"
  | utf8 text => displayRecord "Utf8" [("value", Text.quote text)]
  | integer value => displayRecord "Integer" [("value", toString value)]
  | float bits => displayRecord "Float" [("value", Text.displayFloat .single bits.toNat)]
  | long value => displayRecord "Long" [("value", toString value)]
  | double bits => displayRecord "Double" [("value", Text.displayFloat .double bits.toNat)]
  | cls name => displayRecord "Class" [("name_index", toString name)]
  | string text => displayRecord "String" [("string_index", toString text)]
  | field owner member =>
    displayRecord "Fieldref"
      [("class_index", toString owner), ("name_and_type_index", toString member)]
  | method owner member =>
    displayRecord "Methodref"
      [("class_index", toString owner), ("name_and_type_index", toString member)]
  | interfaceMethod owner member =>
    displayRecord "InterfaceMethodref"
      [("class_index", toString owner), ("name_and_type_index", toString member)]
  | nameAndType name descriptor =>
    displayRecord "NameAndType"
      [("name_index", toString name), ("descriptor_index", toString descriptor)]
  | methodHandle kind reference =>
    displayRecord "MethodHandle"
      [("reference_kind", toString kind), ("reference_index", toString reference)]
  | methodType descriptor => displayRecord "MethodType" [("descriptor_index", toString descriptor)]
  | dynamic bootstrap member =>
    displayRecord "Dynamic" [("bootstrap_method_attr_index", toString bootstrap),
      ("name_and_type_index", toString member)]
  | invokeDynamic bootstrap member =>
    displayRecord "InvokeDynamic" [("bootstrap_method_attr_index", toString bootstrap),
      ("name_and_type_index", toString member)]
  | module name => displayRecord "Module" [("name_index", toString name)]
  | package name => displayRecord "Package" [("name_index", toString name)]

/-- What an entry is expected to be. -/
inductive PoolRole where
  | utf8 | cls | nameAndType | field | method | invokeDynamic | methodHandle
  deriving DecidableEq, Repr

/-- A role in words. -/
def PoolRole.describe : PoolRole → String
  | utf8 => "utf8"
  | cls => "a class"
  | nameAndType => "a name-and-type"
  | field => "a field reference"
  | method => "a method reference"
  | invokeDynamic => "an invokedynamic"
  | methodHandle => "a method handle"

/-- Why an entry cannot be resolved. -/
inductive PoolError where
  | missing (index : Nat)
  | mismatch (index : Nat) (expected : PoolRole)
  /-- The class of a field reference cannot be resolved. -/
  | fieldOwner (cause : PoolError)
  /-- The class of a method reference cannot be resolved. -/
  | methodOwner (cause : PoolError)
  deriving DecidableEq, Repr

/-- The wording of an error. -/
def PoolError.message : PoolError → String
  | missing index => s!"missing constant pool entry {index}"
  | mismatch index expected => s!"constant pool entry {index} is not {expected.describe}"
  | fieldOwner cause => "resolve field owner: " ++ cause.message
  | methodOwner cause => "resolve method owner: " ++ cause.message

namespace Pool

/-- The entry with the given number. -/
def entry (pool : Pool) (index : Nat) : Except PoolError PoolEntry :=
  match pool[index]? with
  | some e => .ok e
  | none => .error (.missing index)

/-- The text of an entry. -/
def text (pool : Pool) (index : Nat) : Except PoolError String := do
  match ← pool.entry index with
  | .utf8 text => return text
  | _ => throw (.mismatch index .utf8)

/-- The name of a class entry as written, which is a descriptor for an array class. -/
def classText (pool : Pool) (index : Nat) : Except PoolError String := do
  match ← pool.entry index with
  | .cls name => pool.text name
  | _ => throw (.mismatch index .cls)

/-- The name of a class. -/
def className (pool : Pool) (index : Nat) : Except PoolError ClassName :=
  return .ofString (← pool.classText index)

/-- Name and descriptor of a member. -/
def nameAndType (pool : Pool) (index : Nat) : Except PoolError (String × String) := do
  match ← pool.entry index with
  | .nameAndType name descriptor => return (← pool.text name, ← pool.text descriptor)
  | _ => throw (.mismatch index .nameAndType)

/-- A reference to a field. -/
def fieldRef (pool : Pool) (index : Nat) : Except PoolError FieldRef := do
  match ← pool.entry index with
  | .field owner member =>
    let owner ← (pool.className owner).mapError .fieldOwner
    let (name, descriptor) ← pool.nameAndType member
    return { owner, name, descriptor }
  | _ => throw (.mismatch index .field)

/-- A reference to the method `member` of the class `owner`. -/
def memberRef (pool : Pool) (owner member : Nat) : Except PoolError MethodRef := do
  let owner ← (pool.className owner).mapError .methodOwner
  let (name, descriptor) ← pool.nameAndType member
  return { owner, name, descriptor }

/-- A reference to a method of a class or interface. -/
def methodRef (pool : Pool) (index : Nat) : Except PoolError MethodRef := do
  match ← pool.entry index with
  | .method owner member => pool.memberRef owner member
  | .interfaceMethod owner member => pool.memberRef owner member
  | _ => throw (.mismatch index .method)

/-- The number of the bootstrap method, the name and the descriptor of a dynamic call site. -/
def callSite (pool : Pool) (index : Nat) : Except PoolError (Nat × String × String) := do
  match ← pool.entry index with
  | .invokeDynamic bootstrap member =>
    let (name, descriptor) ← pool.nameAndType member
    return (bootstrap, name, descriptor)
  | _ => throw (.mismatch index .invokeDynamic)

/-- The class of the method behind a method handle. -/
def handleOwner (pool : Pool) (index : Nat) : Except PoolError ClassName := do
  match ← pool.entry index with
  | .methodHandle _ reference => return (← pool.methodRef reference).owner
  | _ => throw (.mismatch index .methodHandle)

/-- The kind of constant that an entry pushes. -/
def constant (pool : Pool) (index : Nat) : Except PoolError Constant := do
  match ← pool.entry index with
  | .integer _ => return .int
  | .float _ => return .float
  | .long _ => return .long
  | .double _ => return .double
  | .string _ => return .string
  | .cls _ => return .classLiteral
  | _ => return .other

end Pool

end Immutability.ClassFile
