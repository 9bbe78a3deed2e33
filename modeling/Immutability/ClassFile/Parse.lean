import Immutability.Access
import Immutability.ClassFile.Attribute
import Immutability.ClassFile.ModifiedUtf8

/-!
# The structure of class files

* `Member` is a field or method as it stands in a class file, and `ClassFile` the whole file;
* `Scan.pool` reads a constant pool;
* `ClassFile.parse` reads a whole file, to its last byte.
-/

namespace Immutability

namespace ClassFile

namespace Scan

/-- The signed number in two's complement of the given width in bytes. -/
def signed (width n : Nat) : Int := Int.bmod n (1 <<< (8 * width))

/-- Read an entry of the constant pool. -/
def poolEntry : Scan PoolEntry := do
  let tag ← u1
  match tag with
  | 1 =>
    match ModifiedUtf8.decode (← block (← u2)) with
    | some text => return .utf8 text
    | none => refuse .text
  | 3 => return .integer (signed 4 (← u4))
  | 4 => return .float (bigEndian (← block 4).toList).toUInt32
  | 5 => return .long (signed 8 (← u8))
  | 6 => return .double (bigEndian (← block 8).toList).toUInt64
  | 7 => return .cls (← u2)
  | 8 => return .string (← u2)
  | 9 => return .field (← u2) (← u2)
  | 10 => return .method (← u2) (← u2)
  | 11 => return .interfaceMethod (← u2) (← u2)
  | 12 => return .nameAndType (← u2) (← u2)
  | 15 => return .methodHandle (← u1) (← u2)
  | 16 => return .methodType (← u2)
  | 17 => return .dynamic (← u2) (← u2)
  | 18 => return .invokeDynamic (← u2) (← u2)
  | 19 => return .module (← u2)
  | 20 => return .package (← u2)
  | tag => refuse (.poolTag tag)

/-- Read the entries with the next `count` numbers. A constant of eight bytes takes two of them. -/
def poolEntries (count : Nat) (done : Pool) : Scan Pool :=
  match count with
  | 0 => return done
  | count + 1 => do
    match ← poolEntry with
    | .long value =>
      match count with
      | 0 => return done.push (.long value)
      | count + 1 => poolEntries count ((done.push (.long value)).push .empty)
    | .double bits =>
      match count with
      | 0 => return done.push (.double bits)
      | count + 1 => poolEntries count ((done.push (.double bits)).push .empty)
    | entry => poolEntries count (done.push entry)

/-- Read a constant pool. Its first number is unused. -/
def pool : Scan Pool := do
  match ← u2 with
  | 0 => return #[]
  | count + 1 => poolEntries count #[.empty]

end Scan

/-- A field or method as it stands in a class file. -/
structure Member where
  access : Access
  name : Nat
  descriptor : Nat
  attributes : List Attribute

/-- The flags that a class can have. -/
def classFlags : Access := ⟨0xF631⟩

/-- The flags that a field can have. -/
def fieldFlags : Access := ⟨0x50DF⟩

/-- The flags that a method can have. -/
def methodFlags : Access := ⟨0x1DFF⟩

/-- Read flags, of which only those that are known count. -/
def Scan.access (known : Access) : Scan Access := return known.inter ⟨(← Scan.u2).toUInt16⟩

/-- Read a field or method. -/
def Scan.member (pool : Pool) (known : Access) : Scan Member :=
  return ⟨← access known, ← u2, ← u2, ← attributes pool⟩

end ClassFile

/-- A class file. The numbers in it are those of pool entries. -/
structure ClassFile where
  pool : ClassFile.Pool
  access : Access
  cls : Nat
  superclass : Nat
  interfaces : List Nat
  fields : List ClassFile.Member
  methods : List ClassFile.Member
  attributes : List ClassFile.Attribute

namespace ClassFile

/-- The number that every class file starts with. -/
def magic : Nat := 0xCAFEBABE

/-- Read a class file. The version of the format does not matter. -/
def Scan.classFile : Scan ClassFile := do
  if (← u4) ≠ magic then refuse .notClassFile
  skipWords 2
  let pool ← Scan.pool
  let access ← Scan.access classFlags
  let cls ← u2
  let superclass ← u2
  let interfaces ← table u2
  let fields ← table (member pool fieldFlags)
  let methods ← table (member pool methodFlags)
  let attributes ← attributes pool
  return { pool, access, cls, superclass, interfaces, fields, methods, attributes }

/-- Read a class file to its last byte. -/
def parse (data : ByteArray) : Except FormatError ClassFile := do
  let (file, position) ← (Scan.classFile.run data).run 0
  if position = data.size then return file else throw (.leftOver data.size position)

end ClassFile

end Immutability
