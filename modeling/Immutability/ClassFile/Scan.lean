import Immutability.ClassFile.Pool

/-!
# Scanning bytes

A class file is read strictly forward, in big-endian order.

* `FormatError` says why the bytes are not those of a class file;
* `Scan` is a step of reading, which knows the bytes and the position reached;
* `Scan.u1`, `u2`, `u4`, `u8` and `block` read numbers and blocks of bytes, and `Scan.table` reads
  a sequence behind its length.
-/

namespace Immutability.ClassFile

/-- Why bytes are not those of a class file. -/
inductive FormatError where
  /-- A number at `position` reaches beyond the end. -/
  | overflow (position size : Nat)
  /-- A block that stops at `stop` reaches beyond the end. -/
  | bounds (stop size : Nat)
  | notClassFile
  /-- Bytes are left behind the class. -/
  | leftOver (size position : Nat)
  | poolTag (tag : Nat)
  /-- The bytes of a text are malformed. -/
  | text
  /-- The name of an attribute is not in the constant pool. -/
  | noAttributeName (index : Nat)
  /-- The name of an attribute is not a text. -/
  | attributeName (entry : PoolEntry)
  | unknownAttribute (name : String)
  | annotationTag (tag : Nat)
  | frameType (type : Nat)
  | frameTag (tag : Nat)
  deriving DecidableEq, Repr

/-- The wording of an error. -/
def FormatError.message : FormatError → String
  | overflow position size =>
    s!"I/O Error: overflow : attempt to read from {position} whereas len is {size}"
  | bounds stop size => s!"I/O Error: Index out of bounds: {stop} of {size}"
  | notClassFile => "InvalidInput Error: Not a valid class-file"
  | leftOver size position =>
    s!"I/O Error: Not all was read : data.len() is {size}, start_from is {position}"
  | poolTag tag => s!"I/O Error: unmatched tag: {tag}"
  | text => "I/O Error: could not convert CESU-8 data to UTF-8"
  | noAttributeName index => s!"I/O Error: element not found at index {index}"
  | attributeName entry => s!"I/O Error: element type is not Uint8 but {entry.display}"
  | unknownAttribute name => s!"I/O Error: unmatched attribute: {name}"
  | annotationTag tag => s!"I/O Error: Unsupported element tag: {tag}"
  | frameType type => s!"I/O Error: Unsupported frame_type: {type}"
  | frameTag tag => s!"I/O Error: tag {tag} is not valid"

/-- A step of reading: the bytes are given, and the position moves forward. -/
abbrev Scan := ReaderT ByteArray (StateT Nat (Except FormatError))

namespace Scan

/-- The number in the given bytes, most significant first. -/
def bigEndian (bytes : List UInt8) : Nat := bytes.foldl (fun n b => 256 * n + b.toNat) 0

/-- The bytes from `start` up to `stop`. -/
def slice (data : ByteArray) (start stop : Nat) : List UInt8 := (data.extract start stop).toList

/-- Read a number of the given width in bytes. -/
def word (width : Nat) : Scan Nat := do
  let data ← read
  let position ← get
  if position + width ≤ data.size then
    set (position + width)
    return bigEndian (slice data position (position + width))
  else throw (.overflow position data.size)

/-- Read a number of one byte. -/
def u1 : Scan Nat := word 1
/-- Read a number of two bytes. -/
def u2 : Scan Nat := word 2
/-- Read a number of four bytes. -/
def u4 : Scan Nat := word 4
/-- Read a number of eight bytes. -/
def u8 : Scan Nat := word 8

/-- Require a block of bytes to be there, without reading it. -/
def requireBlock (size : Nat) : Scan Unit := do
  let data ← read
  let position ← get
  if data.size < position + size then throw (.bounds (position + size) data.size)

/-- Read a block of bytes. -/
def block (size : Nat) : Scan ByteArray := do
  requireBlock size
  let position ← get
  set (position + size)
  return (← read).extract position (position + size)

/-- Read the same thing a number of times. -/
def times {α : Type} (item : Scan α) : Nat → Scan (List α)
  | 0 => return []
  | n + 1 => do
    let first ← item
    let rest ← times item n
    return first :: rest

/-- Read a sequence behind its length. -/
def table {α : Type} (item : Scan α) : Scan (List α) := do times item (← u2)

/-- Read numbers of two bytes whose values do not matter. -/
def skipWords (count : Nat) : Scan Unit := do
  let _ ← times u2 count

/-- Read a sequence of entries of a fixed number of words each, whose values do not matter. -/
def skipTable (words : Nat) : Scan Unit := do
  let _ ← table (skipWords words)

/-- Refuse the bytes. -/
def refuse {α : Type} (e : FormatError) : Scan α := throw e

end Scan

end Immutability.ClassFile
