import Immutability.Archive.Inflate

/-!
# Archives

An archive holds files under their names. A directory at its end says where they are.

* `Archive.checksum` is the checksum of a file;
* `Archive.read?` lists the files of an archive.
-/

namespace Immutability.Archive

/-- The number of the given width in bytes at a position, least significant byte first. -/
def littleEndian? (data : ByteArray) (position : Nat) : Nat → Option Nat
  | 0 => some 0
  | width + 1 => do
    let low ← data[position]?
    let high ← littleEndian? data (position + 1) width
    return low.toNat + 256 * high

/-- The bytes from a position on, if there are so many. -/
def block? (data : ByteArray) (start size : Nat) : Option ByteArray :=
  if start + size ≤ data.size then some (data.extract start (start + size)) else none

/-- The checksum with one more bit shifted out. -/
def shiftBit (c : UInt32) : UInt32 :=
  if c &&& 1 = 1 then (c >>> 1) ^^^ 0xEDB88320 else c >>> 1

/-- The checksum with one more byte. -/
def addByte (c : UInt32) (b : UInt8) : UInt32 :=
  Nat.repeat shiftBit 8 (c ^^^ b.toUInt32)

/-- The cyclic checksum of a file. -/
def checksum (data : ByteArray) : UInt32 := data.foldl addByte 0xFFFFFFFF ^^^ 0xFFFFFFFF

/-- The position of the record that ends an archive: the last one at or before a position. -/
def endRecord? (data : ByteArray) : Nat → Option Nat
  | 0 => if littleEndian? data 0 4 = some 0x06054B50 then some 0 else none
  | position + 1 =>
    if littleEndian? data (position + 1) 4 = some 0x06054B50 then some (position + 1)
    else endRecord? data position

/-- A file in the directory of an archive. -/
structure Member where
  name : ByteArray
  isEncrypted : Bool
  method : Nat
  checksum : Nat
  size : Nat
  position : Nat

/-- The record of a file in the directory, and the position behind it. -/
def member? (data : ByteArray) (start : Nat) : Option (Member × Nat) := do
  let signature ← littleEndian? data start 4
  if signature ≠ 0x02014B50 then none
  let flags ← littleEndian? data (start + 8) 2
  let method ← littleEndian? data (start + 10) 2
  let checksum ← littleEndian? data (start + 16) 4
  let size ← littleEndian? data (start + 20) 4
  let nameSize ← littleEndian? data (start + 28) 2
  let extraSize ← littleEndian? data (start + 30) 2
  let commentSize ← littleEndian? data (start + 32) 2
  let position ← littleEndian? data (start + 42) 4
  let name ← block? data (start + 46) nameSize
  return (⟨name, flags % 2 = 1, method, checksum, size, position⟩,
    start + 46 + nameSize + extraSize + commentSize)

/-- The records of the directory. -/
def members? (data : ByteArray) (start : Nat) : Nat → Option (List Member)
  | 0 => some []
  | n + 1 => do
    let (m, next) ← member? data start
    let rest ← members? data next n
    return m :: rest

/-- The content of a file, if it can be unpacked. `base` is the position at which the archive
starts. -/
def content? (data : ByteArray) (base : Nat) (m : Member) : Option ByteArray := do
  let start := base + m.position
  let signature ← littleEndian? data start 4
  if signature ≠ 0x04034B50 || m.isEncrypted then none
  let nameSize ← littleEndian? data (start + 26) 2
  let extraSize ← littleEndian? data (start + 28) 2
  let packed ← block? data (start + 30 + nameSize + extraSize) m.size
  let content ← match m.method with
    | 0 => some packed
    | 8 => inflate? packed
    | _ => none
  if (checksum content).toNat = m.checksum then some content else none

/-- The files of an archive, or none if the bytes are not an archive. Files that cannot be unpacked
are left out. -/
def read? (data : ByteArray) : Option (List (String × ByteArray)) := do
  if data.size < 22 then none
  let stop ← endRecord? data (data.size - 22)
  let count ← littleEndian? data (stop + 10) 2
  let size ← littleEndian? data (stop + 12) 4
  let position ← littleEndian? data (stop + 16) 4
  if stop < size + position then none
  let base := stop - size - position
  let members ← members? data (base + position) count
  return members.filterMap fun m => do
    let name ← String.fromUTF8? m.name
    return (name, ← content? data base m)

end Immutability.Archive
