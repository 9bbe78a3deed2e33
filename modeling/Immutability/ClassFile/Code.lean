import Std.Data.HashMap
import Immutability.ClassFacts
import Immutability.ClassFile.Attribute
import Immutability.Text.Hexadecimal

/-!
# Decoding method bodies

The bytes of a method body become instructions, and byte offsets become instruction indices.

* `decodeAt` decodes the instruction at an offset, together with its length, and `DecodeError` says
  why it cannot;
* `decodeAll` decodes the instructions that lie end to end, each with its offset;
* `Boundaries` maps the offset of an instruction to its index;
* `decodeBody` decodes a body with its exception handlers, and `CodeError` says why it cannot.
-/

namespace Immutability.ClassFile

/-- An operand of one byte. -/
inductive Operand where
  | constantIndex | loadSlot | storeSlot | incrementSlot | arrayType | arrayDimensions | wideOpcode
  deriving DecidableEq, Repr

/-- The message for an operand that is missing. -/
def Operand.describe : Operand → String
  | constantIndex => "ldc index"
  | loadSlot => "load slot"
  | storeSlot => "store slot"
  | incrementSlot => "iinc slot"
  | arrayType => "newarray type"
  | arrayDimensions => "multianewarray dimensions"
  | wideOpcode => "missing wide opcode"

/-- Why an instruction cannot be decoded. -/
inductive DecodeError where
  | pool (cause : PoolError)
  | missing (operand : Operand)
  /-- An operand of two bytes reaches beyond the end. -/
  | shortWord
  /-- An operand of four bytes reaches beyond the end. -/
  | shortDouble
  | beforeStart (target : Int)
  | tableRange
  | lookupPairs
  | arrayType (type : Nat)
  | opcode (opcode : Nat)
  | wideOpcode (opcode : Nat)
  | subroutine
  | truncated (opcode : Nat)
  deriving DecidableEq, Repr

/-- The wording of an error. -/
def DecodeError.message : DecodeError → String
  | pool cause => cause.message
  | missing operand => operand.describe
  | shortWord => "bytecode u16 out of bounds"
  | shortDouble => "bytecode i32 out of bounds"
  | beforeStart target => s!"branch target {target} before method start"
  | tableRange => "invalid tableswitch range"
  | lookupPairs => "invalid lookupswitch pairs"
  | arrayType type => s!"invalid newarray type {type}"
  | opcode n => "unsupported opcode 0x" ++ Text.hexByte n
  | wideOpcode n => "invalid wide opcode 0x" ++ Text.hexByte n
  | subroutine => "subroutines (jsr/ret) are not supported"
  | truncated n => "truncated instruction 0x" ++ Text.hexByte n

/-! ### Operands -/

/-- The operand of one byte at an offset. -/
def byteAt (operand : Operand) (code : Array UInt8) (offset : Nat) : Except DecodeError Nat :=
  match code[offset]? with
  | some b => .ok b.toNat
  | none => .error (.missing operand)

/-- The operand of two bytes at an offset. -/
def wordAt (code : Array UInt8) (offset : Nat) : Except DecodeError Nat :=
  match code[offset]?, code[offset + 1]? with
  | some a, some b => .ok (a.toNat * 256 + b.toNat)
  | _, _ => .error .shortWord

/-- The signed operand of four bytes at an offset. -/
def doubleAt (code : Array UInt8) (offset : Nat) : Except DecodeError Int :=
  match code[offset]?, code[offset + 1]?, code[offset + 2]?, code[offset + 3]? with
  | some a, some b, some c, some d =>
    let n := ((a.toNat * 256 + b.toNat) * 256 + c.toNat) * 256 + d.toNat
    .ok (Int.bmod n 0x100000000)
  | _, _, _, _ => .error .shortDouble

/-- The signed value of a word. -/
def signedWord (n : Nat) : Int := Int.bmod n 0x10000

/-- The target at a distance from an offset. -/
def targetAt (offset : Nat) (distance : Int) : Except DecodeError Nat :=
  let target := (offset : Int) + distance
  if target < 0 then .error (.beforeStart target) else .ok target.toNat

/-- The target of a jump whose distance is the word behind the opcode. -/
def shortTarget (code : Array UInt8) (offset : Nat) : Except DecodeError Nat := do
  targetAt offset (signedWord (← wordAt code (offset + 1)))

/-- The target of a jump whose distance is the four bytes at `position`. -/
def longTarget (code : Array UInt8) (offset position : Nat) : Except DecodeError Nat := do
  targetAt offset (← doubleAt code position)

/-- The targets at positions that are `stride` bytes apart. -/
def targetsFrom (code : Array UInt8) (offset stride position : Nat) :
    Nat → Except DecodeError (List Nat)
  | 0 => .ok []
  | count + 1 => do
    let first ← longTarget code offset position
    let rest ← targetsFrom code offset stride (position + stride) count
    return first :: rest

/-- The number of bytes between the opcode of a switch and its operands, which start at a multiple
of four. -/
def padding (offset : Nat) : Nat := (4 - (offset + 1) % 4) % 4

/-! ### Families of opcodes -/

/-- The kinds in the order of most families of opcodes. -/
def familyKind : Nat → Kind
  | 0 => .int
  | 1 => .long
  | 2 => .float
  | 3 => .double
  | _ => .reference

/-- The kinds in the order of the array accesses; the narrow integer types come last. -/
def arrayKind : Nat → Kind
  | 1 => .long
  | 2 => .float
  | 3 => .double
  | 4 => .reference
  | _ => .int

/-- The kind of the result of a conversion. -/
def conversionKind : Nat → Kind
  | 0x85 | 0x8C | 0x8F => .long
  | 0x86 | 0x89 | 0x90 => .float
  | 0x87 | 0x8A | 0x8D => .double
  | _ => .int

/-- The element type of an array of primitives. -/
def arrayElement? : Nat → Option Primitive
  | 4 => some .boolean
  | 5 => some .char
  | 6 => some .float
  | 7 => some .double
  | 8 => some .byte
  | 9 => some .short
  | 10 => some .int
  | 11 => some .long
  | _ => none

/-- The descriptor of the class with the given text, which for an array class is one already. -/
def classDescriptor (text : String) : String :=
  if text.toList.head? = some '[' then text
  else "L" ++ String.ofList (text.toList.map ClassName.slashed) ++ ";"

/-! ### Instructions -/

/-- What the decoding of a body can look up: the constant pool, and the classes of the bootstrap
methods. -/
structure Symbols where
  pool : Pool
  bootstraps : Array ClassName

/-- A switch over a range of values, with the number of its bytes behind the opcode. -/
def tableSwitch (code : Array UInt8) (offset : Nat) : Except DecodeError (Instruction × Nat) := do
  let base := offset + 1 + padding offset
  let default ← longTarget code offset base
  let low ← doubleAt code (base + 4)
  let high ← doubleAt code (base + 8)
  let count := high - low + 1
  if count < 0 then throw .tableRange
  let targets ← targetsFrom code offset 4 (base + 12) count.toNat
  return (.switch targets default, padding offset + 12 + 4 * targets.length)

/-- A switch over single values, with the number of its bytes behind the opcode. -/
def lookupSwitch (code : Array UInt8) (offset : Nat) : Except DecodeError (Instruction × Nat) := do
  let base := offset + 1 + padding offset
  let default ← longTarget code offset base
  let pairs ← doubleAt code (base + 4)
  if pairs < 0 then throw .lookupPairs
  let targets ← targetsFrom code offset 8 (base + 12) pairs.toNat
  return (.switch targets default, padding offset + 8 + 8 * targets.length)

/-- An instruction with a slot of two bytes, with the number of its bytes behind the opcode. -/
def wideForm (code : Array UInt8) (offset : Nat) : Except DecodeError (Instruction × Nat) := do
  let opcode ← byteAt .wideOpcode code (offset + 1)
  let slot ← wordAt code (offset + 2)
  if 0x15 ≤ opcode ∧ opcode ≤ 0x19 then return (.load (familyKind (opcode - 0x15)) slot, 3)
  else if 0x36 ≤ opcode ∧ opcode ≤ 0x3A then return (.store (familyKind (opcode - 0x36)) slot, 3)
  else if opcode = 0x84 then return (.increment slot, 5)
  else if opcode = 0xA9 then throw .subroutine
  else throw (.wideOpcode opcode)

/-- Pushes, loads and stores: opcodes up to `0x56`. -/
def transferOpcode (s : Symbols) (code : Array UInt8) (offset opcode : Nat) :
    Except DecodeError (Instruction × Nat) := do
  if opcode = 0x00 then return (.nop, 0)
  else if opcode = 0x01 then return (.constant .null, 0)
  else if opcode ≤ 0x08 then return (.constant .int, 0)
  else if opcode ≤ 0x0A then return (.constant .long, 0)
  else if opcode ≤ 0x0D then return (.constant .float, 0)
  else if opcode ≤ 0x0F then return (.constant .double, 0)
  else if opcode = 0x10 then return (.constant .int, 1)
  else if opcode = 0x11 then return (.constant .int, 2)
  else if opcode = 0x12 then
    let index ← byteAt .constantIndex code (offset + 1)
    return (.constant (← (s.pool.constant index).mapError .pool), 1)
  else if opcode ≤ 0x14 then
    let index ← wordAt code (offset + 1)
    return (.constant (← (s.pool.constant index).mapError .pool), 2)
  else if opcode ≤ 0x19 then
    return (.load (familyKind (opcode - 0x15)) (← byteAt .loadSlot code (offset + 1)), 1)
  else if opcode ≤ 0x2D then
    return (.load (familyKind ((opcode - 0x1A) / 4)) ((opcode - 0x1A) % 4), 0)
  else if opcode ≤ 0x35 then return (.arrayLoad (arrayKind (opcode - 0x2E)), 0)
  else if opcode ≤ 0x3A then
    return (.store (familyKind (opcode - 0x36)) (← byteAt .storeSlot code (offset + 1)), 1)
  else if opcode ≤ 0x4E then
    return (.store (familyKind ((opcode - 0x3B) / 4)) ((opcode - 0x3B) % 4), 0)
  else return (.arrayStore (arrayKind (opcode - 0x4F)), 0)

/-- The stack moves in the order of their opcodes. -/
def stackMove : Nat → StackMove
  | 0x57 => .pop
  | 0x58 => .pop2
  | 0x59 => .dup
  | 0x5A => .dupX1
  | 0x5B => .dupX2
  | 0x5C => .dup2
  | 0x5D => .dup2X1
  | 0x5E => .dup2X2
  | _ => .swap

/-- Stack moves, arithmetic, conversions and comparisons: opcodes from `0x57` to `0x98`. -/
def computeOpcode (code : Array UInt8) (offset opcode : Nat) :
    Except DecodeError (Instruction × Nat) := do
  if opcode ≤ 0x5F then return (.stack (stackMove opcode), 0)
  else if opcode ≤ 0x73 then return (.compute 2 (familyKind ((opcode - 0x60) % 4)), 0)
  else if opcode ≤ 0x77 then return (.compute 1 (familyKind (opcode - 0x74)), 0)
  else if opcode ≤ 0x83 then
    return (.compute 2 (some (if (opcode - 0x78) % 2 = 0 then .int else .long)), 0)
  else if opcode = 0x84 then
    return (.increment (← byteAt .incrementSlot code (offset + 1)), 2)
  else if opcode ≤ 0x93 then return (.compute 1 (conversionKind opcode), 0)
  else return (.compute 2 (some .int), 0)

/-- Jumps, switches and returns: opcodes from `0x99` to `0xB1`. -/
def controlOpcode (code : Array UInt8) (offset opcode : Nat) :
    Except DecodeError (Instruction × Nat) := do
  if opcode ≤ 0x9E then return (.branch 1 (← shortTarget code offset), 2)
  else if opcode ≤ 0xA6 then return (.branch 2 (← shortTarget code offset), 2)
  else if opcode = 0xA7 then return (.goto (← shortTarget code offset), 2)
  else if opcode ≤ 0xA9 then throw .subroutine
  else if opcode = 0xAA then tableSwitch code offset
  else if opcode = 0xAB then lookupSwitch code offset
  else if opcode ≤ 0xB0 then return (.ret (familyKind (opcode - 0xAC)), 0)
  else return (.ret none, 0)

/-- The call kinds in the order of their opcodes. -/
def callKind : Nat → CallKind
  | 0xB6 => .virtual
  | 0xB7 => .special
  | 0xB8 => .static
  | _ => .interface

/-- Accesses to fields, and calls: opcodes from `0xB2` to `0xBA`. -/
def memberOpcode (s : Symbols) (code : Array UInt8) (offset opcode : Nat) :
    Except DecodeError (Instruction × Nat) := do
  let index ← wordAt code (offset + 1)
  if opcode ≤ 0xB5 then
    let field ← (s.pool.fieldRef index).mapError .pool
    match opcode with
    | 0xB2 => return (.getStatic field, 2)
    | 0xB3 => return (.putStatic field, 2)
    | 0xB4 => return (.getField field, 2)
    | _ => return (.putField field, 2)
  else if opcode ≤ 0xB9 then
    let method ← (s.pool.methodRef index).mapError .pool
    return (.invoke (callKind opcode) method, if opcode = 0xB9 then 4 else 2)
  else
    let (bootstrap, name, descriptor) ← (s.pool.callSite index).mapError .pool
    return (.invokeDynamic name descriptor s.bootstraps[bootstrap]?, 4)

/-- Objects, arrays and the extended forms: opcodes from `0xBB` on. -/
def objectOpcode (s : Symbols) (code : Array UInt8) (offset opcode : Nat) :
    Except DecodeError (Instruction × Nat) := do
  match opcode with
  | 0xBB =>
    let index ← wordAt code (offset + 1)
    return (.new (← (s.pool.className index).mapError .pool), 2)
  | 0xBC =>
    let type ← byteAt .arrayType code (offset + 1)
    match arrayElement? type with
    | some p => return (.newArray (String.ofList ['[', p.letter]) 1, 1)
    | none => throw (.arrayType type)
  | 0xBD =>
    let index ← wordAt code (offset + 1)
    let element ← (s.pool.classText index).mapError .pool
    return (.newArray ("[" ++ classDescriptor element) 1, 2)
  | 0xBE => return (.arrayLength, 0)
  | 0xBF => return (.raise, 0)
  | 0xC0 =>
    let index ← wordAt code (offset + 1)
    let target ← (s.pool.classText index).mapError .pool
    return (.checkCast (classDescriptor target), 2)
  | 0xC1 => return (.instanceOf, 2)
  | 0xC2 | 0xC3 => return (.monitor, 0)
  | 0xC4 => wideForm code offset
  | 0xC5 =>
    let index ← wordAt code (offset + 1)
    let descriptor ← (s.pool.classText index).mapError .pool
    return (.newArray descriptor (← byteAt .arrayDimensions code (offset + 3)), 3)
  | 0xC6 | 0xC7 => return (.branch 1 (← shortTarget code offset), 2)
  | 0xC8 => return (.goto (← longTarget code offset (offset + 1)), 4)
  | 0xC9 => throw .subroutine
  | opcode => throw (.opcode opcode)

/-- The instruction with the given opcode, with the number of its bytes behind the opcode. -/
def decodeOpcode (s : Symbols) (code : Array UInt8) (offset opcode : Nat) :
    Except DecodeError (Instruction × Nat) :=
  if opcode ≤ 0x56 then transferOpcode s code offset opcode
  else if opcode ≤ 0x98 then computeOpcode code offset opcode
  else if opcode ≤ 0xB1 then controlOpcode code offset opcode
  else if opcode ≤ 0xBA then memberOpcode s code offset opcode
  else objectOpcode s code offset opcode

/-- The instruction at an offset, and its length. -/
def decodeAt (s : Symbols) (code : Array UInt8) (offset : Nat) (h : offset < code.size) :
    Except DecodeError (Instruction × Nat) := do
  let opcode := code[offset].toNat
  let (instruction, operands) ← decodeOpcode s code offset opcode
  if code.size < offset + (operands + 1) then throw (.truncated opcode)
  return (instruction, operands + 1)

/-- An instruction has at least one byte, and none of them is beyond the end. -/
theorem decodeAt_length {s : Symbols} {code : Array UInt8} {offset length : Nat}
    {h : offset < code.size} {i : Instruction} (hd : decodeAt s code offset h = .ok (i, length)) :
    0 < length ∧ offset + length ≤ code.size := by
  simp only [decodeAt, bind, Except.bind, pure, Except.pure, throw, throwThe,
    MonadExceptOf.throw] at hd
  split at hd
  · cases hd
  · split at hd
    · cases hd
    · cases hd
      omega

/-! ### Bodies -/

/-- Why a body cannot be decoded. -/
inductive CodeError where
  | instruction (offset : Nat) (cause : DecodeError)
  /-- No instruction starts at the target of a jump or at an end of a range. -/
  | boundary (offset : Nat)
  | catches (cause : PoolError)
  deriving DecidableEq, Repr

/-- The wording of an error. -/
def CodeError.message : CodeError → String
  | instruction offset cause => s!"at offset {offset}: {cause.message}"
  | boundary offset => s!"offset {offset} is not an instruction boundary"
  | catches cause => "resolve catch type: " ++ cause.message

/-- The instructions from an offset to the end, each with its offset, behind those done already. -/
def decodeFrom (s : Symbols) (code : Array UInt8) (offset : Nat)
    (done : Array (Nat × Instruction)) : Except CodeError (Array (Nat × Instruction)) :=
  if h : offset < code.size then
    match hd : decodeAt s code offset h with
    | .error e => .error (.instruction offset e)
    | .ok (instruction, length) =>
      have := (decodeAt_length hd).1
      decodeFrom s code (offset + length) (done.push (offset, instruction))
  else .ok done
termination_by code.size - offset

/-- All instructions, each with its offset. -/
def decodeAll (s : Symbols) (code : Array UInt8) : Except CodeError (Array (Nat × Instruction)) :=
  decodeFrom s code 0 #[]

/-- The index of each instruction by its offset. The end of the code counts as one. -/
abbrev Boundaries := Std.HashMap Nat Nat

namespace Boundaries

/-- The boundaries of instructions at the given offsets, in code that ends at `stop`. -/
def ofOffsets (offsets : List Nat) (stop : Nat) : Boundaries :=
  .ofList (offsets ++ [stop]).zipIdx

/-- The index of the instruction at an offset. -/
def index (b : Boundaries) (offset : Nat) : Except CodeError Nat :=
  match b[offset]? with
  | some i => .ok i
  | none => .error (.boundary offset)

end Boundaries

/-- A handler with instruction indices in place of offsets. -/
def ExceptionRange.handlerIn (r : ExceptionRange) (pool : Pool) (b : Boundaries) :
    Except CodeError Handler := do
  let catches ←
    if r.catches = 0 then pure none
    else some <$> (pool.className r.catches).mapError CodeError.catches
  return ⟨← b.index r.start, ← b.index r.stop, ← b.index r.handler, catches⟩

/-- The instructions and handlers of a body. -/
def decodeBody (s : Symbols) (code : Array UInt8) (ranges : List ExceptionRange) :
    Except CodeError (Array Instruction × List Handler) := do
  let decoded ← decodeAll s code
  let boundaries := Boundaries.ofOffsets (decoded.toList.map (·.1)) code.size
  let instructions ← decoded.mapM fun p => p.2.mapTargets boundaries.index
  let handlers ← ranges.mapM fun r => r.handlerIn s.pool boundaries
  return (instructions, handlers)

end Immutability.ClassFile
