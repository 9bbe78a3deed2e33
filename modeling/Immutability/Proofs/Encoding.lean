import Immutability.ClassFile.Code

/-!
# Encoded instructions

The instructions of a method body in the format of class files: an opcode, and operands that the
opcode calls for.

* `Plain` are the instructions without operands, and `Encoding` all instructions but those of
  subroutines; `Encoding.bytes` are the bytes of an instruction at an offset, on which the padding
  of a switch depends;
* `typeDescriptor` is the descriptor of a type that the pool names, and `Encoding.instruction` what
  an instruction does, with a function from the distance of a jump to its target;
* `Encoding.Resolves` says that the constants it refers to are in the pool;
* `Encoding.exists_opcode_iff` says which opcodes there are;
* `assemble` lays instructions end to end, and `starts` are the offsets at which they start;
* `Lands` says that all jumps land on instructions, and `linked` are the instructions with the
  indices of those in place of the distances to them.
-/

namespace Immutability.ClassFile

/-! ### Instructions without operands -/

/-- The types of numbers, in the order of their opcodes. -/
inductive Numeric where
  | int | long | float | double
  deriving DecidableEq

namespace Numeric

/-- The place of a type in a family of opcodes. -/
def place : Numeric → Nat
  | int => 0
  | long => 1
  | float => 2
  | double => 3

def kind : Numeric → Kind
  | int => .int
  | long => .long
  | float => .float
  | double => .double

end Numeric

/-- The types of array elements, in the order of their opcodes. -/
inductive Element where
  | int | long | float | double | reference | byte | char | short
  deriving DecidableEq

namespace Element

/-- The place of a type in a family of opcodes. -/
def place : Element → Nat
  | int => 0
  | long => 1
  | float => 2
  | double => 3
  | reference => 4
  | byte => 5
  | char => 6
  | short => 7

/-- Elements of the narrow types are handled as integers. -/
def kind : Element → Kind
  | int | byte | char | short => .int
  | long => .long
  | float => .float
  | double => .double
  | reference => .reference

end Element

/-- Arithmetic on two numbers of the same type. -/
inductive Arithmetic where
  | add | sub | mul | div | rem
  deriving DecidableEq

/-- The opcode for integers; those for the other types follow. -/
def Arithmetic.opcode : Arithmetic → Nat
  | add => 0x60
  | sub => 0x64
  | mul => 0x68
  | div => 0x6C
  | rem => 0x70

/-- Shifts, and operations on bits. -/
inductive Bitwise where
  | shl | shr | ushr | and | or | xor
  deriving DecidableEq

/-- The opcode for integers; that for long ones follows. -/
def Bitwise.opcode : Bitwise → Nat
  | shl => 0x78
  | shr => 0x7A
  | ushr => 0x7C
  | and => 0x7E
  | or => 0x80
  | xor => 0x82

/-- The conversions of numbers. -/
inductive Conversion where
  | i2l | i2f | i2d | l2i | l2f | l2d | f2i | f2l | f2d | d2i | d2l | d2f | i2b | i2c | i2s
  deriving DecidableEq

namespace Conversion

def opcode : Conversion → Nat
  | i2l => 0x85
  | i2f => 0x86
  | i2d => 0x87
  | l2i => 0x88
  | l2f => 0x89
  | l2d => 0x8A
  | f2i => 0x8B
  | f2l => 0x8C
  | f2d => 0x8D
  | d2i => 0x8E
  | d2l => 0x8F
  | d2f => 0x90
  | i2b => 0x91
  | i2c => 0x92
  | i2s => 0x93

def result : Conversion → Kind
  | i2l | f2l | d2l => .long
  | i2f | l2f | d2f => .float
  | i2d | l2d | f2d => .double
  | l2i | f2i | d2i | i2b | i2c | i2s => .int

end Conversion

/-- The comparisons of numbers that leave an integer. -/
inductive Comparison where
  | lcmp | fcmpl | fcmpg | dcmpl | dcmpg
  deriving DecidableEq

def Comparison.opcode : Comparison → Nat
  | lcmp => 0x94
  | fcmpl => 0x95
  | fcmpg => 0x96
  | dcmpl => 0x97
  | dcmpg => 0x98

/-- The opcode of a load with the slot in the opcode, for the first slot; those for the other three
follow. -/
def shortLoadOpcode : Kind → Nat
  | .int => 0x1A
  | .long => 0x1E
  | .float => 0x22
  | .double => 0x26
  | .reference => 0x2A

/-- The opcode of a store with the slot in the opcode, for the first slot; those for the other three
follow. -/
def shortStoreOpcode : Kind → Nat
  | .int => 0x3B
  | .long => 0x3F
  | .float => 0x43
  | .double => 0x47
  | .reference => 0x4B

def stackOpcode : StackMove → Nat
  | .pop => 0x57
  | .pop2 => 0x58
  | .dup => 0x59
  | .dupX1 => 0x5A
  | .dupX2 => 0x5B
  | .dup2 => 0x5C
  | .dup2X1 => 0x5D
  | .dup2X2 => 0x5E
  | .swap => 0x5F

def returnOpcode : Option Kind → Nat
  | some .int => 0xAC
  | some .long => 0xAD
  | some .float => 0xAE
  | some .double => 0xAF
  | some .reference => 0xB0
  | none => 0xB1

/-- The instructions without operands. -/
inductive Plain where
  | nop
  | null
  /-- The numbers from -1 to 5. -/
  | int (value : Fin 7)
  | long (value : Fin 2)
  | float (value : Fin 3)
  | double (value : Fin 2)
  | load (kind : Kind) (slot : Fin 4)
  | store (kind : Kind) (slot : Fin 4)
  | arrayLoad (element : Element)
  | arrayStore (element : Element)
  | stack (move : StackMove)
  | arithmetic (operation : Arithmetic) (type : Numeric)
  | negate (type : Numeric)
  | bitwise (operation : Bitwise) (wide : Bool)
  | convert (conversion : Conversion)
  | compare (comparison : Comparison)
  | ret (kind : Option Kind)
  | arrayLength
  | raise
  | monitorEnter
  | monitorExit

namespace Plain

def opcode : Plain → Nat
  | nop => 0x00
  | null => 0x01
  | int value => 0x02 + value
  | long value => 0x09 + value
  | float value => 0x0B + value
  | double value => 0x0E + value
  | load kind slot => shortLoadOpcode kind + slot
  | arrayLoad element => 0x2E + element.place
  | store kind slot => shortStoreOpcode kind + slot
  | arrayStore element => 0x4F + element.place
  | stack move => stackOpcode move
  | arithmetic operation type => operation.opcode + type.place
  | negate type => 0x74 + type.place
  | bitwise operation wide => operation.opcode + if wide then 1 else 0
  | convert conversion => conversion.opcode
  | compare comparison => comparison.opcode
  | ret kind => returnOpcode kind
  | arrayLength => 0xBE
  | raise => 0xBF
  | monitorEnter => 0xC2
  | monitorExit => 0xC3

def instruction : Plain → Instruction
  | nop => .nop
  | null => .constant .null
  | int _ => .constant .int
  | long _ => .constant .long
  | float _ => .constant .float
  | double _ => .constant .double
  | load kind slot => .load kind slot
  | arrayLoad element => .arrayLoad element.kind
  | store kind slot => .store kind slot
  | arrayStore element => .arrayStore element.kind
  | stack move => .stack move
  | arithmetic _ type => .compute 2 (some type.kind)
  | negate type => .compute 1 (some type.kind)
  | bitwise _ wide => .compute 2 (some (if wide then .long else .int))
  | convert conversion => .compute 1 (some conversion.result)
  | compare _ => .compute 2 (some .int)
  | ret kind => .ret kind
  | arrayLength => .arrayLength
  | raise => .raise
  | monitorEnter | monitorExit => .monitor

end Plain

/-! ### Operands -/

/-- The bytes of a word, the high one first. -/
def wordBytes (w : UInt16) : List UInt8 := [.ofNat (w.toNat / 256), .ofNat w.toNat]

/-- The bytes of a double word, the high ones first. -/
def doubleBytes (d : UInt32) : List UInt8 :=
  [.ofNat (d.toNat / 0x1000000), .ofNat (d.toNat / 0x10000), .ofNat (d.toNat / 0x100),
    .ofNat d.toNat]

/-- The bytes between the opcode of a switch at an offset and its operands, which start at a
multiple of four. What they are does not matter. -/
def padBytes (pad : Fin 3 → UInt8) (offset : Nat) : List UInt8 :=
  (List.ofFn pad).take (3 - offset % 4)

theorem padBytes_aligned (pad : Fin 3 → UInt8) (offset : Nat) :
    (padBytes pad offset).length < 4 ∧ 4 ∣ offset + 1 + (padBytes pad offset).length := by
  rw [padBytes, List.length_take, List.length_ofFn]
  omega

/-- The conditions on numbers, in the order of their opcodes. -/
inductive Condition where
  | eq | ne | lt | ge | gt | le
  deriving DecidableEq

/-- The place of a condition in a family of opcodes. -/
def Condition.place : Condition → Nat
  | eq => 0
  | ne => 1
  | lt => 2
  | ge => 3
  | gt => 4
  | le => 5

/-- The tests on which a jump may depend. -/
inductive Test where
  /-- One integer is compared with zero. -/
  | zero (condition : Condition)
  /-- Two integers are compared. -/
  | ints (condition : Condition)
  /-- Two references are compared. -/
  | references (equal : Bool)
  /-- One reference is compared with null. -/
  | null (equal : Bool)

namespace Test

def opcode : Test → Nat
  | zero condition => 0x99 + condition.place
  | ints condition => 0x9F + condition.place
  | references true => 0xA5
  | references false => 0xA6
  | null true => 0xC6
  | null false => 0xC7

/-- The number of values that are tested. -/
def operands : Test → Nat
  | zero _ | null _ => 1
  | ints _ | references _ => 2

end Test

/-- A switch over the values from `low` to `high`. -/
structure TableSwitch where
  pad : Fin 3 → UInt8
  default : Int32
  low : Int32
  high : Int32
  low_le_high : low.toInt ≤ high.toInt
  distances : List Int32
  length_eq : (distances.length : Int) = high.toInt - low.toInt + 1

/-- A switch over single values, each with its distance. -/
structure LookupSwitch where
  pad : Fin 3 → UInt8
  default : Int32
  pairs : List (Int32 × Int32)
  length_lt : pairs.length < 0x80000000

/-- The four accesses to fields. -/
inductive FieldAccess where
  | getStatic | putStatic | getField | putField
  deriving DecidableEq

namespace FieldAccess

def opcode : FieldAccess → Nat
  | getStatic => 0xB2
  | putStatic => 0xB3
  | getField => 0xB4
  | putField => 0xB5

def instruction : FieldAccess → FieldRef → Instruction
  | getStatic => .getStatic
  | putStatic => .putStatic
  | getField => .getField
  | putField => .putField

end FieldAccess

def callOpcode : CallKind → Nat
  | .virtual => 0xB6
  | .special => 0xB7
  | .static => 0xB8
  | .interface => 0xB9

def loadOpcode : Kind → Nat
  | .int => 0x15
  | .long => 0x16
  | .float => 0x17
  | .double => 0x18
  | .reference => 0x19

def storeOpcode : Kind → Nat
  | .int => 0x36
  | .long => 0x37
  | .float => 0x38
  | .double => 0x39
  | .reference => 0x3A

/-- The number of a primitive type as the element type of a new array. -/
def elementCode : Primitive → Nat
  | .boolean => 4
  | .char => 5
  | .float => 6
  | .double => 7
  | .byte => 8
  | .short => 9
  | .int => 10
  | .long => 11

/-- The descriptor of an array of primitives. -/
def primitiveArray : Primitive → String
  | .boolean => "[Z"
  | .char => "[C"
  | .float => "[F"
  | .double => "[D"
  | .byte => "[B"
  | .short => "[S"
  | .int => "[I"
  | .long => "[J"

/-- The descriptor of the type that a class entry of the pool names. An array class is named by its
descriptor, and any other class by its name with slashes. -/
def typeDescriptor : List Char → List Char
  | '[' :: cs => '[' :: cs
  | cs => 'L' :: cs.map (fun c => if c = '.' then '/' else c) ++ [';']

/-- All instructions but those of subroutines. What an index refers to stands behind the index. -/
inductive Encoding where
  | plain (p : Plain)
  | pushByte (value : UInt8)
  | pushShort (value : UInt16)
  | constant (index : UInt8) (value : Constant)
  | constantWord (index : UInt16) (value : Constant)
  /-- A constant that fills two slots. -/
  | constantWide (index : UInt16) (value : Constant)
  | load (kind : Kind) (slot : UInt8)
  | store (kind : Kind) (slot : UInt8)
  | increment (slot amount : UInt8)
  | wideLoad (kind : Kind) (slot : UInt16)
  | wideStore (kind : Kind) (slot : UInt16)
  | wideIncrement (slot amount : UInt16)
  | branch (test : Test) (distance : Int16)
  | goto (distance : Int16)
  | gotoWide (distance : Int32)
  | tableSwitch (t : TableSwitch)
  | lookupSwitch (l : LookupSwitch)
  | field (access : FieldAccess) (index : UInt16) (ref : FieldRef)
  /-- Only calls of interface methods count their arguments. -/
  | invoke (call : CallKind) (index : UInt16) (ref : MethodRef) (count : UInt8)
  | invokeDynamic (index : UInt16) (name descriptor : String) (bootstrap : Option ClassName)
  | new (index : UInt16) (cls : String)
  | newArray (element : Primitive)
  | newReferenceArray (index : UInt16) (element : String)
  | checkCast (index : UInt16) (target : String)
  | instanceOf (index : UInt16) (target : String)
  | newMultiArray (index : UInt16) (descriptor : String) (dimensions : UInt8)

namespace Encoding

def opcode : Encoding → Nat
  | plain p => p.opcode
  | pushByte _ => 0x10
  | pushShort _ => 0x11
  | constant _ _ => 0x12
  | constantWord _ _ => 0x13
  | constantWide _ _ => 0x14
  | load kind _ => loadOpcode kind
  | store kind _ => storeOpcode kind
  | increment _ _ => 0x84
  | wideLoad _ _ | wideStore _ _ | wideIncrement _ _ => 0xC4
  | branch test _ => test.opcode
  | goto _ => 0xA7
  | gotoWide _ => 0xC8
  | tableSwitch _ => 0xAA
  | lookupSwitch _ => 0xAB
  | field access _ _ => access.opcode
  | invoke call _ _ _ => callOpcode call
  | invokeDynamic _ _ _ _ => 0xBA
  | new _ _ => 0xBB
  | newArray _ => 0xBC
  | newReferenceArray _ _ => 0xBD
  | checkCast _ _ => 0xC0
  | instanceOf _ _ => 0xC1
  | newMultiArray _ _ _ => 0xC5

/-- The bytes behind the opcode. -/
def operands (offset : Nat) : Encoding → List UInt8
  | plain _ => []
  | pushByte value => [value]
  | pushShort value => wordBytes value
  | constant index _ => [index]
  | constantWord index _ | constantWide index _ => wordBytes index
  | load _ slot | store _ slot => [slot]
  | increment slot amount => [slot, amount]
  | wideLoad kind slot => .ofNat (loadOpcode kind) :: wordBytes slot
  | wideStore kind slot => .ofNat (storeOpcode kind) :: wordBytes slot
  | wideIncrement slot amount => 0x84 :: (wordBytes slot ++ wordBytes amount)
  | branch _ distance | goto distance => wordBytes distance.toUInt16
  | gotoWide distance => doubleBytes distance.toUInt32
  | tableSwitch t =>
    padBytes t.pad offset ++ (doubleBytes t.default.toUInt32 ++ (doubleBytes t.low.toUInt32 ++
      (doubleBytes t.high.toUInt32 ++ t.distances.flatMap fun d => doubleBytes d.toUInt32)))
  | lookupSwitch l =>
    padBytes l.pad offset ++ (doubleBytes l.default.toUInt32 ++
      (doubleBytes (.ofNat l.pairs.length) ++
        l.pairs.flatMap fun p => doubleBytes p.1.toUInt32 ++ doubleBytes p.2.toUInt32))
  | field _ index _ => wordBytes index
  | invoke .interface index _ count => wordBytes index ++ [count, 0]
  | invoke _ index _ _ => wordBytes index
  | invokeDynamic index _ _ _ => wordBytes index ++ [0, 0]
  | new index _ | newReferenceArray index _ | checkCast index _ | instanceOf index _ =>
    wordBytes index
  | newArray element => [.ofNat (elementCode element)]
  | newMultiArray index _ dimensions => wordBytes index ++ [dimensions]

/-- The bytes of an instruction at an offset. -/
def bytes (offset : Nat) (e : Encoding) : List UInt8 := .ofNat e.opcode :: e.operands offset

/-- The distances of the jumps that an instruction may make. -/
def distances : Encoding → List Int
  | branch _ distance | goto distance => [distance.toInt]
  | gotoWide distance => [distance.toInt]
  | tableSwitch t => t.default.toInt :: t.distances.map Int32.toInt
  | lookupSwitch l => l.default.toInt :: l.pairs.map fun p => p.2.toInt
  | _ => []

/-- What an instruction does, given the targets at the distances of its jumps. -/
def instruction (target : Int → Nat) : Encoding → Instruction
  | plain p => p.instruction
  | pushByte _ | pushShort _ => .constant .int
  | constant _ value | constantWord _ value | constantWide _ value => .constant value
  | load kind slot => .load kind slot.toNat
  | store kind slot => .store kind slot.toNat
  | increment slot _ => .increment slot.toNat
  | wideLoad kind slot => .load kind slot.toNat
  | wideStore kind slot => .store kind slot.toNat
  | wideIncrement slot _ => .increment slot.toNat
  | branch test distance => .branch test.operands (target distance.toInt)
  | goto distance => .goto (target distance.toInt)
  | gotoWide distance => .goto (target distance.toInt)
  | tableSwitch t => .switch (t.distances.map fun d => target d.toInt) (target t.default.toInt)
  | lookupSwitch l => .switch (l.pairs.map fun p => target p.2.toInt) (target l.default.toInt)
  | field access _ ref => access.instruction ref
  | invoke call _ ref _ => .invoke call ref
  | invokeDynamic _ name descriptor bootstrap => .invokeDynamic name descriptor bootstrap
  | new _ cls => .new (.ofString cls)
  | newArray element => .newArray (primitiveArray element) 1
  | newReferenceArray _ element =>
    .newArray (String.ofList ('[' :: typeDescriptor element.toList)) 1
  | checkCast _ target => .checkCast (String.ofList (typeDescriptor target.toList))
  | instanceOf _ _ => .instanceOf
  | newMultiArray _ descriptor dimensions => .newArray descriptor dimensions.toNat

end Encoding

/-! ### Opcodes -/

namespace Plain

theorem opcode_bounds (p : Plain) : p.opcode ≤ 0xC3 ∧ p.opcode ≠ 0xA8 ∧ p.opcode ≠ 0xA9 := by
  cases p with
  | int value => revert value; decide
  | long value => revert value; decide
  | float value => revert value; decide
  | double value => revert value; decide
  | load kind slot => cases kind <;> revert slot <;> decide
  | store kind slot => cases kind <;> revert slot <;> decide
  | arrayLoad element => cases element <;> decide
  | arrayStore element => cases element <;> decide
  | stack move => cases move <;> decide
  | arithmetic operation type => cases operation <;> cases type <;> decide
  | negate type => cases type <;> decide
  | bitwise operation wide => cases operation <;> cases wide <;> decide
  | convert conversion => cases conversion <;> decide
  | compare comparison => cases comparison <;> decide
  | ret kind =>
    cases kind with
    | none => decide
    | some kind => cases kind <;> decide
  | nop | null | arrayLength | raise | monitorEnter | monitorExit => decide

/-- One instruction without operands for every opcode. -/
def all : List Plain :=
  let kinds : List Kind := [.int, .long, .float, .double, .reference]
  let slots : List (Kind × Fin 4) := kinds.flatMap fun kind => (List.finRange 4).map (kind, ·)
  let elements : List Element := [.int, .long, .float, .double, .reference, .byte, .char, .short]
  let types : List Numeric := [.int, .long, .float, .double]
  [nop, null, arrayLength, raise, monitorEnter, monitorExit] ++ (List.finRange 7).map int ++
    (List.finRange 2).map long ++ (List.finRange 3).map float ++ (List.finRange 2).map double ++
    slots.map (fun p => load p.1 p.2) ++ slots.map (fun p => store p.1 p.2) ++
    elements.map arrayLoad ++ elements.map arrayStore ++
    [.pop, .pop2, .dup, .dupX1, .dupX2, .dup2, .dup2X1, .dup2X2, .swap].map stack ++
    [.add, .sub, .mul, .div, .rem].flatMap (fun operation => types.map (arithmetic operation)) ++
    types.map negate ++
    [.shl, .shr, .ushr, .and, .or, .xor].flatMap
      (fun operation => [false, true].map (bitwise operation)) ++
    [.i2l, .i2f, .i2d, .l2i, .l2f, .l2d, .f2i, .f2l, .f2d, .d2i, .d2l, .d2f, .i2b, .i2c, .i2s].map
      convert ++
    [.lcmp, .fcmpl, .fcmpg, .dcmpl, .dcmpg].map compare ++ (none :: kinds.map some).map ret

end Plain

namespace Encoding

theorem opcode_bounds (e : Encoding) : e.opcode ≤ 0xC9 ∧ e.opcode ∉ [0xA8, 0xA9, 0xC9] := by
  cases e with
  | plain p =>
    have h := p.opcode_bounds
    simp only [opcode, List.mem_cons, List.not_mem_nil, or_false]
    omega
  | load kind _ | store kind _ =>
    simp only [opcode]
    cases kind <;> decide
  | branch test _ =>
    simp only [opcode]
    cases test with
    | zero condition | ints condition => cases condition <;> decide
    | references equal | null equal => cases equal <;> decide
  | field access _ _ =>
    simp only [opcode]
    cases access <;> decide
  | invoke call _ _ _ =>
    simp only [opcode]
    cases call <;> decide
  | _ =>
    simp only [opcode]
    decide

/-- One instruction for every opcode but those of the switches. -/
def all : List Encoding :=
  let kinds : List Kind := [.int, .long, .float, .double, .reference]
  let conditions : List Condition := [.eq, .ne, .lt, .ge, .gt, .le]
  let tests : List Test := conditions.map .zero ++ conditions.map .ints ++
    [.references true, .references false, .null true, .null false]
  Plain.all.map plain ++
    [pushByte 0, pushShort 0, constant 0 .int, constantWord 0 .int, constantWide 0 .long] ++
    kinds.map (load · 0) ++ kinds.map (store · 0) ++ [increment 0 0, wideIncrement 0 0] ++
    tests.map (branch · 0) ++ [goto 0, gotoWide 0] ++
    [.getStatic, .putStatic, .getField, .putField].map (field · 0 ⟨.object, "", ""⟩) ++
    [.virtual, .special, .static, .interface].map (invoke · 0 ⟨.object, "", ""⟩ 0) ++
    [invokeDynamic 0 "" "" none, new 0 "", newArray .int, newReferenceArray 0 "", checkCast 0 "",
      instanceOf 0 "", newMultiArray 0 "" 0]

/-- All opcodes are there but those of subroutines, which are the three that are left out. -/
theorem exists_opcode_iff {n : Nat} :
    (∃ e : Encoding, e.opcode = n) ↔ n ≤ 0xC9 ∧ n ∉ [0xA8, 0xA9, 0xC9] := by
  constructor
  · rintro ⟨e, rfl⟩
    exact e.opcode_bounds
  · rintro ⟨hle, hn⟩
    have hall : ∀ n ≤ 0xC9, n ∉ [0xA8, 0xA9, 0xC9] →
        n ∈ all.map opcode ∨ n = 0xAA ∨ n = 0xAB := by
      decide +kernel
    rcases hall n hle hn with h | rfl | rfl
    · obtain ⟨e, -, he⟩ := List.mem_map.1 h
      exact ⟨e, he⟩
    · exact ⟨.tableSwitch ⟨fun _ => 0, 0, 0, 0, by decide, [0], by decide⟩, rfl⟩
    · exact ⟨.lookupSwitch ⟨fun _ => 0, 0, [], by decide⟩, rfl⟩

end Encoding

/-! ### References -/

namespace Pool

variable (pool : Pool) (index : Nat)

/-- The entry is the text. -/
def HasText (text : String) : Prop := pool[index]? = some (.utf8 text)

/-- The entry is the class of this name. -/
def HasClass (text : String) : Prop :=
  ∃ name, pool[index]? = some (.cls name) ∧ pool.HasText name text

/-- The entry is the name of a member with its descriptor. -/
def HasMember (name descriptor : String) : Prop :=
  ∃ n d, pool[index]? = some (.nameAndType n d) ∧ pool.HasText n name ∧ pool.HasText d descriptor

/-- The entry is a reference to the field. -/
def HasField (ref : FieldRef) : Prop :=
  ∃ owner member text, pool[index]? = some (.field owner member) ∧ pool.HasClass owner text ∧
    ref.owner = .ofString text ∧ pool.HasMember member ref.name ref.descriptor

/-- The entry is a reference to the method, of a class or of an interface. -/
def HasMethod (ref : MethodRef) : Prop :=
  ∃ owner member text,
    (pool[index]? = some (.method owner member) ∨
      pool[index]? = some (.interfaceMethod owner member)) ∧
    pool.HasClass owner text ∧ ref.owner = .ofString text ∧
    pool.HasMember member ref.name ref.descriptor

/-- The entry is a call site that the bootstrap method of this number links. -/
def HasCallSite (bootstrap : Nat) (name descriptor : String) : Prop :=
  ∃ member, pool[index]? = some (.invokeDynamic bootstrap member) ∧
    pool.HasMember member name descriptor

/-- The entry is a constant of this kind. -/
inductive HasConstant : Constant → Prop
  | int {value : Int} (h : pool[index]? = some (.integer value)) : HasConstant .int
  | float {bits : UInt32} (h : pool[index]? = some (.float bits)) : HasConstant .float
  | long {value : Int} (h : pool[index]? = some (.long value)) : HasConstant .long
  | double {bits : UInt64} (h : pool[index]? = some (.double bits)) : HasConstant .double
  | string {text : Nat} (h : pool[index]? = some (.string text)) : HasConstant .string
  | classLiteral {name : Nat} (h : pool[index]? = some (.cls name)) : HasConstant .classLiteral
  | methodHandle {kind reference : Nat} (h : pool[index]? = some (.methodHandle kind reference)) :
    HasConstant .other
  | methodType {descriptor : Nat} (h : pool[index]? = some (.methodType descriptor)) :
    HasConstant .other
  | dynamic {bootstrap member : Nat} (h : pool[index]? = some (.dynamic bootstrap member)) :
    HasConstant .other

end Pool

/-- What the instruction refers to is found in the pool. -/
def Encoding.Resolves (s : Symbols) : Encoding → Prop
  | constant index value => s.pool.HasConstant index.toNat value
  | constantWord index value | constantWide index value => s.pool.HasConstant index.toNat value
  | field _ index ref => s.pool.HasField index.toNat ref
  | invoke _ index ref _ => s.pool.HasMethod index.toNat ref
  | invokeDynamic index name descriptor bootstrap =>
    ∃ number, s.pool.HasCallSite index.toNat number name descriptor ∧
      s.bootstraps[number]? = bootstrap
  | new index text | newReferenceArray index text | checkCast index text | instanceOf index text =>
    s.pool.HasClass index.toNat text
  | newMultiArray index text _ => s.pool.HasClass index.toNat text
  | _ => True

/-! ### Programs -/

/-- The bytes of instructions that are laid end to end from an offset on. -/
def assemble (offset : Nat) : List Encoding → List UInt8
  | [] => []
  | e :: es => e.bytes offset ++ assemble (offset + (e.bytes offset).length) es

/-- The offsets at which instructions start that are laid end to end from an offset on. -/
def starts (offset : Nat) : List Encoding → List Nat
  | [] => []
  | e :: es => offset :: starts (offset + (e.bytes offset).length) es

/-- Every jump of a program lands on the start of an instruction. -/
def Lands (program : List Encoding) : Prop :=
  ∀ p ∈ program.zip (starts 0 program), ∀ d ∈ p.1.distances,
    ∃ target ∈ starts 0 program, (p.2 : Int) + d = target

instance (program : List Encoding) : Decidable (Lands program) :=
  inferInstanceAs (Decidable (∀ p ∈ program.zip (starts 0 program), ∀ d ∈ p.1.distances,
    ∃ target ∈ starts 0 program, (p.2 : Int) + d = target))

/-- The index of the instruction on which a jump from an offset lands. -/
def landing (program : List Encoding) (offset : Nat) (distance : Int) : Nat :=
  (starts 0 program).idxOf ((offset : Int) + distance).toNat

/-- What the instructions of a program do, with indices for the targets of their jumps. -/
def linked (program : List Encoding) : List Instruction :=
  (program.zip (starts 0 program)).map fun p => p.1.instruction (landing program p.2)

end Immutability.ClassFile
