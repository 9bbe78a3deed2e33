import Immutability.ClassFile.Scan

/-!
# Attributes

The attributes of classes, fields and methods. Only method bodies and bootstrap methods are kept;
the other attributes are read for their shape. The length that an attribute gives for itself is
not relied upon.

* `Attribute` is what is kept of an attribute;
* `attributes` reads the attributes of a class or member.

Attributes and annotations nest. Every level takes at least one byte, so the number of bytes bounds
the depth.
-/

namespace Immutability.ClassFile

/-- The range of instructions covered by a handler, by byte offsets. -/
structure ExceptionRange where
  start : Nat
  stop : Nat
  handler : Nat
  /-- The number of the class caught, or zero for a handler of all exceptions. -/
  catches : Nat
  deriving DecidableEq, Repr

/-- The body of a method. -/
structure Body where
  maxLocals : Nat
  code : Array UInt8
  ranges : List ExceptionRange
  deriving DecidableEq, Repr

/-- What is kept of an attribute. -/
inductive Attribute where
  | code (body : Body)
  /-- The numbers of the method handles of the bootstrap methods. -/
  | bootstrapMethods (handles : List Nat)
  | other
  deriving DecidableEq, Repr

namespace Scan

/-- Read a type in a stack map. -/
def verificationType : Scan Unit := do
  let tag ← u1
  if 6 < tag then
    if tag ≤ 8 then skipWords 1 else refuse (.frameTag tag)

/-- Read a number of types in a stack map. -/
def verificationTypes (count : Nat) : Scan Unit := do
  let _ ← times verificationType count

/-- Read a frame of a stack map. -/
def stackMapFrame : Scan Unit := do
  let type ← u1
  if type < 64 then return
  else if type < 128 then verificationType
  else if type < 247 then refuse (.frameType type)
  else if type = 247 then
    skipWords 1
    verificationType
  else if type < 252 then skipWords 1
  else if type < 255 then
    skipWords 1
    verificationTypes (type - 251)
  else
    skipWords 1
    verificationTypes (← u2)
    verificationTypes (← u2)

/-- Read the pairs of names and values of an annotation, with a reader for the values. -/
def annotationWith (value : Scan Unit) : Scan Unit := do
  skipWords 1
  let _ ← table do
    skipWords 1
    value

/-- Read the value of an annotation member, nested at most `depth` deep. -/
def annotationValue : Nat → Scan Unit
  | 0 => do refuse (.overflow (← get) (← read).size)
  | depth + 1 => do
    let tag ← u1
    let letter := Char.ofNat tag
    if "BCDFIJSZsc".toList.contains letter then skipWords 1
    else if letter = 'e' then skipWords 2
    else if letter = '@' then annotationWith (annotationValue depth)
    else if letter = '[' then
      let _ ← table (annotationValue depth)
    else refuse (.annotationTag tag)

/-- Read a table of annotations. -/
def annotations : Scan Unit := do
  let depth := (← read).size
  let _ ← table (annotationWith (annotationValue depth))

/-- Read an entry of the table of exception handlers. -/
def exceptionRange : Scan ExceptionRange := return ⟨← u2, ← u2, ← u2, ← u2⟩

/-- Read a bootstrap method, and keep the number of its method handle. -/
def bootstrapMethod : Scan Nat := do
  let handle ← u2
  skipTable 1
  return handle

/-- The name of an attribute. -/
def attributeName (pool : Pool) (index : Nat) : Scan String :=
  match pool[index]? with
  | none => refuse (.noAttributeName index)
  | some (.utf8 text) => return text
  | some entry => refuse (.attributeName entry)

/-- Read the body of the attribute with the given name and length, with a reader for the attributes
inside it. -/
def attributeBody (inner : Scan (List Attribute)) (name : String) (length : Nat) :
    Scan Attribute := do
  match name with
  | "ConstantValue" | "SourceFile" | "Signature" | "NestHost" => skipWords 1
  | "Code" =>
    skipWords 1
    let maxLocals ← u2
    let code ← block (← u4)
    let ranges ← table exceptionRange
    let _ ← inner
    return .code ⟨maxLocals, code.data, ranges⟩
  | "Exceptions" | "NestMembers" | "PermittedSubclasses" => skipTable 1
  | "Synthetic" | "Deprecated" => return .other
  | "LineNumberTable" => skipTable 2
  | "LocalVariableTable" | "LocalVariableTypeTable" => skipTable 5
  | "InnerClasses" => skipTable 4
  | "EnclosingMethod" => skipWords 2
  | "BootstrapMethods" => return .bootstrapMethods (← table bootstrapMethod)
  | "MethodParameters" =>
    let _ ← times (skipWords 2) (← u1)
  | "Record" =>
    let _ ← table do
      skipWords 2
      inner
  | "RuntimeVisibleAnnotations" =>
    requireBlock length
    annotations
  | "RuntimeInvisibleAnnotations" => annotations
  | "AnnotationDefault" =>
    requireBlock length
    annotationValue (← read).size
  | "StackMapTable" =>
    let _ ← table stackMapFrame
  | other => refuse (.unknownAttribute other)
  return .other

/-- Read a table of attributes, nested at most `depth` deep. -/
def attributesWithin (pool : Pool) : Nat → Scan (List Attribute)
  | 0 => do refuse (.overflow (← get) (← read).size)
  | depth + 1 => table do
    let name ← attributeName pool (← u2)
    attributeBody (attributesWithin pool depth) name (← u4)

/-- Read a table of attributes. -/
def attributes (pool : Pool) : Scan (List Attribute) := do
  attributesWithin pool ((← read).size + 1)

end Scan

end Immutability.ClassFile
