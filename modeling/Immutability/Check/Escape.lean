import Immutability.Check

/-!
# Escape of the receiver

Whoever else gets hold of the receiver of a method can see the object while it changes. The
receiver escapes as an argument of a call, through a static field, an array, or a field of another
object. Calls made on the receiver itself are fine.

* `EscapeRoute` is how the receiver leaves the object;
* `escapeRoute?` finds it for one instruction and the frame before it;
* `escape` is the check.
-/

namespace Immutability

/-- How the receiver leaves the object. -/
inductive EscapeRoute where
  | constructorArgument (owner : ClassName)
  | argument (owner : ClassName) (method : String)
  | captured (callSite : String)
  | staticField (owner : ClassName) (field : String)
  | array
  | otherObject (field : String)
  | foreignType (field : String) (cls : ClassName)
  deriving DecidableEq, Repr

/-- A route in words. -/
def EscapeRoute.describe : EscapeRoute → String
  | constructorArgument owner => s!"passed to the constructor of {owner}"
  | argument owner method => s!"passed as an argument to {owner}.{method}"
  | captured callSite => s!"captured by dynamic call site {callSite}"
  | staticField owner field => s!"assigned to static field {owner}.{field}"
  | array => "stored into an array"
  | otherObject field => s!"assigned to field {field} of another object"
  | foreignType field cls => s!"assigned to field {field} which is not of type {cls}"

namespace Check

/-- The bootstrap classes whose call sites read their arguments and do not keep them. -/
def containedBootstraps : List String :=
  ["java.lang.runtime.ObjectMethods", "java.lang.invoke.StringConcatFactory"]

/-- Whether the receiver is the entry at `depth` of the stack. -/
def isThisAt (frame : Frame) (depth : Nat) : Bool := frame.peek depth = some .this

/-- Why the arguments of a call are unknown. -/
inductive ArgumentError where
  | descriptor (cause : DescriptorError)
  | shortStack

/-- Whether the receiver is among the arguments of a call with the given descriptor. -/
def passesThis (frame : Frame) (descriptor : String) : Except ArgumentError Bool := do
  let signature ← (Signature.parse descriptor).mapError ArgumentError.descriptor
  match frame.top? signature.parameters.length with
  | some args => return args.contains .this
  | none => throw .shortStack

/-- Whether a descriptor is the one of the class itself. -/
def isOwnType (cls : ClassName) (descriptor : String) : Bool :=
  match FieldType.parse descriptor with
  | .ok (.object name) => name = cls
  | _ => false

/-- How an instruction of a method of `cls` lets the receiver escape. -/
def escapeRoute? (cls : ClassName) (frame : Frame) :
    Instruction → Except ArgumentError (Option EscapeRoute)
  | .invoke _ method => do
    if ← passesThis frame method.descriptor then
      if method.isConstructor then return some (.constructorArgument method.owner)
      return some (.argument method.owner method.name)
    return none
  | .invokeDynamic name descriptor bootstrap => do
    if bootstrap.any fun owner => containedBootstraps.contains owner.text then return none
    if ← passesThis frame descriptor then return some (.captured name)
    return none
  | .putStatic field =>
    .ok (if isThisAt frame 0 then some (.staticField field.owner field.name) else none)
  | .arrayStore .reference => .ok (if isThisAt frame 0 then some .array else none)
  | .putField field =>
    .ok <|
      if !isThisAt frame 0 then none
      else if !isThisAt frame 1 || field.owner != cls then some (.otherObject field.name)
      else if isOwnType cls field.descriptor then none
      else some (.foreignType field.name cls)
  | _ => .ok none

/-- The finding for a receiver that escapes. -/
def escapeFinding (cls : ClassName) (m : Method) (index : Nat) (route : EscapeRoute) : Finding :=
  let phase := if m.isConstructor then "during construction" else "after construction"
  ⟨.escapedThisReference, .method cls m.name m.descriptor (some index),
    s!"The 'this' reference is {route.describe} {phase} in [{m.name}]."⟩

/-- The error of the check for a call whose arguments are unknown. -/
def argumentError (cls : ClassName) (m : Method) (index : Nat) : ArgumentError → CheckError
  | .descriptor cause => .callDescriptor cls m.name index cause
  | .shortStack => .shortStack cls m.name index

/-- Look at one instruction of a method with known frames. An instruction that is never reached is
fine. -/
def escapeAt (cls : ClassName) (m : Method) (frames : Array (Option Frame))
    (p : Instruction × Nat) : Except CheckError (Option Finding) :=
  match frames[p.2]? with
  | some (some frame) =>
    match escapeRoute? cls frame p.1 with
    | .error e => .error (argumentError cls m p.2 e)
    | .ok route => .ok (route.map (escapeFinding cls m p.2))
  | _ => .ok none

/-- Look at all instructions of a method. -/
def escapesIn (cls : ClassName) (m : Method) : Except CheckError (List Finding) := do
  if m.access.isStatic then return []
  let frames ← (m.frames cls).mapError CheckError.flow
  let found ← m.code.toList.zipIdx.mapM (escapeAt cls m frames)
  return found.filterMap id

/-- The receiver must not leave the object. -/
def escapeFindings (c : ClassFacts) : Except CheckError (List Finding) := do
  let found ← c.methods.mapM (escapesIn c.name)
  return found.flatten

/-- The receiver must not leave the object. -/
def escape : Check where
  name := "escaped_this"
  examine _ c := Examination.ofExcept id (escapeFindings c)

end Check

end Immutability
