import Immutability.ClassFacts
import Immutability.Value

/-!
# Frames

A frame is the state of a method before an instruction: its local slots and its operand stack. A
`long` or `double` fills two local slots, but one entry of the stack.

* `Frame.entry` is the frame in which a method starts;
* `Frame.step` is the effect of one instruction, and `StepError` what can go wrong in it;
* `StackMove.apply` is the effect of the instructions that only move stack entries;
* `Frame.merge` is what two frames have in common.
-/

namespace Immutability

/-- What can go wrong in one instruction. -/
inductive StepError where
  | underflow
  | slot (slot : Nat)
  | descriptor (cause : DescriptorError)
  deriving DecidableEq, Repr

/-- The wording of an error. -/
def StepError.message : StepError → String
  | underflow => "operand stack underflow"
  | slot s => s!"local slot {s} out of range"
  | descriptor cause => cause.message

/-- The local slots and the operand stack, top first, before an instruction. -/
structure Frame where
  locals : Array Value
  stack : List Value
  deriving DecidableEq

/-- The effect of a stack move, top first, or none if the stack is too short. A wide value counts
for two in the moves that speak of two entries. -/
def StackMove.apply : StackMove → List Value → Option (List Value)
  | .pop, _ :: s => some s
  | .pop2, a :: s =>
    if a.isWide then some s
    else match s with
      | _ :: s => some s
      | _ => none
  | .dup, a :: s => some (a :: a :: s)
  | .dupX1, a :: b :: s => some (a :: b :: a :: s)
  | .dupX2, a :: b :: s =>
    if b.isWide then some (a :: b :: a :: s)
    else match s with
      | c :: s => some (a :: b :: c :: a :: s)
      | _ => none
  | .dup2, a :: s =>
    if a.isWide then some (a :: a :: s)
    else match s with
      | b :: s => some (a :: b :: a :: b :: s)
      | _ => none
  | .dup2X1, a :: b :: s =>
    if a.isWide then some (a :: b :: a :: s)
    else match s with
      | c :: s => some (a :: b :: c :: a :: b :: s)
      | _ => none
  | .dup2X2, a :: b :: s =>
    if a.isWide then
      if b.isWide then some (a :: b :: a :: s)
      else match s with
        | c :: s => some (a :: b :: c :: a :: s)
        | _ => none
    else match s with
      | c :: s =>
        if c.isWide then some (a :: b :: c :: a :: b :: s)
        else match s with
          | d :: s => some (a :: b :: c :: d :: a :: b :: s)
          | _ => none
      | _ => none
  | .swap, a :: b :: s => some (b :: a :: s)
  | _, _ => none

/-- The value of a constant. -/
def Constant.value : Constant → Value
  | .null => .null
  | .int => .primitive .int
  | .long => .primitive .long
  | .float => .primitive .float
  | .double => .primitive .double
  | .string => .instanceOf (.ofString "java.lang.String") .constant
  | .classLiteral => .instanceOf (.ofString "java.lang.Class") .constant
  | .other => .reference none .constant

namespace Frame

/-- The entry `depth` places below the top of the stack. -/
def peek (f : Frame) (depth : Nat) : Option Value := f.stack[depth]?

/-- The topmost entries of the stack, lowest first. -/
def top? (f : Frame) (count : Nat) : Option (List Value) :=
  if count ≤ f.stack.length then some (f.stack.take count).reverse else none

/-- The frame with a value pushed. -/
def push (f : Frame) (v : Value) : Frame := { f with stack := v :: f.stack }

/-- The topmost entry and the frame without it. -/
def pop (f : Frame) : Except StepError (Value × Frame) :=
  match f.stack with
  | v :: s => .ok (v, { f with stack := s })
  | [] => .error .underflow

/-- The topmost entries, lowest first, and the frame without them. -/
def popMany (f : Frame) (count : Nat) : Except StepError (List Value × Frame) :=
  if count ≤ f.stack.length then
    .ok ((f.stack.take count).reverse, { f with stack := f.stack.drop count })
  else .error .underflow

/-- The frame without its topmost entries. -/
def dropMany (f : Frame) (count : Nat) : Except StepError Frame :=
  (f.popMany count).map (·.2)

/-- The value in a local slot. -/
def getLocal (f : Frame) (slot : Nat) : Except StepError Value :=
  match f.locals[slot]? with
  | some v => .ok v
  | none => .error (.slot slot)

/-- The frame with a value of the given kind in a local slot; the second slot of a wide value
holds nothing. -/
def setLocal (f : Frame) (kind : Kind) (slot : Nat) (v : Value) : Except StepError Frame :=
  if slot + kind.slots ≤ f.locals.size then
    let locals := f.locals.setIfInBounds slot v
    .ok { f with locals := if kind.isWide then locals.setIfInBounds (slot + 1) .top else locals }
  else .error (.slot slot)

/-- The frame with every occurrence of one value replaced by another. -/
def replace (f : Frame) (old new : Value) : Frame :=
  let subst := fun v => if v = old then new else v
  ⟨f.locals.map subst, f.stack.map subst⟩

/-- The value read from a field. -/
def fieldValue (field : FieldRef) : Except StepError Value := do
  let type ← (FieldType.parse field.descriptor).mapError .descriptor
  return .ofType type (.field field)

/-- How deep origins are remembered in the arguments of a call. -/
def originDepth : Nat := 3

/-- The frame after a call. The constructor call on a new instance turns every occurrence of it
into a reference; any other call pushes its result. -/
def call (f : Frame) (kind : CallKind) (method : MethodRef) : Except StepError Frame := do
  let signature ← (Signature.parse method.descriptor).mapError .descriptor
  let (args, f) ← f.popMany signature.parameters.length
  let args := args.map (Value.truncate originDepth)
  let returned (f : Frame) : Frame :=
    match signature.result with
    | some type => f.push (.ofType type (.returned method args))
    | none => f
  if kind = .static then return returned f
  let (receiver, f) ← f.pop
  match receiver with
  | .uninitialized cls _ =>
    if kind = .special ∧ method.isConstructor then
      return f.replace receiver (.instanceOf cls (.constructed cls args))
    else return returned f
  | _ => return returned f

/-- The frame after the instruction at `index`. -/
def step (f : Frame) (index : Nat) : Instruction → Except StepError Frame
  | .nop => .ok f
  | .goto _ => .ok f
  | .constant c => .ok (f.push c.value)
  | .load _ slot => return f.push (← f.getLocal slot)
  | .store kind slot => do
    let (v, f) ← f.pop
    f.setLocal kind slot v
  | .increment slot => f.setLocal .int slot (.primitive .int)
  | .arrayLoad kind => do
    let (_, f) ← f.pop
    let (array, f) ← f.pop
    match kind with
    | .reference => return f.push (.reference (array.type?.bind FieldType.element?) .unknown)
    | kind => return f.push (.primitive kind)
  | .arrayStore _ => f.dropMany 3
  | .stack move =>
    match move.apply f.stack with
    | some s => .ok { f with stack := s }
    | none => .error .underflow
  | .compute pops push => do
    let f ← f.dropMany pops
    match push with
    | some kind => return f.push (.primitive kind)
    | none => return f
  | .branch pops _ => f.dropMany pops
  | .switch _ _ => f.dropMany 1
  | .raise => f.dropMany 1
  | .monitor => f.dropMany 1
  | .ret none => .ok f
  | .ret (some _) => f.dropMany 1
  | .getField field => do
    let f ← f.dropMany 1
    return f.push (← fieldValue field)
  | .getStatic field => return f.push (← fieldValue field)
  | .putField _ => f.dropMany 2
  | .putStatic _ => f.dropMany 1
  | .invoke kind method => f.call kind method
  | .invokeDynamic _ descriptor _ => do
    let signature ← (Signature.parse descriptor).mapError .descriptor
    let f ← f.dropMany signature.parameters.length
    match signature.result with
    | some type => return f.push (.ofType type .unknown)
    | none => return f
  | .new cls => .ok (f.push (.uninitialized cls index))
  | .newArray descriptor dimensions => do
    let f ← f.dropMany dimensions
    let type ← (FieldType.parse descriptor).mapError .descriptor
    return f.push (.reference (some type) .newArray)
  | .arrayLength => return (← f.dropMany 1).push (.primitive .int)
  | .instanceOf => return (← f.dropMany 1).push (.primitive .int)
  | .checkCast descriptor => do
    let (v, f) ← f.pop
    match v with
    | .reference _ origin =>
      let type ← (FieldType.parse descriptor).mapError .descriptor
      return f.push (.reference (some type) origin)
    | v => return f.push v

/-- What two frames have in common, or none if their stacks differ in height. -/
def merge (f g : Frame) : Option Frame :=
  if f.stack.length = g.stack.length then
    some ⟨Array.zipWith Value.merge f.locals g.locals, List.zipWith Value.merge f.stack g.stack⟩
  else none

/-! ### The start of a method -/

/-- Slot numbers are kept in sixteen bits. -/
def slotModulus : Nat := 65536

/-- The local slots filled by parameters, from the given slot on. -/
def parameterLocals (slot : Nat) : List FieldType → List Value
  | [] => []
  | type :: types =>
    .ofType type (.parameter (slot % slotModulus)) ::
      (if type.isWide then [.top] else []) ++ parameterLocals (slot + type.slots) types

/-- The frame before the first instruction. -/
def entry (m : Method) : Except DescriptorError Frame := do
  let signature ← Signature.parse m.descriptor
  let receiver : List Value := if m.access.isStatic then [] else [.this]
  let given := receiver ++ parameterLocals m.receiverSlots signature.parameters
  let unset := List.replicate (m.maxLocals - given.length) .top
  return ⟨(given ++ unset).toArray, []⟩

end Frame

end Immutability
