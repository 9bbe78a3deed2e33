import Immutability.Descriptor

/-!
# Instructions

The two hundred operation codes of a method body fall into the few shapes that matter for
following values. The target of a jump is an instruction index.

* `Kind` is the computational kind of a value;
* `FieldRef` and `MethodRef` are symbolic references;
* `Instruction` is one instruction, with its `jumpTargets` and whether it `fallsThrough`.
-/

namespace Immutability

/-- The computational kinds of values. -/
inductive Kind where
  | int | long | float | double | reference
  deriving DecidableEq, Repr

namespace Kind

/-- Whether a value of the kind fills two local slots. -/
def isWide : Kind → Bool
  | long | double => true
  | _ => false

/-- The number of local slots that a value of the kind fills. -/
def slots (k : Kind) : Nat := if k.isWide then 2 else 1

/-- The kind of the primitive type with this letter; every letter of a narrow type gives `int`. -/
def ofLetter : Char → Kind
  | 'J' => long
  | 'F' => float
  | 'D' => double
  | _ => int

end Kind

/-- The kind of the values of a primitive type. -/
def Primitive.kind (p : Primitive) : Kind := .ofLetter p.letter

/-- How a call finds its method. -/
inductive CallKind where
  | virtual | special | static | interface
  deriving DecidableEq, Repr

/-- The instructions that only move values on the operand stack. -/
inductive StackMove where
  | pop | pop2 | dup | dupX1 | dupX2 | dup2 | dup2X1 | dup2X2 | swap
  deriving DecidableEq, Repr

/-- The constants that an instruction can push. -/
inductive Constant where
  | null | int | long | float | double | string | classLiteral | other
  deriving DecidableEq, Repr

/-- A symbolic reference to a field. -/
structure FieldRef where
  owner : ClassName
  name : String
  descriptor : String
  deriving DecidableEq, Repr

/-- A symbolic reference to a method. -/
structure MethodRef where
  owner : ClassName
  name : String
  descriptor : String
  deriving DecidableEq, Repr

/-- The name shared by all constructors. -/
def constructorName : String := "<init>"

/-- Whether a reference names a constructor. -/
def MethodRef.isConstructor (m : MethodRef) : Bool := m.name == constructorName

/-- A method reference as `owner.name` with the descriptor behind it. -/
def MethodRef.display (m : MethodRef) : String := m.owner.text ++ "." ++ m.name ++ m.descriptor

/-- One instruction of a method body. -/
inductive Instruction where
  | nop
  | constant (value : Constant)
  | load (kind : Kind) (slot : Nat)
  | store (kind : Kind) (slot : Nat)
  | increment (slot : Nat)
  | arrayLoad (kind : Kind)
  | arrayStore (kind : Kind)
  | stack (move : StackMove)
  /-- Arithmetic, comparison or conversion: some values are replaced by at most one. -/
  | compute (pops : Nat) (push : Option Kind)
  | branch (pops : Nat) (target : Nat)
  | goto (target : Nat)
  | switch (targets : List Nat) (default : Nat)
  | ret (kind : Option Kind)
  | raise
  | getField (field : FieldRef)
  | putField (field : FieldRef)
  | getStatic (field : FieldRef)
  | putStatic (field : FieldRef)
  | invoke (call : CallKind) (method : MethodRef)
  /-- A call site linked at run time by a method of the class `bootstrap`. -/
  | invokeDynamic (name descriptor : String) (bootstrap : Option ClassName)
  | new (cls : ClassName)
  | newArray (descriptor : String) (dimensions : Nat)
  | arrayLength
  | checkCast (descriptor : String)
  | instanceOf
  | monitor
  deriving DecidableEq, Repr

namespace Instruction

/-- The targets an instruction may jump to, the default of a switch last. -/
def jumpTargets : Instruction → List Nat
  | branch _ target => [target]
  | goto target => [target]
  | switch targets default => targets ++ [default]
  | _ => []

/-- Whether the next instruction may follow. -/
def fallsThrough : Instruction → Bool
  | goto _ | switch _ _ | ret _ | raise => false
  | _ => true

/-- The instruction with every jump target replaced, in the order of `jumpTargets`. -/
def mapTargets {ε : Type} (f : Nat → Except ε Nat) : Instruction → Except ε Instruction
  | branch pops target => return branch pops (← f target)
  | goto target => return goto (← f target)
  | switch targets default => do
    let targets ← targets.mapM f
    return switch targets (← f default)
  | i => .ok i

/-- The number of local slots that an instruction needs. -/
def neededLocals : Instruction → Nat
  | load kind slot => slot + kind.slots
  | store kind slot => slot + kind.slots
  | increment slot => slot + 1
  | _ => 0

end Instruction

end Immutability
