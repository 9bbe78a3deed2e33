import Immutability.Access
import Immutability.Instruction

/-!
# Class facts

What the analysis knows about a class: its name, ancestry, flags, fields and method bodies.

* `Field`, `Handler`, `Method` and `ClassFacts` are the facts themselves;
* `Method.derivedLocals` is the number of local slots that a body needs;
* the functions behind `ClassFacts.named` assemble the facts of a class step by step.
-/

namespace Immutability

/-- A declared field. -/
structure Field where
  name : String
  descriptor : String
  access : Access
  deriving DecidableEq, Repr

namespace Field

/-- Whether the declared type is an array. -/
def isArray (f : Field) : Bool := f.descriptor.toList.head? == some '['

/-- The declared type, if the descriptor is well formed. -/
def type? (f : Field) : Option FieldType := (FieldType.parse f.descriptor).toOption

end Field

/-- An exception handler for the instructions from `start` up to but not including `stop`. -/
structure Handler where
  start : Nat
  stop : Nat
  target : Nat
  /-- The class of exceptions caught, or none for a handler of all exceptions. -/
  catches : Option ClassName
  deriving DecidableEq, Repr

/-- Whether a handler is active at an instruction. -/
def Handler.covers (h : Handler) (index : Nat) : Bool := h.start ≤ index && index < h.stop

/-- A declared method. A method without code has no instructions. -/
structure Method where
  name : String
  descriptor : String
  access : Access
  maxLocals : Nat
  code : Array Instruction
  handlers : List Handler
  deriving DecidableEq, Repr

/-- A maximum taken along a list bounds what the list has and what it started from. -/
theorem le_foldl_max {l : List Nat} {n : Nat} (a : Nat) (h : n ∈ l ∨ n ≤ a) :
    n ≤ l.foldl max a := by
  induction l generalizing a with
  | nil => simpa using h
  | cons b l ih =>
    apply ih
    rcases h with h | h
    · rcases List.mem_cons.1 h with rfl | h
      · exact Or.inr (Nat.le_max_right _ _)
      · exact Or.inl h
    · exact Or.inr (Nat.le_trans h (Nat.le_max_left _ _))

theorem mem_of_lookup {α β : Type} [BEq α] [LawfulBEq α] {l : List (α × β)} {a : α} {b : β}
    (h : l.lookup a = some b) : (a, b) ∈ l := by
  obtain ⟨l₁, l₂, rfl, -⟩ := List.lookup_eq_some_iff.1 h
  exact List.mem_append_right _ List.mem_cons_self

namespace Method

/-- Whether the method is a constructor. -/
def isConstructor (m : Method) : Bool := m.name == constructorName

/-- The method as a member of the class `owner`. -/
def ref (m : Method) (owner : ClassName) : MethodRef := ⟨owner, m.name, m.descriptor⟩

/-- The number of local slots taken by the receiver. -/
def receiverSlots (m : Method) : Nat := if m.access.isStatic then 0 else 1

/-- The largest number of local slots a method can declare. -/
def localsLimit : Nat := 65535

/-- The local slots needed by receiver, parameters and instructions, up to the limit. A malformed
descriptor counts as one without parameters. -/
def derivedLocals (m : Method) : Nat :=
  let parameters := match Signature.parse m.descriptor with
    | .ok s => s.parameterSlots
    | .error _ => 0
  let used := m.code.foldl (fun n i => max n i.neededLocals) 0
  min localsLimit (max (m.receiverSlots + parameters) used)

/-- The method with as many local slots as it needs. -/
def withDerivedLocals (m : Method) : Method := { m with maxLocals := m.derivedLocals }

end Method

/-- The facts about one class or interface. -/
structure ClassFacts where
  name : ClassName
  superclass : Option ClassName
  interfaces : List ClassName
  access : Access
  fields : List Field
  methods : List Method
  deriving DecidableEq, Repr

namespace ClassFacts

/-- The first method with the given name and descriptor. -/
def method? (c : ClassFacts) (name descriptor : String) : Option Method :=
  c.methods.find? fun m => m.name == name && m.descriptor == descriptor

/-- The constructors, in the order of their declaration. -/
def constructors (c : ClassFacts) : List Method := c.methods.filter Method.isConstructor

/-- The fields that every instance has. -/
def instanceFields (c : ClassFacts) : List Field := c.fields.filter fun f => !f.access.isStatic

/-- The name of the class with the number of its members. -/
def display (c : ClassFacts) : String :=
  s!"{c.name} ({c.fields.length} fields, {c.methods.length} methods)"

/-! ### Assembling a class -/

/-- A public class without members that extends the root class. -/
def named (name : ClassName) : ClassFacts :=
  ⟨name, some .object, [], .publicFlag, [], []⟩

/-- The class with more flags. -/
def withFlags (c : ClassFacts) (flags : Access) : ClassFacts :=
  { c with access := c.access.union flags }

/-- The class made an interface. -/
def asInterface (c : ClassFacts) : ClassFacts :=
  (c.withFlags .interfaceFlag).withFlags .abstractFlag

/-- The class with one more interface. -/
def implementing (c : ClassFacts) (name : ClassName) : ClassFacts :=
  { c with interfaces := c.interfaces ++ [name] }

/-- The class with one more field. -/
def withField (c : ClassFacts) (f : Field) : ClassFacts := { c with fields := c.fields ++ [f] }

/-- The class with one more method. -/
def withMethod (c : ClassFacts) (m : Method) : ClassFacts := { c with methods := c.methods ++ [m] }

/-- A public constructor without parameters that only calls the one of `superclass`. -/
def plainConstructor (superclass : ClassName) : Method :=
  Method.withDerivedLocals
    { name := constructorName, descriptor := "()V", access := .publicFlag, maxLocals := 0
      code :=
        #[.load .reference 0, .invoke .special ⟨superclass, constructorName, "()V"⟩, .ret none]
      handlers := [] }

/-- The class with a public constructor without parameters. -/
def withPlainConstructor (c : ClassFacts) : ClassFacts :=
  c.withMethod (plainConstructor (c.superclass.getD .object))

end ClassFacts

end Immutability
