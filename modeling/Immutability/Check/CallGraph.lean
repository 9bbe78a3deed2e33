import Immutability.ClassFacts

/-!
# Calls inside a class

`CallGraph` records which methods a class declares and which methods it calls outside its
constructors. Calls are followed for one step only: a private method that is called by another
private method counts as called outside construction, whoever calls the other one.
-/

namespace Immutability

/-- The methods of a class, and the calls it makes outside its constructors. -/
structure CallGraph where
  /-- The declared methods, and whether each is private. -/
  declared : List (MethodRef × Bool)
  calledOutside : List MethodRef

namespace CallGraph

/-- The methods called by the instructions of a method. -/
def callees (m : Method) : List MethodRef :=
  m.code.toList.filterMap fun
    | .invoke _ callee => some callee
    | _ => none

/-- The call graph of a class. -/
def ofClass (c : ClassFacts) : CallGraph where
  declared := c.methods.map fun m => (m.ref c.name, m.access.isPrivate)
  calledOutside := (c.methods.filter fun m => !m.isConstructor).flatMap callees

/-- Whether a declared method is private; of several declarations the last counts. -/
def isPrivate? (g : CallGraph) (m : MethodRef) : Option Bool := g.declared.reverse.lookup m

/-- Whether a method is only called from constructors, or none if the class does not declare it.
Only private methods can be. -/
def onlyFromConstructors? (g : CallGraph) (m : MethodRef) : Option Bool :=
  (g.isPrivate? m).map fun isPrivate => isPrivate && !g.calledOutside.contains m

/-- The message for a method that the class does not declare. -/
def unknownMethodMessage (m : MethodRef) : String :=
  s!"method {m.display} is not declared by the analysed class"

end CallGraph

end Immutability
