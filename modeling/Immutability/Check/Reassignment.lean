import Immutability.Check
import Immutability.Check.CallGraph

/-!
# Fields reassigned after construction

A store into a field of the object itself, in a method that can run after the constructor, changes
the object. Private methods that only constructors call are part of construction.

* `FieldStore` is a store with the local slots loaded since the store before it; if the receiver is
  among them, the store is taken to be one into the object itself;
* `reassignment` is the check.
-/

namespace Immutability

/-- A field store, and the local slots loaded since the store before it. -/
structure FieldStore where
  index : Nat
  field : FieldRef
  loaded : List Nat
  deriving DecidableEq, Repr

namespace FieldStore

/-- Whether the receiver of the method was loaded. -/
def involvesThis (s : FieldStore) : Bool := s.loaded.contains 0

/-- The field stores in a sequence of instructions that starts at `index`, with the slots loaded so
far. -/
def scan (index : Nat) (loaded : List Nat) : List Instruction → List FieldStore
  | [] => []
  | .load _ slot :: rest => scan (index + 1) (loaded ++ [slot]) rest
  | .putField field :: rest => ⟨index, field, loaded⟩ :: scan (index + 1) [] rest
  | _ :: rest => scan (index + 1) loaded rest

/-- The field stores of a method, in the order of its instructions. -/
def ofMethod (m : Method) : List FieldStore := scan 0 [] m.code.toList

end FieldStore

namespace Check

/-- The stores of a method into fields of the object itself. -/
def selfStores (cls : ClassName) (m : Method) : List FieldStore :=
  (FieldStore.ofMethod m).filter fun s => s.involvesThis && s.field.owner == cls

/-- The finding for a store after construction. -/
def reassignmentFinding (cls : ClassName) (m : Method) (s : FieldStore) : Finding :=
  ⟨.fieldCanBeReassigned, .method cls m.name m.descriptor (some s.index),
    s!"Field [{s.field.name}] can be reassigned within method [{m.name}]"⟩

/-- The findings for one method. -/
def reassignmentsIn (graph : CallGraph) (cls : ClassName) (m : Method) : List Finding :=
  let stores := selfStores cls m
  let all := stores.map (reassignmentFinding cls m)
  if m.isConstructor || m.access.isStatic || stores.isEmpty then []
  else if m.access.isPrivate then
    match graph.onlyFromConstructors? (m.ref cls) with
    | some constructing => if constructing then [] else all
    | none =>
      [⟨.cannotAnalyse, .method cls m.name m.descriptor none,
        CallGraph.unknownMethodMessage (m.ref cls)⟩]
  else all

/-- A field that is stored after construction changes the object. -/
def reassignmentFindings (c : ClassFacts) : List Finding :=
  c.methods.flatMap (reassignmentsIn (.ofClass c) c.name)

/-- A field that is stored after construction changes the object. -/
def reassignment : Check := .ofFacts "setter_method" reassignmentFindings

end Check

end Immutability
