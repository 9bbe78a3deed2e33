import Immutability.Check

/-!
# Inherited mutability

A class is no more immutable than its superclass.
-/

namespace Immutability.Check

/-- The superclasses that bring no state of their own. -/
def neutralSuperclasses : List String := ["java.lang.Object", "java.lang.Enum", "java.lang.Record"]

/-- The message for a superclass that gives rise to doubt. -/
def inheritedMessage (path : AnalysisPath) (parent : ClassName) : Reason → String
  | .cyclicReference =>
    s!"Superclass {parent} is part of a reference cycle: {path.describeCycle parent}"
  | .cannotAnalyse => s!"Superclass {parent} could not be analysed."
  | _ => s!"Instances of mutable superclass {parent} could be mutated."

/-- The superclass that has to be looked at. -/
def relevantSuperclass? (c : ClassFacts) : Option ClassName :=
  c.superclass.filter fun parent => !neutralSuperclasses.contains parent.text

/-- A class is no more immutable than its superclass. -/
def inheritance : Check where
  name := "inherited_mutability"
  examine ctx c := do
    match relevantSuperclass? c with
    | none => return []
    | some parent =>
      let dependency ← Inquiry.mutabilityOf parent
      match dependency.reasonFor .inheritedMutability with
      | none => return []
      | some reason => return [⟨reason, .cls c.name, inheritedMessage ctx.path parent reason⟩]

end Immutability.Check
