import Immutability.Check

/-!
# Checks of declarations

What the flags of a class and of its fields say by themselves.

* `extensible`: a class that can be extended may have mutable subclasses;
* `abstract`: an interface or abstract class may have mutable implementations;
* `nonFinalFields`: a field that is not final can be reassigned;
* `arrayFields`: the elements of an array can always be replaced.
-/

namespace Immutability.Check

/-- Whether a class can be extended: it is not final, and has a constructor that a subclass can
call. -/
def isExtensible (c : ClassFacts) : Bool :=
  !(c.access.isFinal || c.access.isEnum || c.access.isInterface) &&
    c.constructors.any fun m => !m.access.isPrivate

/-- A class that can be extended may have mutable subclasses. -/
def extensibleFindings (c : ClassFacts) : List Finding :=
  if isExtensible c then
    [⟨.notDeclaredFinal, .cls c.name,
      s!"Can be subclassed, therefore parameters declared to be {c.name.simple} may be mutable " ++
        "subclasses."⟩]
  else []

/-- A class that can be extended may have mutable subclasses. -/
def extensible : Check := .ofFacts "final_class" extensibleFindings

/-- What makes a type abstract, in words. -/
def abstractKind? (c : ClassFacts) : Option String :=
  if c.access.isInterface then some "an interface"
  else if c.access.isAbstract then some "abstract"
  else none

/-- An interface or abstract class may have mutable implementations. -/
def abstractFindings (c : ClassFacts) : List Finding :=
  match abstractKind? c with
  | some kind =>
    [⟨.abstractTypeInherentlyMutable, .cls c.name,
      s!"{c.name} is {kind}, implementations may be mutable."⟩]
  | none => []

/-- An interface or abstract class may have mutable implementations. -/
def abstract : Check := .ofFacts "abstract_type" abstractFindings

/-- The finding for a field that is not final. -/
def nonFinalFinding (cls : ClassName) (f : Field) : Finding :=
  if f.access.isPrivate then
    ⟨.nonFinalField, .field cls f.name, s!"Private field is not declared final. [{f.name}]"⟩
  else
    ⟨.publishedNonFinalField, .field cls f.name,
      s!"Field is visible outside the class ({f.access.visibility.keyword}), and is not " ++
        s!"declared final. [{f.name}]"⟩

/-- A field that is not final can be reassigned, by anyone who can see it. -/
def nonFinalFindings (c : ClassFacts) : List Finding :=
  (c.instanceFields.filter fun f => !f.access.isFinal).map (nonFinalFinding c.name)

/-- A field that is not final can be reassigned. -/
def nonFinalFields : Check := .ofFacts "non_final_field" nonFinalFindings

/-- The finding for a field with an array type. -/
def arrayFinding (cls : ClassName) (f : Field) : Finding :=
  let shown := (f.type?.map FieldType.display).getD f.descriptor
  ⟨.arrayTypeToField, .field cls f.name,
    s!"Field is an array ({shown}). Arrays are always mutable. [{f.name}]"⟩

/-- The elements of an array can always be replaced. -/
def arrayFindings (c : ClassFacts) : List Finding :=
  (c.instanceFields.filter Field.isArray).map (arrayFinding c.name)

/-- The elements of an array can always be replaced. -/
def arrayFields : Check := .ofFacts "array_field" arrayFindings

end Immutability.Check
