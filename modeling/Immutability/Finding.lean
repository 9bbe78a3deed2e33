import Immutability.ClassName
import Immutability.Text.Letters

/-!
# Findings

A finding is one reason why instances of a class may change, at a place in its code.

* `Reason` lists the kinds of reasons; `Reason.isSoft` singles out those that only say that the
  analysis could not look further;
* `Location` is a place in the code of a class;
* `Finding` joins the two with a message.
-/

namespace Immutability

/-- Why instances of a class may be mutable. -/
inductive Reason where
  | fieldCanBeReassigned
  | escapedThisReference
  | abstractTypeToField
  | abstractCollectionTypeToField
  | mutableTypeToField
  | publishedNonFinalField
  | nonFinalField
  | notDeclaredFinal
  | arrayTypeToField
  | abstractTypeInherentlyMutable
  | inheritedMutability
  | cyclicReference
  | cannotAnalyse
  /-- The verdict was configured. -/
  | hardcoded
  deriving DecidableEq, Repr

namespace Reason

/-- All reasons. -/
def all : List Reason :=
  [fieldCanBeReassigned, escapedThisReference, abstractTypeToField, abstractCollectionTypeToField,
   mutableTypeToField, publishedNonFinalField, nonFinalField, notDeclaredFinal, arrayTypeToField,
   abstractTypeInherentlyMutable, inheritedMutability, cyclicReference, cannotAnalyse, hardcoded]

/-- The word for a reason in configurations and reports. -/
def keyword : Reason → String
  | fieldCanBeReassigned => "field_can_be_reassigned"
  | escapedThisReference => "escaped_this_reference"
  | abstractTypeToField => "abstract_type_to_field"
  | abstractCollectionTypeToField => "abstract_collection_type_to_field"
  | mutableTypeToField => "mutable_type_to_field"
  | publishedNonFinalField => "published_non_final_field"
  | nonFinalField => "non_final_field"
  | notDeclaredFinal => "not_declared_final"
  | arrayTypeToField => "array_type_to_field"
  | abstractTypeInherentlyMutable => "abstract_type_inherently_mutable"
  | inheritedMutability => "inherited_mutability"
  | cyclicReference => "cyclic_reference"
  | cannotAnalyse => "cannot_analyse"
  | hardcoded => "hardcoded"

/-- The reason with exactly this keyword. -/
def ofKeyword? (word : String) : Option Reason := all.find? (·.keyword == word)

/-- The complaint about a word that names no reason. -/
def unknown (word : String) : String := s!"unknown mutability reason: {word}"

/-- The reason with this keyword, whatever its case, with hyphens for underscores if need be. -/
def parse? (word : String) : Option Reason :=
  ofKeyword? (Text.underscored (Text.lower (Text.trim word)))

/-- A soft reason only signals an unresolved dependency, or a private field that is never
published. -/
def isSoft : Reason → Bool
  | cyclicReference | cannotAnalyse | nonFinalField => true
  | _ => false

/-- A one-line explanation. -/
def description : Reason → String
  | fieldCanBeReassigned => "Class has a field which may be reassigned after construction."
  | escapedThisReference => "The 'this' reference is handed to code outside the object."
  | abstractTypeToField => "Abstract type (interface or abstract class) assigned to field."
  | abstractCollectionTypeToField =>
    "Abstract collection type assigned to field without a defensive copy and unmodifiable wrapper."
  | mutableTypeToField => "Mutable type assigned to field."
  | publishedNonFinalField =>
    "Non-final field is visible outside the class and can be reassigned."
  | nonFinalField => "Field is not declared final."
  | notDeclaredFinal => "Class is not declared final and can be subclassed by a mutable type."
  | arrayTypeToField => "Array type assigned to field; arrays are always mutable."
  | abstractTypeInherentlyMutable =>
    "Interfaces and abstract classes can have mutable implementations."
  | inheritedMutability => "Class inherits from a mutable superclass."
  | cyclicReference =>
    "Class participates in a reference cycle, so a dependency could not be fully resolved."
  | cannotAnalyse => "A dependency of this class could not be analysed."
  | hardcoded => "Result was configured rather than analysed."

end Reason

/-- A place in the code of a class. -/
inductive Location where
  | cls (name : ClassName)
  | field (cls : ClassName) (name : String)
  /-- A method, or one instruction of it. -/
  | method (cls : ClassName) (name descriptor : String) (instruction : Option Nat)
  deriving DecidableEq, Repr

namespace Location

/-- The class of a location. -/
def className : Location → ClassName
  | cls name => name
  | field c _ => c
  | method c _ _ _ => c

/-- A location as one text. -/
def display : Location → String
  | cls name => name.text
  | field c name => c.text ++ "." ++ name
  | method c name descriptor none => c.text ++ "." ++ name ++ descriptor
  | method c name descriptor (some i) => s!"{c}.{name}{descriptor} @{i}"

end Location

/-- One reason, where it was found, and the message for the user. -/
structure Finding where
  reason : Reason
  location : Location
  message : String
  deriving DecidableEq, Repr

/-- A finding as one line. -/
def Finding.display (f : Finding) : String :=
  s!"[{f.reason.keyword}] {f.message} ({f.location.display})"

end Immutability
