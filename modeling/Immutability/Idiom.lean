import Immutability.Text.Blank
import Immutability.Value

/-!
# Collection idioms

A field of a collection type is safe when its value is an unmodifiable view of a private copy, as
in `Collections.unmodifiableList(new ArrayList<>(items))`.

* `MethodPattern` names all methods of a class with one name;
* `Idiom` lists, for a field type, the methods that copy, that wrap, and that do both at once;
* `Idiom.classify` compares the origin of a reference with an idiom;
* `Idiom.defaults` are the idioms of the standard collections.
-/

namespace Immutability

/-- All methods of a class with the given name. -/
structure MethodPattern where
  owner : ClassName
  name : String
  deriving DecidableEq, Repr

namespace MethodPattern

/-- Read a pattern written `owner.name`. -/
def parse? (text : String) : Option MethodPattern :=
  let reversed := (Text.trimChars text.toList).reverse
  let name := (reversed.takeWhile (· ≠ '.')).reverse
  match reversed.dropWhile (· ≠ '.') with
  | _ :: c :: owner =>
    if name.isEmpty then none
    else some ⟨.ofString (String.ofList (c :: owner).reverse), String.ofList name⟩
  | _ => none

/-- Whether a pattern stands for a method. -/
def covers (p : MethodPattern) (m : MethodRef) : Bool := p.owner == m.owner && p.name == m.name

/-- Whether a pattern stands for the constructors of its class. -/
def isConstructor (p : MethodPattern) : Bool := p.name == constructorName

/-- The pattern as `owner.name`. -/
def display (p : MethodPattern) : String := p.owner.text ++ "." ++ p.name

/-- A call of the method in the notation of source code. -/
def call (p : MethodPattern) (argument : String) : String :=
  if p.isConstructor then "new " ++ p.owner.simple ++ "<>(" ++ argument ++ ")"
  else p.owner.simple ++ "." ++ p.name ++ "(" ++ argument ++ ")"

end MethodPattern

/-- How a collection may safely be stored in a field of the type `fieldType`. -/
structure Idiom where
  fieldType : ClassName
  copy : List MethodPattern
  wrap : List MethodPattern
  copyAndWrap : List MethodPattern
  deriving DecidableEq, Repr

/-- How far a value follows an idiom. -/
inductive IdiomMatch where
  | copiedAndWrapped
  | wrappedWithoutCopy
  | copiedWithoutWrap
  | notAttempted
  deriving DecidableEq, Repr

namespace Idiom

/-- The idiom as a line of source code for a value called `argument`. -/
def suggestion (i : Idiom) : String :=
  let copied := match i.copy.head? with
    | some p => p.call "argument"
    | none => "argument"
  match i.wrap.head? with
  | some p => p.call copied
  | none => copied

/-- Whether a reference of this origin is a copy. -/
def copies (i : Idiom) : Origin → Bool
  | .constructed cls _ => i.copy.any fun p => p.isConstructor && p.owner == cls
  | .returned method _ => i.copy.any (·.covers method)
  | _ => false

/-- Whether a value is a copy. -/
def isCopy (i : Idiom) : Value → Bool
  | .reference _ origin => i.copies origin
  | _ => false

/-- How far a reference of this origin follows the idiom. -/
def classify (i : Idiom) (origin : Origin) : IdiomMatch :=
  let copied := if i.copies origin then IdiomMatch.copiedWithoutWrap else .notAttempted
  match origin with
  | .returned method args =>
    if i.copyAndWrap.any (·.covers method) then .copiedAndWrapped
    else if i.wrap.any (·.covers method) then
      if args.head?.any i.isCopy then .copiedAndWrapped else .wrappedWithoutCopy
    else copied
  | _ => copied

/-- An idiom whose methods are given by class and name. -/
def ofNames (fieldType : String) (copy wrap copyAndWrap : List (String × String)) : Idiom :=
  let patterns := List.map fun p : String × String => ⟨.ofString p.1, p.2⟩
  ⟨.ofString fieldType, patterns copy, patterns wrap, patterns copyAndWrap⟩

/-- The idioms of the standard collections. -/
def defaults : List Idiom :=
  [ofNames "java.util.List"
      [("java.util.ArrayList", constructorName), ("java.util.LinkedList", constructorName)]
      [("java.util.Collections", "unmodifiableList")]
      [("java.util.List", "copyOf"), ("java.util.List", "of")],
   ofNames "java.util.Set"
      [("java.util.HashSet", constructorName), ("java.util.LinkedHashSet", constructorName),
       ("java.util.TreeSet", constructorName)]
      [("java.util.Collections", "unmodifiableSet")]
      [("java.util.Set", "copyOf"), ("java.util.Set", "of")],
   ofNames "java.util.SortedSet"
      [("java.util.TreeSet", constructorName)]
      [("java.util.Collections", "unmodifiableSortedSet")]
      [],
   ofNames "java.util.Map"
      [("java.util.HashMap", constructorName), ("java.util.LinkedHashMap", constructorName),
       ("java.util.TreeMap", constructorName)]
      [("java.util.Collections", "unmodifiableMap")]
      [("java.util.Map", "copyOf"), ("java.util.Map", "of"), ("java.util.Map", "ofEntries")],
   ofNames "java.util.SortedMap"
      [("java.util.TreeMap", constructorName)]
      [("java.util.Collections", "unmodifiableSortedMap")]
      [],
   ofNames "java.util.Collection"
      [("java.util.ArrayList", constructorName), ("java.util.HashSet", constructorName)]
      [("java.util.Collections", "unmodifiableCollection")]
      []]

end Idiom

end Immutability
