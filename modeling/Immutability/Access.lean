/-!
# Access flags

* `Access` is the set of access and property flags of a class, field or method;
* `Visibility` is what the flags say about who may use it.
-/

namespace Immutability

/-- A set of access and property flags, as the bits of a sixteen-bit word. -/
structure Access where
  bits : UInt16
  deriving DecidableEq, Repr

/-- Who may use a class, field or method. -/
inductive Visibility where
  | everywhere | subclasses | packageOnly | classOnly
  deriving DecidableEq, Repr

/-- The usual word for a visibility. -/
def Visibility.keyword : Visibility → String
  | everywhere => "public"
  | subclasses => "protected"
  | packageOnly => "package-private"
  | classOnly => "private"

namespace Access

/-- The flag `public`. -/
def publicFlag : Access := ⟨0x0001⟩
/-- The flag `private`. -/
def privateFlag : Access := ⟨0x0002⟩
/-- The flag `protected`. -/
def protectedFlag : Access := ⟨0x0004⟩
/-- The flag `static`. -/
def staticFlag : Access := ⟨0x0008⟩
/-- The flag `final`. -/
def finalFlag : Access := ⟨0x0010⟩
/-- The flag of interfaces. -/
def interfaceFlag : Access := ⟨0x0200⟩
/-- The flag `abstract`. -/
def abstractFlag : Access := ⟨0x0400⟩
/-- The flag of enumeration classes. -/
def enumFlag : Access := ⟨0x4000⟩

/-- The flags of either set. -/
def union (a b : Access) : Access := ⟨a.bits ||| b.bits⟩

/-- The flags of both sets. -/
def inter (a b : Access) : Access := ⟨a.bits &&& b.bits⟩

/-- Whether all flags of `b` are set in `a`. -/
def contains (a b : Access) : Bool := a.inter b = b

def isPublic (a : Access) : Bool := a.contains .publicFlag
def isPrivate (a : Access) : Bool := a.contains .privateFlag
def isProtected (a : Access) : Bool := a.contains .protectedFlag
def isStatic (a : Access) : Bool := a.contains .staticFlag
def isFinal (a : Access) : Bool := a.contains .finalFlag
def isInterface (a : Access) : Bool := a.contains .interfaceFlag
def isAbstract (a : Access) : Bool := a.contains .abstractFlag
def isEnum (a : Access) : Bool := a.contains .enumFlag

/-- The widest visibility that the flags grant. -/
def visibility (a : Access) : Visibility :=
  if a.isPublic then .everywhere
  else if a.isProtected then .subclasses
  else if a.isPrivate then .classOnly
  else .packageOnly

end Access

end Immutability
