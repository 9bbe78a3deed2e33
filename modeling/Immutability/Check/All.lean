import Immutability.Check.Declaration
import Immutability.Check.Escape
import Immutability.Check.Inheritance
import Immutability.Check.Reassignment
import Immutability.Check.StoredValue

/-!
# All checks

The checks that are made of every class, in the order in which their findings are reported.
-/

namespace Immutability.Check

/-- All checks. -/
def all : List Check :=
  [extensible, abstract, inheritance, nonFinalFields, arrayFields, storedValues, reassignment,
   escape]

end Immutability.Check
