import Immutability.ClassName

/-!
# The analysis path

While a class is analysed it waits for the classes it depends on. `AnalysisPath` is the chain of
the classes that wait for each other, outermost first; `describeCycle` spells out the cycle that a
class on the path closes.
-/

namespace Immutability

/-- The classes being analysed, each on behalf of the one before it. -/
abbrev AnalysisPath := List ClassName

namespace AnalysisPath

/-- The part of the path from the given class on, or all of it if the class is not on it. -/
def since (path : AnalysisPath) (name : ClassName) : List ClassName :=
  if name ∈ path then path.dropWhile (· ≠ name) else path

/-- The chain of classes that ends with another visit to `name`. -/
def cycle (path : AnalysisPath) (name : ClassName) : List ClassName := path.since name ++ [name]

/-- The chain in words, as in `A -> B -> A`. -/
def describeCycle (path : AnalysisPath) (name : ClassName) : String :=
  " -> ".intercalate ((path.cycle name).map ClassName.text)

end AnalysisPath

end Immutability
