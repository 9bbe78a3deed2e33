import Immutability.Text.Blank

/-!
# Class names

A class name is kept in its dotted form, `java.util.List`. The slashed form of class files,
`java/util/List`, and blanks around a name are other spellings of the same name.

* `ClassName` is a name in canonical form, and `ClassName.ofString` reads any spelling;
* `internal` and `descriptor` write the two forms that class files use;
* `ofDescriptor?` reads back the second of them;
* `simple` and `package` are the two parts of a name.
-/

namespace Immutability

/-- A text without slashes and without blanks at its ends. -/
def IsCanonicalName (s : String) : Prop :=
  '/' ∉ s.toList ∧ Text.trimChars s.toList = s.toList

/-- The name of a class or interface, in dotted form. -/
structure ClassName where
  text : String
  canonical : IsCanonicalName text

namespace ClassName

@[ext] theorem ext {a b : ClassName} (h : a.text = b.text) : a = b := by
  cases a; cases b; cases h; rfl

instance : DecidableEq ClassName := fun a b =>
  if h : a.text = b.text then isTrue (ClassName.ext h) else isFalse fun e => h (congrArg text e)

instance : Hashable ClassName := ⟨fun n => hash n.text⟩

instance : ToString ClassName := ⟨text⟩

instance : Repr ClassName := ⟨fun n _ => repr n.text⟩

/-- Names are ordered by the code points of their dotted forms. -/
def le (a b : ClassName) : Bool := a.text ≤ b.text

/-- The separator of packages in the dotted form. -/
def dotted (c : Char) : Char := if c = '/' then '.' else c

/-- The separator of packages in the slashed form. -/
def slashed (c : Char) : Char := if c = '.' then '/' else c

theorem isBlank_dotted (c : Char) : Text.isBlank (dotted c) = Text.isBlank c := by
  unfold dotted
  split
  · subst c; decide
  · rfl

/-- Reading any spelling of a name: blanks at the ends are dropped and slashes become dots. -/
def ofString (s : String) : ClassName where
  text := String.ofList ((Text.trimChars s.toList).map dotted)
  canonical := by
    constructor
    · simp only [String.toList_ofList, List.mem_map, not_exists, not_and]
      intro c _ h
      unfold dotted at h
      split at h <;> simp_all
    · rw [String.toList_ofList, Text.trimChars_map _ isBlank_dotted, Text.trimChars_idem]

/-- The slashed form of a name. -/
def internal (n : ClassName) : String := String.ofList (n.text.toList.map slashed)

/-- The name as the descriptor of an object type. -/
def descriptor (n : ClassName) : String := "L" ++ n.internal ++ ";"

/-- The class named by the descriptor of an object type. -/
def ofDescriptor? (descriptor : String) : Option ClassName :=
  match descriptor.toList with
  | 'L' :: rest =>
    if rest.getLast? = some ';' then some (ofString (String.ofList rest.dropLast)) else none
  | _ => none

/-- The name without its package. -/
def simple (n : ClassName) : String :=
  String.ofList (n.text.toList.reverse.takeWhile (· ≠ '.')).reverse

/-- The package of a class, empty for a class outside any package. -/
def package (n : ClassName) : String :=
  String.ofList ((n.text.toList.reverse.dropWhile (· ≠ '.')).drop 1).reverse

/-- The names in order, each as often as it was given. -/
def sort (names : List ClassName) : List ClassName := names.mergeSort le

/-- The names in order, each once. -/
def sortDistinct (names : List ClassName) : List ClassName := (sort names).eraseReps

end ClassName

/-! ### Classes with a role of their own -/

/-- The root of the class hierarchy. -/
def ClassName.object : ClassName := .ofString "java.lang.Object"

end Immutability
