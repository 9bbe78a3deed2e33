import Immutability.ClassFile.Facts

/-!
# Class sources

A class source answers what a class looks like.

* `ReadError` says why a class cannot be read;
* `ClassSource` is a source of which only finitely many classes can be read; its `readable` lists
  them, and `ClassSource.unread` counts those that are not on a given list;
* `ClassSource.ofList` is the source of a list of classes.
-/

namespace Immutability

/-- Why a class cannot be read. -/
inductive ReadError where
  | notFound (name : ClassName)
  /-- The bytes of the class are not those of a class. -/
  | malformed (name : ClassName) (cause : ClassFile.Error)
  deriving DecidableEq, Repr

/-- The wording of an error. -/
def ReadError.message : ReadError → String
  | notFound name => s!"class not found: {name}"
  | malformed name cause => s!"malformed class {name}: {cause.message}"

/-- A source of class facts. -/
structure ClassSource where
  read : ClassName → Except ReadError ClassFacts
  /-- The classes that the source offers, in order. -/
  classes : List ClassName
  finite : ∃ names : List ClassName, ∀ n c, read n = .ok c → n ∈ names

namespace ClassSource

/-- All classes that can be read. -/
noncomputable def readable (s : ClassSource) : List ClassName := s.finite.choose

theorem mem_readable {s : ClassSource} {n : ClassName} {c : ClassFacts} (h : s.read n = .ok c) :
    n ∈ s.readable :=
  s.finite.choose_spec n c h

/-- The number of readable classes that are not on the list. -/
noncomputable def unread (s : ClassSource) (names : List ClassName) : Nat :=
  (s.readable.filter fun n => !names.contains n).length

theorem length_filter_lt {α : Type} {p q : α → Bool} {l : List α} {a : α} (ha : a ∈ l)
    (hp : p a = true) (hq : q a = false) (hqp : ∀ b, q b = true → p b = true) :
    (l.filter q).length < (l.filter p).length := by
  induction l with
  | nil => simp at ha
  | cons b l ih =>
    have hle : ∀ l : List α, (l.filter q).length ≤ (l.filter p).length := fun l => by
      induction l with
      | nil => simp
      | cons b l ih =>
        by_cases hb : q b
        · simp [hb, hqp b hb, ih]
        · by_cases hb' : p b <;> simp [hb, hb'] <;> omega
    rcases List.mem_cons.1 ha with rfl | ha
    · have := hle l
      simp [hp, hq]
      omega
    · have := ih ha
      by_cases hb : q b
      · simp [hb, hqp b hb, this]
      · by_cases hb' : p b <;> simp [hb, hb'] <;> omega

/-- One more readable class on the list leaves fewer off it. -/
theorem unread_append_lt {s : ClassSource} {n : ClassName} {c : ClassFacts}
    {names : List ClassName} (h : s.read n = .ok c) (hn : n ∉ names) :
    s.unread (names ++ [n]) < s.unread names := by
  apply length_filter_lt (mem_readable h)
  · simpa using hn
  · simp
  · intro b hb
    simp at hb ⊢
    exact hb.1

/-- The class of this name that was added last. -/
def lookup (classes : List ClassFacts) (name : ClassName) : Option ClassFacts :=
  classes.reverse.find? (·.name == name)

/-- The source of a list of classes. A later class replaces an earlier one of the same name. -/
def ofList (classes : List ClassFacts) : ClassSource where
  read name :=
    match lookup classes name with
    | some c => .ok c
    | none => .error (.notFound name)
  classes := ClassName.sortDistinct (classes.map ClassFacts.name)
  finite := by
    refine ⟨classes.map ClassFacts.name, fun n c h => ?_⟩
    split at h
    · rename_i c' hc
      have hmem := List.mem_of_find?_eq_some hc
      have hname := List.find?_some hc
      exact List.mem_map.2 ⟨c', by simpa using hmem, by simpa using hname⟩
    · simp at h

end ClassSource

end Immutability
