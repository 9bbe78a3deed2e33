import Immutability.Classpath
import Immutability.Proofs.ClassNames

/-!
# Listed classes

The classes that a classpath lists are named after the paths of their files, and a class is looked
up under the path that its name gives. The two agree for straight paths only.

* `FilePath.parts_intercalate` and `FilePath.intercalate_eq_of_length_le` compare a path with its
  parts;
* `ClasspathEntry.Lists` says under which name a file is listed, and `ClasspathEntry.LiesAt` at which
  paths it is found;
* `ClasspathEntry.liesAt_classPath_iff` says which of the listed files are found by the name that
  they are listed under: those with a straight path (`ClasspathEntry.Straight`);
* `Classpath.read_listed_iff` is the result for a whole classpath.
-/

namespace Immutability

/-! ### Paths and their parts -/

namespace FilePath

variable {components : List String}

theorem parts_intercalate (hne : components ≠ [])
    (h : ∀ name ∈ components, '/' ∉ name.toList) :
    parts ("/".intercalate components) = components := by
  have hslash : ∀ cs ∈ components.map String.toList, '/' ∉ cs := by simpa using h
  have hsplit := List.splitOn_intercalate '/' hslash (by simpa using hne)
  have htext : ("/".intercalate components).toList =
      ['/'].intercalate (components.map String.toList) := String.toList_intercalate
  rw [parts, htext, hsplit, List.map_map]
  simp [Function.comp_def]

theorem intercalate_parts (path : String) : "/".intercalate (parts path) = path := by
  rw [← String.toList_inj, String.toList_intercalate, parts, List.map_map]
  simp only [Function.comp_def, String.toList_ofList, List.map_id']
  exact List.intercalate_splitOn '/'

theorem parts_ne_nil (path : String) : parts path ≠ [] := by
  simp [parts, List.splitOn_ne_nil]

/-- The number of characters of a path with a slash after each part. -/
def extent : List String → Nat
  | [] => 0
  | name :: components => name.length + 1 + extent components

theorem length_intercalate (hne : components ≠ []) :
    ("/".intercalate components).length + 1 = extent components := by
  induction components with
  | nil => contradiction
  | cons name components ih =>
    by_cases htail : components = []
    · subst htail
      simp [extent]
    · have hsep : "/".length = 1 := rfl
      rw [String.intercalate_cons_of_ne_nil htail, String.length_append, String.length_append,
        hsep, extent, ← ih htail]
      omega

theorem extent_filter_le (components : List String) :
    extent (components.filter (· ≠ "")) ≤ extent components := by
  induction components with
  | nil => exact Nat.le_refl _
  | cons name components ih =>
    rw [List.filter_cons]
    split
    · simp only [extent]
      omega
    · simp only [extent]
      omega

/-- Every empty part takes a character. -/
theorem filter_eq_self_of_extent_le
    (h : extent components ≤ extent (components.filter (· ≠ ""))) :
    components.filter (· ≠ "") = components := by
  induction components with
  | nil => rfl
  | cons name components ih =>
    have hle := extent_filter_le components
    rw [List.filter_cons] at h ⊢
    split at h
    · next hname =>
      rw [if_pos hname]
      simp only [extent] at h
      rw [ih (by omega)]
    · simp only [extent] at h
      omega

/-- A path that is not longer than the path of its nonempty parts has no other parts. -/
theorem intercalate_eq_of_length_le {path : String}
    (hne : (parts path).filter (· ≠ "") ≠ [])
    (h : path.length ≤ ("/".intercalate ((parts path).filter (· ≠ ""))).length) :
    "/".intercalate ((parts path).filter (· ≠ "")) = path := by
  have hall := length_intercalate (parts_ne_nil path)
  rw [intercalate_parts] at hall
  have hsome := length_intercalate hne
  rw [filter_eq_self_of_extent_le (by omega), intercalate_parts]

/-- A path of names does not start at the root. -/
theorem isAbsolute_intercalate (hne : ∀ name ∈ components, name ≠ "")
    (h : ∀ name ∈ components, '/' ∉ name.toList) :
    isAbsolute ("/".intercalate components) = false := by
  cases components with
  | nil => rfl
  | cons name components =>
    obtain ⟨c, cs, hname⟩ : ∃ c cs, name.toList = c :: cs :=
      List.exists_cons_of_ne_nil (by simpa using hne name (by simp))
    have hc : c ≠ '/' := by
      rintro rfl
      exact h name (by simp) (by simp [hname])
    have hhead : ("/".intercalate (name :: components)).toList.head? = some c := by
      cases components with
      | nil => simp [hname]
      | cons next components => simp [hname]
    rw [isAbsolute, hhead]
    simpa using hc

end FilePath

/-! ### Names of files -/

theorem dropEnding?_eq_some_iff {ending text stem : String} :
    dropEnding? ending text = some stem ↔ text = stem ++ ending := by
  unfold dropEnding?
  constructor
  · intro h
    split at h
    · next hsuffix =>
      obtain ⟨front, hfront⟩ := List.isSuffixOf_iff_suffix.1 hsuffix
      have hlength : text.length - ending.length = front.length := by
        rw [← String.length_toList, ← String.length_toList, ← hfront]
        simp
      rw [← Option.some.inj h, ← String.toList_inj, hlength, ← hfront]
      simp
    · cases h
  · rintro rfl
    have htake : (stem.toList ++ ending.toList).take stem.length = stem.toList := by
      rw [← String.length_toList, List.take_left]
    rw [if_pos (List.isSuffixOf_iff_suffix.2 ⟨stem.toList, by simp⟩)]
    simp [htake]

theorem exists_stem {path : String} {name : ClassName} (h : classOfPath? path = some name) :
    ∃ stem, path = stem ++ ".class" ∧ name = .ofString stem := by
  unfold classOfPath? at h
  obtain ⟨stem, hstem, h⟩ := Option.bind_eq_some_iff.1 h
  refine ⟨stem, dropEnding?_eq_some_iff.1 hstem, ?_⟩
  split at h
  · cases h
  · exact (Option.some.inj h).symm

theorem Text.trimChars_sublist (cs : List Char) : (Text.trimChars cs).Sublist cs :=
  (Text.trimRight_prefix _).sublist.trans (List.dropWhile_suffix _).sublist

/-- A path with no dots in front of the ending of class files, and no blanks to trim there. -/
def IsStraight (path : String) : Prop :=
  ∃ stem, path = stem ++ ".class" ∧ '.' ∉ stem.toList ∧ Text.trimChars stem.toList = stem.toList

/-- The class of a path leads back to the path exactly if it is straight. -/
theorem classPath_eq_iff {path : String} {name : ClassName} (h : classOfPath? path = some name) :
    classPath name = path ↔ IsStraight path := by
  obtain ⟨stem, rfl, rfl⟩ := exists_stem h
  rw [classPath, String.append_left_inj, ClassName.internal_ofString_iff]
  constructor
  · exact fun hstem => ⟨stem, rfl, hstem⟩
  · rintro ⟨stem', htext, hstem⟩
    rwa [(String.append_left_inj ".class").1 htext]

theorem length_classPath_le {path : String} {name : ClassName} (h : classOfPath? path = some name) :
    (classPath name).length ≤ path.length := by
  obtain ⟨stem, rfl, rfl⟩ := exists_stem h
  have hlength := (Text.trimChars_sublist stem.toList).length_le
  rw [classPath, String.length_append, String.length_append, ← String.length_toList,
    ClassName.toList_internal_ofString, List.length_map]
  rw [String.length_toList] at hlength
  omega

theorem notMem_classPath {path : String} {name : ClassName} {c : Char}
    (h : classOfPath? path = some name) (hc : c ∉ path.toList) (hslash : c ≠ '/') :
    c ∉ (classPath name).toList := by
  obtain ⟨stem, rfl, rfl⟩ := exists_stem h
  rw [String.toList_append, List.mem_append, not_or] at hc
  rw [classPath, String.toList_append, List.mem_append, not_or,
    ClassName.toList_internal_ofString, List.mem_map]
  refine ⟨?_, hc.2⟩
  rintro ⟨d, hd, rfl⟩
  have hstem := (Text.trimChars_sublist stem.toList).subset hd
  rcases ClassName.slashed_dotted_or d with hslashed | hsame
  · exact hslash hslashed
  · rw [hsame] at hc
    exact hc.1 hstem

/-! ### Files of a place -/

namespace ClasspathEntry

/-- A path with slashes for backslashes. -/
def forward (path : String) : String :=
  String.ofList (path.toList.map fun c => if c = '\\' then '/' else c)

theorem length_forward (path : String) : (forward path).length = path.length := by
  simp [forward, String.length_toList]

theorem notMem_forward (path : String) : '\\' ∉ (forward path).toList := by
  rw [forward, String.toList_ofList, List.mem_map]
  rintro ⟨c, -, hc⟩
  split at hc
  · exact absurd hc (by decide)
  · contradiction

theorem forward_eq_self {path : String} (h : '\\' ∉ path.toList) : forward path = path := by
  rw [← String.toList_inj, forward, String.toList_ofList]
  refine (List.map_congr_left fun c hc => ?_).trans (List.map_id _)
  have hback : c ≠ '\\' := fun hback => h (hback ▸ hc)
  exact if_neg hback

/-- The files of a directory have a path of names, and a name is not empty and has no slash. -/
def WellFormed : ClasspathEntry → Prop
  | directory _ files => ∀ f ∈ files, f.1 ≠ [] ∧ ∀ name ∈ f.1, name ≠ "" ∧ '/' ∉ name.toList
  | archive _ => True

/-- The file with the given path is listed under a name. -/
def Lists : ClasspathEntry → String → ClassName → Prop
  | directory lead files, path, name =>
    ∃ f ∈ files, path = "/".intercalate f.1 ∧ isListed lead f.1 ∧
      classOfPath? (forward path) = some name
  | archive files, path, name => (∃ f ∈ files, path = f.1) ∧ classOfPath? path = some name

/-- The file with the given path is found at the path that is sought. -/
def LiesAt : ClasspathEntry → String → String → Prop
  | directory lead files, path, sought =>
    ∃ f ∈ files, path = "/".intercalate f.1 ∧ FilePath.isAbsolute sought = false ∧
      lead + sought.utf8ByteSize ≤ FilePath.longest ∧
      (FilePath.parts sought).filter (· ≠ "") = f.1
  | archive files, path, sought => (∃ f ∈ files, path = f.1) ∧ path = sought

/-- A straight path; in a directory, one without backslashes that is not too long. -/
def Straight : ClasspathEntry → String → Prop
  | directory lead _, path =>
    IsStraight path ∧ '\\' ∉ path.toList ∧ lead + path.utf8ByteSize ≤ FilePath.longest
  | archive _, path => IsStraight path

variable {e : ClasspathEntry} {path : String} {name : ClassName}

theorem isSome_find?_iff {sought : String} :
    (e.find? sought).isSome ↔ ∃ path, e.LiesAt path sought := by
  cases e with
  | directory lead files =>
    simp only [find?, LiesAt]
    split
    · next hno =>
      refine iff_of_false (by simp) ?_
      rintro ⟨_, _, _, _, habs, hlen, _⟩
      rcases hno with hno | hno
      · simp [habs] at hno
      · omega
    · next hyes =>
      obtain ⟨habs, hlen⟩ := not_or.1 hyes
      rw [List.lookup_isSome_iff]
      constructor
      · rintro ⟨f, hf, hparts⟩
        exact ⟨_, f, hf, rfl, by simpa using habs, Nat.le_of_not_lt hlen, eq_of_beq hparts⟩
      · rintro ⟨_, f, hf, _, _, _, hparts⟩
        exact ⟨f, hf, beq_of_eq hparts⟩
  | archive files =>
    simp only [find?, LiesAt, List.lookup_isSome_iff, List.mem_reverse]
    constructor
    · rintro ⟨f, hf, hpath⟩
      exact ⟨_, ⟨f, hf, rfl⟩, (eq_of_beq hpath).symm⟩
    · rintro ⟨_, ⟨f, hf, rfl⟩, hpath⟩
      exact ⟨f, hf, beq_of_eq hpath.symm⟩

theorem mem_filterMap_paths_iff :
    name ∈ e.paths.filterMap classOfPath? ↔ ∃ path, e.Lists path name := by
  cases e with
  | directory lead files =>
    simp only [paths, Lists, List.mem_filterMap, List.mem_map, List.mem_filter]
    constructor
    · rintro ⟨_, ⟨f, ⟨hf, hlisted⟩, rfl⟩, hname⟩
      exact ⟨_, f, hf, rfl, hlisted, hname⟩
    · rintro ⟨_, f, hf, rfl, hlisted, hname⟩
      exact ⟨_, ⟨f, ⟨hf, hlisted⟩, rfl⟩, hname⟩
  | archive files =>
    simp only [paths, Lists, List.mem_filterMap, List.mem_map]
    constructor
    · rintro ⟨_, ⟨f, hf, rfl⟩, hname⟩
      exact ⟨_, ⟨f, hf, rfl⟩, hname⟩
    · rintro ⟨_, ⟨f, hf, rfl⟩, hname⟩
      exact ⟨_, ⟨f, hf, rfl⟩, hname⟩

/-- A listed file is found by the name that it is listed under exactly if its path is straight. -/
theorem liesAt_classPath_iff (he : e.WellFormed) (h : e.Lists path name) :
    e.LiesAt path (classPath name) ↔ e.Straight path := by
  cases e with
  | directory lead files =>
    obtain ⟨f, hf, hpath, -, hname⟩ := h
    constructor
    · rintro ⟨g, hg, hpath', -, hlen, hparts⟩
      -- The path of the class is not longer than the path of the file, which it leads to.
      have hshort : (classPath name).length ≤ path.length := by
        rw [← length_forward path]
        exact length_classPath_le hname
      have hne : (FilePath.parts (classPath name)).filter (· ≠ "") ≠ [] := by
        rw [hparts]
        exact (he g hg).1
      have heq : classPath name = path := by
        rw [hpath', ← hparts] at hshort ⊢
        exact (FilePath.intercalate_eq_of_length_le hne hshort).symm
      have hback : '\\' ∉ path.toList := by
        rw [← heq]
        exact notMem_classPath hname (notMem_forward path) (by decide)
      rw [forward_eq_self hback] at hname
      exact ⟨(classPath_eq_iff hname).1 heq, hback, heq ▸ hlen⟩
    · rintro ⟨hstraight, hback, hlen⟩
      rw [forward_eq_self hback] at hname
      have hsame : classPath name = path := (classPath_eq_iff hname).2 hstraight
      obtain ⟨hne, hnames⟩ := he f hf
      have hparts : FilePath.parts path = f.1 := by
        rw [hpath]
        exact FilePath.parts_intercalate hne fun name hn => (hnames name hn).2
      rw [hsame]
      refine ⟨f, hf, hpath, ?_, hlen, ?_⟩
      · rw [hpath]
        exact FilePath.isAbsolute_intercalate (fun name hn => (hnames name hn).1)
          fun name hn => (hnames name hn).2
      · rw [hparts, List.filter_eq_self]
        exact fun name hn => decide_eq_true (hnames name hn).1
  | archive files =>
    obtain ⟨hf, hname⟩ := h
    rw [Straight, ← classPath_eq_iff hname]
    exact ⟨fun hlies => hlies.2.symm, fun heq => ⟨hf, heq.symm⟩⟩

end ClasspathEntry

/-! ### Classes of a classpath -/

section Repetitions

variable {α : Type} [BEq α] [LawfulBEq α]

theorem mem_eraseReps_loop {a b : α} {l acc : List α} :
    b ∈ List.eraseRepsBy.loop (· == ·) a l acc ↔ b = a ∨ b ∈ l ∨ b ∈ acc := by
  induction l generalizing a acc with
  | nil =>
    show b ∈ (a :: acc).reverse ↔ _
    simp [or_comm]
  | cons a' l ih =>
    have hstep : List.eraseRepsBy.loop (· == ·) a (a' :: l) acc =
        cond (a == a') (List.eraseRepsBy.loop (· == ·) a l acc)
          (List.eraseRepsBy.loop (· == ·) a' l (a :: acc)) := rfl
    rw [hstep]
    cases h : a == a' with
    | true =>
      rw [cond_true, ih, eq_of_beq h, List.mem_cons]
      grind
    | false =>
      rw [cond_false, ih, List.mem_cons, List.mem_cons]
      grind

theorem mem_eraseReps {b : α} {l : List α} : b ∈ l.eraseReps ↔ b ∈ l := by
  cases l with
  | nil => exact Iff.rfl
  | cons a l =>
    show b ∈ List.eraseRepsBy.loop (· == ·) a l [] ↔ _
    rw [mem_eraseReps_loop]
    simp

end Repetitions

namespace Classpath

variable {cp : Classpath} {name : ClassName}

theorem mem_classes_iff : name ∈ cp.classes ↔ ∃ e ∈ cp, ∃ path, e.Lists path name := by
  simp only [classes, ClassName.sortDistinct, ClassName.sort, mem_eraseReps, List.mem_mergeSort,
    List.mem_flatMap, ClasspathEntry.mem_filterMap_paths_iff]

theorem isSome_find?_iff :
    (cp.find? name).isSome ↔ ∃ e ∈ cp, ∃ path, e.LiesAt path (classPath name) := by
  simp only [find?, List.findSome?_isSome_iff, ClasspathEntry.isSome_find?_iff]

theorem read_eq_notFound_iff : cp.read name = .error (.notFound name) ↔ cp.find? name = none := by
  unfold read
  split
  · next hnone => simp [hnone]
  · next data hdata =>
    rw [hdata]
    refine iff_of_false (fun h => ?_) (Option.some_ne_none data)
    cases hfacts : ClassFile.readFacts data with
    | ok facts =>
      rw [hfacts] at h
      cases h
    | error failure =>
      rw [hfacts] at h
      cases h

/-- The classes of a classpath are the names of its listed files. A class is found exactly if one of
these files has a straight path, or if a file that is not listed as this class lies at its path. -/
theorem read_listed_iff (hcp : ∀ e ∈ cp, e.WellFormed) (name : ClassName) :
    (name ∈ cp.source.classes ↔ ∃ e ∈ cp, ∃ path, e.Lists path name) ∧
    (cp.source.read name ≠ .error (.notFound name) ↔
      ∃ e ∈ cp, ∃ path, (e.Lists path name ∧ e.Straight path) ∨
        (¬ e.Lists path name ∧ e.LiesAt path (classPath name))) := by
  refine ⟨mem_classes_iff, ?_⟩
  have hfound : cp.source.read name ≠ .error (.notFound name) ↔ (cp.find? name).isSome := by
    rw [Option.isSome_iff_ne_none]
    exact not_congr read_eq_notFound_iff
  rw [hfound, isSome_find?_iff]
  constructor
  · rintro ⟨e, he, path, hlies⟩
    refine ⟨e, he, path, ?_⟩
    by_cases hlists : e.Lists path name
    · exact Or.inl ⟨hlists, (ClasspathEntry.liesAt_classPath_iff (hcp e he) hlists).1 hlies⟩
    · exact Or.inr ⟨hlists, hlies⟩
  · rintro ⟨e, he, path, ⟨hlists, hstraight⟩ | ⟨-, hlies⟩⟩
    · exact ⟨e, he, path, (ClasspathEntry.liesAt_classPath_iff (hcp e he) hlists).2 hstraight⟩
    · exact ⟨e, he, path, hlies⟩

/-- A directory with two files, one of them in a directory that has a dot in its name. -/
def dottedPlaces : Classpath :=
  [.directory 4 [(["com.acme", "Point.class"], .empty), (["org", "Box.class"], .empty)]]

theorem wellFormed_dottedPlaces : ∀ e ∈ dottedPlaces, e.WellFormed := by
  rw [dottedPlaces, List.forall_mem_singleton]
  show ∀ f ∈ [(["com.acme", "Point.class"], ByteArray.empty), (["org", "Box.class"], .empty)],
    f.1 ≠ [] ∧ ∀ name ∈ f.1, name ≠ "" ∧ '/' ∉ name.toList
  decide +kernel

theorem read_listed_iff_dottedPlaces :
    (∀ e ∈ dottedPlaces, e.WellFormed) ∧
    .ofString "org/Box" ∈ dottedPlaces.source.classes ∧
    dottedPlaces.source.read (.ofString "org/Box") ≠ .error (.notFound (.ofString "org/Box")) := by
  obtain ⟨hlisted, hread⟩ := read_listed_iff wellFormed_dottedPlaces (.ofString "org/Box")
  have hlists : ClasspathEntry.Lists (.directory 4
      [(["com.acme", "Point.class"], .empty), (["org", "Box.class"], .empty)])
      "org/Box.class" (.ofString "org/Box") :=
    ⟨(["org", "Box.class"], .empty), by simp, by decide +kernel, by decide +kernel,
      by decide +kernel⟩
  have hstraight : IsStraight "org/Box.class" := ⟨"org/Box", by decide +kernel⟩
  exact ⟨wellFormed_dottedPlaces, hlisted.2 ⟨_, List.mem_singleton_self _, _, hlists⟩,
    hread.2 ⟨_, List.mem_singleton_self _, _, Or.inl ⟨hlists, hstraight, by decide +kernel⟩⟩⟩

/-- A class in a directory that has a dot in its name is listed and not found. -/
theorem not_read_listed_dottedPlaces :
    .ofString "com.acme/Point" ∈ dottedPlaces.source.classes ∧
    dottedPlaces.source.read (.ofString "com.acme/Point") =
      .error (.notFound (.ofString "com.acme/Point")) := by
  have hnone : dottedPlaces.find? (.ofString "com.acme/Point") = none := by decide +kernel
  refine ⟨mem_classes_iff.2 ⟨_, List.mem_singleton_self _, "com.acme/Point.class", ?_⟩,
    read_eq_notFound_iff.2 hnone⟩
  exact ⟨(["com.acme", "Point.class"], .empty), by simp, by decide +kernel, by decide +kernel,
    by decide +kernel⟩

end Classpath

end Immutability
