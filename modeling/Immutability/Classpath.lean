import Immutability.FileTree
import Immutability.Source

/-!
# Classpaths

A classpath is a sequence of directories and archives in which classes are looked up by the path
of their files.

* `ClasspathEntry.find?` looks up the file at a path, and `ClasspathEntry.paths` lists all paths;
* `classOfPath?` is the class whose file has a given path;
* `Classpath.ofPaths` finds the entries of a classpath in a file tree;
* `Classpath.source` is the class source of a classpath.
-/

namespace Immutability

/-- A place to look for classes. Of a directory, the number of bytes in front of the paths of its
files is known. -/
inductive ClasspathEntry where
  | directory (lead : Nat) (files : List (List String × ByteArray))
  | archive (files : List (String × ByteArray))

namespace ClasspathEntry

/-- The bytes of the file at a path. In a directory, several slashes count as one, and a path that
starts with a slash leads elsewhere, and one that is too long nowhere; in an archive the path is the
name of the file, and of files of the same name the last one counts. -/
def find? (e : ClasspathEntry) (path : String) : Option ByteArray :=
  match e with
  | directory lead files =>
    if FilePath.isAbsolute path ∨ FilePath.longest < lead + path.utf8ByteSize then none
    else files.lookup ((FilePath.parts path).filter (· ≠ ""))
  | archive files => files.reverse.lookup path

/-- Whether the directory of a file can be listed: its path is not too long. -/
def isListed (lead : Nat) (components : List String) : Bool :=
  components.length ≤ 1 ||
    lead + ("/".intercalate components.dropLast).utf8ByteSize ≤ FilePath.longest

/-- The paths of all files, in which a backslash counts as a slash in a directory. -/
def paths : ClasspathEntry → List String
  | directory lead files => (files.filter fun f => isListed lead f.1).map fun f =>
    String.ofList (("/".intercalate f.1).toList.map fun c => if c = '\\' then '/' else c)
  | archive files => files.map (·.1)

/-- The number of characters that no path of a file exceeds. -/
def longest : ClasspathEntry → Nat
  | directory _ _ => FilePath.longest
  | archive files => (files.map fun f => f.1.length).foldl max 0

theorem length_le_utf8ByteSize (s : String) : s.length ≤ s.utf8ByteSize := by
  induction s using String.push_induction with
  | empty => exact Nat.zero_le _
  | push s c ih =>
    rw [String.length_push, String.utf8ByteSize_push]
    exact Nat.add_le_add ih (Char.utf8Size_pos c)

theorem length_le_longest {e : ClasspathEntry} {path : String} {data : ByteArray}
    (h : e.find? path = some data) : path.length ≤ e.longest := by
  cases e with
  | directory lead files =>
    simp only [find?] at h
    split at h
    · cases h
    · have := length_le_utf8ByteSize path
      simp only [longest]
      omega
  | archive files =>
    have hm := mem_of_lookup (show files.reverse.lookup path = some data from h)
    exact le_foldl_max 0 (Or.inl (List.mem_map.2 ⟨_, by simpa using hm, rfl⟩))

end ClasspathEntry

/-- The text without an ending, if it has it. -/
def dropEnding? (ending text : String) : Option String :=
  if ending.toList.isSuffixOf text.toList then
    some (String.ofList (text.toList.take (text.length - ending.length)))
  else none

/-- The class whose file has the given path. Descriptions of modules and packages are no classes,
and neither are the files of archives about themselves. -/
def classOfPath? (path : String) : Option ClassName := do
  let stem ← dropEnding? ".class" path
  if "module-info".toList.isSuffixOf stem.toList || "package-info".toList.isSuffixOf stem.toList ||
      "META-INF/".toList.isPrefixOf stem.toList then
    none
  return .ofString stem

/-- The path of the file of a class. -/
def classPath (name : ClassName) : String := name.internal ++ ".class"

/-- The places to look for classes, in order. -/
abbrev Classpath := List ClasspathEntry

/-- Why a path is no place to look for classes. -/
inductive ClasspathError where
  | missing (path : String)
  | notArchive (path : String)
  deriving DecidableEq, Repr

namespace ClasspathError

/-- The path that cannot be read. -/
def path : ClasspathError → String
  | missing path => path
  | notArchive path => path

/-- The wording of an error. -/
def message : ClasspathError → String
  | missing path => s!"failed to read {path}: No such file or directory (os error 2)"
  | notArchive path => s!"failed to read {path}: invalid Zip archive"

end ClasspathError

namespace Classpath

/-- The number of bytes in front of the paths in a directory: its own, and those of a slash. -/
def leadOf (path : String) : Nat :=
  if path.toList.getLast? = some '/' then path.utf8ByteSize else path.utf8ByteSize + 1

/-- The place at a path: a directory or an archive. -/
def openEntry (t : FileTree) (path : String) : Except ClasspathError ClasspathEntry :=
  match t.locate path with
  | .ok (.directory components) => .ok (.directory (leadOf path) (t.below components))
  | .ok (.file _ content) =>
    match content.members? with
    | some files => .ok (.archive files)
    | none => .error (.notArchive path)
  | _ => .error (.missing path)

/-- The places at the given paths. -/
def ofPaths (t : FileTree) (paths : List String) : Except ClasspathError Classpath :=
  paths.mapM (openEntry t)

/-- The bytes of a class: the first place that has its file counts. -/
def find? (cp : Classpath) (name : ClassName) : Option ByteArray :=
  cp.findSome? (·.find? (classPath name))

/-- The facts of a class. -/
def read (cp : Classpath) (name : ClassName) : Except ReadError ClassFacts :=
  match cp.find? name with
  | none => .error (.notFound name)
  | some data => (ClassFile.readFacts data).mapError (.malformed name)

/-- All classes of a classpath, in order. -/
def classes (cp : Classpath) : List ClassName :=
  ClassName.sortDistinct (cp.flatMap fun e => e.paths.filterMap classOfPath?)

end Classpath

/-! ### Finitely many names -/

theorem ClassName.length_text_le (n : ClassName) : n.text.length ≤ (classPath n).length := by
  simp [classPath, ClassName.internal, String.length_toList]

/-- All texts up to a given number of characters. -/
theorem exists_texts (n : Nat) : ∃ l : List (List Char), ∀ s : List Char, s.length ≤ n → s ∈ l := by
  induction n with
  | zero => exact ⟨[[]], fun s h => by simp [List.length_eq_zero_iff.1 (Nat.le_zero.1 h)]⟩
  | succ n ih =>
    obtain ⟨l, hl⟩ := ih
    refine ⟨[] :: (List.range 0x110000).flatMap fun c => l.map (Char.ofNat c :: ·), ?_⟩
    intro s hs
    cases s with
    | nil => simp
    | cons c s =>
      have hc : c.toNat < 0x110000 := by
        have := c.valid
        simp only [UInt32.isValidChar, Nat.isValidChar] at this
        show c.val.toNat < 0x110000
        omega
      refine List.mem_cons_of_mem _ (List.mem_flatMap.2 ⟨c.toNat, List.mem_range.2 hc, ?_⟩)
      exact List.mem_map.2 ⟨s, hl s (by simpa using hs), by simp⟩

/-- Finitely many names have at most a given number of characters. -/
theorem exists_names (n : Nat) :
    ∃ l : List ClassName, ∀ m : ClassName, m.text.length ≤ n → m ∈ l := by
  obtain ⟨l, hl⟩ := exists_texts n
  classical
  refine ⟨l.filterMap fun s =>
    if h : IsCanonicalName (String.ofList s) then some ⟨String.ofList s, h⟩ else none, ?_⟩
  intro m hm
  refine List.mem_filterMap.2 ⟨m.text.toList, hl _ (by rwa [String.length_toList]), ?_⟩
  have hc : IsCanonicalName (String.ofList m.text.toList) := by
    rw [String.ofList_toList]; exact m.canonical
  rw [dif_pos hc]
  exact congrArg some (ClassName.ext (by simp))

theorem Classpath.length_le {cp : Classpath} {name : ClassName} {data : ByteArray}
    (h : cp.find? name = some data) :
    (classPath name).length ≤ (cp.map ClasspathEntry.longest).foldl max 0 := by
  obtain ⟨e, he, hd⟩ := List.exists_of_findSome?_eq_some h
  exact Nat.le_trans (ClasspathEntry.length_le_longest hd)
    (le_foldl_max 0 (Or.inl (List.mem_map.2 ⟨e, he, rfl⟩)))

/-- The class source of a classpath. -/
def Classpath.source (cp : Classpath) : ClassSource where
  read := cp.read
  classes := cp.classes
  finite := by
    obtain ⟨l, hl⟩ := exists_names ((cp.map ClasspathEntry.longest).foldl max 0)
    refine ⟨l, fun n c h => hl n (Nat.le_trans n.length_text_le ?_)⟩
    unfold Classpath.read at h
    split at h
    · cases h
    · rename_i data hd
      exact Classpath.length_le hd

end Immutability
