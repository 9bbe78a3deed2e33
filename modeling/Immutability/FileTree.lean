import Immutability.Archive

/-!
# File trees

A snapshot of the files below a working directory, and of what its user asks for outside of it.

* `FilePath.parts` splits the text of a path, and `FilePath.parent` is the text of the directory
  above it;
* `FileContent` is the content of a file, and `FileTree` the files and directories with their
  places;
* `FileTree.locate` walks along a path to a `FilePlace`, and `PathError` says where the walk ends
  early;
* `FileTree.file?`, `isDirectory` and `below` look into a tree;
* `FileTree.createDirectories` and `FileTree.write` change a tree, and `WriteError` says why they
  cannot.
-/

namespace Immutability

namespace FilePath

/-- The parts of a text between slashes. -/
def parts (text : String) : List String := (text.toList.splitOn '/').map String.ofList

/-- The longest text of a path, in bytes. -/
def longest : Nat := 4095

/-- The longest name of a file, in bytes. -/
def longestName : Nat := 255

/-- Whether a text can be the path of anything. -/
def isValid (text : String) : Bool :=
  !text.isEmpty && text.utf8ByteSize ≤ longest && !text.toList.contains '\x00'

/-- Whether a path starts at the root. -/
def isAbsolute (text : String) : Bool := text.toList.head? = some '/'

/-- Whether a part of a path leads nowhere. -/
def isIdle (part : String) : Bool := part == "" || part == "."

/-- The directory above a directory, by its components. The root is above itself. -/
def above (components : List String) : List String :=
  if components.all (· == "..") then components ++ [".."]
  else if components == ["/"] then components
  else components.dropLast

/-- The components at which a path starts. -/
def start (text : String) : List String := if isAbsolute text then ["/"] else []

/-- The components of a path, as far as all of it but the end are directories. -/
def components (text : String) : List String :=
  (parts text).foldl (fun here part =>
    if isIdle part then here
    else if part = ".." then above here
    else here ++ [part]) (start text)

/-- The parts of a path that have to stay: an absolute path starts with an empty part, and a dot in
front of others is kept. -/
def fixedParts : List String → Nat
  | "" :: _ => 1
  | "." :: _ => 1
  | _ => 0

/-- The parts without the idle ones at their end. -/
def dropIdle (ps : List String) : List String :=
  let n := fixedParts ps
  ps.take n ++ ((ps.drop n).reverse.dropWhile isIdle).reverse

/-- The text of the directory above a path; it is empty for the working directory, and the root has
none. -/
def parent (text : String) : String :=
  let ps := dropIdle (parts text)
  if ps.length ≤ 1 then ""
  else
    match dropIdle ps.dropLast with
    | [""] => "/"
    | above => "/".intercalate above

end FilePath

/-- The content of a file: plain bytes, or an archive of named files. -/
inductive FileContent where
  | bytes (data : ByteArray)
  | archive (files : List (String × ByteArray))

namespace FileContent

/-- An archive without files consists of this record only. -/
def emptyArchive : String :=
  "PK\x05\x06" ++ String.ofList (List.replicate 18 '\x00')

/-- The bytes of a file. Of an archive, only the signature at the start counts. -/
def data : FileContent → ByteArray
  | bytes data => data
  | archive [] => emptyArchive.toUTF8
  | archive _ => "PK\x03\x04".toUTF8

/-- The text of a file, if it is one. The checksums and attributes of its files keep an archive from
being one. -/
def text? : FileContent → Option String
  | bytes data => String.fromUTF8? data
  | archive [] => some emptyArchive
  | archive _ => none

/-- The files of a file that is an archive. -/
def members? : FileContent → Option (List (String × ByteArray))
  | bytes data => Archive.read? data
  | archive files => some files

end FileContent

/-- The files and the directories below a working directory. The components of a place outside of
it start with the root or with steps back. -/
structure FileTree where
  files : List (List String × FileContent)
  directories : List (List String)

/-- What a path leads to. -/
inductive FilePlace where
  | directory (components : List String)
  | file (components : List String) (content : FileContent)
  /-- Nothing, in a directory that is there. -/
  | vacant (components : List String)

/-- Why a path leads nowhere. -/
inductive PathError where
  /-- A directory on the way is missing. -/
  | missing
  /-- A file is on the way, or the path or one of its names is too long or no text at all. -/
  | blocked
  deriving DecidableEq, Repr

/-- Why a file cannot be written. -/
inductive WriteError where
  | directory (path : String)
  | file (path : String)
  deriving DecidableEq, Repr

/-- The wording of an error. -/
def WriteError.message : WriteError → String
  | directory path => s!"create directory {path}"
  | file path => s!"write {path}"

namespace FileTree

/-- Whether there is a directory with these components. A directory is there if a file is below
it, and so are the working directory and those above it. -/
def hasDirectory (t : FileTree) (components : List String) : Bool :=
  components.all (· == "..") || components == ["/"] ||
    t.directories.any (components.isPrefixOf ·) ||
    t.files.any fun f => components.isPrefixOf f.1.dropLast

/-- Walk along the parts of a path, from a directory on. -/
def walk (t : FileTree) (here : List String) : List String → Except PathError FilePlace
  | [] => .ok (.directory here)
  | part :: rest =>
    if FilePath.isIdle part then walk t here rest
    else if part = ".." then walk t (FilePath.above here) rest
    else if FilePath.longestName < part.utf8ByteSize then .error .blocked
    else
      let there := here ++ [part]
      if t.hasDirectory there then walk t there rest
      else
        match t.files.lookup there, rest with
        | some content, [] => .ok (.file there content)
        | some _, _ => .error .blocked
        | none, [] => .ok (.vacant there)
        | none, _ => .error .missing

/-- Walk along a path. -/
def locate (t : FileTree) (path : String) : Except PathError FilePlace :=
  if FilePath.isValid path then
    t.walk (FilePath.start path) (FilePath.parts path)
  else .error .blocked

/-- The file at a path. -/
def file? (t : FileTree) (path : String) : Option FileContent :=
  match t.locate path with
  | .ok (.file _ content) => some content
  | _ => none

/-- The directory at a path. -/
def directory? (t : FileTree) (path : String) : Option (List String) :=
  match t.locate path with
  | .ok (.directory components) => some components
  | _ => none

/-- Whether a path is that of a directory. -/
def isDirectory (t : FileTree) (path : String) : Bool := (t.directory? path).isSome

/-- Whether there is a file or a directory at a path. -/
def contains (t : FileTree) (path : String) : Bool := t.isDirectory path || (t.file? path).isSome

/-- The files below a directory, with their paths relative to it. -/
def below (t : FileTree) (components : List String) : List (List String × ByteArray) :=
  t.files.filterMap fun f =>
    if components.isPrefixOf f.1 then some (f.1.drop components.length, f.2.data) else none

/-- The tree with a file in place of any other at the same place. -/
def insert (t : FileTree) (components : List String) (content : FileContent) : FileTree :=
  { t with files := t.files.filter (·.1 != components) ++ [(components, content)] }

/-- The tree with one more directory. -/
def insertDirectory (t : FileTree) (components : List String) : FileTree :=
  { t with directories := t.directories ++ [components] }

/-- Create the directory at a path and, if they are missing, those above it, `depth` of them at
most. The tree is changed even if the attempt fails halfway. -/
def createDirectories (t : FileTree) (path : String) : Nat → FileTree × Bool
  | 0 => (t, false)
  | depth + 1 =>
    match t.locate path with
    | .ok (.directory _) => (t, true)
    | .ok (.vacant components) => (t.insertDirectory components, true)
    | .ok (.file _ _) | .error .blocked => (t, false)
    | .error .missing =>
      match createDirectories t (FilePath.parent path) depth with
      | (t, false) => (t, false)
      | (t, true) =>
        match t.locate path with
        | .ok (.directory _) => (t, true)
        | .ok (.vacant components) => (t.insertDirectory components, true)
        | _ => (t, false)

/-- Write a text to a path, with the directories above it. The tree is changed even if the attempt
fails halfway. -/
def write (t : FileTree) (path text : String) : FileTree × Except WriteError Unit :=
  let dir := FilePath.parent path
  let (t, created) := if dir.isEmpty then (t, true) else t.createDirectories dir path.length
  if !created then (t, .error (.directory dir))
  else
    match t.locate path with
    | .ok (.vacant components) | .ok (.file components _) =>
      (t.insert components (.bytes text.toUTF8), .ok ())
    | _ => (t, .error (.file path))

end FileTree

end Immutability
