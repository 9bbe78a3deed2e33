import Immutability.CommandLine
import Immutability.CommandLine.Help

/-!
# The program

The program takes a snapshot of the files that its arguments name, runs the command on the snapshot
and carries out what the command asks for.
-/

namespace Immutability.CommandLine

/-- Add the class files below a directory, whose components are given. -/
partial def addClasses (t : FileTree) (path : String) (components : List String) : IO FileTree := do
  let mut t := t.insertDirectory components
  for entry in ← (← IO.FS.realPath path).readDir do
    let inner := path ++ "/" ++ entry.fileName
    if ← entry.path.isDir then
      t ← addClasses t inner (components ++ [entry.fileName])
    else if entry.fileName.endsWith ".class" then
      t := t.insert (components ++ [entry.fileName]) (.bytes (← IO.FS.readBinFile inner))
  return t

/-- Add a directory without what is below it, or a file without its content. -/
def addPlace (t : FileTree) (path : String) : IO FileTree := do
  try
    let components := FilePath.components path
    if ← (← IO.FS.realPath path).isDir then return t.insertDirectory components
    else return t.insert components (.bytes .empty)
  catch _ => return t

/-- Add the places along a path. -/
def addPlaces (t : FileTree) (path : String) : IO FileTree :=
  let ps := FilePath.parts path
  ((List.range ps.length).map fun n => "/".intercalate (ps.take (n + 1))).foldlM addPlace t

/-- Add what is at a path, if there is anything. -/
def addPath (t : FileTree) (path : String) : IO FileTree := do
  let t ← addPlaces t path
  try
    let components := FilePath.components path
    if ← (← IO.FS.realPath path).isDir then addClasses t path components
    else return t.insert components (.bytes (← IO.FS.readBinFile path))
  catch _ => return t

/-- The files that a command looks at. -/
def snapshot : Command → IO FileTree
  | .check o => do
    let settings := match o.config with
      | some path => [path]
      | none => configurationNames
    (o.classpath ++ o.classList.toList ++ settings).foldlM addPath ⟨[], []⟩
  | .init o => addPlaces ⟨[], []⟩ o.output

/-- Whether to print colours: on a terminal, unless the environment says otherwise. -/
def wantsColours : IO Bool := do
  if (← IO.getEnv "NO_COLOR").isSome then return false
  match ← IO.getEnv "CLICOLOR_FORCE" with
  | some "0" | none =>
    return (← IO.getEnv "CLICOLOR") != some "0" && (← (← IO.getStdout).isTty)
  | some _ => return true

/-- Carry out a command. -/
def execute (command : Command) : IO UInt32 := do
  let outcome := run (← wantsColours) (← snapshot command) command
  if let some w := outcome.written then
    try
      let dir := FilePath.parent w.path
      if !dir.isEmpty then IO.FS.createDirAll dir
      IO.FS.writeFile w.path w.text
    catch e => if outcome.failure.isNone then throw e
  IO.print outcome.output
  IO.eprint outcome.errors
  if let some f := outcome.failure then IO.eprintln s!"Error: {f.message}"
  return outcome.exitCode.toUInt32

/-- Say why no command is run. -/
def explain (u : Usage) : IO UInt32 := do
  match u with
  | .help => IO.print helpText
  | .version => IO.println s!"mutcheck {version}"
  | _ => IO.eprint (u.complaint ++ helpText)
  return u.exitCode.toUInt32

end Immutability.CommandLine

open Immutability.CommandLine in
/-- The program ends with the exit code of its command. -/
def main (args : List String) : IO UInt32 := do
  match Invocation.parse args with
  | .ok invocation =>
    try execute invocation.command
    catch e =>
      IO.eprintln s!"Error: {e}"
      return 2
  | .error u => explain u
