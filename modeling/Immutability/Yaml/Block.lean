import Immutability.Yaml.Cursor

/-!
# Blocks of lines in YAML

A scalar may be written as a block of lines that are indented further than what is around them.

* `BlockHeader` is what its first line says about it;
* `block?` reads a block, with its line breaks as they are or folded.
-/

namespace Immutability.Yaml

/-- What becomes of the line breaks at the end of a block: all but the first are dropped, or all, or
none. -/
inductive Chomping where
  | clip
  | strip
  | keep
  deriving DecidableEq, Repr

/-- The chomping that a sign stands for. -/
def Chomping.ofSign? : Char → Option Chomping
  | '-' => some strip
  | '+' => some keep
  | _ => none

/-- What the first line of a block says: the chomping, and the indentation, if it is not that of the
first line with text. -/
structure BlockHeader where
  chomping : Chomping
  increment : Option Nat

/-- The indentation that a block asks for, which is not zero. -/
def increment? : List Char → Option (Option Nat × List Char)
  | c :: rest =>
    if c = '0' then none
    else if c.isDigit then some (some (c.toNat - '0'.toNat), rest)
    else some (none, c :: rest)
  | [] => some (none, [])

/-- The sign of a chomping. -/
def chomping? : List Char → Option Chomping × List Char
  | c :: rest =>
    match Chomping.ofSign? c with
    | some chomping => (some chomping, rest)
    | none => (none, c :: rest)
  | [] => (none, [])

/-- The header of a block, in which sign and number can come in any order. -/
def blockHeader? (cs : List Char) : Option (BlockHeader × List Char) := do
  match chomping? cs with
  | (some chomping, rest) =>
    let (increment, rest) ← increment? rest
    return (⟨chomping, increment⟩, rest)
  | (none, rest) =>
    let (increment, rest) ← increment? rest
    if increment.isNone then return (⟨.clip, none⟩, rest)
    let (chomping, rest) := chomping? rest
    return (⟨chomping.getD .clip, increment⟩, rest)

/-- Move over the empty lines and the indentation of a block. `indent` is its column, if that is
known; otherwise the columns reached are of interest, of which `most` is the largest. The answer is
the line breaks, the last one first, the largest column and the place behind. -/
def blockGap? (indent : Option Nat) (most : Nat) (breaks : List Char) (m : Mark) :
    List Char → Option (List Char × Nat × Cursor)
  | [] => some (breaks, max most m.column, ⟨[], m⟩)
  | c :: rest =>
    let indenting := indent.all (m.column < ·)
    if c = ' ' && indenting then blockGap? indent most breaks (m.after c) rest
    else if c = '\t' && indenting then none
    else if isBreak c then
      blockGap? indent (max most m.column) (c :: breaks) (m.after c) rest
    else some (breaks, max most m.column, ⟨c :: rest, m⟩)

/-- The lines read so far: the text, the break after its last line, the breaks of the empty lines
behind, all with the last character first, and whether the last line starts with a blank. -/
structure BlockLines where
  done : List Char
  last : List Char
  empty : List Char
  isSpaced : Bool

namespace BlockLines

/-- The lines with one more, which follows the others after a blank if all of them are folded. -/
def push (b : BlockLines) (folded : Bool) (line : List Char) (last empty : List Char) :
    BlockLines :=
  let isSpaced := line.head?.any isBlankChar
  let joint :=
    if folded && b.last = ['\n'] && !b.isSpaced && !isSpaced then
      if b.empty.isEmpty then [' '] else []
    else b.last
  ⟨line.reverse ++ (b.empty ++ (joint ++ b.done)), last, empty, isSpaced⟩

/-- The text of the lines. -/
def text (b : BlockLines) : Chomping → String
  | .strip => String.ofList b.done.reverse
  | .clip => String.ofList (b.last ++ b.done).reverse
  | .keep => String.ofList (b.empty ++ (b.last ++ b.done)).reverse

end BlockLines

/-- The lines of a block in the given column, `fuel` of them at most. -/
def blockLines? (folded : Bool) (indent : Nat) (b : BlockLines) :
    Nat → Cursor → Option (BlockLines × Cursor)
  | 0, c => some (b, c)
  | fuel + 1, c => do
    if c.mark.column ≠ indent || c.atEnd then return (b, c)
    let line := c.rest.takeWhile fun x => !isBreak x
    let c := c.advance line.length
    let last := c.rest.take 1
    let c := c.advance 1
    let (empty, _, c) ← blockGap? (some indent) 0 [] c.mark c.rest
    blockLines? folded indent (b.push folded line last empty) fuel c

/-- A block, behind the sign in front of it. `low` is the first column that belongs to it. -/
def block? (folded : Bool) (low : Nat) (c : Cursor) : Option (String × Cursor) := do
  let (header, rest) ← blockHeader? c.rest
  let c ← (c.advanceTo rest).lineEnd?
  let c := c.advance 1
  let indent := header.increment.map fun n => (low - 1) + n
  let (empty, most, c) ← blockGap? indent 0 [] c.mark c.rest
  let indent := indent.getD (max (max most low) 1)
  let (lines, c) ← blockLines? folded indent ⟨[], [], empty, false⟩ c.rest.length c
  return (lines.text header.chomping, c)

end Immutability.Yaml
